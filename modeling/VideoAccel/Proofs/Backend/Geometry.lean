import VideoAccel.Proofs.Backend.Programming
import VideoAccel.Proofs.Platform.Bench
import VideoAccel.Proofs.Strategy.Geometry

namespace VideoAccel

variable {σ : Type}

namespace Engine

/-- What the registers of an accepted task tell of the strides of its output frame: the planes and,
on the second generation, the rows exactly; on the first one the rows modulo 16 KiB. So all strides
are exact, unless a row of 16 KiB or more goes to the first generation. -/
theorem strides_of_generate {device : Device σ} {t : Task} {e : Engine σ}
    (hok : (e.generate device t).result = .ok ()) :
    ∃ slot set, (e.generate device t).task.slot = some slot ∧
      (e.generate device t).engine.backend.sets.get? slot = some set ∧
      if t.mustSkip e.backend.config then set.skip = true
      else
        ∀ (f : Frame) c, e.frames.frame? t.output = some (f.aligned c) →
          f.resolution.width < 2 ^ 32 → (f.aligned c).lumaSize < 2 ^ 32 →
          let g := e.backend.generation
          let exact := (f.aligned c).strides g
          let row := g.shownRow (f.aligned c).horStride
          g.readStrides set.registers = { exact with lumaRow := row, chromaRow := row } ∧
            (g.readStrides set.registers = exact ↔
              (g = .rkv → (f.aligned c).horStride < 0x4000)) := by
  obtain ⟨slot, sets, -, hslot, hset⟩ := programmed_of_generate hok
  by_cases hskip : t.mustSkip e.backend.config = true
  · rw [if_pos hskip] at hset
    obtain ⟨set, hset, hbypass⟩ := hset
    refine ⟨slot, set, hslot, hset, ?_⟩
    rw [if_pos hskip]
    exact hbypass
  · rw [if_neg hskip] at hset
    obtain ⟨bind, set, hprogrammed⟩ := hset
    obtain ⟨start, emission, himage, hrun, hregisters⟩ := hprogrammed.run
    refine ⟨slot, set, hslot, hprogrammed.found, ?_⟩
    rw [if_neg hskip]
    intro f c hframe hwidth hsize g exact row
    have houtput : bind.output = f.aligned c :=
      (Option.some.inj (hframe.symm.trans hprogrammed.output)).symm
    have hread := Generation.readStrides_of_runSteps himage hrun (by decide) houtput hwidth hsize
    rw [← hregisters] at hread
    change g.readStrides set.registers = _ at hread
    refine ⟨hread, ?_⟩
    rw [hread]
    exact Generation.shownRow_eq_iff g (f.aligned c)

end Engine

namespace Bench

def wideFrame (width : Nat) : Frame :=
  { handle := 100, resolution := ⟨width, 16⟩, bitDepth := 10 }

def wideEngine (g : Generation) (c : AlignmentClass) (width : Nat) : Engine Bench :=
  let frames : FrameTable := ({ alignment := c } : FrameTable).insertFrame 0 (wideFrame width)
  (Engine.init device
    ⟨{ standard := .avc, generation := g },
      frames.insertPacket 0 { handle := 50, capacity := 4096 }, {}⟩).2

def wideTask (macroblocks : UInt16) : Task :=
  { picture := .avc { params :=
      { picWidthInMbsMinus1 := macroblocks - 1, bitDepthLumaMinus8 := 2,
        bitDepthChromaMinus8 := 2 } } }

end Bench

namespace Engine

/-- Rows of 4096 bytes, an even number of 256, take one more unit of 256 by their class. -/
theorem strides_of_generate_wide :
    let e := Bench.wideEngine .rkv .odd256 2048
    let o := e.generate Bench.device (Bench.wideTask 128)
    o.result = .ok () ∧ ∃ slot set, o.task.slot = some slot ∧
      o.engine.backend.sets.get? slot = some set ∧
      Generation.rkv.readStrides set.registers = ⟨4352, 4352, 69632, some 104448⟩ := by
  have hok : ((Bench.wideEngine .rkv .odd256 2048).generate Bench.device
      (Bench.wideTask 128)).result = .ok () := by decide +kernel
  have hg : (Bench.wideEngine .rkv .odd256 2048).backend.generation = .rkv := by decide +kernel
  have hskip : (Bench.wideTask 128).mustSkip
      (Bench.wideEngine .rkv .odd256 2048).backend.config = false := by decide +kernel
  have hframe : (Bench.wideEngine .rkv .odd256 2048).frames.frame? (Bench.wideTask 128).output =
      some ((Bench.wideFrame 2048).aligned .odd256) := by decide +kernel
  have hwidth : (Bench.wideFrame 2048).resolution.width < 2 ^ 32 := by decide +kernel
  have hstrides : ((Bench.wideFrame 2048).aligned .odd256).strides .rkv =
      ⟨4352, 4352, 69632, some 104448⟩ := by decide +kernel
  have hrow : ((Bench.wideFrame 2048).aligned .odd256).horStride < 0x4000 := by decide +kernel
  have hplane : ((Bench.wideFrame 2048).aligned .odd256).lumaSize < 2 ^ 32 := by decide +kernel
  generalize Bench.wideEngine .rkv .odd256 2048 = e at *
  generalize Bench.wideTask 128 = t at *
  generalize Bench.wideFrame 2048 = f at *
  obtain ⟨slot, set, hslot, hset, hread⟩ := strides_of_generate hok
  rw [hskip, if_neg Bool.false_ne_true] at hread
  have hexact := (hread f .odd256 hframe hwidth hplane).2.2 fun _ => hrow
  rw [hg, hstrides] at hexact
  exact ⟨hok, slot, set, hslot, hset, hexact⟩

/-- A picture of 8192 samples a row, which its header can announce, has rows of 16 KiB at ten bits:
the task is accepted, and the hardware is told that rows have no length. The registers of a task
that bypasses the hardware tell of no frame at all. -/
theorem long_rows_truncated :
    let e := Bench.wideEngine .rkv .align16 8192
    let o := e.generate Bench.device (Bench.wideTask 512)
    let o' := e.generate Bench.device { Bench.wideTask 512 with flags := { parseError := true } }
    let shown (o : Outcome Bench) :=
      (o.engine.backend.sets.get? 0).map fun set => Generation.rkv.readStrides set.registers
    e.frames.frame? 0 = some ((Bench.wideFrame 8192).aligned .align16) ∧
      ((Bench.wideFrame 8192).aligned .align16).strides .rkv =
        ⟨16384, 16384, 262144, some 393216⟩ ∧
      o.result = .ok () ∧ shown o = some ⟨0, 0, 262144, some 393216⟩ ∧
      o'.result = .ok () ∧ shown o' = some ⟨0, 0, 0, some 0⟩ := by
  decide +kernel

end Engine

end VideoAccel
