import VideoAccel.Proofs.Backend.Announcement
import VideoAccel.Proofs.Pipeline.Custody

namespace VideoAccel

variable {σ : Type}

structure LaidOut (b : Backend) : Prop where
  generation : b.generation = .vdpu34x
  follows : b.aux.Follows (Vdpu34x.regionsFor b.standard)
  announced : ∀ slot, b.sets.mark slot = some false →
    ∃ set key, b.sets.get? slot = some set ∧ b.Announces set key

namespace Engine

variable {device : Device σ} {e : Engine σ}

theorem generate_settings (device : Device σ) (t : Task) (e : Engine σ) :
    SameSettings e.backend (e.generate device t).engine.backend := by
  have hgen := generated device t e
  generalize e.generate device t = o at hgen
  cases hgen with
  | refused | bypassed => exact ⟨rfl, rfl, rfl⟩
  | failed _ _ _ hfill _ | filled _ _ _ hfill =>
    obtain ⟨hstandard, hgeneration, hoverride⟩ := (refill_of_fillPicture hfill).settings
    exact ⟨hstandard, hgeneration, hoverride⟩

theorem start_settings (device : Device σ) (t : Task) (e : Engine σ) :
    SameSettings e.backend (e.start device t).engine.backend := by
  have hstart := started device t e
  generalize e.start device t = o at hstart
  cases hstart <;> exact ⟨rfl, rfl, rfl⟩

theorem wait_settings (device : Device σ) (t : Task) (e : Engine σ) :
    SameSettings e.backend (e.wait device t).engine.backend := by
  have hwait := waited device t e
  generalize e.wait device t = o at hwait
  cases hwait <;> exact ⟨rfl, rfl, rfl⟩

theorem control_settings (c : Control) (e : Engine σ) :
    SameSettings e.backend (e.control c).2.backend := by
  cases c with
  | frameInfo width height depth layout =>
    simp only [control]
    split <;> exact ⟨rfl, rfl, rfl⟩
  | errorTolerance enabled => exact ⟨rfl, rfl, rfl⟩

end Engine

namespace LaidOut

variable {e : Engine σ} {b b' : Backend}

theorem announced_of_undisturbed (h : LaidOut b) {slot : Nat} (hsame : Undisturbed slot b b')
    (hsettings : SameSettings b b') (hmark : b'.sets.mark slot = some false) :
    ∃ set key, b'.sets.get? slot = some set ∧ b'.Announces set key := by
  obtain ⟨set, key, hset, hannounces⟩ := h.announced slot (hsame.mark.symm.trans hmark)
  exact ⟨set, key, hsame.set.trans hset, hannounces.of_same hsettings hsame.aux⟩

theorem of_undisturbed (h : LaidOut b) (hsettings : SameSettings b b') (haux : b'.aux = b.aux)
    (hkept : ∀ slot, b'.sets.mark slot = some false → Undisturbed slot b b') : LaidOut b' where
  generation := hsettings.generation.trans h.generation
  follows := by
    rw [haux, hsettings.standard]
    exact h.follows
  announced slot hmark := h.announced_of_undisturbed (hkept slot hmark) hsettings hmark

theorem of_ready {device : Device σ} (h : e.Ready device)
    (hg : e.backend.generation = .vdpu34x) : LaidOut e.backend where
  generation := hg
  follows := by
    rw [h.aux]
    exact nofun
  announced slot hmark := by
    have hvalid := RegisterSets.isValid_of_mark hmark
    rw [h.isValid slot] at hvalid
    cases hvalid

theorem generate (h : LaidOut e.backend) (device : Device σ) (t : Task) :
    LaidOut (e.generate device t).engine.backend := by
  have hsettings := Engine.generate_settings device t e
  refine ⟨hsettings.generation.trans h.generation, ?_, fun slot hmark => ?_⟩
  · have haux := Engine.generate_aux device t e
    rw [Backend.regions_eq h.generation] at haux
    rw [hsettings.standard]
    exact h.follows.refreshes haux
  -- the set was taken before and is left alone, or it is the one that is filled now
  obtain hbefore | ⟨sets, hfill⟩ := Engine.taken_of_generate hmark
  · have hvalid := RegisterSets.isValid_of_mark hbefore
    have hsame := Engine.generate_undisturbed hvalid device t
    exact h.announced_of_undisturbed hsame hsettings hmark
  · exact Engine.fillPicture_announces (e := e.withSets sets) h.generation h.follows hfill

theorem start (h : LaidOut e.backend) (device : Device σ) (t : Task) :
    LaidOut (e.start device t).engine.backend := by
  refine h.of_undisturbed (Engine.start_settings device t e) (Engine.start_aux device t e) ?_
  exact fun slot hmark => Engine.start_undisturbed (RegisterSets.isValid_of_mark hmark)

theorem wait (h : LaidOut e.backend) (device : Device σ) (t : Task) :
    LaidOut (e.wait device t).engine.backend := by
  refine h.of_undisturbed (Engine.wait_settings device t e) (Engine.wait_aux device t e) ?_
  exact fun slot hmark => Engine.wait_undisturbed (RegisterSets.isValid_of_mark hmark)

theorem control (h : LaidOut e.backend) (c : Control) : LaidOut (e.control c).2.backend :=
  h.of_undisturbed (Engine.control_settings c e) (Engine.control_aux c e) fun slot _ =>
    Engine.control_undisturbed slot c e

end LaidOut

namespace Pipeline

variable {device : Device σ} {p : Pipeline σ}

theorem laidOut_step (h : LaidOut p.engine.backend) (device : Device σ) (a : Action) :
    LaidOut (p.step device a).engine.backend := by
  cases a with
  | generate i => exact h.generate device _
  | start i => exact h.start device _
  | wait i => exact h.wait device _
  | control c => exact h.control c
  | recycle | edit | frames | flush => exact h
  | reset => exact h.of_undisturbed ⟨rfl, rfl, rfl⟩ rfl fun _ _ => ⟨rfl, rfl, rfl, rfl, rfl⟩

/-- Whenever a register set is taken for the hardware, the header in its table buffer announces the
resolution and the chroma format by which the auxiliary memory is laid out, and the same depth
unless one below eight bits is configured. -/
theorem layout_announced_of_run (hp : p.IsInitial device)
    (hg : p.engine.backend.generation = .vdpu34x) (actions : List Action) :
    let b := (p.run device actions).engine.backend
    ∀ slot, b.sets.mark slot = some false →
      ∃ set key, b.sets.get? slot = some set ∧ b.Announces set key := by
  intro b slot hmark
  have hlaidOut : LaidOut b :=
    run_induction (P := fun q => LaidOut q.engine.backend) (fun _ a hq => laidOut_step hq device a)
      (LaidOut.of_ready hp.engine.ready hg) actions
  exact hlaidOut.announced slot hmark

/-- A second picture is laid out while the first one is under the hardware. -/
theorem layout_announced_of_run_bench :
    let p := Bench.pipeline .vdpu34x
    let b := (p.run Bench.device [.generate 0, .start 0, .generate 1]).engine.backend
    p.IsInitial Bench.device ∧
      ∀ slot ∈ [0, 1], ∃ set key, b.sets.get? slot = some set ∧ b.Announces set key := by
  intro p b
  have hp : p.IsInitial Bench.device := Bench.pipeline_isInitial .vdpu34x
  have hmark : ∀ slot ∈ [0, 1], b.sets.mark slot = some false := by decide +kernel
  refine ⟨hp, fun slot hslot => ?_⟩
  exact layout_announced_of_run hp rfl _ slot (hmark slot hslot)

/-- With a depth of five bits configured, the auxiliary memory is laid out for five bits a sample,
and the header announces eight. -/
theorem announced_above_layout :
    let start := Engine.init Bench.device
      ⟨{ standard := .avc, generation := .vdpu34x, config := { bitDepthOverride := some 5 } },
        Bench.frames, {}⟩
    let p : Pipeline Bench := ⟨start.2, fun _ => Bench.task 0⟩
    let b := (p.run Bench.device [.generate 0]).engine.backend
    p.IsInitial Bench.device ∧ b.sets.mark 0 = some false ∧
      b.aux.key.map (·.bitDepth) = some 5 ∧
      ((b.sets.get? 0).bind (·.tables)).map (fun tables =>
        (Generation.vdpu34x.readFormat .avc tables.memory).bitDepth) = some 8 := by
  intro start p b
  have hok : start.1 = .ok () := by decide +kernel
  have hp : p.IsInitial Bench.device :=
    ⟨⟨_, _, _, _, _, _, Prod.ext hok rfl⟩, fun _ => ⟨rfl, rfl⟩⟩
  have hmark : b.sets.mark 0 = some false := by decide +kernel
  have hkey : b.aux.key.map (·.bitDepth) = some 5 := by decide +kernel
  have hheader : ((b.sets.get? 0).bind (·.tables)).map (fun tables =>
      (Generation.vdpu34x.readFormat .avc tables.memory).bitDepth) = some 8 := by decide +kernel
  exact ⟨hp, hmark, hkey, hheader⟩

end Pipeline

end VideoAccel
