import VideoAccel.Proofs.Memory.Accounting
import VideoAccel.Proofs.Pipeline.Basic
import VideoAccel.Proofs.Traffic.Recording

namespace VideoAccel

structure Bench where
  pending : List Batch := []
  /-- Handles handed out so far. -/
  handles : Nat := 0
  reads : List (Nat × List UInt32) := []
  deriving DecidableEq

namespace Bench

def poll (s : Bench) : Except ChannelError Readback × Bench :=
  match s.pending with
  | [] => (.error .nothingPending, s)
  | batch :: pending =>
    (.ok (batch.reads.map fun (offset, count) => fitWords count ((s.reads.lookup offset).getD [])),
      { s with pending })

def allocate (size : Nat) (s : Bench) : Except AllocError Memory × Bench :=
  if s.handles + 1 < UInt32.size then
    (.ok { handle := (s.handles + 1).toUInt32, size }, { s with handles := s.handles + 1 })
  else (.error (.outOfMemory size), s)

def device : Device Bench where
  channel :=
    { submit := fun batch s => (.ok (), { s with pending := s.pending ++ [batch] })
      poll := poll
      reset := fun s => (.ok (), { s with pending := [] })
      flush := fun s => (.ok (), s) }
  memory := ⟨allocate, fun _ s => s⟩

theorem fifo : Fifo device pending where
  accept _ _ _ := rfl
  reject _ _ _ h := by cases h
  poll s := by
    change (Bench.poll s).2.pending = s.pending.tail
    unfold Bench.poll
    split <;> rename_i h <;> simp [h]
  flush _ := rfl
  allocate size s := by
    change (Bench.allocate size s).2.pending = s.pending
    unfold Bench.allocate
    split <;> rfl
  free _ _ := rfl

theorem droppable : Droppable device pending where
  reset _ _ := rfl
  empty s h := by
    refine ⟨.nothingPending, ?_⟩
    change (Bench.poll s).1 = _
    unfold Bench.poll
    rw [h]

def inUse (s : Bench) : Set UInt32 := {handle | 0 < handle.toNat ∧ handle.toNat ≤ s.handles}

theorem inUse_allocate (size : Nat) (s : Bench) : inUse s ⊆ inUse (s.allocate size).2 := by
  unfold allocate
  split
  · exact fun handle h => ⟨h.1, Nat.le_succ_of_le h.2⟩
  · exact fun handle h => h

theorem fresh : FreshHandles device inUse where
  allocate size s m h := by
    change (s.allocate size).1 = .ok m at h
    change m.handle ∉ inUse s ∧ m.handle ∈ inUse (s.allocate size).2
    unfold allocate at h ⊢
    split at h
    · rename_i hroom
      cases h
      have hhandle : (s.handles + 1).toUInt32.toNat = s.handles + 1 :=
        Nat.mod_eq_of_lt hroom
      rw [if_pos hroom]
      refine ⟨fun hmem => ?_, ?_⟩
      · have hle := hmem.2
        rw [hhandle] at hle
        omega
      · exact ⟨by rw [hhandle]; omega, Nat.le_of_eq hhandle⟩
    · cases h
  keep := inUse_allocate
  submit _ _ _ h := h
  poll s handle h := by
    change handle ∈ inUse (Bench.poll s).2
    unfold Bench.poll
    split <;> exact h
  reset _ _ h := h
  flush _ _ h := h

/-- Three frames of one macroblock and a packet. -/
def frames : FrameTable :=
  { frames := ⟨(List.range 3).map fun slot =>
      (slot,
        { handle := 100 + slot.toUInt32, resolution := ⟨16, 16⟩, horStride := 16
          verStride := 16 })⟩
    packets := ⟨[(0, { handle := 50, capacity := 4096 })]⟩ }

/-- A picture of one macroblock that goes into the frame of a number. -/
def task (output : Nat) : Task := { picture := .avc {}, streamLength := 100, output }

/-- The initialization of a backend with three register sets, on hardware that reports itself
ready. -/
def start (g : Generation) : Except BackendError Unit × Engine Bench :=
  Engine.init device
    ⟨{ standard := .avc, generation := g, config := { fastMode := true } }, frames,
      { reads :=
          [(Rkv.Reg.interrupt * 4, [1 <<< Rkv.Bit.ready.toUInt32]),
            (Vdpu34x.Reg.interruptStatus * 4, [1 <<< Vdpu34x.Bit.ready.toUInt32])] }⟩

def pipeline (g : Generation) : Pipeline Bench := ⟨(start g).2, fun i => task (i % 3)⟩

theorem pipeline_isInitial (g : Generation) : (pipeline g).IsInitial device where
  engine := by
    have hok : (start g).1 = .ok () := by cases g <;> decide +kernel
    exact ⟨_, _, _, _, _, _, Prod.ext hok rfl⟩
  tasks _ := ⟨rfl, rfl⟩

end Bench

end VideoAccel
