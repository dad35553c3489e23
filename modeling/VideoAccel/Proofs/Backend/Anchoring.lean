import VideoAccel.Proofs.Backend.Buffers
import VideoAccel.Proofs.Strategy.Addresses

namespace VideoAccel

variable {σ Pic : Type}

namespace Backend

/-- The buffers whose addresses a register set may hold, by their purpose. -/
def buffersOf (b : Backend) (slot : Nat) (set : RegisterSet RegisterImage) :
    Purpose → List DeviceBuffer
  | .tables => set.tables.toList
  | .auxiliary => (b.aux.bound? slot).toList
  | .motionVectors => b.motion.stores

/-- A handle of one of these buffers, or of scratch memory, or zero where no buffer is needed. -/
def Supplies (b : Backend) (slot : Nat) (set : RegisterSet RegisterImage) (purpose : Purpose)
    (handle : UInt32) : Prop :=
  handle = 0 ∨ (∃ buffer ∈ b.buffersOf slot set purpose, buffer.handle = handle) ∨
    purpose = .auxiliary ∧ ∃ memory, b.scratch = some memory ∧ memory.handle = handle

/-- The parameters of a register set are read from its own table buffer, and every register for
addresses holds what the backend supplies. -/
structure Anchored (b : Backend) (slot : Nat) (set : RegisterSet RegisterImage) : Prop where
  tables : ∃ tables, set.tables = some tables ∧
    set.registers.get? b.generation.parameterBase = some tables.handle
  addresses : ∀ reg purpose handle, b.generation.purposeOf? reg = some purpose →
    set.registers.get? reg = some handle → b.Supplies slot set purpose handle

theorem buffersOf_subset_owned {b : Backend} {slot : Nat} {set : RegisterSet RegisterImage}
    (hget : b.sets.get? slot = some set) (purpose : Purpose) :
    b.buffersOf slot set purpose ⊆ b.owned := by
  intro buffer hbuffer
  cases purpose with
  | tables =>
    have hset := List.mem_of_getElem? hget
    have htables := List.mem_filterMap.2 ⟨set, hset, Option.mem_toList.1 hbuffer⟩
    exact List.mem_append_left _ (List.mem_append_left _ htables)
  | auxiliary =>
    have haux := AuxBuffers.mem_of_bound? (Option.mem_toList.1 hbuffer)
    exact List.mem_append_left _ (List.mem_append_right _ haux)
  | motionVectors => exact List.mem_append_right _ hbuffer

theorem subperm_owned {b : Backend} {i j : Nat} {set set' : RegisterSet RegisterImage}
    (hshaped : b.aux.Shaped b.sets.size) (hi : b.sets.get? i = some set)
    (hj : b.sets.get? j = some set') (hne : i ≠ j) {purpose : Purpose}
    (hpurpose : purpose ≠ .motionVectors) :
    (b.buffersOf i set purpose ++ b.buffersOf j set' purpose).Subperm b.owned := by
  cases purpose with
  | tables =>
    obtain ⟨l, hperm, hsub⟩ := subperm_of_getElem? hi hj hne
    have htables : (set.tables.toList ++ set'.tables.toList).Subperm
        (b.sets.sets.filterMap (·.tables)) := by
      refine ⟨_, (hperm.filterMap _).trans ?_, hsub.filterMap _⟩
      cases h : set.tables <;> cases h' : set'.tables <;> simp [h, h']
    refine htables.trans (List.Sublist.subperm ?_)
    exact (List.sublist_append_left ..).trans (List.sublist_append_left ..)
  | auxiliary =>
    have hcount : 1 < b.sets.size := by
      have hlt := (List.getElem?_eq_some_iff.1 hi).1
      have hlt' := (List.getElem?_eq_some_iff.1 hj).1
      change i < b.sets.size at hlt
      change j < b.sets.size at hlt'
      omega
    have haux : ((b.aux.bound? i).toList ++ (b.aux.bound? j).toList).Subperm b.aux.buffers := by
      cases hx : b.aux.bound? i with
      | none =>
        cases hy : b.aux.bound? j with
        | none => exact List.nil_subperm
        | some y => exact List.singleton_subperm_iff.2 (AuxBuffers.mem_of_bound? hy)
      | some x =>
        cases hy : b.aux.bound? j with
        | none => exact List.singleton_subperm_iff.2 (AuxBuffers.mem_of_bound? hx)
        | some y => exact hshaped.subperm hcount hx hy hne
    refine haux.trans (List.Sublist.subperm ?_)
    exact (List.sublist_append_right ..).trans (List.sublist_append_left ..)
  | motionVectors => exact absurd rfl hpurpose

end Backend

namespace Engine

variable {device : Device σ} {strategy : Strategy Pic} {picture : Pic} {t : Task} {slot : Nat}
  {e e' : Engine σ}

/-- The memory of a binding is the buffer that the layout in use gives to the set and, if regions
may be chosen for it, scratch memory. -/
theorem auxBinding?_eq_some {b : Backend} {aux : AuxBinding}
    (haux : auxBinding? strategy slot b = some aux) :
    b.aux.layout = some aux.layout ∧
      (∃ buffer, b.aux.bound? slot = some buffer ∧ aux.handle = buffer.handle) ∧
      (aux.scratch = [] ∧ aux.scratchHandle = 0 ∨
        ∃ memory, b.scratch = some memory ∧ aux.scratchHandle = memory.handle) := by
  unfold auxBinding? at haux
  split at haux
  · rename_i layout buffer hlayout hbuffer
    have hbound : b.aux.bound? slot = some buffer := by
      rw [AuxBuffers.bound?, hlayout, Option.bind_some, hbuffer]
    split at haux
    · rename_i memory policy hscratch _
      cases haux
      exact ⟨hlayout, ⟨buffer, hbound, rfl⟩, .inr ⟨memory, hscratch, rfl⟩⟩
    · cases haux
      exact ⟨hlayout, ⟨buffer, hbound, rfl⟩, .inl ⟨rfl, rfl⟩⟩
  · cases haux

theorem supplies_auxBinding {b : Backend} {aux : AuxBinding} {handle : UInt32}
    (haux : auxBinding? strategy slot b = some aux)
    (hhandle : handle = aux.handle ∨ handle = aux.scratchHandle)
    (set : RegisterSet RegisterImage) : b.Supplies slot set .auxiliary handle := by
  obtain ⟨-, ⟨buffer, hbound, hbuffer⟩, hscratch⟩ := auxBinding?_eq_some haux
  obtain rfl | rfl := hhandle
  · exact .inr (.inl ⟨buffer, Option.mem_toList.2 hbound, hbuffer.symm⟩)
  · obtain ⟨-, hzero⟩ | ⟨memory, hmemory, hsame⟩ := hscratch
    · exact .inl hzero
    · exact .inr (.inr ⟨rfl, memory, hmemory, hsame.symm⟩)

theorem supplies_motionBinding {b : Backend} {refs : List ResolvedRef} {handle : UInt32}
    (hhandle : handle = (motionBinding t refs b.motion).current ∨
      handle ∈ (motionBinding t refs b.motion).refs)
    (set : RegisterSet RegisterImage) : b.Supplies slot set .motionVectors handle := by
  have hstore : ∀ frame, b.Supplies slot set .motionVectors ((b.motion.handle? frame).getD 0) := by
    intro frame
    cases hstore : b.motion.stores[frame]? with
    | none => exact .inl (by simp [MotionPool.handle?, hstore])
    | some store =>
      refine .inr (.inl ⟨store, List.mem_of_getElem? hstore, ?_⟩)
      simp [MotionPool.handle?, hstore]
  obtain rfl | hhandle := hhandle
  · exact hstore t.output
  · obtain ⟨r, _, rfl⟩ := List.mem_map.1 hhandle
    exact hstore r.slot

/-- What a task is bound to by the time its set is filled is supplied by the backend. -/
theorem Filled.supplies {p : TaskPlan} {set : RegisterSet RegisterImage} {tables : DeviceBuffer}
    {bind : Binding} {emission : Emission}
    (h : Filled strategy picture t slot e e' p set tables bind emission)
    (set' : RegisterSet RegisterImage) {purpose : Purpose} {handle : UInt32}
    (hpurpose : purpose ≠ .tables) (hhandle : handle ∈ bind.handles purpose) :
    e'.backend.Supplies slot set' purpose handle := by
  cases purpose with
  | tables => exact absurd rfl hpurpose
  | auxiliary =>
    obtain ⟨binding, hbinding, hhandle⟩ := List.mem_flatMap.1 hhandle
    obtain ⟨-, hnone⟩ | ⟨-, hbound, -⟩ := h.aux
    · rw [hnone] at hbinding
      cases hbinding
    · refine supplies_auxBinding (hbound.symm.trans (Option.mem_toList.1 hbinding)) ?_ set'
      simpa using hhandle
  | motionVectors =>
    obtain ⟨binding, hbinding, hhandle⟩ := List.mem_flatMap.1 hhandle
    obtain ⟨-, hnone⟩ | ⟨-, hbound, -⟩ := h.motion
    · rw [hnone] at hbinding
      cases hbinding
    · rw [hbound] at hbinding
      obtain rfl := List.mem_singleton.1 hbinding
      exact supplies_motionBinding (List.mem_cons.1 hhandle) set'

theorem fill_anchored (hrespects : strategy.Respects)
    (hgeneration : strategy.generation = e.backend.generation)
    (h : e.fill device strategy picture t slot = (.ok (), e')) :
    ∃ set, e'.backend.sets.get? slot = some set ∧ e'.backend.Anchored slot set := by
  have hrefill := e.fill_refill device strategy picture t slot
  rw [h] at hrefill
  have hgeneration' : strategy.generation = e'.backend.generation :=
    hgeneration.trans hrefill.generation.symm
  obtain ⟨p, set, tables, bind, emission, hfilled⟩ := exists_filled h
  have htables : bind.tables = tables.handle := by rw [hfilled.bound]
  refine ⟨_, hfilled.filled, ⟨_, rfl, ?_⟩, ?_⟩
  · have hbase := Emission.parameterBase_of_runSteps hrespects
      (Generation.isSome_parameterBase _) hfilled.run
    rw [hgeneration'] at hbase
    exact hbase.trans (congrArg some (htables.trans hfilled.handle.symm))
  -- the steps begin with a blank image: a register that none of them writes is zero
  · intro reg purpose handle hpurpose hhandle
    rw [← hgeneration'] at hpurpose
    obtain hzero | hmem := Emission.get?_of_runSteps hrespects
      (fun _ _ => Generation.get?_blankImage) hfilled.run hpurpose hhandle
    · exact .inl hzero
    by_cases htable : purpose = .tables
    · subst htable
      have hown := (List.mem_singleton.1 hmem).trans htables
      exact .inr (.inl ⟨_, List.mem_singleton_self _, hfilled.handle.trans hown.symm⟩)
    · exact hfilled.supplies _ htable hmem

theorem fillPicture_anchored (h : e.fillPicture device t slot = (.ok (), e')) :
    ∃ set, e'.backend.sets.get? slot = some set ∧ e'.backend.Anchored slot set := by
  have havc : e.backend.generation.avc.generation = e.backend.generation := by
    cases e.backend.generation <;> rfl
  have hhevc : e.backend.generation.hevc.generation = e.backend.generation := by
    cases e.backend.generation <;> rfl
  simp only [fillPicture] at h
  split at h
  · exact fill_anchored (Generation.avc_respects _) havc h
  · exact fill_anchored (Generation.hevc_respects _) hhevc h
  · cases h

end Engine

end VideoAccel
