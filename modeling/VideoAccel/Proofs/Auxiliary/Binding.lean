import VideoAccel.Emission
import VideoAccel.Proofs.Auxiliary.Scratch

namespace VideoAccel

structure AuxBinding.Sound (aux : AuxBinding) (capacity : Nat) : Prop where
  layout : aux.layout.Separate
  scratch : aux.scratch.Fits aux.layout 0 capacity
  handle : aux.scratch = [] ∨ aux.scratchHandle ≠ aux.handle

namespace AuxBinding.Sound

variable {aux : AuxBinding} {capacity : Nat}

/-- A region of the layout is in scratch memory if it was chosen for it, else in the buffer. -/
theorem locate_cases (h : aux.Sound capacity) {x : RegionId × Region}
    (hx : x ∈ aux.layout.regions) :
    (∃ offset, aux.scratch.lookup x.1 = some offset ∧
        aux.locate x.1 = some (aux.scratchHandle, offset)) ∨
      aux.scratch.lookup x.1 = none ∧ aux.locate x.1 = some (aux.handle, x.2.offset) := by
  simp only [AuxBinding.locate]
  cases hlookup : aux.scratch.lookup x.1 with
  | some offset => exact .inl ⟨offset, rfl, rfl⟩
  | none =>
    rw [h.layout.region?_of_mem hx]
    exact .inr ⟨rfl, rfl⟩

theorem scratchHandle_ne (h : aux.Sound capacity) {id : RegionId} {offset : Nat}
    (hlookup : aux.scratch.lookup id = some offset) : aux.scratchHandle ≠ aux.handle := by
  obtain hnil | hne := h.handle
  · rw [hnil] at hlookup
    cases hlookup
  · exact hne

theorem exists_place (h : aux.Sound capacity) {x : RegionId × Region}
    (hx : x ∈ aux.layout.regions) :
    ∃ handle offset, aux.locate x.1 = some (handle, offset) ∧
      (handle = aux.handle ∧ offset + x.2.size ≤ aux.layout.totalSize ∨
        aux.scratch ≠ [] ∧ handle = aux.scratchHandle ∧ offset + x.2.size ≤ capacity) := by
  obtain ⟨offset, hlookup, hlocate⟩ | ⟨-, hlocate⟩ := h.locate_cases hx
  · obtain ⟨-, region, hregion, hroom⟩ := h.scratch.inside _ (mem_of_lookup hlookup)
    obtain rfl : x.2 = region := Option.some.inj ((h.layout.region?_of_mem hx).symm.trans hregion)
    refine ⟨_, offset, hlocate, .inr ⟨fun hnil => ?_, rfl, hroom⟩⟩
    rw [hnil] at hlookup
    cases hlookup
  · exact ⟨_, _, hlocate, .inl ⟨rfl, h.layout.inside x hx⟩⟩

theorem locate_apart (h : aux.Sound capacity) {x y : RegionId × Region}
    (hx : x ∈ aux.layout.regions) (hy : y ∈ aux.layout.regions) (hne : x.1 ≠ y.1)
    {handle : UInt32} {offset offset' : Nat} (hplace : aux.locate x.1 = some (handle, offset))
    (hplace' : aux.locate y.1 = some (handle, offset')) :
    offset + x.2.size ≤ offset' ∨ offset' + y.2.size ≤ offset := by
  obtain ⟨o, hlookup, hlocate⟩ | ⟨hlookup, hlocate⟩ := h.locate_cases hx <;>
    obtain ⟨o', hlookup', hlocate'⟩ | ⟨hlookup', hlocate'⟩ := h.locate_cases hy <;>
    cases hplace.symm.trans hlocate <;>
    rw [hplace', Option.some.injEq, Prod.mk.injEq] at hlocate' <;>
    obtain ⟨hhandle, rfl⟩ := hlocate'
  · exact h.scratch.le_or_le hne hlookup hlookup' (h.layout.region?_of_mem hx)
      (h.layout.region?_of_mem hy)
  · exact absurd hhandle (h.scratchHandle_ne hlookup)
  · exact absurd hhandle.symm (h.scratchHandle_ne hlookup')
  · exact h.layout.before_or_before hx hy hne

end AuxBinding.Sound

end VideoAccel
