import VideoAccel.Proofs.Bits.Packing

namespace VideoAccel

open BitField

/-- The parts of a region in the order in which they lie there, and the shapes of their fields. -/
structure PartLayout (Part : Type) where
  order : List Part
  shapes : Part → List FieldShape

namespace PartLayout

variable {Part : Type} [DecidableEq Part]

def bitsBefore (shapes : Part → List FieldShape) (part : Part) : List Part → Nat
  | [] => 0
  | first :: rest =>
    if first = part then 0 else FieldShape.totalWidth (shapes first) + bitsBefore shapes part rest

/-- The bit at which a part starts. -/
def position (layout : PartLayout Part) (part : Part) : Nat :=
  bitsBefore layout.shapes part layout.order

/-- The values of the fields of a part. -/
def read (layout : PartLayout Part) (n : Nat) (part : Part) : List Int :=
  FieldShape.readAll (layout.shapes part) (n >>> layout.position part)

theorem packed_append_shiftRight {fs : List BitField} (hfs : ∀ f ∈ fs, f.Fits)
    (gs : List BitField) : packed (fs ++ gs) >>> totalWidth fs = packed gs := by
  rw [packed_append, Nat.shiftRight_eq_div_pow,
    Nat.add_mul_div_left _ _ (Nat.two_pow_pos (totalWidth fs)), Nat.div_eq_of_lt (packed_lt hfs),
    Nat.zero_add]

/-- Parts that were packed in the order of the layout are read back. -/
theorem read_packed (layout : PartLayout Part) (fields : Part → List BitField)
    (hshapes : ∀ part ∈ layout.order, (fields part).map shape = layout.shapes part)
    (hchecked : ∀ part ∈ layout.order, ∀ s ∈ layout.shapes part, s.isChecked = true)
    (hfits : ∀ part ∈ layout.order, ∀ f ∈ fields part, f.Fits) {part : Part}
    (hpart : part ∈ layout.order) :
    layout.read (packed (layout.order.flatMap fields)) part = (fields part).map value := by
  obtain ⟨order, shapes⟩ := layout
  simp only [read, position] at hshapes hchecked hfits hpart ⊢
  induction order with
  | nil => cases hpart
  | cons first rest ih =>
    obtain ⟨hshape, hshapes⟩ := List.forall_mem_cons.1 hshapes
    obtain ⟨hfirst, hchecked⟩ := List.forall_mem_cons.1 hchecked
    obtain ⟨hfit, hfits⟩ := List.forall_mem_cons.1 hfits
    rw [List.flatMap_cons, bitsBefore]
    by_cases h : first = part
    · subst h
      have hall : ∀ f ∈ fields first, f.shape.isChecked = true := by
        intro f hf
        exact hfirst _ (hshape ▸ List.mem_map_of_mem hf)
      rw [if_pos rfl, Nat.shiftRight_zero, ← hshape, packed_append]
      exact readAll_packed hfit hall _
    · have hrest : part ∈ rest := (List.mem_cons.1 hpart).resolve_left (Ne.symm h)
      rw [if_neg h, Nat.shiftRight_add, ← hshape, totalWidth_map_shape,
        packed_append_shiftRight hfit]
      exact ih hshapes hchecked hfits hrest

end PartLayout

end VideoAccel
