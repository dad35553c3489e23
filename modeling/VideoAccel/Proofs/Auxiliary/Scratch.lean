import VideoAccel.Auxiliary.Scratch
import VideoAccel.Proofs.Auxiliary.Layout

namespace VideoAccel

theorem mem_of_lookup {α β : Type} [BEq α] [LawfulBEq α] {l : List (α × β)} {a : α} {b : β}
    (h : l.lookup a = some b) : (a, b) ∈ l := by
  obtain ⟨l₁, l₂, rfl, -⟩ := List.lookup_eq_some_iff.1 h
  exact List.mem_append_right l₁ List.mem_cons_self

/-- The chosen regions of a layout lie in order between `start` and `capacity`. -/
structure ScratchChoice.Fits (layout : AuxLayout) (start capacity : Nat) (choice : ScratchChoice) :
    Prop where
  inside : ∀ x ∈ choice, start ≤ x.2 ∧
    ∃ region, layout.region? x.1 = some region ∧ x.2 + region.size ≤ capacity
  apart : choice.Pairwise fun x y =>
    ∀ region, layout.region? x.1 = some region → x.2 + region.size ≤ y.2

namespace ScratchChoice.Fits

variable {layout : AuxLayout} {start capacity : Nat} {choice : ScratchChoice}

theorem nil (layout : AuxLayout) (start capacity : Nat) : Fits layout start capacity [] :=
  ⟨nofun, List.Pairwise.nil⟩

theorem cons {id : RegionId} {region : Region} (hregion : layout.region? id = some region)
    (hroom : start + region.size ≤ capacity)
    (h : Fits layout (start + region.size) capacity choice) :
    Fits layout start capacity ((id, start) :: choice) where
  inside := by
    intro x hx
    obtain rfl | hx := List.mem_cons.1 hx
    · exact ⟨Nat.le_refl start, region, hregion, hroom⟩
    · obtain ⟨hstart, hinside⟩ := h.inside x hx
      exact ⟨by omega, hinside⟩
  apart := by
    refine List.pairwise_cons.2 ⟨fun x hx region' hregion' => ?_, h.apart⟩
    obtain rfl : region = region' := Option.some.inj (hregion.symm.trans hregion')
    exact (h.inside x hx).1

theorem le_or_le (h : Fits layout start capacity choice) {id id' : RegionId} (hne : id ≠ id')
    {offset offset' : Nat} {region region' : Region} (hid : choice.lookup id = some offset)
    (hid' : choice.lookup id' = some offset') (hregion : layout.region? id = some region)
    (hregion' : layout.region? id' = some region') :
    offset + region.size ≤ offset' ∨ offset' + region'.size ≤ offset := by
  have hpairs : (id, offset) ≠ (id', offset') := fun heq => hne (congrArg Prod.fst heq)
  obtain hle | hle := or_of_pairwise h.apart (mem_of_lookup hid) (mem_of_lookup hid') hpairs
  · exact .inl (hle region hregion)
  · exact .inr (hle region' hregion')

end ScratchChoice.Fits

namespace ScratchPolicy

open ScratchChoice

variable {layout : AuxLayout} {capacity : Nat}

theorem takeInOrder_fits (used : Nat) (order : List RegionId) :
    Fits layout used capacity (takeInOrder layout capacity used order) := by
  induction order generalizing used with
  | nil => exact Fits.nil layout used capacity
  | cons id order ih =>
    simp only [takeInOrder]
    split
    · exact ih used
    · rename_i region hregion
      split
      · exact Fits.nil layout used capacity
      · rename_i hroom
        exact Fits.cons hregion (Nat.le_of_not_lt hroom) (ih _)

theorem takeFitting_fits (used : Nat) {candidates : List (RegionId × Region)}
    (h : ∀ x ∈ candidates, layout.region? x.1 = some x.2) :
    Fits layout used capacity (takeFitting capacity used candidates) := by
  induction candidates generalizing used with
  | nil => exact Fits.nil layout used capacity
  | cons x candidates ih =>
    have hrest : ∀ x ∈ candidates, layout.region? x.1 = some x.2 := fun y hy =>
      h y (List.mem_cons_of_mem x hy)
    simp only [takeFitting]
    split
    · rename_i hroom
      exact Fits.cons (h x List.mem_cons_self) hroom (ih _ hrest)
    · exact ih used hrest

theorem select_fits (policy : ScratchPolicy) (h : layout.Separate) :
    Fits layout 0 capacity (policy.select layout capacity) := by
  cases policy with
  | priority order => exact takeInOrder_fits 0 order
  | largestFirst =>
    apply takeFitting_fits
    intro x hx
    exact h.region?_of_mem (mem_sortBy.1 hx)

/-- The regions that a policy looks at. -/
def candidates (policy : ScratchPolicy) (layout : AuxLayout) : Nat :=
  match policy with
  | .priority order => order.length
  | .largestFirst => layout.regions.length

theorem takeInOrder_le {bound : Nat}
    (h : ∀ id region, layout.region? id = some region → region.size ≤ bound) (used : Nat)
    (order : List RegionId) :
    ∀ x ∈ takeInOrder layout capacity used order, x.2 ≤ used + order.length * bound := by
  induction order generalizing used with
  | nil => exact nofun
  | cons id order ih =>
    intro x hx
    rw [List.length_cons, Nat.succ_mul]
    simp only [takeInOrder] at hx
    split at hx
    · have hle := ih used x hx
      omega
    · rename_i region hregion
      have hsize := h id region hregion
      split at hx
      · cases hx
      · obtain rfl | hx := List.mem_cons.1 hx
        · exact Nat.le_add_right _ _
        · have hle := ih (used + region.size) x hx
          omega

theorem takeFitting_le {bound : Nat} (used : Nat) {candidates : List (RegionId × Region)}
    (h : ∀ x ∈ candidates, x.2.size ≤ bound) :
    ∀ x ∈ takeFitting capacity used candidates, x.2 ≤ used + candidates.length * bound := by
  induction candidates generalizing used with
  | nil => exact nofun
  | cons y candidates ih =>
    obtain ⟨hsize, hrest⟩ := List.forall_mem_cons.1 h
    intro x hx
    rw [List.length_cons, Nat.succ_mul]
    simp only [takeFitting] at hx
    split at hx
    · obtain rfl | hx := List.mem_cons.1 hx
      · exact Nat.le_add_right _ _
      · have hle := ih (used + y.2.size) hrest x hx
        omega
    · have hle := ih used hrest x hx
      omega

theorem select_le (policy : ScratchPolicy) {bound : Nat}
    (h : ∀ x ∈ layout.regions, x.2.size ≤ bound) :
    ∀ x ∈ policy.select layout capacity, x.2 ≤ policy.candidates layout * bound := by
  intro x hx
  cases policy with
  | priority order =>
    have hle := takeInOrder_le (fun id region hregion => h _ (mem_of_lookup hregion)) 0 order x hx
    rwa [Nat.zero_add] at hle
  | largestFirst =>
    have hle := takeFitting_le 0 (fun y hy => h y (mem_sortBy.1 hy)) x hx
    rwa [Nat.zero_add, length_sortBy] at hle

end ScratchPolicy

end VideoAccel
