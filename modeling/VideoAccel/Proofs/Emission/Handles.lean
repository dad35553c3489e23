import Mathlib.Data.List.Forall2
import VideoAccel.Proofs.Emission.Addresses

namespace VideoAccel

section

variable (R : Purpose → UInt32 → UInt32 → Prop)

/-- Auxiliary memory that is laid out in the same way, in buffers that stand for each other. -/
structure AuxBinding.Alike (a a' : AuxBinding) : Prop where
  same : a' = { a with handle := a'.handle }
  handle : R .auxiliary a.handle a'.handle

structure MotionBinding.Alike (m m' : MotionBinding) : Prop where
  current : R .motionVectors m.current m'.current
  refs : List.Forall₂ (R .motionVectors) m.refs m'.refs

/-- Bindings that differ in handles, where `R` tells which ones stand for each other. -/
structure Binding.Alike (bind bind' : Binding) : Prop where
  same : bind' = { bind with tables := bind'.tables, aux := bind'.aux, motion := bind'.motion }
  tables : R .tables bind.tables bind'.tables
  aux : Option.Rel (AuxBinding.Alike R) bind.aux bind'.aux
  motion : Option.Rel (MotionBinding.Alike R) bind.motion bind'.motion

variable (g : Generation)

/-- Edits that differ at most in the word for a register for addresses. -/
inductive Edit.Alike : Edit → Edit → Prop
  | refl (edit : Edit) : Alike edit edit
  | handle {reg : Nat} {purpose : Purpose} {v v' : UInt32} :
    g.purposeOf? reg = some purpose → R purpose v v' →
      Alike (.register (.word reg v)) (.register (.word reg v'))

/-- Images that differ at most in registers for addresses. -/
def RegisterImage.Alike (image image' : RegisterImage) : Prop :=
  ∀ reg, image'.get? reg = image.get? reg ∨ ∃ purpose v v', g.purposeOf? reg = some purpose ∧
    image.get? reg = some v ∧ image'.get? reg = some v' ∧ R purpose v v'

structure Emission.Alike (e e' : Emission) : Prop where
  image : RegisterImage.Alike R g e.image e'.image
  tables : e'.tables.contents = e.tables.contents
  patches : e'.patches = e.patches

end

variable {R : Purpose → UInt32 → UInt32 → Prop} {g : Generation}

namespace RegisterImage.Alike

variable {image image' : RegisterImage}

theorem refl (image : RegisterImage) : Alike R g image image := fun _ => .inl rfl

theorem write (h : Alike R g image image') {w : RegisterWrite}
    (hword : ∀ purpose, g.purposeOf? w.reg = some purpose → w.field = .word) :
    Alike R g (image.write w) (image'.write w) := by
  intro reg
  simp only [get?_write]
  by_cases hreg : reg = w.reg
  · subst hreg
    left
    obtain hsame | ⟨purpose, v, v', hpurpose, hv, hv', -⟩ := h w.reg
    · rw [hsame]
    · simp only [hv, hv', hword purpose hpurpose, RegisterField.write_word, if_true,
        Option.map_some]
  · simp only [hreg, if_false]
    exact h reg

theorem write_handle (h : Alike R g image image') {reg : Nat} {purpose : Purpose} {v v' : UInt32}
    (hpurpose : g.purposeOf? reg = some purpose) (hR : R purpose v v') :
    Alike R g (image.write (.word reg v)) (image'.write (.word reg v')) := by
  intro i
  simp only [get?_write, RegisterWrite.word, RegisterField.write_word]
  by_cases hi : i = reg
  · subst hi
    simp only [if_true]
    obtain hsame | ⟨_, u, u', -, hu, hu', -⟩ := h i
    · rw [hsame]
      cases image.get? i with
      | none => exact .inl rfl
      | some u => exact .inr ⟨purpose, v, v', hpurpose, rfl, rfl, hR⟩
    · rw [hu, hu']
      exact .inr ⟨purpose, v, v', hpurpose, rfl, rfl, hR⟩
  · simp only [hi, if_false]
    exact h i

end RegisterImage.Alike

namespace Emission.Alike

variable {bind : Binding} {e e' : Emission} {edit edit' : Edit} {edits edits' : List Edit}

theorem apply (h : e.Alike R g e') (hedit : edit.Alike R g edit')
    (hrespects : edit.Respects g bind) :
    (e.apply edit).Alike R g (e'.apply edit') := by
  cases hedit with
  | handle hpurpose hR => exact ⟨h.image.write_handle hpurpose hR, h.tables, h.patches⟩
  | refl =>
    cases edit with
    | register w => exact ⟨h.image.write fun _ hw => (hrespects w _ rfl hw).1, h.tables, h.patches⟩
    | table offset bytes =>
      refine ⟨h.image, ?_, h.patches⟩
      simp only [Emission.apply, Memory.store, h.tables]
    | patch p =>
      refine ⟨h.image, h.tables, ?_⟩
      simp only [Emission.apply, h.patches]

theorem applyAll (h : e.Alike R g e') (hedits : List.Forall₂ (Edit.Alike R g) edits edits')
    (hrespects : ∀ edit ∈ edits, edit.Respects g bind) :
    (e.applyAll edits).Alike R g (e'.applyAll edits') := by
  induction hedits generalizing e e' with
  | nil => exact h
  | cons hfirst _ ih =>
    obtain ⟨hrespectsFirst, hrest⟩ := List.forall_mem_cons.1 hrespects
    exact ih (h.apply hfirst hrespectsFirst) hrest

end Emission.Alike

theorem forall₂_mapIdx {α β γ δ : Type} {P : α → β → Prop} {Q : γ → δ → Prop} {l : List α}
    {l' : List β} (h : List.Forall₂ P l l') {f : Nat → α → γ} {f' : Nat → β → δ}
    (hf : ∀ i, i < l.length → ∀ a b, P a b → Q (f i a) (f' i b)) :
    List.Forall₂ Q (l.mapIdx f) (l'.mapIdx f') := by
  induction h generalizing f f' with
  | nil => exact .nil
  | cons hab _ ih =>
    rw [List.mapIdx_cons, List.mapIdx_cons]
    refine .cons (hf 0 (Nat.zero_lt_succ _) _ _ hab) (ih fun i hi => ?_)
    exact hf (i + 1) (Nat.succ_lt_succ hi)

theorem forall₂_flatMap {α γ δ : Type} {Q : γ → δ → Prop} {l : List α} {f : α → List γ}
    {f' : α → List δ} (hf : ∀ a ∈ l, List.Forall₂ Q (f a) (f' a)) :
    List.Forall₂ Q (l.flatMap f) (l.flatMap f') := by
  induction l with
  | nil => exact .nil
  | cons a l ih =>
    obtain ⟨hfirst, hrest⟩ := List.forall_mem_cons.1 hf
    exact List.rel_append hfirst (ih hrest)

end VideoAccel
