import Mathlib.Data.List.Forall2
import VideoAccel.Proofs.Memory.Transfer
import VideoAccel.Proofs.RegisterSet.Occupancy

namespace VideoAccel

variable {α : Type}

/-- Two sets that differ at most in leftovers. -/
structure RegisterSet.Alike (a b : RegisterSet α) : Prop where
  valid : b.valid = a.valid
  tables : b.tables.map DeviceBuffer.identity = a.tables.map DeviceBuffer.identity
  skip : a.valid = true → b.skip = a.skip
  inUse : a.valid = true → a.skip = false → b = a

namespace RegisterSet.Alike

variable {a b : RegisterSet α}

theorem refl (a : RegisterSet α) : Alike a a := ⟨rfl, rfl, fun _ => rfl, fun _ _ => rfl⟩

theorem of_free (ha : a.valid = false) (hb : b.valid = false)
    (htables : b.tables.map DeviceBuffer.identity = a.tables.map DeviceBuffer.identity) :
    Alike a b where
  valid := hb.trans ha.symm
  tables := htables
  skip hvalid := by cases ha.symm.trans hvalid
  inUse hvalid := by cases ha.symm.trans hvalid

theorem of_skip (hvalid : b.valid = a.valid) (ha : a.skip = true) (hb : b.skip = true)
    (htables : b.tables.map DeviceBuffer.identity = a.tables.map DeviceBuffer.identity) :
    Alike a b where
  valid := hvalid
  tables := htables
  skip _ := hb.trans ha.symm
  inUse _ hskip := by cases ha.symm.trans hskip

end RegisterSet.Alike

/-- A relation between the entries of two lists goes over to the lists with one entry changed. -/
theorem forall₂_modify {β : Type} {R S : α → β → Prop} {l : List α} {l' : List β}
    (h : List.Forall₂ R l l') (i : Nat) (f : α → α) (g : β → β) (hothers : ∀ a b, R a b → S a b)
    (hhere : ∀ a b, l[i]? = some a → l'[i]? = some b → R a b → S (f a) (g b)) :
    List.Forall₂ S (l.modify i f) (l'.modify i g) := by
  induction h generalizing i with
  | nil => cases i <;> exact .nil
  | cons hab hrest ih =>
    cases i with
    | zero => exact .cons (hhere _ _ rfl rfl hab) (hrest.imp hothers)
    | succ i => exact .cons (hothers _ _ hab) (ih i hhere)

namespace RegisterSets

theorem modify_modify (s : RegisterSets α) (i : Nat) (f g : RegisterSet α → RegisterSet α) :
    (s.modify i f).modify i g = s.modify i (g ∘ f) :=
  congrArg mk (List.modify_modify_eq f g i s.sets)

theorem modify_id (s : RegisterSets α) (i : Nat) : s.modify i id = s :=
  congrArg mk (List.modify_id i s.sets)

/-- Two register files with as many sets, each of which differs at most in leftovers. -/
def Alike (s s' : RegisterSets α) : Prop := List.Forall₂ RegisterSet.Alike s.sets s'.sets

theorem Alike.refl (s : RegisterSets α) : Alike s s :=
  List.forall₂_same.2 fun set _ => .refl set

def SameTaken (s s' : RegisterSets α) : Prop :=
  List.Forall₂ (fun a b : RegisterSet α => b.valid = a.valid) s.sets s'.sets

namespace SameTaken

variable {s s' : RegisterSets α}

theorem size (h : SameTaken s s') : s'.size = s.size := h.length_eq.symm

theorem validCount (h : SameTaken s s') : s'.validCount = s.validCount := by
  obtain ⟨sets⟩ := s
  obtain ⟨sets'⟩ := s'
  simp only [SameTaken] at h
  induction h with
  | nil => rfl
  | cons hvalid _ ih =>
    simp only [RegisterSets.validCount, List.countP_cons, hvalid] at ih ⊢
    rw [ih]

theorem findIdx? (h : SameTaken s s') :
    s'.sets.findIdx? (fun set => !set.valid) = s.sets.findIdx? fun set => !set.valid := by
  obtain ⟨sets⟩ := s
  obtain ⟨sets'⟩ := s'
  simp only [SameTaken] at h
  induction h with
  | nil => rfl
  | cons hvalid _ ih =>
    simp only [List.findIdx?_cons, hvalid] at ih ⊢
    rw [ih]

theorem modify (h : SameTaken s s') (i : Nat) {f g : RegisterSet α → RegisterSet α}
    (hfg : ∀ a b : RegisterSet α, b.valid = a.valid → (g b).valid = (f a).valid) :
    SameTaken (s.modify i f) (s'.modify i g) :=
  forall₂_modify h i f g (fun _ _ hvalid => hvalid) fun a b _ _ => hfg a b

end SameTaken

namespace Alike

variable {s s' : RegisterSets α} {i : Nat}

theorem taken (h : Alike s s') : SameTaken s s' := List.Forall₂.imp (fun _ _ h => h.valid) h

theorem get?_eq_some (h : Alike s s') {set : RegisterSet α} (hget : s.get? i = some set) :
    ∃ set', s'.get? i = some set' ∧ set.Alike set' := by
  obtain ⟨sets⟩ := s
  obtain ⟨sets'⟩ := s'
  simp only [Alike, get?] at h hget ⊢
  induction h generalizing i with
  | nil => cases hget
  | cons hfirst _ ih =>
    cases i with
    | zero =>
      obtain rfl := Option.some.inj hget
      exact ⟨_, rfl, hfirst⟩
    | succ i => exact ih hget

theorem modify (h : Alike s s') {f g : RegisterSet α → RegisterSet α}
    (hfg : ∀ a b, s.get? i = some a → s'.get? i = some b → a.Alike b → (f a).Alike (g b)) :
    Alike (s.modify i f) (s'.modify i g) :=
  forall₂_modify h i f g (fun _ _ hab => hab) hfg

theorem of_modify {f : RegisterSet α → RegisterSet α}
    (hf : ∀ a, s.get? i = some a → (f a).Alike a) : Alike (s.modify i f) s := by
  have hmodify : Alike (s.modify i f) (s.modify i id) := by
    refine (refl s).modify fun a b ha hb _ => ?_
    obtain rfl := Option.some.inj (ha.symm.trans hb)
    exact hf a ha
  rwa [modify_id] at hmodify

theorem release (h : Alike s s') (i : Nat) : Alike (s.release i) (s'.release i) :=
  h.modify fun _ _ _ _ hab => .of_free rfl rfl hab.tables

/-- What is done with the contents of a set that is released afterwards does not matter. -/
theorem modify_release (h : Alike s s') {f g : RegisterSet α → RegisterSet α}
    (hfg : ∀ a b, s.get? i = some a → s'.get? i = some b → a.Alike b →
      (g b).tables.map DeviceBuffer.identity = (f a).tables.map DeviceBuffer.identity) :
    Alike ((s.modify i f).release i) ((s'.modify i g).release i) := by
  simp only [RegisterSets.release, modify_modify]
  exact h.modify fun a b ha hb hab => .of_free rfl rfl (hfg a b ha hb hab)

theorem acquire? (h : Alike s s') :
    s'.acquire? = s.acquire?.map fun r =>
      (r.1, s'.modify r.1 fun set => { set with valid := true, skip := false, patches := [] }) := by
  simp only [RegisterSets.acquire?, h.taken.findIdx?, Option.map_map]
  rfl

end Alike

end RegisterSets

end VideoAccel
