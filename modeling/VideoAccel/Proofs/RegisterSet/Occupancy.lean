import Mathlib.Data.List.Perm.Subperm
import Mathlib.Logic.Function.Basic
import VideoAccel.RegisterSet

namespace VideoAccel.RegisterSets

variable {α : Type}

@[simp]
theorem size_modify (s : RegisterSets α) (i : Nat) (f : RegisterSet α → RegisterSet α) :
    (s.modify i f).size = s.size := by
  simp [size, modify]

@[simp]
theorem get?_modify_self (s : RegisterSets α) (i : Nat) (f : RegisterSet α → RegisterSet α) :
    (s.modify i f).get? i = (s.get? i).map f := by
  simp [get?, modify]

theorem get?_modify_of_ne (s : RegisterSets α) {i j : Nat} (h : i ≠ j)
    (f : RegisterSet α → RegisterSet α) : (s.modify i f).get? j = s.get? j := by
  simp [get?, modify, h]

theorem get?_modify (s : RegisterSets α) (i j : Nat) (f : RegisterSet α → RegisterSet α) :
    (s.modify i f).get? j = if i = j then (s.get? j).map f else s.get? j := by
  by_cases h : i = j
  · subst h
    simp
  · simp [get?_modify_of_ne s h, h]

@[simp]
theorem size_release (s : RegisterSets α) (i : Nat) : (s.release i).size = s.size :=
  size_modify ..

theorem get?_release_of_ne (s : RegisterSets α) {i j : Nat} (h : i ≠ j) :
    (s.release i).get? j = s.get? j :=
  get?_modify_of_ne s h _

theorem isValid_iff (s : RegisterSets α) (i : Nat) :
    s.isValid i = true ↔ ∃ set, s.get? i = some set ∧ set.valid = true := by
  simp [isValid, Option.any_eq_true]

theorem isValid_eq_of_get? {s s' : RegisterSets α} {i : Nat} (h : s'.get? i = s.get? i) :
    s'.isValid i = s.isValid i := by
  simp [isValid, h]

theorem lt_size_of_isValid {s : RegisterSets α} {i : Nat} (h : s.isValid i = true) :
    i < s.size := by
  obtain ⟨set, hget, _⟩ := (isValid_iff s i).1 h
  exact (List.getElem?_eq_some_iff.1 hget).1

theorem isValid_release (s : RegisterSets α) (i j : Nat) :
    (s.release i).isValid j = true ↔ s.isValid j = true ∧ i ≠ j := by
  by_cases h : i = j
  · subst h
    simp [isValid, release, Option.any_map]
  · simp [isValid_eq_of_get? (get?_release_of_ne s h), h]

theorem isValid_modify (s : RegisterSets α) (i j : Nat) (f : RegisterSet α → RegisterSet α)
    (hf : ∀ set, (f set).valid = set.valid) : (s.modify i f).isValid j = s.isValid j := by
  by_cases h : i = j
  · subst h
    simp [isValid, Option.any_map, hf]
  · exact isValid_eq_of_get? (get?_modify_of_ne s h f)

theorem acquire?_eq_some {s s' : RegisterSets α} {i : Nat} (h : s.acquire? = some (i, s')) :
    (∃ set, s.get? i = some set ∧ set.valid = false) ∧
      s' = s.modify i fun set => { set with valid := true, skip := false, patches := [] } := by
  obtain ⟨j, hj, he⟩ := Option.map_eq_some_iff.1 h
  obtain ⟨rfl, rfl⟩ := Prod.mk.inj he
  obtain ⟨hlt, hfree, _⟩ := List.findIdx?_eq_some_iff_getElem.1 hj
  exact ⟨⟨s.sets[j], List.getElem?_eq_getElem hlt, by simpa using hfree⟩, rfl⟩

theorem not_isValid_of_acquire? {s s' : RegisterSets α} {i : Nat}
    (h : s.acquire? = some (i, s')) : s.isValid i = false := by
  obtain ⟨⟨set, hget, hfree⟩, _⟩ := acquire?_eq_some h
  simp [isValid, hget, hfree]

theorem get?_acquire?_self {s s' : RegisterSets α} {i : Nat} (h : s.acquire? = some (i, s')) :
    ∃ set, s.get? i = some set ∧
      s'.get? i = some { set with valid := true, skip := false, patches := [] } := by
  obtain ⟨⟨set, hget, _⟩, rfl⟩ := acquire?_eq_some h
  exact ⟨set, hget, by simp [hget]⟩

theorem get?_acquire?_of_ne {s s' : RegisterSets α} {i j : Nat} (h : s.acquire? = some (i, s'))
    (hne : i ≠ j) : s'.get? j = s.get? j := by
  obtain ⟨_, rfl⟩ := acquire?_eq_some h
  exact get?_modify_of_ne s hne _

theorem isValid_acquire? {s s' : RegisterSets α} {i : Nat} (h : s.acquire? = some (i, s'))
    (j : Nat) : s'.isValid j = true ↔ s.isValid j = true ∨ i = j := by
  by_cases hij : i = j
  · subst hij
    obtain ⟨set, _, hget⟩ := get?_acquire?_self h
    simp [isValid, hget]
  · simp [isValid_eq_of_get? (get?_acquire?_of_ne h hij), hij]

theorem size_acquire? {s s' : RegisterSets α} {i : Nat} (h : s.acquire? = some (i, s')) :
    s'.size = s.size := by
  obtain ⟨_, rfl⟩ := acquire?_eq_some h
  exact size_modify ..

/-- Whether the task in a set bypasses the hardware; nothing for a set that is free. -/
def mark (s : RegisterSets α) (i : Nat) : Option Bool :=
  (s.get? i).bind fun set => if set.valid then some set.skip else none

theorem isSome_mark (s : RegisterSets α) (i : Nat) : (s.mark i).isSome = s.isValid i := by
  simp only [mark, isValid]
  cases s.get? i with
  | none => rfl
  | some set => cases h : set.valid <;> simp [h]

theorem mark_eq_some {s : RegisterSets α} {i : Nat} {skip : Bool} (h : s.mark i = some skip) :
    ∃ set, s.get? i = some set ∧ set.valid = true ∧ set.skip = skip := by
  obtain ⟨set, hget, hmark⟩ := Option.bind_eq_some_iff.1 h
  split at hmark
  · rename_i hvalid
    exact ⟨set, hget, hvalid, Option.some.inj hmark⟩
  · cases hmark

theorem mark_modify_of_ne (s : RegisterSets α) {i j : Nat} (h : i ≠ j)
    (f : RegisterSet α → RegisterSet α) : (s.modify i f).mark j = s.mark j := by
  simp [mark, get?_modify_of_ne s h]

theorem mark_modify (s : RegisterSets α) (i : Nat) (f : RegisterSet α → RegisterSet α)
    (hf : ∀ set, (f set).valid = set.valid ∧ (f set).skip = set.skip) :
    (s.modify i f).mark = s.mark := by
  funext j
  by_cases h : i = j
  · subst h
    simp only [mark, get?_modify_self]
    cases s.get? i with
    | none => rfl
    | some set => simp [hf]
  · exact mark_modify_of_ne s h f

theorem mark_release (s : RegisterSets α) (i : Nat) :
    (s.release i).mark = Function.update s.mark i none := by
  funext j
  by_cases h : i = j
  · subst h
    simp only [mark, release, get?_modify_self, Function.update_self]
    cases s.get? i <;> rfl
  · rw [Function.update_of_ne (Ne.symm h)]
    exact mark_modify_of_ne s h _

theorem mark_acquire? {s s' : RegisterSets α} {i : Nat} (h : s.acquire? = some (i, s')) :
    s.mark i = none ∧ s'.mark = Function.update s.mark i (some false) := by
  obtain ⟨⟨set, hget, hfree⟩, rfl⟩ := acquire?_eq_some h
  refine ⟨by simp [mark, hget, hfree], ?_⟩
  funext j
  by_cases h : i = j
  · subst h
    simp [mark, hget]
  · rw [Function.update_of_ne (Ne.symm h)]
    exact mark_modify_of_ne s h _

theorem mark_modify_skip {s : RegisterSets α} {i : Nat} (h : s.isValid i = true) :
    (s.modify i fun set => { set with skip := true }).mark =
      Function.update s.mark i (some true) := by
  obtain ⟨set, hget, hvalid⟩ := (isValid_iff s i).1 h
  funext j
  by_cases hij : i = j
  · subst hij
    simp [mark, hget, hvalid]
  · rw [Function.update_of_ne (Ne.symm hij)]
    exact mark_modify_of_ne s hij _

def validIndices (s : RegisterSets α) : List Nat := (List.range s.size).filter s.isValid

theorem mem_validIndices (s : RegisterSets α) (i : Nat) :
    i ∈ s.validIndices ↔ s.isValid i = true := by
  simp only [validIndices, List.mem_filter, List.mem_range, and_iff_right_iff_imp]
  exact lt_size_of_isValid

theorem nodup_validIndices (s : RegisterSets α) : s.validIndices.Nodup :=
  List.nodup_range.filter _

theorem length_validIndices (s : RegisterSets α) : s.validIndices.length = s.validCount := by
  obtain ⟨sets⟩ := s
  simp only [validIndices, validCount, size, ← List.countP_eq_length_filter]
  induction sets with
  | nil => rfl
  | cons set sets ih =>
    rw [List.length_cons, List.range_succ_eq_map, List.countP_cons, List.countP_map,
      List.countP_cons, ← ih]
    rfl

theorem validCount_congr {s s' : RegisterSets α} (hsize : s'.size = s.size)
    (hvalid : ∀ i, s'.isValid i = s.isValid i) : s'.validCount = s.validCount := by
  have hindices : s'.validIndices = s.validIndices := by
    rw [validIndices, validIndices, hsize]
    exact List.filter_congr fun i _ => hvalid i
  rw [← length_validIndices, hindices, length_validIndices]

theorem validCount_le_size (s : RegisterSets α) : s.validCount ≤ s.size :=
  List.countP_le_length

theorem validCount_eq_zero {s : RegisterSets α} (h : ∀ i, s.isValid i = false) :
    s.validCount = 0 := by
  rw [← length_validIndices, List.length_eq_zero_iff, List.eq_nil_iff_forall_not_mem]
  intro i hi
  rw [mem_validIndices, h i] at hi
  cases hi

theorem one_lt_validCount {s : RegisterSets α} {i j : Nat} (hi : s.isValid i = true)
    (hj : s.isValid j = true) (hne : i ≠ j) : 1 < s.validCount := by
  rw [← length_validIndices]
  have hsub : [i, j].Subperm s.validIndices := by
    apply List.subperm_of_subset (by simp [hne])
    simp [mem_validIndices, hi, hj]
  exact hsub.length_le

theorem validCount_of_taken {s s' : RegisterSets α} (slot : Nat) (hfree : s.isValid slot = false)
    (htaken : s'.isValid slot = true)
    (hothers : ∀ i, i ≠ slot → s'.isValid i = s.isValid i) :
    s'.validCount = s.validCount + 1 := by
  have hnew : slot ∉ s.validIndices := by
    rw [mem_validIndices, hfree]
    decide
  have hperm : s'.validIndices.Perm (slot :: s.validIndices) := by
    apply (List.perm_ext_iff_of_nodup s'.nodup_validIndices
      (List.nodup_cons.2 ⟨hnew, s.nodup_validIndices⟩)).2
    intro i
    rw [List.mem_cons, mem_validIndices, mem_validIndices]
    by_cases hi : i = slot
    · subst hi
      simp [htaken]
    · simp [hi, hothers i hi]
  rw [← length_validIndices, hperm.length_eq, List.length_cons, length_validIndices]

theorem validCount_of_mark {s s' : RegisterSets α} (h : s'.mark = s.mark) :
    s'.validCount = s.validCount := by
  have hperm : s'.validIndices.Perm s.validIndices := by
    apply (List.perm_ext_iff_of_nodup s'.nodup_validIndices s.nodup_validIndices).2
    intro i
    rw [mem_validIndices, mem_validIndices, ← isSome_mark, h, isSome_mark]
  rw [← length_validIndices, hperm.length_eq, length_validIndices]

theorem validCount_of_update {s s' : RegisterSets α} {slot : Nat} {skip : Bool}
    (hfree : s.mark slot = none) (h : s'.mark = Function.update s.mark slot (some skip)) :
    s'.validCount = s.validCount + 1 := by
  refine validCount_of_taken slot ?_ ?_ fun i hi => ?_
  · rw [← isSome_mark, hfree]
    rfl
  · rw [← isSome_mark, h, Function.update_self]
    rfl
  · rw [← isSome_mark, h, Function.update_of_ne hi, isSome_mark]

/-- Set `slot` was taken and is free, and no other set is a different one. -/
structure Releases (s s' : RegisterSets α) (slot : Nat) : Prop where
  before : s.isValid slot = true
  after : s'.isValid slot = false
  others : ∀ i, i ≠ slot → s'.get? i = s.get? i

namespace Releases

variable {s s' : RegisterSets α} {slot : Nat}

theorem validCount (h : Releases s s' slot) : s.validCount = s'.validCount + 1 :=
  validCount_of_taken slot h.after h.before fun i hi => (isValid_eq_of_get? (h.others i hi)).symm

theorem release (h : s.isValid slot = true) : Releases s (s.release slot) slot where
  before := h
  after := by
    rw [← Bool.not_eq_true, isValid_release]
    exact fun hvalid => hvalid.2 rfl
  others _ hi := get?_release_of_ne s (Ne.symm hi)

theorem modify_release (h : s.isValid slot = true) (f : RegisterSet α → RegisterSet α) :
    Releases s ((s.modify slot f).release slot) slot where
  before := h
  after := by
    rw [← Bool.not_eq_true, isValid_release]
    exact fun hvalid => hvalid.2 rfl
  others _ hi :=
    (get?_release_of_ne _ (Ne.symm hi)).trans (get?_modify_of_ne s (Ne.symm hi) f)

end Releases

end VideoAccel.RegisterSets
