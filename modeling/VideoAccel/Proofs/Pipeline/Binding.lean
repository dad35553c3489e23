import Mathlib.Data.Set.Card
import VideoAccel.Proofs.Pipeline.Basic

namespace VideoAccel

variable {σ : Type} {tasks tasks' : Nat → Task} {b b' : Backend}

/-- Each task in flight has one taken register set to itself, and the queue holds the sets of
submitted tasks, none twice and none of a task that bypasses the hardware. -/
structure Bound (tasks : Nat → Task) (b : Backend) : Prop where
  slot : ∀ i, (tasks i).slot.isSome = (tasks i).inFlight
  distinct : ∀ i j slot, (tasks i).slot = some slot → (tasks j).slot = some slot → i = j
  valid : ∀ slot, b.sets.isValid slot = true ↔ ∃ i, (tasks i).slot = some slot
  nodup : b.submitted.Nodup
  queued : ∀ slot ∈ b.submitted, b.sets.mark slot = some false ∧
    ∃ i, (tasks i).slot = some slot ∧ (tasks i).state = .submitted

namespace Bound

theorem exists_slot (h : Bound tasks b) {i : Nat} (hi : (tasks i).inFlight = true) :
    ∃ slot, (tasks i).slot = some slot :=
  Option.isSome_iff_exists.1 ((h.slot i).trans hi)

theorem slot_eq_none (h : Bound tasks b) {i : Nat} (hi : (tasks i).inFlight = false) :
    (tasks i).slot = none := by
  rw [← Option.not_isSome_iff_eq_none, h.slot i, hi]
  decide

theorem exists_mark (h : Bound tasks b) {i slot : Nat} (hslot : (tasks i).slot = some slot) :
    ∃ skip, b.sets.mark slot = some skip := by
  rw [← Option.isSome_iff_exists, RegisterSets.isSome_mark]
  exact (h.valid slot).2 ⟨i, hslot⟩

theorem mark_of_get? (h : Bound tasks b) {i slot : Nat} {set : RegisterSet RegisterImage}
    (hslot : (tasks i).slot = some slot) (hget : b.sets.get? slot = some set) :
    b.sets.mark slot = some set.skip := by
  obtain ⟨skip, hmark⟩ := h.exists_mark hslot
  obtain ⟨set', hget', _, hskip⟩ := RegisterSets.mark_eq_some hmark
  obtain rfl := Option.some.inj (hget.symm.trans hget')
  rw [hmark, hskip]

theorem mark_of_wait (h : Bound tasks b) {i slot : Nat} {skip : Bool}
    (hslot : (tasks i).slot = some slot) (hskip : (b.sets.get? slot).any (·.skip) = skip) :
    b.sets.mark slot = some skip := by
  obtain ⟨skip', hmark⟩ := h.exists_mark hslot
  obtain ⟨set, hget, _, rfl⟩ := RegisterSets.mark_eq_some hmark
  rw [hmark, ← hskip, hget]
  rfl

/-- What becomes of a task and a set that have nothing in the queue does not show there. -/
theorem queued_update (h : Bound tasks b) {i slot : Nat} {t : Task} {skip : Option Bool}
    (hmark : b'.sets.mark = Function.update b.sets.mark slot skip)
    (hqueue : b'.submitted ⊆ b.submitted)
    (hgone : ∀ s ∈ b'.submitted, s ≠ slot ∧ (tasks i).slot ≠ some s) :
    ∀ s ∈ b'.submitted, b'.sets.mark s = some false ∧
      ∃ j, (Function.update tasks i t j).slot = some s ∧
        (Function.update tasks i t j).state = .submitted := by
  intro s hs
  obtain ⟨hskip, j, hj, hsub⟩ := h.queued s (hqueue hs)
  obtain ⟨hne, hi⟩ := hgone s hs
  have hji : j ≠ i := by
    rintro rfl
    exact hi hj
  refine ⟨by rw [hmark, Function.update_of_ne hne, hskip], j, ?_⟩
  simpa [hji] using ⟨hj, hsub⟩

theorem bind (h : Bound tasks b) {i slot : Nat} {t : Task} {skip : Bool}
    (hi : (tasks i).inFlight = false) (hfree : b.sets.mark slot = none)
    (hslot : t.slot = some slot) (hstate : t.state = .registersGenerated)
    (hmark : b'.sets.mark = Function.update b.sets.mark slot (some skip))
    (hqueue : b'.submitted = b.submitted) : Bound (Function.update tasks i t) b' := by
  have hnone := h.slot_eq_none hi
  have hfresh : ∀ j, (tasks j).slot ≠ some slot := by
    intro j hj
    obtain ⟨skip, hskip⟩ := h.exists_mark hj
    rw [hfree] at hskip
    cases hskip
  have hbound : ∀ j s, (Function.update tasks i t j).slot = some s ↔
      j = i ∧ s = slot ∨ (tasks j).slot = some s := by
    intro j s
    by_cases hj : j = i
    · subst hj
      simp [hslot, hnone, eq_comm]
    · simp [hj]
  refine ⟨fun j => ?_, fun j k s hj hk => ?_, fun s => ?_, hqueue ▸ h.nodup, ?_⟩
  · by_cases hj : j = i
    · subst hj
      simp [hslot, Task.inFlight, hstate]
    · simpa [hj] using h.slot j
  · obtain ⟨hji, hs⟩ | hj' := (hbound j s).1 hj <;> obtain ⟨hki, hs'⟩ | hk' := (hbound k s).1 hk
    · exact hji.trans hki.symm
    · exact absurd (hs ▸ hk') (hfresh k)
    · exact absurd (hs' ▸ hj') (hfresh j)
    · exact h.distinct j k s hj' hk'
  · rw [← RegisterSets.isSome_mark, hmark]
    simp only [hbound, exists_or, exists_and_right, exists_eq, true_and]
    by_cases hs : s = slot
    · simp [hs]
    · rw [Function.update_of_ne hs, RegisterSets.isSome_mark, h.valid s]
      simp [hs]
  · refine h.queued_update hmark (fun s hs => hqueue ▸ hs) fun s hs => ⟨?_, by simp [hnone]⟩
    rintro rfl
    obtain ⟨_, j, hj, _⟩ := h.queued s (hqueue ▸ hs)
    exact hfresh j hj

theorem release (h : Bound tasks b) {i slot : Nat} {t : Task}
    (hslot : (tasks i).slot = some slot) (hnone : t.slot = none) (ht : t.inFlight = false)
    (hmark : b'.sets.mark = Function.update b.sets.mark slot none)
    (hqueue : b'.submitted.Sublist b.submitted) (hgone : slot ∉ b'.submitted) :
    Bound (Function.update tasks i t) b' := by
  have hbound : ∀ j s, (Function.update tasks i t j).slot = some s ↔
      s ≠ slot ∧ (tasks j).slot = some s := by
    intro j s
    by_cases hj : j = i
    · subst hj
      simp [hslot, hnone, eq_comm]
    · have hne : (tasks j).slot = some s → s ≠ slot := by
        rintro hs rfl
        exact hj (h.distinct j i s hs hslot)
      simpa [hj] using hne
  refine ⟨fun j => ?_, fun j k s hj hk => ?_, fun s => ?_, h.nodup.sublist hqueue, ?_⟩
  · by_cases hj : j = i
    · subst hj
      simp [hnone, ht]
    · simpa [hj] using h.slot j
  · exact h.distinct j k s ((hbound j s).1 hj).2 ((hbound k s).1 hk).2
  · rw [← RegisterSets.isSome_mark, hmark]
    simp only [hbound, exists_and_left]
    by_cases hs : s = slot
    · simp [hs]
    · rw [Function.update_of_ne hs, RegisterSets.isSome_mark, h.valid s]
      simp [hs]
  · refine h.queued_update hmark hqueue.subset fun s hs => ?_
    have hne : s ≠ slot := by
      rintro rfl
      exact hgone hs
    exact ⟨hne, by simpa [hslot] using Ne.symm hne⟩

theorem keep (h : Bound tasks b) (hslot : ∀ i, (tasks' i).slot = (tasks i).slot)
    (hflight : ∀ i, (tasks' i).inFlight = (tasks i).inFlight)
    (hstate : ∀ i, (tasks i).state = .submitted → (tasks' i).state = .submitted)
    (hmark : b'.sets.mark = b.sets.mark) (hqueue : b'.submitted.Sublist b.submitted) :
    Bound tasks' b' := by
  refine ⟨fun i => ?_, fun i j s hi hj => ?_, fun s => ?_, h.nodup.sublist hqueue, fun s hs => ?_⟩
  · rw [hslot, hflight]
    exact h.slot i
  · rw [hslot] at hi hj
    exact h.distinct i j s hi hj
  · rw [← RegisterSets.isSome_mark, hmark, RegisterSets.isSome_mark]
    simpa only [hslot] using h.valid s
  · obtain ⟨hskip, i, hi, hsub⟩ := h.queued s (hqueue.subset hs)
    exact ⟨by rw [hmark, hskip], i, by rw [hslot, hi], hstate i hsub⟩

theorem update (h : Bound tasks b) {i : Nat} {t : Task} (hslot : t.slot = (tasks i).slot)
    (hflight : t.inFlight = (tasks i).inFlight)
    (hstate : (tasks i).state = .submitted → t.state = .submitted) :
    Bound (Function.update tasks i t) b := by
  refine h.keep (fun j => ?_) (fun j => ?_) (fun j hj => ?_) rfl (List.Sublist.refl _)
  all_goals
    by_cases hji : j = i
    · subst hji
      simp_all
    · simp_all

theorem enqueue (h : Bound tasks b) {i slot : Nat} (hslot : (tasks i).slot = some slot)
    (hstate : (tasks i).state = .submitted) (hskip : b.sets.mark slot = some false)
    (hnew : slot ∉ b.submitted) (hmark : b'.sets.mark = b.sets.mark)
    (hqueue : b'.submitted = b.submitted ++ [slot]) : Bound tasks b' where
  slot := h.slot
  distinct := h.distinct
  valid s := by
    rw [← RegisterSets.isSome_mark, hmark, RegisterSets.isSome_mark]
    exact h.valid s
  nodup := by
    rw [hqueue, ← List.concat_eq_append]
    exact h.nodup.concat hnew
  queued s hs := by
    rw [hqueue, List.mem_append, List.mem_singleton] at hs
    rw [hmark]
    obtain hs | rfl := hs
    · exact h.queued s hs
    · exact ⟨hskip, i, hslot, hstate⟩

end Bound

end VideoAccel
