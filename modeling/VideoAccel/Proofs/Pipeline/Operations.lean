import VideoAccel.Proofs.Pipeline.Binding

namespace VideoAccel.Bound

variable {σ : Type} {tasks : Nat → Task} {e : Engine σ}

theorem generate (h : Bound tasks e.backend) (device : Device σ) (i : Nat) :
    Bound (Function.update tasks i (e.generate device (tasks i)).task)
      (e.generate device (tasks i)).engine.backend := by
  have hflight : (tasks i).state = .idle → (tasks i).inFlight = false := by
    intro hidle
    simp [Task.inFlight, hidle]
  have hgen := Engine.generated device (tasks i) e
  generalize e.generate device (tasks i) = o at hgen
  cases hgen with
  | refused _ => rwa [Function.update_eq_self]
  | bypassed hidle _ hacquire =>
    have hfree := (RegisterSets.mark_acquire? hacquire).1
    exact h.bind (hflight hidle) hfree rfl rfl (Engine.mark_of_bypassed hacquire) rfl
  | failed _ _ hacquire hfill _ =>
    have hqueue := (Engine.refill_of_fillPicture hfill).submitted
    rw [Function.update_eq_self]
    refine h.keep (fun _ => rfl) (fun _ => rfl) (fun _ => id) ?_ ?_
    · exact Engine.mark_of_failed hacquire hfill
    · exact (List.Sublist.refl _).trans (hqueue ▸ List.Sublist.refl _)
  | filled hidle _ hacquire hfill =>
    have hfree := (RegisterSets.mark_acquire? hacquire).1
    have hqueue := (Engine.refill_of_fillPicture hfill).submitted
    exact h.bind (hflight hidle) hfree rfl rfl (Engine.mark_of_filled hacquire hfill) hqueue

theorem not_mem_submitted {b : Backend} (h : Bound tasks b) {i slot : Nat}
    (hslot : (tasks i).slot = some slot) (hstate : (tasks i).state ≠ .submitted) :
    slot ∉ b.submitted := by
  intro hmem
  obtain ⟨_, j, hj, hsub⟩ := h.queued slot hmem
  obtain rfl := h.distinct j i slot hj hslot
  exact hstate hsub

theorem submitted {b : Backend} (h : Bound tasks b) {i : Nat}
    (hstate : (tasks i).state = .registersGenerated) :
    Bound (Function.update tasks i { tasks i with state := .submitted }) b :=
  h.update rfl (by simp [Task.inFlight, hstate]) fun _ => rfl

theorem start (h : Bound tasks e.backend) (device : Device σ) (i : Nat) :
    Bound (Function.update tasks i (e.start device (tasks i)).task)
      (e.start device (tasks i)).engine.backend := by
  have hstart := Engine.started device (tasks i) e
  generalize e.start device (tasks i) = o at hstart
  cases hstart with
  | refused | unbound | missing => rwa [Function.update_eq_self]
  | bypassed hstate => exact h.submitted hstate
  | @rejected slot set error state hstate hslot =>
    have hnot := h.not_mem_submitted hslot (by simp [hstate])
    exact h.release hslot rfl rfl (RegisterSets.mark_release ..) (List.Sublist.refl _) hnot
  | @accepted slot set state hstate hslot hget hskip =>
    have hnot := h.not_mem_submitted hslot (by simp [hstate])
    have hmark := h.mark_of_get? hslot hget
    rw [hskip] at hmark
    exact (h.submitted hstate).enqueue (i := i) (by simpa using hslot) (by simp) hmark hnot rfl rfl

/-- Completing a task takes its set out of the queue and releases it. -/
theorem complete (h : Bound tasks e.backend) {i slot : Nat} {queue : List Nat}
    (hslot : (tasks i).slot = some slot)
    (hdequeue : Engine.dequeue slot e.backend.submitted = .ok queue) (t : Task) (skipped : Bool)
    (p : Engine.PollOutcome) (state : σ) :
    let o := Engine.complete t slot skipped p
      { e with backend := { e.backend with submitted := queue }, device := state }
    Bound (Function.update tasks i o.task) o.engine.backend := by
  have hsub : queue.Sublist e.backend.submitted ∧ slot ∉ queue := by
    have hnodup := h.nodup
    obtain hq | ⟨hnot, rfl⟩ := Engine.dequeue_eq_ok hdequeue
    · rw [hq, List.nodup_cons] at hnodup
      exact ⟨hq ▸ List.sublist_cons_self slot queue, hnodup.1⟩
    · exact ⟨List.Sublist.refl _, hnot⟩
  exact h.release hslot rfl rfl (Engine.mark_complete ..) hsub.1 hsub.2

theorem wait (h : Bound tasks e.backend) (device : Device σ) (i : Nat) :
    Bound (Function.update tasks i (e.wait device (tasks i)).task)
      (e.wait device (tasks i)).engine.backend := by
  have hwait := Engine.waited device (tasks i) e
  generalize e.wait device (tasks i) = o at hwait
  cases hwait with
  | refused | unbound | outOfOrder => rwa [Function.update_eq_self]
  | bypassed _ hslot hdequeue | polled _ hslot hdequeue => exact h.complete hslot hdequeue ..

theorem recycled {b : Backend} (h : Bound tasks b) (i : Nat) : Bound (recycled tasks i) b := by
  unfold VideoAccel.recycled
  split
  · rename_i hdone
    have hflight : (tasks i).inFlight = false := by simp [Task.inFlight, hdone]
    exact h.update (h.slot_eq_none hflight).symm hflight.symm (by simp [hdone])
  · exact h

theorem withFields {b : Backend} (h : Bound tasks b) (i : Nat) (fields : Task) :
    Bound (Function.update tasks i ((tasks i).withFields fields)) b :=
  h.update rfl rfl id

theorem control (h : Bound tasks e.backend) (c : Control) :
    Bound tasks (e.control c).2.backend := by
  obtain ⟨config, frames, hsame, _⟩ := Engine.control_eq c e
  rw [hsame]
  exact { h with }

theorem reset (h : Bound tasks e.backend) (device : Device σ) :
    Bound tasks (e.reset device).2.backend :=
  h.keep (fun _ => rfl) (fun _ => rfl) (fun _ => id) rfl (List.nil_sublist _)

theorem of_free {b : Backend} (hslot : ∀ i, (tasks i).slot = none ∧ (tasks i).inFlight = false)
    (hsubmitted : b.submitted = []) (hfree : ∀ slot, b.sets.isValid slot = false) :
    Bound tasks b where
  slot i := by simp [hslot i]
  distinct i j slot hi := by simp [hslot i] at hi
  valid slot := by simp [hfree, hslot]
  nodup := by simp [hsubmitted]
  queued := by simp [hsubmitted]

theorem isInternal_start (h : Bound tasks e.backend) (device : Device σ) {i : Nat}
    {error : BackendError} (herror : (e.start device (tasks i)).result = .error error) :
    error.isInternal = false := by
  have hstart := Engine.started device (tasks i) e
  generalize e.start device (tasks i) = o at hstart herror
  cases hstart with
  | refused | rejected =>
    cases herror
    rfl
  | unbound hstate hnone =>
    obtain ⟨slot, hslot⟩ := h.exists_slot (i := i) (by simp [Task.inFlight, hstate])
    simp [hnone] at hslot
  | missing _ hslot hget =>
    obtain ⟨skip, hmark⟩ := h.exists_mark hslot
    obtain ⟨set, hset, _⟩ := RegisterSets.mark_eq_some hmark
    simp [hget] at hset
  | bypassed | accepted => cases herror

theorem isInternal_wait (h : Bound tasks e.backend) (device : Device σ) {i : Nat}
    {error : BackendError} (herror : (e.wait device (tasks i)).result = .error error) :
    error.isInternal = false := by
  have hwait := Engine.waited device (tasks i) e
  generalize e.wait device (tasks i) = o at hwait herror
  cases hwait with
  | refused | outOfOrder =>
    cases herror
    rfl
  | unbound hstate hnone =>
    obtain ⟨slot, hslot⟩ := h.exists_slot (i := i) (by simp [Task.inFlight, hstate])
    simp [hnone] at hslot
  | bypassed | polled => cases herror

theorem encard_inFlight {b : Backend} (h : Bound tasks b) :
    {i | (tasks i).inFlight = true}.encard = b.tasksInFlight := by
  have himage : (fun i => (tasks i).slot.getD 0) '' {i | (tasks i).inFlight = true} =
      (b.sets.validIndices.toFinset : Set Nat) := by
    ext slot
    simp only [Set.mem_image, Set.mem_ofPred_eq, List.coe_toFinset, RegisterSets.mem_validIndices,
      h.valid slot]
    constructor
    · rintro ⟨i, hi, hslot⟩
      obtain ⟨s, hs⟩ := h.exists_slot hi
      exact ⟨i, by simpa [hs] using hslot⟩
    · rintro ⟨i, hi⟩
      exact ⟨i, by simp [← h.slot i, hi], by simp [hi]⟩
  have hinj : Set.InjOn (fun i => (tasks i).slot.getD 0) {i | (tasks i).inFlight = true} := by
    intro i hi j hj hij
    obtain ⟨s, hs⟩ := h.exists_slot hi
    obtain ⟨s', hs'⟩ := h.exists_slot hj
    simp only [hs, hs', Option.getD_some] at hij
    exact h.distinct i j s hs (hij ▸ hs')
  rw [← hinj.encard_image, himage, Set.encard_coe_eq_coe_finsetCard,
    List.toFinset_card_of_nodup b.sets.nodup_validIndices, RegisterSets.length_validIndices]
  rfl

end VideoAccel.Bound
