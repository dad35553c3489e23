import VideoAccel.Proofs.Pipeline.Reachable
import VideoAccel.Proofs.Traffic.Transparency

namespace VideoAccel

variable {σ : Type}

/-- Task `t` in set `slot` is started. One that bypasses the hardware leaves everything as it is.
Any other one is submitted by a single message, and either joins the queue or is completed. -/
structure ExactStart (device : Device σ) (t : Task) (slot : Nat) (skip : Bool)
    (e : Engine (Recorded σ)) : Prop where
  unreported : (e.start device.recorded t).report = none
  bypassed : skip = true →
    e.start device.recorded t = ⟨.ok (), { t with state := .submitted }, e, none⟩
  sent : skip = false → ∃ batch answer,
    (e.start device.recorded t).engine.device.log = .submit batch answer :: e.device.log ∧
    (answer = .ok () →
      (e.start device.recorded t).result = .ok () ∧
      (e.start device.recorded t).task = { t with state := .submitted } ∧
      (e.start device.recorded t).engine.backend =
        { e.backend with submitted := e.backend.submitted ++ [slot] }) ∧
    ∀ error, answer = .error error →
      (e.start device.recorded t).result = .error (.submitFailed error) ∧
      (e.start device.recorded t).task = { t with slot := none, state := .completed } ∧
      e.backend.sets.Releases (e.start device.recorded t).engine.backend.sets slot ∧
      (e.start device.recorded t).engine.backend.submitted = e.backend.submitted

def Backend.Due (b : Backend) (slot : Nat) : Prop :=
  slot ∉ b.submitted ∨ b.submitted.head? = some slot

instance (b : Backend) (slot : Nat) : Decidable (b.Due slot) :=
  inferInstanceAs (Decidable (slot ∉ b.submitted ∨ b.submitted.head? = some slot))

/-- Task `t` in set `slot` is waited for. It completes with one report, after a single poll unless
it bypasses the hardware, and its set is released; one that has to wait for another task leaves
everything as it is. -/
structure ExactWait (device : Device σ) (t : Task) (slot : Nat) (skip : Bool)
    (e : Engine (Recorded σ)) : Prop where
  completes : skip = true ∨ e.backend.Due slot → ∃ report,
    (e.wait device.recorded t).result = .ok () ∧
    (e.wait device.recorded t).report = some report ∧
    report.task = { t with refUsed := report.refUsed, state := .completed } ∧
    report.skipped = skip ∧
    (e.wait device.recorded t).task = { report.task with slot := none } ∧
    e.backend.sets.Releases (e.wait device.recorded t).engine.backend.sets slot ∧
    (e.wait device.recorded t).engine.backend.submitted = e.backend.submitted.erase slot ∧
    (skip = true → (e.wait device.recorded t).engine.device = e.device) ∧
    (skip = false → ∃ answer,
      (e.wait device.recorded t).engine.device.log = .poll answer :: e.device.log ∧
      ∀ error, answer = .error error → report.hardError = true)
  refused : ¬ (skip = true ∨ e.backend.Due slot) → ∃ first,
    e.wait device.recorded t = ⟨.error (.outOfOrder first slot), t, e, none⟩

namespace Engine

variable {device : Device σ} {t : Task} {slot : Nat} {set : RegisterSet RegisterImage}
  {e : Engine σ}

theorem start_eq (hstate : t.state = .registersGenerated) (hslot : t.slot = some slot)
    (hget : e.backend.sets.get? slot = some set) :
    e.start device t =
      if set.skip then ⟨.ok (), { t with state := .submitted }, e, none⟩
      else submit device t slot set e := by
  simp [start, hstate, hslot, hget]

theorem wait_eq (hstate : t.state = .submitted) (hslot : t.slot = some slot)
    (hget : e.backend.sets.get? slot = some set) :
    e.wait device t =
      match dequeue slot e.backend.submitted with
      | .error error => ⟨.error error, t, e, none⟩
      | .ok submitted =>
        if set.skip then
          complete t slot true {} { e with backend := { e.backend with submitted } }
        else
          complete t slot false
            (pollOutcome e.backend.generation (device.channel.poll e.device).1)
            { e with
              backend := { e.backend with submitted }
              device := (device.channel.poll e.device).2 } := by
  cases hdequeue : dequeue slot e.backend.submitted with
  | error error => simp [wait, hstate, hslot, hdequeue]
  | ok submitted => simp [wait, hstate, hslot, hget, hdequeue]

theorem dequeue_cases (slot : Nat) (b : Backend) :
    b.Due slot ∧ dequeue slot b.submitted = .ok (b.submitted.erase slot) ∨
      ¬ b.Due slot ∧ ∃ first, dequeue slot b.submitted = .error (.outOfOrder first slot) := by
  cases hdequeue : dequeue slot b.submitted with
  | ok rest =>
    left
    obtain hhead | ⟨hnot, rfl⟩ := dequeue_eq_ok hdequeue
    · rw [hhead, List.erase_cons_head]
      exact ⟨.inr (by rw [hhead, List.head?_cons]), rfl⟩
    · rw [List.erase_of_not_mem hnot]
      exact ⟨.inl hnot, rfl⟩
  | error error =>
    right
    obtain ⟨first, rest, hqueue, hfirst, hmem, rfl⟩ := dequeue_eq_error hdequeue
    refine ⟨?_, first, rfl⟩
    rintro (hnot | hhead)
    · exact hnot (hqueue ▸ List.mem_cons_of_mem first hmem)
    · rw [hqueue, List.head?_cons] at hhead
      exact hfirst (Option.some.inj hhead)

/-- The set that a task is bound to is marked by whether the task is to be skipped. -/
theorem mark_of_generate (h : (e.generate device t).result = .ok ()) :
    ∃ slot, (e.generate device t).task.slot = some slot ∧
      (e.generate device t).engine.backend.sets.mark slot =
        some (t.mustSkip e.backend.config) := by
  have hgen := generated device t e
  generalize e.generate device t = o at h hgen
  cases hgen with
  | refused | failed => cases h
  | @bypassed slot _ _ hskip hacquire =>
    refine ⟨slot, rfl, ?_⟩
    rw [hskip]
    exact (congrFun (mark_of_bypassed hacquire) slot).trans (Function.update_self ..)
  | @filled slot _ _ _ hskip hacquire hfill =>
    refine ⟨slot, rfl, ?_⟩
    rw [hskip]
    exact (congrFun (mark_of_filled hacquire hfill) slot).trans (Function.update_self ..)

end Engine

namespace Bound

variable {tasks : Nat → Task} {e : Engine (Recorded σ)} {i slot : Nat} {skip : Bool}

theorem exists_set (h : Bound tasks e.backend) (hflight : (tasks i).inFlight = true) :
    ∃ slot set, (tasks i).slot = some slot ∧ e.backend.sets.get? slot = some set ∧
      e.backend.sets.isValid slot = true ∧ e.backend.sets.mark slot = some set.skip := by
  obtain ⟨slot, hslot⟩ := h.exists_slot hflight
  obtain ⟨skip, hmark⟩ := h.exists_mark hslot
  obtain ⟨set, hget, -, rfl⟩ := RegisterSets.mark_eq_some hmark
  exact ⟨slot, set, hslot, hget, (h.valid slot).2 ⟨i, hslot⟩, hmark⟩

theorem exactStart (h : Bound tasks e.backend) (device : Device σ)
    (hstate : (tasks i).state = .registersGenerated) :
    ∃ slot skip, (tasks i).slot = some slot ∧ e.backend.sets.mark slot = some skip ∧
      ExactStart device (tasks i) slot skip e := by
  have hflight : (tasks i).inFlight = true := by simp [Task.inFlight, hstate]
  obtain ⟨slot, set, hslot, hget, hvalid, hmark⟩ := h.exists_set hflight
  refine ⟨slot, set.skip, hslot, hmark, ?_⟩
  have hstart : e.start device.recorded (tasks i) = _ := Engine.start_eq hstate hslot hget
  constructor <;> rw [hstart]
  · split
    · rfl
    · simp only [Engine.submit]
      split <;> rfl
  · intro hskip
    rw [if_pos hskip]
  · intro hskip
    simp only [hskip, Bool.false_eq_true, if_false, Engine.submit]
    split <;> rename_i hsubmit
    · refine ⟨_, _, log_of_record hsubmit, fun hok => ?_, fun error herror => ?_⟩
      · cases hok
      · cases herror
        exact ⟨rfl, rfl, .release hvalid, rfl⟩
    · refine ⟨_, _, log_of_record hsubmit, fun _ => ⟨rfl, rfl, rfl⟩, fun error herror => ?_⟩
      cases herror

theorem exactWait (h : Bound tasks e.backend) (device : Device σ)
    (hstate : (tasks i).state = .submitted) :
    ∃ slot skip, (tasks i).slot = some slot ∧ e.backend.sets.mark slot = some skip ∧
      ExactWait device (tasks i) slot skip e := by
  have hflight : (tasks i).inFlight = true := by simp [Task.inFlight, hstate]
  obtain ⟨slot, set, hslot, hget, hvalid, hmark⟩ := h.exists_set hflight
  refine ⟨slot, set.skip, hslot, hmark, ?_⟩
  have hwait : e.wait device.recorded (tasks i) = _ := Engine.wait_eq hstate hslot hget
  -- a set that bypasses the hardware is not in the queue
  have hdue : set.skip = true → e.backend.Due slot := by
    intro hskip
    refine .inl fun hmem => ?_
    cases hskip.symm.trans (Option.some.inj (hmark.symm.trans (h.queued slot hmem).1))
  obtain ⟨hready, hdequeue⟩ | ⟨hnot, first, hdequeue⟩ := Engine.dequeue_cases slot e.backend
  · refine ⟨fun _ => ?_, fun hnot => absurd (.inr hready) hnot⟩
    rw [hwait, hdequeue]
    cases hskip : set.skip with
    | true =>
      refine ⟨_, rfl, rfl, rfl, rfl, rfl, .modify_release hvalid _, rfl, fun _ => rfl, ?_⟩
      intro hhard
      cases hhard
    | false =>
      have hpoll : device.recorded.channel.poll e.device = (_, _) := Prod.mk.eta.symm
      refine ⟨_, rfl, rfl, rfl, rfl, rfl, .modify_release hvalid _, rfl, fun hsoft => ?_, fun _ =>
        ⟨_, log_of_record hpoll, fun error herror => ?_⟩⟩
      · cases hsoft
      · simp only [herror]
        rfl
  · refine ⟨?_, fun _ => ⟨first, by rw [hwait, hdequeue]⟩⟩
    rintro (hskip | hready)
    · exact absurd (hdue hskip) hnot
    · exact absurd hready hnot

end Bound

end VideoAccel
