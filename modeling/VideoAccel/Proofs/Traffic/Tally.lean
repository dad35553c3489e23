import VideoAccel.Proofs.Platform.Bench
import VideoAccel.Proofs.Traffic.Exactness

namespace VideoAccel

variable {σ : Type}

inductive EventKind
  /-- Registers were generated into a set that the task is bound to from then on. -/
  | bound
  | started
  /-- The channel refused the batch. -/
  | rejected
  /-- The completion was reported. -/
  | completed
  deriving DecidableEq, Repr

structure Event where
  kind : EventKind
  task : Nat
  /-- The task bypasses the hardware. -/
  skipped : Bool := false
  deriving DecidableEq, Repr

namespace Pipeline

def skips (p : Pipeline σ) (i : Nat) : Bool :=
  ((p.tasks i).slot.bind p.engine.backend.sets.mark).getD false

/-- What a step does to a task, as the caller learns it. -/
def events (device : Device σ) (p : Pipeline σ) : Action → List Event
  | .generate i =>
    match (p.engine.generate device (p.tasks i)).result with
    | .ok () => [{ kind := .bound, task := i }]
    | .error _ => []
  | .start i =>
    match (p.engine.start device (p.tasks i)).result with
    | .ok () => [{ kind := .started, task := i, skipped := p.skips i }]
    | .error (.submitFailed _) => [{ kind := .rejected, task := i }]
    | .error _ => []
  | .wait i =>
    (p.engine.wait device (p.tasks i)).report.toList.map fun report =>
      { kind := .completed, task := i, skipped := report.skipped }
  | .recycle _ | .edit .. | .control _ | .frames _ | .flush | .reset => []

def history (device : Device σ) (p : Pipeline σ) : List Action → List Event
  | [] => []
  | a :: actions => p.events device a ++ (p.step device a).history device actions

end Pipeline

def Message.isSubmit : Message → Bool
  | .submit .. => true
  | _ => false

def Message.isPoll : Message → Bool
  | .poll _ => true
  | _ => false

theorem countP_submit {log log' : List Message} {batch : Batch} {answer : Except ChannelError Unit}
    (h : log' = .submit batch answer :: log) :
    log'.countP Message.isSubmit = log.countP Message.isSubmit + 1 ∧
      log'.countP Message.isPoll = log.countP Message.isPoll := by
  subst h
  exact ⟨List.countP_cons_of_pos rfl, List.countP_cons_of_neg nofun⟩

theorem countP_poll {log log' : List Message} {answer : Except ChannelError Readback}
    (h : log' = .poll answer :: log) :
    log'.countP Message.isSubmit = log.countP Message.isSubmit ∧
      log'.countP Message.isPoll = log.countP Message.isPoll + 1 := by
  subst h
  exact ⟨List.countP_cons_of_neg nofun, List.countP_cons_of_pos rfl⟩

def Task.phase (t : Task) : Option TaskState := if t.inFlight then some t.state else none

structure Account where
  phase : Nat → Option TaskState
  taken : Nat
  submits : Nat
  polls : Nat

def Pipeline.account (p : Pipeline (Recorded σ)) : Account where
  phase i := (p.tasks i).phase
  taken := p.engine.backend.tasksInFlight
  submits := p.engine.device.log.countP Message.isSubmit
  polls := p.engine.device.log.countP Message.isPoll

inductive Moves (a : Account) : Account → List Event → Prop
  | quiet : Moves a a []
  | bound (i : Nat) (hphase : a.phase i = none) :
    Moves a
      { a with
        phase := Function.update a.phase i (some .registersGenerated), taken := a.taken + 1 }
      [{ kind := .bound, task := i }]
  | started (i : Nat) (skipped : Bool) (hphase : a.phase i = some .registersGenerated) :
    Moves a
      { a with
        phase := Function.update a.phase i (some .submitted)
        submits := a.submits + (!skipped).toNat }
      [{ kind := .started, task := i, skipped }]
  | rejected (i taken : Nat) (hphase : a.phase i = some .registersGenerated)
    (htaken : a.taken = taken + 1) :
    Moves a
      { a with phase := Function.update a.phase i none, taken, submits := a.submits + 1 }
      [{ kind := .rejected, task := i }]
  | completed (i taken : Nat) (skipped : Bool) (hphase : a.phase i = some .submitted)
    (htaken : a.taken = taken + 1) :
    Moves a
      { a with
        phase := Function.update a.phase i none, taken, polls := a.polls + (!skipped).toNat }
      [{ kind := .completed, task := i, skipped }]

theorem Moves.of_eq {a b b' : Account} {events : List Event} (h : Moves a b events)
    (hphase : b'.phase = b.phase) (htaken : b'.taken = b.taken) (hsubmits : b'.submits = b.submits)
    (hpolls : b'.polls = b.polls) : Moves a b' events := by
  obtain ⟨phase, taken, submits, polls⟩ := b'
  obtain rfl : phase = b.phase := hphase
  obtain rfl : taken = b.taken := htaken
  obtain rfl : submits = b.submits := hsubmits
  obtain rfl : polls = b.polls := hpolls
  exact h

def Balanced (f : Account → Nat) (gain loss : Event → Bool) : Prop :=
  ∀ a a' events, Moves a a' events →
    f a' + events.countP loss = f a + events.countP gain

theorem balanced_ready (i : Nat) :
    Balanced (fun a => if a.phase i = some .registersGenerated then 1 else 0)
      (fun x => x.kind = .bound ∧ x.task = i)
      (fun x => (x.kind = .started ∨ x.kind = .rejected) ∧ x.task = i) := by
  intro a a' events h
  cases h with
  | quiet => rfl
  | bound j hphase | started j _ hphase | rejected j _ hphase | completed j _ _ hphase =>
    by_cases hj : j = i
    · subst hj
      simp [hphase]
    · simp [hj, Function.update_of_ne (Ne.symm hj)]

theorem balanced_submitted (i : Nat) :
    Balanced (fun a => if a.phase i = some .submitted then 1 else 0)
      (fun x => x.kind = .started ∧ x.task = i) (fun x => x.kind = .completed ∧ x.task = i) := by
  intro a a' events h
  cases h with
  | quiet => rfl
  | bound j hphase | started j _ hphase | rejected j _ hphase | completed j _ _ hphase =>
    by_cases hj : j = i
    · subst hj
      simp [hphase]
    · simp [hj, Function.update_of_ne (Ne.symm hj)]

theorem balanced_taken :
    Balanced Account.taken (fun x => x.kind = .bound)
      (fun x => x.kind = .rejected ∨ x.kind = .completed) := by
  intro a a' events h
  cases h with
  | quiet | bound | started => rfl
  | rejected _ _ _ htaken | completed _ _ _ _ htaken => exact htaken.symm

theorem balanced_submits :
    Balanced Account.submits
      (fun x => x.kind = .started ∧ x.skipped = false ∨ x.kind = .rejected) (fun _ => false) := by
  intro a a' events h
  cases h with
  | quiet | bound | rejected | completed => rfl
  | started _ skipped => cases skipped <;> rfl

theorem balanced_polls :
    Balanced Account.polls (fun x => x.kind = .completed ∧ x.skipped = false)
      (fun _ => false) := by
  intro a a' events h
  cases h with
  | quiet | bound | rejected | started => rfl
  | completed _ _ skipped => cases skipped <;> rfl

theorem Balanced.trans {f : Account → Nat} {gain loss : Event → Bool} (h : Balanced f gain loss)
    {a a' a'' : Account} {events rest : List Event} (hmoves : Moves a a' events)
    (hrest : f a'' + rest.countP loss = f a' + rest.countP gain) :
    f a'' + (events ++ rest).countP loss = f a + (events ++ rest).countP gain := by
  have hstep := h a a' events hmoves
  rw [List.countP_append, List.countP_append]
  omega

theorem phase_update (tasks : Nat → Task) (i : Nat) (t : Task) :
    (fun j => (Function.update tasks i t j).phase) =
      Function.update (fun j => (tasks j).phase) i t.phase := by
  funext j
  by_cases hj : j = i
  · subst hj
    simp
  · simp [hj]

theorem phase_after {t : Task} (p : Pipeline (Recorded σ)) (i : Nat) (h : t = p.tasks i) :
    (fun j => (Function.update p.tasks i t j).phase) = p.account.phase := by
  rw [h, Function.update_eq_self]
  rfl

theorem phase_of_inFlight {t : Task} (h : t.inFlight = false) : t.phase = none := by
  simp [Task.phase, h]

namespace Pipeline

variable {p : Pipeline (Recorded σ)} {device : Device σ}

theorem log_of_fillPicture {t : Task} {slot : Nat} {e e' : Engine (Recorded σ)}
    {result : Except BackendError Unit}
    (h : Engine.fillPicture device.recorded t slot e = (result, e')) :
    e'.device.log = e.device.log :=
  (Engine.refill_of_fillPicture h).transfer.keeps (P := fun r => r.log = e.device.log)
    (fun _ _ hs => hs) (fun _ _ hs => hs) rfl

theorem moves_generate (p : Pipeline (Recorded σ)) (device : Device σ) (i : Nat) :
    Moves p.account (p.step device.recorded (.generate i)).account
      (p.events device.recorded (.generate i)) := by
  have hgen := Engine.generated device.recorded (p.tasks i) p.engine
  simp only [step, events]
  generalize p.engine.generate device.recorded (p.tasks i) = o at hgen
  have hidle : (p.tasks i).state = .idle → p.account.phase i = none := by
    intro hstate
    exact phase_of_inFlight (by simp [Task.inFlight, hstate])
  have hlog : ∀ {slot sets result} {e' : Engine (Recorded σ)},
      Engine.fillPicture device.recorded (p.tasks i) slot (p.engine.withSets sets) =
        (result, e') → e'.device.log = p.engine.device.log := log_of_fillPicture
  cases hgen with
  | refused _ => exact Moves.quiet.of_eq (phase_after p i rfl) rfl rfl rfl
  | bypassed hstate _ hacquire =>
    refine (Moves.bound i (hidle hstate)).of_eq (phase_update ..) ?_ rfl rfl
    exact RegisterSets.validCount_of_update (RegisterSets.mark_acquire? hacquire).1
      (Engine.mark_of_bypassed hacquire)
  | failed hstate _ hacquire hfill _ =>
    have hsubmits := congrArg (List.countP Message.isSubmit) (hlog hfill)
    have hpolls := congrArg (List.countP Message.isPoll) (hlog hfill)
    refine Moves.quiet.of_eq (phase_after p i rfl) ?_ hsubmits hpolls
    exact RegisterSets.validCount_of_mark (Engine.mark_of_failed hacquire hfill)
  | filled hstate _ hacquire hfill =>
    have hsubmits := congrArg (List.countP Message.isSubmit) (hlog hfill)
    have hpolls := congrArg (List.countP Message.isPoll) (hlog hfill)
    refine (Moves.bound i (hidle hstate)).of_eq (phase_update ..) ?_ hsubmits hpolls
    exact RegisterSets.validCount_of_update (RegisterSets.mark_acquire? hacquire).1
      (Engine.mark_of_filled hacquire hfill)

theorem moves_start (h : Bound p.tasks p.engine.backend) (device : Device σ) (i : Nat) :
    Moves p.account (p.step device.recorded (.start i)).account
      (p.events device.recorded (.start i)) := by
  simp only [step, events]
  by_cases hstate : (p.tasks i).state = .registersGenerated
  · have hphase : p.account.phase i = some .registersGenerated := by
      simp [account, Task.phase, Task.inFlight, hstate]
    obtain ⟨slot, skip, hslot, hmark, hexact⟩ := h.exactStart device hstate
    have hskips : p.skips i = skip := by simp [skips, hslot, hmark]
    rw [hskips]
    cases skip with
    | true =>
      rw [hexact.bypassed rfl]
      exact (Moves.started i true hphase).of_eq (phase_update ..) rfl rfl rfl
    | false =>
      obtain ⟨batch, answer, hlog, hok, herror⟩ := hexact.sent rfl
      generalize p.engine.start device.recorded (p.tasks i) = o at hlog hok herror
      obtain ⟨hsubmits, hpolls⟩ := countP_submit hlog
      cases answer with
      | ok _ =>
        obtain ⟨hresult, htask, hbackend⟩ := hok rfl
        rw [hresult]
        have htaken := congrArg Backend.tasksInFlight hbackend
        refine (Moves.started i false hphase).of_eq ?_ htaken hsubmits hpolls
        exact (phase_update ..).trans (by rw [htask]; rfl)
      | error error =>
        obtain ⟨hresult, htask, hreleases, -⟩ := herror error rfl
        rw [hresult]
        refine (Moves.rejected i _ hphase hreleases.validCount).of_eq ?_ rfl hsubmits hpolls
        exact (phase_update ..).trans (by rw [htask]; rfl)
  · have hrefused : p.engine.start device.recorded (p.tasks i) =
        ⟨.error (.invalidState (p.tasks i).state .registersGenerated), p.tasks i, p.engine, none⟩ :=
      if_pos hstate
    rw [hrefused]
    exact Moves.quiet.of_eq (phase_after p i rfl) rfl rfl rfl

theorem moves_wait (h : Bound p.tasks p.engine.backend) (device : Device σ) (i : Nat) :
    Moves p.account (p.step device.recorded (.wait i)).account
      (p.events device.recorded (.wait i)) := by
  simp only [step, events]
  by_cases hstate : (p.tasks i).state = .submitted
  · have hphase : p.account.phase i = some .submitted := by
      simp [account, Task.phase, Task.inFlight, hstate]
    obtain ⟨slot, skip, hslot, hmark, hexact⟩ := h.exactWait device hstate
    by_cases hready : skip = true ∨ p.engine.backend.Due slot
    · obtain ⟨report, -, hreport, hdone, hskipped, htask, hreleases, -, hsilent, hpolled⟩ :=
        hexact.completes hready
      generalize p.engine.wait device.recorded (p.tasks i) = o at *
      have hphases : (p.after i o).account.phase = Function.update p.account.phase i none := by
        refine (phase_update ..).trans ?_
        rw [htask, phase_of_inFlight (by simp [Task.inFlight, hdone])]
        rfl
      rw [hreport, Option.toList_some, List.map_singleton, hskipped]
      have hcompleted := Moves.completed i _ skip hphase hreleases.validCount
      cases skip with
      | true =>
        have hlog := congrArg Recorded.log (hsilent rfl)
        exact hcompleted.of_eq hphases rfl (congrArg (List.countP Message.isSubmit) hlog)
          (congrArg (List.countP Message.isPoll) hlog)
      | false =>
        obtain ⟨answer, hlog, -⟩ := hpolled rfl
        obtain ⟨hsubmits, hpolls⟩ := countP_poll hlog
        exact hcompleted.of_eq hphases rfl hsubmits hpolls
    · obtain ⟨first, hrefused⟩ := hexact.refused hready
      rw [hrefused]
      exact Moves.quiet.of_eq (phase_after p i rfl) rfl rfl rfl
  · have hrefused : p.engine.wait device.recorded (p.tasks i) =
        ⟨.error (.invalidState (p.tasks i).state .submitted), p.tasks i, p.engine, none⟩ :=
      if_pos hstate
    rw [hrefused]
    exact Moves.quiet.of_eq (phase_after p i rfl) rfl rfl rfl

theorem phase_recycled (tasks : Nat → Task) (i : Nat) :
    (fun j => (recycled tasks i j).phase) = fun j => (tasks j).phase := by
  simp only [recycled]
  split
  · rename_i hdone
    rw [phase_update, phase_of_inFlight (by simp [Task.inFlight, Task.recycle]),
      ← phase_of_inFlight (t := tasks i) (by simp [Task.inFlight, hdone]), Function.update_eq_self]
  · rfl

theorem phase_withFields (tasks : Nat → Task) (i : Nat) (fields : Task) :
    (fun j => (Function.update tasks i ((tasks i).withFields fields) j).phase) =
      fun j => (tasks j).phase := by
  have hsame : ((tasks i).withFields fields).phase = (tasks i).phase := rfl
  rw [phase_update, hsame, Function.update_eq_self]

theorem moves_step (h : Bound p.tasks p.engine.backend) (device : Device σ) (a : Action) :
    Moves p.account (p.step device.recorded a).account (p.events device.recorded a) := by
  cases a with
  | generate i => exact moves_generate p device i
  | start i => exact moves_start h device i
  | wait i => exact moves_wait h device i
  | recycle i =>
    exact Moves.quiet.of_eq (phase_recycled p.tasks i) rfl rfl rfl
  | edit i fields =>
    exact Moves.quiet.of_eq (phase_withFields p.tasks i fields) rfl rfl rfl
  | control c =>
    obtain ⟨config, frames, hsame, _⟩ := Engine.control_eq c p.engine
    simp only [step, hsame]
    exact .quiet
  | frames | flush | reset => exact .quiet

theorem history_balanced {f : Account → Nat} {gain loss : Event → Bool}
    (hbalanced : Balanced f gain loss) (h : Bound p.tasks p.engine.backend) (device : Device σ)
    (actions : List Action) :
    f (p.run device.recorded actions).account +
        (p.history device.recorded actions).countP loss =
      f p.account + (p.history device.recorded actions).countP gain := by
  induction actions generalizing p with
  | nil => rfl
  | cons a actions ih =>
    exact hbalanced.trans (moves_step h device a) (ih (bound_step h device.recorded a))

end Pipeline

/-- The events of a run account for every task, every taken set and every message: a task is bound
as often as it is started or refused, unless it is still to be started, and it is started as often
as its completion is reported, unless it is still submitted. -/
structure Tallied (history : List Event) (p : Pipeline (Recorded σ)) : Prop where
  bound : ∀ i, history.countP (fun x => x.kind = .bound ∧ x.task = i) =
    history.countP (fun x => (x.kind = .started ∨ x.kind = .rejected) ∧ x.task = i) +
      if (p.tasks i).state = .registersGenerated then 1 else 0
  started : ∀ i, history.countP (fun x => x.kind = .started ∧ x.task = i) =
    history.countP (fun x => x.kind = .completed ∧ x.task = i) +
      if (p.tasks i).state = .submitted then 1 else 0
  taken : history.countP (fun x => x.kind = .bound) =
    history.countP (fun x => x.kind = .rejected ∨ x.kind = .completed) +
      p.engine.backend.tasksInFlight
  submits : p.engine.device.log.countP Message.isSubmit =
    history.countP fun x => x.kind = .started ∧ x.skipped = false ∨ x.kind = .rejected
  polls : p.engine.device.log.countP Message.isPoll =
    history.countP fun x => x.kind = .completed ∧ x.skipped = false

namespace Pipeline

variable {device : Device σ} {p : Pipeline σ}

def withRecord (p : Pipeline σ) : Pipeline (Recorded σ) := p.map fun state => { state }

theorem withRecord_run (device : Device σ) (p : Pipeline σ) (actions : List Action) :
    (p.withRecord.run device.recorded actions).map Recorded.state = p.run device actions := by
  rw [← (recorded_deviceMap device).run]
  rfl

theorem phase_eq_iff (t : Task) :
    (t.phase = some .registersGenerated ↔ t.state = .registersGenerated) ∧
      (t.phase = some .submitted ↔ t.state = .submitted) := by
  unfold Task.phase Task.inFlight
  cases t.state <;> decide

theorem tallied_of_run (hp : p.IsInitial device) (actions : List Action) :
    Tallied (p.withRecord.history device.recorded actions)
      (p.withRecord.run device.recorded actions) := by
  have hbound : Bound p.withRecord.tasks p.withRecord.engine.backend := hp.bound
  have hphase : ∀ i, p.withRecord.account.phase i = none := fun i =>
    phase_of_inFlight (hp.tasks i).2
  have htaken : p.withRecord.account.taken = 0 := by
    refine (RegisterSets.length_validIndices _).symm.trans (List.length_eq_zero_iff.2 ?_)
    refine List.filter_eq_nil_iff.2 fun slot _ => ?_
    rw [Bool.not_eq_true]
    exact hp.engine.ready.isValid slot
  have hbalanced : ∀ {f : Account → Nat} {gain loss : Event → Bool}, Balanced f gain loss →
      f p.withRecord.account = 0 →
        (p.withRecord.history device.recorded actions).countP gain =
          (p.withRecord.history device.recorded actions).countP loss +
            f (p.withRecord.run device.recorded actions).account := by
    intro f gain loss hf hzero
    have hsum := history_balanced hf hbound device actions
    rw [hzero, Nat.zero_add] at hsum
    rw [← hsum, Nat.add_comm]
  constructor
  · intro i
    have hcount := hbalanced (balanced_ready i) (by simp [hphase])
    simpa only [account, (phase_eq_iff _).1] using hcount
  · intro i
    have hcount := hbalanced (balanced_submitted i) (by simp [hphase])
    simpa only [account, (phase_eq_iff _).2] using hcount
  · exact hbalanced balanced_taken htaken
  · have hcount := hbalanced balanced_submits rfl
    rw [List.countP_false, Function.const_apply, Nat.zero_add] at hcount
    exact hcount.symm
  · have hcount := hbalanced balanced_polls rfl
    rw [List.countP_false, Function.const_apply, Nat.zero_add] at hcount
    exact hcount.symm

/-- In every run, whatever the channel answers, tasks are marked to be skipped when they are bound,
each start and each wait does exactly what it is to do, and the counts of all of them agree with
what is left in flight and with the messages. -/
theorem traffic_exact_of_run (hp : p.IsInitial device) (actions : List Action) :
    let q := p.withRecord.run device.recorded actions
    q.map Recorded.state = p.run device actions ∧
      (∀ i, (q.engine.generate device.recorded (q.tasks i)).result = .ok () → ∃ slot,
        (q.engine.generate device.recorded (q.tasks i)).task.slot = some slot ∧
          (q.engine.generate device.recorded (q.tasks i)).engine.backend.sets.mark slot =
            some ((q.tasks i).mustSkip q.engine.backend.config)) ∧
      (∀ i, (q.tasks i).state = .registersGenerated → ∃ slot skip,
        (q.tasks i).slot = some slot ∧ q.engine.backend.sets.mark slot = some skip ∧
          ExactStart device (q.tasks i) slot skip q.engine) ∧
      (∀ i, (q.tasks i).state = .submitted → ∃ slot skip,
        (q.tasks i).slot = some slot ∧ q.engine.backend.sets.mark slot = some skip ∧
          ExactWait device (q.tasks i) slot skip q.engine) ∧
      Tallied (p.withRecord.history device.recorded actions) q := by
  intro q
  have hrun : q.map Recorded.state = p.run device actions := withRecord_run device p actions
  have hbound : Bound q.tasks q.engine.backend := by
    have hplain := bound_run hp actions
    rw [← hrun] at hplain
    exact hplain
  exact ⟨hrun, fun i => Engine.mark_of_generate, fun i => hbound.exactStart device,
    fun i => hbound.exactWait device, tallied_of_run hp actions⟩

/-- One of two tasks has completed, and the other one is still submitted. -/
theorem traffic_exact_of_run_bench :
    let p := Bench.pipeline .rkv
    let actions : List Action := [.generate 0, .generate 1, .start 0, .start 1, .wait 0]
    let q := p.withRecord.run Bench.device.recorded actions
    p.IsInitial Bench.device ∧ (q.tasks 0).state = .completed ∧ (q.tasks 1).state = .submitted ∧
      (∃ slot skip, (q.tasks 1).slot = some slot ∧ q.engine.backend.sets.mark slot = some skip ∧
        ExactWait Bench.device (q.tasks 1) slot skip q.engine) ∧
      Tallied (p.withRecord.history Bench.device.recorded actions) q := by
  intro p actions
  have hp : p.IsInitial Bench.device := Bench.pipeline_isInitial .rkv
  have hstates : ((p.withRecord.run Bench.device.recorded actions).tasks 0).state = .completed ∧
      ((p.withRecord.run Bench.device.recorded actions).tasks 1).state = .submitted := by
    decide +kernel
  obtain ⟨-, -, -, hwait, htallied⟩ := traffic_exact_of_run hp actions
  generalize p.withRecord.run Bench.device.recorded actions = q at *
  exact ⟨hp, hstates.1, hstates.2, hwait 1 hstates.2, htallied⟩

end Pipeline

end VideoAccel
