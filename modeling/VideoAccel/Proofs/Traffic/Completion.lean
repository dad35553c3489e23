import VideoAccel.Proofs.Batch.Status
import VideoAccel.Proofs.Platform.Bench
import VideoAccel.Proofs.Traffic.Attribution

namespace VideoAccel

variable {σ : Type} {device : Device σ} {pending : σ → List Batch}

/-- The report tells what a poll answered: the words that were read, and what the registers in them
say of the task. A poll that failed has nothing to read, and only the report of a timeout says so. -/
structure CompletionReport.Tells (r : CompletionReport) (g : Generation)
    (answer : Except ChannelError Readback) : Prop where
  read : ∀ readback, answer = .ok readback →
    r.status = readback.flatten ∧ r.timedOut = false ∧
      (r.hardError = true ↔ g.Failed (readback.file g.statusReads)) ∧
      r.refUsed = g.referencesUsed (readback.file g.statusReads)
  failed : ∀ e, answer = .error e →
    r.status = [] ∧ r.hardError = true ∧ r.refUsed = none ∧ (r.timedOut = true ↔ e = .timeout)

theorem CompletionReport.tells_complete (t : Task) (slot : Nat) (g : Generation)
    (answer : Except ChannelError Readback) (e : Engine σ) {report : CompletionReport}
    (h : (e.complete t slot false (Engine.pollOutcome g answer)).report = some report) :
    report.Tells g answer := by
  cases h
  refine ⟨?_, ?_⟩
  · rintro readback rfl
    obtain ⟨hfailed, hused⟩ := g.reports_decodeStatus readback
    exact ⟨rfl, rfl, hfailed, hused⟩
  · rintro e rfl
    exact ⟨rfl, rfl, rfl, beq_iff_eq⟩

namespace Tracked

/-- The report of task `i` if it is waited for now. -/
def report (device : Device σ) (t : Tracked σ) (i : Nat) : Option CompletionReport :=
  (t.pipeline.engine.wait device.recorded (t.pipeline.tasks i)).report

/-- The report tells what one poll answered, and this poll took the oldest waiting batch, which is
the one that task `i` has the ticket of. -/
def Attributes (device : Device σ) (t : Tracked σ) (i : Nat) (report : CompletionReport) : Prop :=
  ∃ ticket others answer, t.tickets i = some ticket ∧ waiting t.log = ticket :: others ∧
    (t.step device (.wait i)).log = .poll answer :: t.log ∧
    report.Tells t.pipeline.engine.backend.generation answer

/-- A task gets the report of its own batch. One that lost its batch to a reset completes with a
hard error and takes no batch. -/
structure Right (device : Device σ) (t : Tracked σ) (i : Nat) : Prop where
  own : ∀ report, t.report device i = some report → report.skipped = false → ¬ t.Dropped i →
    t.Attributes device i report
  dropped : t.Dropped i → ∃ report, t.report device i = some report ∧ report.skipped = false ∧
    report.hardError = true ∧ report.status = [] ∧
    waiting (t.step device (.wait i)).log = waiting t.log

variable {t : Tracked σ} {i : Nat}

/-- Waiting for a task of the hardware polls the channel once. -/
theorem poll_of_report (h : t.Aligned pending) {report : CompletionReport}
    (hreport : t.report device i = some report) (hskipped : report.skipped = false) :
    ∃ slot queue answer, (t.pipeline.tasks i).slot = some slot ∧
      (t.pipeline.tasks i).state = .submitted ∧
      t.pipeline.engine.backend.sets.mark slot = some false ∧
      Engine.dequeue slot t.pipeline.engine.backend.submitted = .ok queue ∧
      (device.channel.poll t.pipeline.engine.device.state).1 = answer ∧
      (t.step device (.wait i)).log = .poll answer :: t.log ∧
      report.Tells t.pipeline.engine.backend.generation answer := by
  have hwait := Engine.waited device.recorded (t.pipeline.tasks i) t.pipeline.engine
  have hlog : (t.step device (.wait i)).log =
      (t.pipeline.engine.wait device.recorded (t.pipeline.tasks i)).engine.device.log := rfl
  rw [hlog]
  rw [Tracked.report] at hreport
  generalize t.pipeline.engine.wait device.recorded (t.pipeline.tasks i) = o at hwait hreport
  cases hwait with
  | refused | unbound | outOfOrder => cases hreport
  | bypassed =>
    cases hreport
    cases hskipped
  | @polled slot queue result state hstate hslot hdequeue hskip hpoll =>
    refine ⟨slot, queue, result, hslot, hstate, h.bound.mark_of_wait hslot hskip, hdequeue, ?_,
      log_of_record hpoll, CompletionReport.tells_complete _ _ _ _ _ hreport⟩
    exact congrArg Prod.fst hpoll

theorem Aligned.attributes (h : t.Aligned pending) {report : CompletionReport}
    (hreport : t.report device i = some report) (hskipped : report.skipped = false)
    (hdropped : ¬ t.Dropped i) : t.Attributes device i report := by
  obtain ⟨slot, queue, answer, hslot, hstate, hmark, hdequeue, _, hlog, htells⟩ :=
    poll_of_report h hreport hskipped
  obtain hhead | ⟨hnot, _⟩ := Engine.dequeue_eq_ok hdequeue
  · obtain ⟨ticket, others, hticket, hwaiting⟩ := h.ordered.ticket_of_cons h.bound hslot hhead
    exact ⟨ticket, others, answer, hticket, hwaiting, hlog, htells⟩
  · obtain ⟨ticket, hticket, hmem | hlt⟩ := h.ordered.ticketed i slot hslot hstate hmark
    · exact absurd hmem hnot
    · exact absurd ⟨hstate, ticket, hticket, hlt⟩ hdropped

theorem Aligned.report_of_dropped (h : t.Aligned pending) (device : Device σ)
    (hdropped : t.Dropped i) :
    ∃ report answer, t.report device i = some report ∧ report.skipped = false ∧
      (device.channel.poll t.pipeline.engine.device.state).1 = answer ∧
      (t.step device (.wait i)).log = .poll answer :: t.log ∧
      report.Tells t.pipeline.engine.backend.generation answer := by
  obtain ⟨hstate, ticket, hticket, hlt⟩ := hdropped
  obtain ⟨slot, hslot⟩ := h.bound.exists_slot (i := i) (by simp [Task.inFlight, hstate])
  have hnot := (h.ordered.dropped_iff h.bound hslot hstate hticket).1 hlt
  have hmark := h.ordered.mark_of_ticket h.bound hslot hstate hticket
  have hreport : ∃ report, t.report device i = some report ∧ report.skipped = false := by
    have hwait := Engine.waited device.recorded (t.pipeline.tasks i) t.pipeline.engine
    rw [Tracked.report]
    generalize t.pipeline.engine.wait device.recorded (t.pipeline.tasks i) = o at hwait
    cases hwait with
    | refused hother => exact absurd hstate hother
    | unbound _ hnone => simp [hslot] at hnone
    | outOfOrder _ hslot' hqueue _ hmem =>
      obtain rfl := Option.some.inj (hslot.symm.trans hslot')
      exact absurd (hqueue ▸ List.mem_cons_of_mem _ hmem) hnot
    | bypassed _ hslot' _ hskip =>
      obtain rfl := Option.some.inj (hslot.symm.trans hslot')
      have hmark' := h.bound.mark_of_wait hslot hskip
      rw [hmark] at hmark'
      cases hmark'
    | polled => exact ⟨_, rfl, rfl⟩
  obtain ⟨report, hreport, hskipped⟩ := hreport
  obtain ⟨_, _, answer, _, _, _, _, hpoll, hlog, htells⟩ := poll_of_report h hreport hskipped
  exact ⟨report, answer, hreport, hskipped, hpoll, hlog, htells⟩

theorem Aligned.right_iff (hdroppable : Droppable device pending) (h : t.Aligned pending) :
    t.Right device i ↔ ¬ t.Crosses i := by
  constructor
  · rintro hright ⟨hdropped, hwaiting⟩
    obtain ⟨report, answer, _, _, _, hlog, _⟩ := h.report_of_dropped device hdropped
    obtain ⟨_, _, _, _, _, hsame⟩ := hright.dropped hdropped
    rw [hlog] at hsame
    have hlength : (waiting t.log).tail.length = (waiting t.log).length :=
      congrArg List.length hsame
    have hpos := List.length_pos_iff.2 hwaiting
    rw [List.length_tail] at hlength
    omega
  · intro hcross
    refine ⟨fun report hreport hskipped hdropped => h.attributes hreport hskipped hdropped, ?_⟩
    intro hdropped
    have hempty : waiting t.log = [] := by
      by_contra hne
      exact hcross ⟨hdropped, hne⟩
    obtain ⟨report, answer, hreport, hskipped, hpoll, hlog, htells⟩ :=
      h.report_of_dropped device hdropped
    have hnothing : pending t.pipeline.engine.device.state = [] := by
      rw [h.inStep]
      exact congrArg (List.map Ticket.batch) hempty
    obtain ⟨e, he⟩ := hdroppable.empty _ hnothing
    rw [he] at hpoll
    subst hpoll
    obtain ⟨hstatus, herror, -⟩ := htells.failed e rfl
    refine ⟨report, hreport, hskipped, herror, hstatus, ?_⟩
    rw [hlog, waiting, hempty]
    rfl

/-- The property holds of each step of a run, at the state in which it is taken. -/
def Along (device : Device σ) (P : Tracked σ → Action → Prop) : Tracked σ → List Action → Prop
  | _, [] => True
  | t, a :: actions => P t a ∧ Along device P (t.step device a) actions

theorem Aligned.run (hfifo : Fifo device pending) {actions : List Action}
    (hreset : Action.reset ∉ actions) (h : t.Aligned pending) (hnone : lastReset t.log = 0) :
    (t.run device actions).Aligned pending ∧ lastReset (t.run device actions).log = 0 := by
  induction actions generalizing t with
  | nil => exact ⟨h, hnone⟩
  | cons a actions ih =>
    rw [List.mem_cons, not_or] at hreset
    obtain ⟨ha, hreset⟩ := hreset
    have hcross : ∀ i, ¬ t.Crosses i := by
      rintro i ⟨⟨_, ticket, _, hlt⟩, _⟩
      rw [hnone] at hlt
      exact absurd hlt (Nat.not_lt_zero _)
    have hstep : (t.step device a).Aligned pending :=
      h.step hfifo (fun heq => absurd heq.symm ha) fun i _ => hcross i
    exact ih hreset hstep ((lastReset_step device t (Ne.symm ha)).trans hnone)

/-- In a run without a reset, a completion report of a task of the hardware tells what the poll
answered that took the very batch this task had submitted, and the channel has as many batches
pending as the backend has sets in its queue. -/
theorem attributes_of_run (hfifo : Fifo device pending) {p : Pipeline σ} (hp : p.IsInitial device)
    (hempty : pending p.engine.device = []) {actions : List Action}
    (hreset : Action.reset ∉ actions) :
    let t := (ofPipeline p).run device actions
    t.pipeline.map Recorded.state = p.run device actions ∧
      (pending t.pipeline.engine.device.state).length =
        t.pipeline.engine.backend.submitted.length ∧
      pending t.pipeline.engine.device.state = (waiting t.log).map Ticket.batch ∧
      (∀ i j ticket ticket', t.tickets i = some ticket → t.tickets j = some ticket' →
        ticket.number = ticket'.number → i = j) ∧
      ∀ i report, t.report device i = some report → report.skipped = false →
        t.Attributes device i report := by
  intro t
  obtain ⟨haligned, hnone⟩ : t.Aligned pending ∧ lastReset t.log = 0 :=
    (Aligned.ofPipeline hp hempty).run hfifo hreset rfl
  refine ⟨run_ofPipeline device p actions, haligned.length_submitted, haligned.inStep,
    haligned.ordered.distinct, fun i report hreport hskipped => ?_⟩
  refine haligned.attributes hreport hskipped ?_
  rintro ⟨_, ticket, _, hlt⟩
  rw [hnone] at hlt
  exact absurd hlt (Nat.not_lt_zero _)

/-- Two tasks are generated and started, and the first one is waited for. -/
theorem attributes_of_run_bench :
    let actions : List Action := [.generate 0, .generate 1, .start 0, .start 1, .wait 0]
    let t := (ofPipeline (Bench.pipeline .rkv)).run Bench.device actions
    (Bench.pipeline .rkv).IsInitial Bench.device ∧
      Bench.pending (Bench.pipeline .rkv).engine.device = [] ∧
      Action.reset ∉ actions ∧
      ∃ report, t.report Bench.device 1 = some report ∧ report.skipped = false ∧
        t.Attributes Bench.device 1 report := by
  intro actions t
  have hp := Bench.pipeline_isInitial .rkv
  have hempty : Bench.pending (Bench.pipeline .rkv).engine.device = [] := by decide +kernel
  have hreset : Action.reset ∉ actions := by decide
  have hsome : (t.report Bench.device 1).any (fun report => !report.skipped) = true := by
    decide +kernel
  obtain ⟨report, hreport, hskipped⟩ := (Option.any_eq_true ..).1 hsome
  rw [Bool.not_eq_true'] at hskipped
  obtain ⟨_, _, _, _, hattributes⟩ := attributes_of_run Bench.fifo hp hempty hreset
  exact ⟨hp, hempty, hreset, report, hreport, hskipped, hattributes 1 report hreport hskipped⟩

def ResetsSucceed (device : Device σ) (t : Tracked σ) (a : Action) : Prop :=
  a = .reset → (t.pipeline.engine.reset device.recorded).1 = .ok ()

theorem reset_ok {e : Engine (Recorded σ)} (h : (e.reset device.recorded).1 = .ok ()) :
    (device.recorded.channel.reset e.device).1 = .ok () := by
  change (device.recorded.channel.reset e.device).1.mapError BackendError.channel = .ok () at h
  generalize (device.recorded.channel.reset e.device).1 = answer at h ⊢
  cases answer with
  | error e => cases h
  | ok _ => rfl

theorem Aligned.along_right_iff (hfifo : Fifo device pending)
    (hdroppable : Droppable device pending) {actions : List Action} (h : t.Aligned pending)
    (hresets : t.Along device (ResetsSucceed device) actions) :
    t.Along device (fun t a => ∀ i, a = .wait i → t.Right device i) actions ↔
      t.Along device (fun t a => ∀ i, a = .wait i → ¬ t.Crosses i) actions := by
  induction actions generalizing t with
  | nil => exact Iff.rfl
  | cons a actions ih =>
    obtain ⟨hreset, hresets⟩ := hresets
    have hfirst : (∀ i, a = .wait i → t.Right device i) ↔ ∀ i, a = .wait i → ¬ t.Crosses i :=
      forall_congr' fun i => imp_congr_right fun _ => h.right_iff hdroppable
    have hrest : (∀ i, a = .wait i → ¬ t.Crosses i) →
        ((t.step device a).Along device (fun t a => ∀ i, a = .wait i → t.Right device i)
            actions ↔
          (t.step device a).Along device (fun t a => ∀ i, a = .wait i → ¬ t.Crosses i)
            actions) := by
      intro hcross
      refine ih (h.step hfifo (fun ha => ?_) hcross) hresets
      subst ha
      exact hdroppable.reset_inStep (reset_ok (hreset rfl))
    simp only [Along, hfirst]
    exact and_congr_right hrest

/-- In a run whose resets succeed, every completion is answered rightly if and only if no task from
before a reset is waited for while a batch from after it is pending. -/
theorem right_iff_of_run (hfifo : Fifo device pending) (hdroppable : Droppable device pending)
    {p : Pipeline σ} (hp : p.IsInitial device) (hempty : pending p.engine.device = [])
    {actions : List Action}
    (hresets : (ofPipeline p).Along device (ResetsSucceed device) actions) :
    ((ofPipeline p).run device actions).pipeline.map Recorded.state = p.run device actions ∧
      ((ofPipeline p).Along device (fun t a => ∀ i, a = .wait i → t.Right device i) actions ↔
        (ofPipeline p).Along device (fun t a => ∀ i, a = .wait i → ¬ t.Crosses i) actions) :=
  ⟨run_ofPipeline device p actions,
    (Aligned.ofPipeline hp hempty).along_right_iff hfifo hdroppable hresets⟩

/-- The task from before the reset is waited for before another one is started. -/
theorem right_iff_of_run_bench :
    let actions : List Action :=
      [.generate 0, .start 0, .reset, .generate 1, .wait 0, .start 1, .wait 1]
    let t := ofPipeline (Bench.pipeline .rkv)
    (Bench.pipeline .rkv).IsInitial Bench.device ∧
      Bench.pending (Bench.pipeline .rkv).engine.device = [] ∧
      t.Along Bench.device (ResetsSucceed Bench.device) actions ∧
      t.Along Bench.device (fun t a => ∀ i, a = .wait i → t.Right Bench.device i) actions := by
  intro actions t
  have hp := Bench.pipeline_isInitial .rkv
  have hempty : Bench.pending (Bench.pipeline .rkv).engine.device = [] := by decide +kernel
  have hresets : t.Along Bench.device (ResetsSucceed Bench.device) actions := by
    refine ⟨nofun, nofun, fun _ => rfl, nofun, nofun, nofun, nofun, trivial⟩
  have hcross : t.Along Bench.device (fun t a => ∀ i, a = .wait i → ¬ t.Crosses i) actions := by
    refine ⟨nofun, nofun, nofun, nofun, ?_, nofun, ?_, trivial⟩ <;> rintro i ⟨⟩ <;> decide +kernel
  obtain ⟨_, hiff⟩ := right_iff_of_run Bench.fifo Bench.droppable hp hempty hresets
  exact ⟨hp, hempty, hresets, hiff.2 hcross⟩

/-- A task that lost its batch to a reset takes the batch of a task that was started since. It is
reported without an error, and the other one with an error of the hardware. -/
theorem dropped_task_takes_batch :
    let t := (ofPipeline (Bench.pipeline .rkv)).run Bench.device
      [.generate 0, .start 0, .reset, .generate 1, .start 1]
    t.Dropped 0 ∧ ¬ t.Right Bench.device 0 ∧
      (t.report Bench.device 0).map (·.hardError) = some false ∧
      ((t.step Bench.device (.wait 0)).report Bench.device 1).map (·.hardError) = some true := by
  intro t
  have hdropped : t.Dropped 0 := by decide +kernel
  have hstale : (t.report Bench.device 0).map (·.hardError) = some false := by decide +kernel
  have hfresh : ((t.step Bench.device (.wait 0)).report Bench.device 1).map (·.hardError) =
      some true := by decide +kernel
  refine ⟨hdropped, fun hright => ?_, hstale, hfresh⟩
  obtain ⟨report, hreport, _, herror, _⟩ := hright.dropped hdropped
  rw [hreport, Option.map_some, herror] at hstale
  cases hstale

end Tracked

end VideoAccel
