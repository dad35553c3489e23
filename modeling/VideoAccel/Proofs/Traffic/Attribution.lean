import VideoAccel.Proofs.Traffic.Tickets

namespace VideoAccel

variable {σ : Type} {device : Device σ} {pending : σ → List Batch}

namespace Ordered

variable {tasks : Nat → Task} {tickets : Nat → Option Ticket} {b : Backend} {log : List Message}
  {i slot : Nat} {ticket : Ticket}

theorem mark_of_ticket (h : Ordered tasks tickets b log) (hb : Bound tasks b)
    (hslot : (tasks i).slot = some slot) (hstate : (tasks i).state = .submitted)
    (hticket : tickets i = some ticket) : b.sets.mark slot = some false := by
  obtain ⟨skip, hskip⟩ := hb.exists_mark hslot
  cases skip with
  | false => exact hskip
  | true =>
    rw [h.bypassed i slot hslot hstate hskip] at hticket
    cases hticket

theorem ticket_of_cons (h : Ordered tasks tickets b log) (hb : Bound tasks b)
    (hslot : (tasks i).slot = some slot) {rest : List Nat} (hhead : b.submitted = slot :: rest) :
    ∃ ticket others, tickets i = some ticket ∧ waiting log = ticket :: others := by
  have hall := h.queue
  rw [hhead] at hall
  obtain ⟨ticket, others, ⟨j, hj, _, hticket⟩, _, hwaiting⟩ := List.forall₂_cons_left_iff.1 hall
  obtain rfl := hb.distinct j i slot hj hslot
  exact ⟨ticket, others, hticket, hwaiting⟩

/-- A submitted task has left the queue without completing when a reset came after its start. -/
theorem dropped_iff (h : Ordered tasks tickets b log) (hb : Bound tasks b)
    (hslot : (tasks i).slot = some slot) (hstate : (tasks i).state = .submitted)
    (hticket : tickets i = some ticket) : ticket.number < lastReset log ↔ slot ∉ b.submitted := by
  constructor
  · intro hlt hmem
    have hheld : ∀ {queue : List Nat} {ws : List Ticket},
        List.Forall₂ (Holds tasks tickets) queue ws → slot ∈ queue → ticket ∈ ws := by
      intro queue ws hall hmem
      induction hall with
      | nil => cases hmem
      | cons hfirst _ ih =>
        obtain rfl | hmem := List.mem_cons.1 hmem
        · obtain ⟨j, hj, _, hticket'⟩ := hfirst
          obtain rfl := hb.distinct j i slot hj hslot
          rw [Option.some.inj (hticket.symm.trans hticket')]
          exact List.mem_cons_self
        · exact List.mem_cons_of_mem _ (ih hmem)
    exact absurd (h.fresh ticket (hheld h.queue hmem)) (Nat.not_le_of_lt hlt)
  · intro hnot
    have hskip := h.mark_of_ticket hb hslot hstate hticket
    obtain ⟨ticket', hticket', hmem | hlt⟩ := h.ticketed i slot hslot hstate hskip
    · exact absurd hmem hnot
    · rwa [Option.some.inj (hticket.symm.trans hticket')]

end Ordered

namespace Tracked

/-- Queue and channel agree, and the record agrees with the channel. -/
structure Aligned (pending : σ → List Batch) (t : Tracked σ) : Prop where
  bound : Bound t.pipeline.tasks t.pipeline.engine.backend
  ordered : Ordered t.pipeline.tasks t.tickets t.pipeline.engine.backend t.log
  inStep : t.pipeline.engine.device.InStep pending

def Dropped (t : Tracked σ) (i : Nat) : Prop :=
  (t.pipeline.tasks i).state = .submitted ∧
    ∃ ticket, t.tickets i = some ticket ∧ ticket.number < lastReset t.log

/-- A task that was submitted before the last reset meets the batch of another task. -/
def Crosses (t : Tracked σ) (i : Nat) : Prop := t.Dropped i ∧ waiting t.log ≠ []

instance (t : Tracked σ) (i : Nat) : Decidable (t.Dropped i) :=
  decidable_of_iff ((t.pipeline.tasks i).state = .submitted ∧
      (t.tickets i).any (fun ticket => ticket.number < lastReset t.log) = true)
    (by simp [Dropped, Option.any_eq_true])

instance (t : Tracked σ) (i : Nat) : Decidable (t.Crosses i) :=
  inferInstanceAs (Decidable (t.Dropped i ∧ waiting t.log ≠ []))

variable {t : Tracked σ}

theorem Aligned.length_submitted (h : t.Aligned pending) :
    (pending t.pipeline.engine.device.state).length =
      t.pipeline.engine.backend.submitted.length := by
  rw [h.inStep, List.length_map, h.ordered.queue.length_eq]
  rfl

theorem Aligned.generate (hfifo : Fifo device pending) (h : t.Aligned pending) (i : Nat) :
    (t.step device (.generate i)).Aligned pending := by
  have hbound := h.bound.generate device.recorded i
  have hgen := Engine.generated device.recorded (t.pipeline.tasks i) t.pipeline.engine
  have hothers : ∀ {slot x} {b : Backend}, t.pipeline.engine.backend.sets.mark slot = none →
      b.sets.mark = Function.update t.pipeline.engine.backend.sets.mark slot x →
      ∀ j s, (t.pipeline.tasks j).slot = some s → (t.pipeline.tasks j).state = .submitted →
        b.sets.mark s = t.pipeline.engine.backend.sets.mark s := by
    intro slot x b hfree hmark j s hs _
    obtain ⟨skip, hskip⟩ := h.bound.exists_mark hs
    have hne : s ≠ slot := by
      rintro rfl
      rw [hfree] at hskip
      cases hskip
    rw [hmark, Function.update_of_ne hne]
  generalize ho : t.pipeline.engine.generate device.recorded (t.pipeline.tasks i) = o at hgen hbound
  have hstep : t.step device (.generate i) = ⟨t.pipeline.after i o, t.tickets⟩ := by
    rw [← ho]
    rfl
  rw [hstep]
  cases hgen with
  | refused _ =>
    refine ⟨hbound, ?_, h.inStep⟩
    simp only [Pipeline.after, Function.update_eq_self]
    exact h.ordered
  | bypassed hidle _ hacquire =>
    refine ⟨hbound, ?_, h.inStep⟩
    have hfree := (RegisterSets.mark_acquire? hacquire).1
    exact h.ordered.keep_update (by simp [hidle]) (by simp)
      (hothers hfree (Engine.mark_of_bypassed hacquire)) rfl rfl rfl (Nat.le_refl _)
  | failed hidle _ hacquire hfill _ =>
    have hrefill := Engine.refill_of_fillPicture hfill
    obtain ⟨hlog, hinStep⟩ := hfifo.transfer_inStep hrefill.transfer h.inStep
    refine ⟨hbound, ?_, hinStep⟩
    have hmark := Engine.mark_of_failed hacquire hfill
    exact h.ordered.keep_update (by simp [hidle]) (by simp [hidle])
      (fun _ slot _ _ => congrFun hmark slot) hrefill.submitted (congrArg waiting hlog)
      (congrArg lastReset hlog)
      (Nat.le_of_eq (congrArg List.length hlog).symm)
  | filled hidle _ hacquire hfill =>
    have hrefill := Engine.refill_of_fillPicture hfill
    obtain ⟨hlog, hinStep⟩ := hfifo.transfer_inStep hrefill.transfer h.inStep
    refine ⟨hbound, ?_, hinStep⟩
    have hfree := (RegisterSets.mark_acquire? hacquire).1
    exact h.ordered.keep_update (by simp [hidle]) (by simp)
      (hothers hfree (Engine.mark_of_filled hacquire hfill)) hrefill.submitted
      (congrArg waiting hlog) (congrArg lastReset hlog)
      (Nat.le_of_eq (congrArg List.length hlog).symm)

theorem Aligned.start (hfifo : Fifo device pending) (h : t.Aligned pending) (i : Nat) :
    (t.step device (.start i)).Aligned pending := by
  have hbound := h.bound.start device.recorded i
  have hstart := Engine.started device.recorded (t.pipeline.tasks i) t.pipeline.engine
  have hstep : t.step device (.start i) =
      ⟨t.pipeline.after i (t.pipeline.engine.start device.recorded (t.pipeline.tasks i)),
        t.startTickets device i⟩ := rfl
  rw [hstep, startTickets]
  generalize t.pipeline.engine.start device.recorded (t.pipeline.tasks i) = o at hstart hbound
  cases hstart with
  | refused | unbound | missing =>
    refine ⟨hbound, ?_, h.inStep⟩
    simp only [Pipeline.after, Function.update_eq_self]
    exact h.ordered
  | bypassed hstate hslot hget hskip =>
    have hmark := h.bound.mark_of_get? hslot hget
    rw [hskip] at hmark
    refine ⟨hbound, ?_, h.inStep⟩
    have hordered := h.ordered.bypass hslot (by simp [hstate]) hmark
    rw [← issued_length t.log] at hordered
    exact hordered
  | @rejected slot set error state hstate hslot _ _ hsubmit =>
    obtain ⟨hlog, hinStep⟩ := hfifo.submit_inStep h.inStep hsubmit
    have hwaiting : waiting state.log = waiting t.log := (congrArg waiting hlog).trans rfl
    have hlast : lastReset state.log = lastReset t.log := (congrArg lastReset hlog).trans rfl
    refine ⟨hbound, ?_, hinStep⟩
    refine h.ordered.keep_update (by simp [hstate]) (by simp) (fun j s hs hj => ?_) rfl hwaiting
      hlast ?_
    · have hne : s ≠ slot := by
        rintro rfl
        obtain rfl := h.bound.distinct j i s hs hslot
        rw [hstate] at hj
        cases hj
      refine (congrFun (RegisterSets.mark_release ..) s).trans ?_
      exact Function.update_of_ne hne ..
    · exact (Nat.le_succ _).trans (Nat.le_of_eq (congrArg List.length hlog).symm)
  | @accepted slot set state hstate hslot hget hskip hsubmit =>
    have hmark := h.bound.mark_of_get? hslot hget
    rw [hskip] at hmark
    obtain ⟨hlog, hinStep⟩ := hfifo.submit_inStep h.inStep hsubmit
    refine ⟨hbound, ?_, hinStep⟩
    have hordered := h.ordered.accept
      (t.pipeline.engine.backend.generation.queue set.registers set.patches) hslot
      (by simp [hstate]) hmark
    simp only [log, Pipeline.after, hlog, issued, if_true]
    exact hordered

theorem Aligned.wait (hfifo : Fifo device pending) (h : t.Aligned pending) {i : Nat}
    (hcross : ¬ t.Crosses i) : (t.step device (.wait i)).Aligned pending := by
  have hbound := h.bound.wait device.recorded i
  have hwait := Engine.waited device.recorded (t.pipeline.tasks i) t.pipeline.engine
  have hstep : t.step device (.wait i) =
      ⟨t.pipeline.after i (t.pipeline.engine.wait device.recorded (t.pipeline.tasks i)),
        t.tickets⟩ := rfl
  rw [hstep]
  generalize t.pipeline.engine.wait device.recorded (t.pipeline.tasks i) = o at hwait hbound
  cases hwait with
  | refused | unbound | outOfOrder =>
    refine ⟨hbound, ?_, h.inStep⟩
    simp only [Pipeline.after, Function.update_eq_self]
    exact h.ordered
  | @bypassed slot submitted hstate hslot hdequeue hskip =>
    have hnot : slot ∉ t.pipeline.engine.backend.submitted := by
      intro hmem
      obtain ⟨set, hget, _, hfalse⟩ := RegisterSets.mark_eq_some (h.bound.queued slot hmem).1
      simp [hget, hfalse] at hskip
    obtain hhead | ⟨_, rfl⟩ := Engine.dequeue_eq_ok hdequeue
    · exact absurd (hhead ▸ List.mem_cons_self) hnot
    refine ⟨hbound, ?_, h.inStep⟩
    exact h.ordered.finish h.bound hslot (by simp [Engine.complete])
      (Engine.mark_complete (t.pipeline.tasks i) slot true {} _) (.inr ⟨hnot, rfl, rfl⟩) rfl
      (Nat.le_refl _)
  | @polled slot submitted result state hstate hslot hdequeue hskip hpoll =>
    obtain ⟨hlog, hinStep⟩ := hfifo.poll_inStep h.inStep hpoll
    have hwaiting : waiting state.log = (waiting t.log).tail := (congrArg waiting hlog).trans rfl
    have hlast : lastReset state.log = lastReset t.log := (congrArg lastReset hlog).trans rfl
    have hlength : t.log.length ≤ state.log.length := by
      rw [hlog]
      exact Nat.le_succ _
    refine ⟨hbound, ?_, hinStep⟩
    refine h.ordered.finish h.bound hslot (by simp [Engine.complete])
      (Engine.mark_complete (t.pipeline.tasks i) slot false
        (Engine.pollOutcome t.pipeline.engine.backend.generation result) _) ?_ hlast hlength
    obtain hhead | ⟨hnot, rfl⟩ := Engine.dequeue_eq_ok hdequeue
    · exact .inl ⟨hhead, hwaiting⟩
    -- a submitted task of the hardware that is not queued was dropped, and so nothing may be pending
    · have hmark := h.bound.mark_of_wait hslot hskip
      obtain ⟨ticket, hticket, hmem | hlt⟩ := h.ordered.ticketed i slot hslot hstate hmark
      · exact absurd hmem hnot
      have hempty : waiting t.log = [] := by
        by_contra hne
        exact hcross ⟨⟨hstate, ticket, hticket, hlt⟩, hne⟩
      rw [hempty] at hwaiting
      exact .inr ⟨hnot, rfl, hwaiting.trans hempty.symm⟩

theorem Aligned.step (hfifo : Fifo device pending) (h : t.Aligned pending) {a : Action}
    (hreset : a = .reset → (t.step device a).pipeline.engine.device.InStep pending)
    (hcross : ∀ i, a = .wait i → ¬ t.Crosses i) : (t.step device a).Aligned pending := by
  cases a with
  | generate i => exact h.generate hfifo i
  | start i => exact h.start hfifo i
  | wait i => exact h.wait hfifo (hcross i rfl)
  | recycle i =>
    refine ⟨h.bound.recycled i, ?_, h.inStep⟩
    change Ordered (recycled t.pipeline.tasks i) t.tickets t.pipeline.engine.backend t.log
    unfold recycled
    split
    · rename_i hdone
      exact h.ordered.keep_update (by simp [hdone]) (by simp [Task.recycle])
        (fun _ _ _ _ => rfl) rfl rfl rfl (Nat.le_refl _)
    · exact h.ordered
  | edit i fields =>
    refine ⟨h.bound.withFields i fields, ?_, h.inStep⟩
    refine h.ordered.keep (fun j _ => ?_) (fun _ _ _ _ => rfl) rfl rfl rfl (Nat.le_refl _)
    by_cases hji : j = i
    · subst hji
      simp [Tracked.step, Pipeline.step, Task.withFields]
    · simp [Tracked.step, Pipeline.step, hji]
  | control c =>
    have hbound := h.bound.control c
    obtain ⟨config, frames, hsame, _⟩ := Engine.control_eq c t.pipeline.engine
    have hstep : t.step device (.control c) =
        ⟨⟨⟨{ t.pipeline.engine.backend with config }, frames, t.pipeline.engine.device⟩,
          t.pipeline.tasks⟩, t.tickets⟩ := by
      rw [← hsame]
      rfl
    rw [hsame] at hbound
    rw [hstep]
    exact ⟨hbound, { h.ordered with }, h.inStep⟩
  | frames table => exact ⟨h.bound, h.ordered, h.inStep⟩
  | flush =>
    refine ⟨h.bound, ?_, hfifo.flush_inStep h.inStep⟩
    exact h.ordered.keep (fun _ _ => ⟨rfl, rfl⟩) (fun _ _ _ _ => rfl) rfl rfl rfl (Nat.le_succ _)
  | reset =>
    refine ⟨h.bound.reset device.recorded, ?_, hreset rfl⟩
    exact h.ordered.reset (device.channel.reset t.pipeline.engine.device.state).1

theorem lastReset_step (device : Device σ) (t : Tracked σ) {a : Action} (ha : a ≠ .reset) :
    lastReset (t.step device a).log = lastReset t.log := by
  cases a with
  | generate i =>
    have hgen := Engine.generated device.recorded (t.pipeline.tasks i) t.pipeline.engine
    change lastReset
      (t.pipeline.engine.generate device.recorded (t.pipeline.tasks i)).engine.device.log = _
    generalize t.pipeline.engine.generate device.recorded (t.pipeline.tasks i) = o at hgen
    cases hgen with
    | refused | bypassed => rfl
    | failed _ _ _ hfill _ | filled _ _ _ hfill =>
      have hlog := (Engine.refill_of_fillPicture hfill).transfer.keeps
        (P := fun r => r.log = t.log) (fun _ _ hs => hs) (fun _ _ hs => hs) rfl
      exact congrArg lastReset hlog
  | start i =>
    have hstart := Engine.started device.recorded (t.pipeline.tasks i) t.pipeline.engine
    change lastReset
      (t.pipeline.engine.start device.recorded (t.pipeline.tasks i)).engine.device.log = _
    generalize t.pipeline.engine.start device.recorded (t.pipeline.tasks i) = o at hstart
    cases hstart with
    | refused | unbound | missing | bypassed => rfl
    | rejected _ _ _ _ hsubmit | accepted _ _ _ _ hsubmit =>
      exact (congrArg lastReset (log_of_record hsubmit)).trans rfl
  | wait i =>
    have hwait := Engine.waited device.recorded (t.pipeline.tasks i) t.pipeline.engine
    change lastReset
      (t.pipeline.engine.wait device.recorded (t.pipeline.tasks i)).engine.device.log = _
    generalize t.pipeline.engine.wait device.recorded (t.pipeline.tasks i) = o at hwait
    cases hwait with
    | refused | unbound | outOfOrder | bypassed => rfl
    | polled _ _ _ _ hpoll => exact (congrArg lastReset (log_of_record hpoll)).trans rfl
  | control c =>
    obtain ⟨config, frames, hsame, _⟩ := Engine.control_eq c t.pipeline.engine
    exact congrArg (fun e => lastReset e.device.log) hsame
  | recycle | edit | frames | flush => rfl
  | reset => exact absurd rfl ha

theorem Aligned.ofPipeline {p : Pipeline σ} (hp : p.IsInitial device)
    (hempty : pending p.engine.device = []) : (ofPipeline p).Aligned pending := by
  have hready := hp.engine.ready
  refine ⟨.of_free hp.tasks hready.submitted hready.isValid, ?_, hempty⟩
  refine ⟨?_, fun i slot hslot => ?_, fun _ _ _ _ _ => rfl, ?_, ?_, ?_⟩
  · change List.Forall₂ _ p.engine.backend.submitted []
    rw [hready.submitted]
    exact .nil
  · exact absurd ((hp.tasks i).1.symm.trans hslot) (by simp)
  · exact fun ticket hticket => absurd hticket List.not_mem_nil
  · exact fun i ticket hticket => by cases hticket
  · exact fun i j ticket ticket' hticket => by cases hticket

end Tracked

end VideoAccel
