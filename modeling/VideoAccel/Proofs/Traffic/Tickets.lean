import Mathlib.Data.List.Forall2
import VideoAccel.Proofs.Pipeline.Operations
import VideoAccel.Proofs.Traffic.Transparency

namespace VideoAccel

variable {σ : Type}

/-- A run with the record of its messages. A task that is started gets the ticket of the batch that
the channel accepted for it, and no ticket if it bypasses the hardware. -/
structure Tracked (σ : Type) where
  pipeline : Pipeline (Recorded σ)
  tickets : Nat → Option Ticket

def issued (n : Nat) : List Message → Option Ticket
  | .submit batch (.ok ()) :: log => if log.length = n then some ⟨n, batch⟩ else none
  | _ => none

theorem issued_length (log : List Message) : issued log.length log = none := by
  cases log with
  | nil => rfl
  | cons m log =>
    cases m with
    | submit batch answer => cases answer <;> simp [issued]
    | poll | reset | flush => rfl

namespace Tracked

def log (t : Tracked σ) : List Message := t.pipeline.engine.device.log

def startTickets (device : Device σ) (t : Tracked σ) (i : Nat) : Nat → Option Ticket :=
  let o := t.pipeline.engine.start device.recorded (t.pipeline.tasks i)
  match o.result with
  | .ok () => Function.update t.tickets i (issued t.log.length o.engine.device.log)
  | .error _ => t.tickets

def step (device : Device σ) (t : Tracked σ) (a : Action) : Tracked σ where
  pipeline := t.pipeline.step device.recorded a
  tickets :=
    match a with
    | .start i => t.startTickets device i
    | _ => t.tickets

def run (device : Device σ) (t : Tracked σ) (actions : List Action) : Tracked σ :=
  actions.foldl (step device) t

def ofPipeline (p : Pipeline σ) : Tracked σ := ⟨p.map fun state => { state }, fun _ => none⟩

theorem pipeline_run (device : Device σ) (t : Tracked σ) (actions : List Action) :
    (t.run device actions).pipeline = t.pipeline.run device.recorded actions := by
  induction actions generalizing t with
  | nil => rfl
  | cons a actions ih => exact ih (t.step device a)

theorem run_ofPipeline (device : Device σ) (p : Pipeline σ) (actions : List Action) :
    ((ofPipeline p).run device actions).pipeline.map Recorded.state = p.run device actions := by
  rw [pipeline_run, ← (recorded_deviceMap device).run]
  rfl

end Tracked

def Holds (tasks : Nat → Task) (tickets : Nat → Option Ticket) (slot : Nat) (ticket : Ticket) :
    Prop :=
  ∃ i, (tasks i).slot = some slot ∧ (tasks i).state = .submitted ∧ tickets i = some ticket

theorem Holds.update {tasks : Nat → Task} {tickets : Nat → Option Ticket} {slot i : Nat}
    {ticket : Ticket} (h : Holds tasks tickets slot ticket)
    (hi : (tasks i).state ≠ .submitted) (t : Task) (ticket? : Option Ticket) :
    Holds (Function.update tasks i t) (Function.update tickets i ticket?) slot ticket := by
  obtain ⟨j, hslot, hstate, hticket⟩ := h
  have hji : j ≠ i := by
    rintro rfl
    exact hi hstate
  exact ⟨j, by simpa [hji] using ⟨hslot, hstate, hticket⟩⟩

/-- The queue of the backend is in the order of the channel, and what a submitted task waits for is
in it or was dropped by a reset. -/
structure Ordered (tasks : Nat → Task) (tickets : Nat → Option Ticket) (b : Backend)
    (log : List Message) : Prop where
  queue : List.Forall₂ (Holds tasks tickets) b.submitted (waiting log)
  ticketed : ∀ i slot, (tasks i).slot = some slot → (tasks i).state = .submitted →
    b.sets.mark slot = some false →
      ∃ ticket, tickets i = some ticket ∧ (slot ∈ b.submitted ∨ ticket.number < lastReset log)
  bypassed : ∀ i slot, (tasks i).slot = some slot → (tasks i).state = .submitted →
    b.sets.mark slot = some true → tickets i = none
  fresh : ∀ ticket ∈ waiting log, lastReset log ≤ ticket.number
  issued : ∀ i ticket, tickets i = some ticket → ticket.number < log.length
  distinct : ∀ i j ticket ticket', tickets i = some ticket → tickets j = some ticket' →
    ticket.number = ticket'.number → i = j

theorem lastReset_le_length (log : List Message) : lastReset log ≤ log.length := by
  induction log with
  | nil => exact Nat.le_refl 0
  | cons m log ih =>
    cases m with
    | reset answer => exact Nat.le_refl _
    | submit | poll | flush => exact Nat.le_succ_of_le ih

namespace Ordered

variable {tasks tasks' : Nat → Task} {tickets : Nat → Option Ticket} {b b' : Backend}
  {log log' : List Message}

/-- Nobody gets a ticket; tasks may finish, and batches may leave the channel. -/
theorem shrink (h : Ordered tasks tickets b log)
    (htasks : ∀ i, (tasks' i).state = .submitted →
      (tasks i).state = .submitted ∧ (tasks' i).slot = (tasks i).slot)
    (hmark : ∀ i slot, (tasks' i).slot = some slot → (tasks' i).state = .submitted →
      b'.sets.mark slot = b.sets.mark slot)
    (hqueue : List.Forall₂ (Holds tasks' tickets) b'.submitted (waiting log'))
    (hleft : ∀ i slot, (tasks' i).slot = some slot → (tasks' i).state = .submitted →
      slot ∈ b.submitted → slot ∈ b'.submitted ∨ log.length ≤ lastReset log')
    (hfresh : ∀ ticket ∈ waiting log', lastReset log' ≤ ticket.number)
    (hlast : lastReset log ≤ lastReset log') (hlength : log.length ≤ log'.length) :
    Ordered tasks' tickets b' log' where
  queue := hqueue
  ticketed i slot hslot hstate hskip := by
    obtain ⟨hstate', hslot'⟩ := htasks i hstate
    rw [hmark i slot hslot hstate] at hskip
    obtain ⟨ticket, hticket, hmem | hlt⟩ :=
      h.ticketed i slot (hslot'.symm.trans hslot) hstate' hskip
    · refine ⟨ticket, hticket, (hleft i slot hslot hstate hmem).imp_right fun hle => ?_⟩
      exact Nat.lt_of_lt_of_le (h.issued i ticket hticket) hle
    · exact ⟨ticket, hticket, .inr (Nat.lt_of_lt_of_le hlt hlast)⟩
  bypassed i slot hslot hstate hskip := by
    obtain ⟨hstate', hslot'⟩ := htasks i hstate
    rw [hmark i slot hslot hstate] at hskip
    exact h.bypassed i slot (hslot'.symm.trans hslot) hstate' hskip
  fresh := hfresh
  issued i ticket hticket := Nat.lt_of_lt_of_le (h.issued i ticket hticket) hlength
  distinct := h.distinct

theorem keep (h : Ordered tasks tickets b log)
    (htasks : ∀ i, (tasks i).state = .submitted ∨ (tasks' i).state = .submitted →
      (tasks' i).state = (tasks i).state ∧ (tasks' i).slot = (tasks i).slot)
    (hmark : ∀ i slot, (tasks i).slot = some slot → (tasks i).state = .submitted →
      b'.sets.mark slot = b.sets.mark slot)
    (hqueue : b'.submitted = b.submitted) (hwaiting : waiting log' = waiting log)
    (hlast : lastReset log' = lastReset log) (hlength : log.length ≤ log'.length) :
    Ordered tasks' tickets b' log' := by
  have hback : ∀ i, (tasks' i).state = .submitted →
      (tasks i).state = .submitted ∧ (tasks' i).slot = (tasks i).slot := by
    intro i hi
    obtain ⟨hstate, hslot⟩ := htasks i (.inr hi)
    exact ⟨hstate ▸ hi, hslot⟩
  refine h.shrink hback (fun i slot hslot hi => ?_) ?_ (fun i slot _ _ hmem => ?_) ?_ ?_ hlength
  · obtain ⟨hstate, hslot'⟩ := hback i hi
    exact hmark i slot (hslot'.symm.trans hslot) hstate
  · rw [hqueue, hwaiting]
    refine h.queue.imp ?_
    rintro slot ticket ⟨i, hslot, hi, hticket⟩
    obtain ⟨hstate, hslot'⟩ := htasks i (.inl hi)
    exact ⟨i, hslot'.trans hslot, hstate.trans hi, hticket⟩
  · exact .inl (hqueue ▸ hmem)
  · rw [hwaiting, hlast]
    exact h.fresh
  · exact hlast.ge

/-- One task changes that was not and is not submitted, and the queues do not. -/
theorem keep_update (h : Ordered tasks tickets b log) {i : Nat} {t : Task}
    (hi : (tasks i).state ≠ .submitted) (ht : t.state ≠ .submitted)
    (hmark : ∀ j slot, (tasks j).slot = some slot → (tasks j).state = .submitted →
      b'.sets.mark slot = b.sets.mark slot)
    (hqueue : b'.submitted = b.submitted) (hwaiting : waiting log' = waiting log)
    (hlast : lastReset log' = lastReset log) (hlength : log.length ≤ log'.length) :
    Ordered (Function.update tasks i t) tickets b' log' := by
  refine h.keep (fun j hj => ?_) hmark hqueue hwaiting hlast hlength
  by_cases hji : j = i
  · subst hji
    rw [Function.update_self] at hj
    exact absurd hj (by simp [hi, ht])
  · simp [hji]

theorem reset (h : Ordered tasks tickets b log) (answer : Except ChannelError Unit) :
    Ordered tasks tickets { b with submitted := [] } (.reset answer :: log) := by
  refine h.shrink (fun i hi => ⟨hi, rfl⟩) (fun _ _ _ _ => rfl) .nil ?_ (by simp [waiting]) ?_ ?_
  · intro i slot _ _ _
    exact .inr (Nat.le_succ _)
  · exact Nat.le_succ_of_le (lastReset_le_length log)
  · exact Nat.le_succ _

/-- A task is submitted, with a ticket if its set is for the hardware. -/
theorem submit (h : Ordered tasks tickets b log) {i slot : Nat} {ticket? : Option Ticket}
    (hslot : (tasks i).slot = some slot) (hstate : (tasks i).state ≠ .submitted)
    (hskip : b.sets.mark slot = some ticket?.isNone)
    (hnew : ∀ ticket ∈ ticket?,
      slot ∈ b'.submitted ∧ ticket.number = log.length ∧ log.length < log'.length)
    (hmark : b'.sets.mark = b.sets.mark) (hsubmitted : b.submitted ⊆ b'.submitted)
    (hqueue : List.Forall₂
      (Holds (Function.update tasks i { tasks i with state := .submitted })
        (Function.update tickets i ticket?)) b'.submitted (waiting log'))
    (hfresh : ∀ ticket ∈ waiting log', lastReset log' ≤ ticket.number)
    (hlast : lastReset log' = lastReset log) (hlength : log.length ≤ log'.length) :
    Ordered (Function.update tasks i { tasks i with state := .submitted })
      (Function.update tickets i ticket?) b' log' := by
  refine ⟨hqueue, fun j s hs hj hfalse => ?_, fun j s hs hj htrue => ?_, hfresh, ?_, ?_⟩
  · rw [hmark] at hfalse
    by_cases hji : j = i
    · subst hji
      simp only [Function.update_self] at hs ⊢
      obtain rfl := Option.some.inj (hslot.symm.trans hs)
      rw [hskip] at hfalse
      cases ticket? with
      | none => cases hfalse
      | some ticket => exact ⟨ticket, rfl, .inl (hnew ticket rfl).1⟩
    · simp only [Function.update_of_ne hji] at hs hj ⊢
      obtain ⟨ticket, hticket, hmem | hlt⟩ := h.ticketed j s hs hj hfalse
      · exact ⟨ticket, hticket, .inl (hsubmitted hmem)⟩
      · exact ⟨ticket, hticket, .inr (hlast ▸ hlt)⟩
  · rw [hmark] at htrue
    by_cases hji : j = i
    · subst hji
      simp only [Function.update_self] at hs ⊢
      obtain rfl := Option.some.inj (hslot.symm.trans hs)
      rw [hskip] at htrue
      cases ticket? with
      | none => rfl
      | some ticket => cases htrue
    · simp only [Function.update_of_ne hji] at hs hj ⊢
      exact h.bypassed j s hs hj htrue
  · intro j ticket hticket
    by_cases hji : j = i
    · subst hji
      rw [Function.update_self] at hticket
      obtain ⟨_, hnumber, hlt⟩ := hnew ticket hticket
      rwa [hnumber]
    · rw [Function.update_of_ne hji] at hticket
      exact Nat.lt_of_lt_of_le (h.issued j ticket hticket) hlength
  -- the new ticket has a number above all others
  · have hother : ∀ {j ticket ticket'}, tickets j = some ticket → ticket? = some ticket' →
        ticket.number ≠ ticket'.number := by
      intro j ticket ticket' hj hi hnumber
      have hlt := h.issued j ticket hj
      rw [hnumber, (hnew ticket' hi).2.1] at hlt
      exact Nat.lt_irrefl _ hlt
    intro j k ticket ticket' hj hk hnumber
    by_cases hji : j = i <;> by_cases hki : k = i
    · rw [hji, hki]
    · subst hji
      rw [Function.update_self] at hj
      rw [Function.update_of_ne hki] at hk
      exact absurd hnumber.symm (hother hk hj)
    · subst hki
      rw [Function.update_self] at hk
      rw [Function.update_of_ne hji] at hj
      exact absurd hnumber (hother hj hk)
    · rw [Function.update_of_ne hji] at hj
      rw [Function.update_of_ne hki] at hk
      exact h.distinct j k ticket ticket' hj hk hnumber

theorem accept (h : Ordered tasks tickets b log) (batch : Batch) {i slot : Nat}
    (hslot : (tasks i).slot = some slot) (hstate : (tasks i).state ≠ .submitted)
    (hskip : b.sets.mark slot = some false) :
    Ordered (Function.update tasks i { tasks i with state := .submitted })
      (Function.update tickets i (some ⟨log.length, batch⟩))
      { b with submitted := b.submitted ++ [slot] } (.submit batch (.ok ()) :: log) := by
  refine h.submit hslot hstate hskip ?_ rfl (List.subset_append_left ..) ?_ ?_ rfl (Nat.le_succ _)
  · rintro ticket ⟨⟩
    exact ⟨by simp, rfl, Nat.lt_succ_self _⟩
  · refine List.rel_append (h.queue.imp fun _ _ hheld => hheld.update hstate ..) (.cons ?_ .nil)
    exact ⟨i, by simpa using hslot⟩
  · intro ticket hticket
    rw [waiting, List.mem_append, List.mem_singleton] at hticket
    obtain hticket | rfl := hticket
    · exact h.fresh ticket hticket
    · exact lastReset_le_length log

theorem bypass (h : Ordered tasks tickets b log) {i slot : Nat}
    (hslot : (tasks i).slot = some slot) (hstate : (tasks i).state ≠ .submitted)
    (hskip : b.sets.mark slot = some true) :
    Ordered (Function.update tasks i { tasks i with state := .submitted })
      (Function.update tickets i none) b log := by
  refine h.submit hslot hstate hskip ?_ rfl (List.Subset.refl _) ?_ h.fresh rfl (Nat.le_refl _)
  · rintro ticket ⟨⟩
  · exact h.queue.imp fun _ _ hheld => hheld.update hstate ..

/-- A set has left the queue from its head, and the oldest batch the channel with it, or neither
queue has changed and the set is in none. -/
theorem leave (h : Ordered tasks tickets b log) (hnodup : b.submitted.Nodup) {slot : Nat}
    (hqueue : b.submitted = slot :: b'.submitted ∧ waiting log' = (waiting log).tail ∨
      slot ∉ b.submitted ∧ b'.submitted = b.submitted ∧ waiting log' = waiting log) :
    List.Forall₂ (Holds tasks tickets) b'.submitted (waiting log') ∧
      (∀ s ∈ b'.submitted, s ≠ slot) ∧
      (∀ s ∈ b.submitted, s ≠ slot → s ∈ b'.submitted) ∧
      ∀ ticket ∈ waiting log', ticket ∈ waiting log := by
  have hall := h.queue
  obtain ⟨hhead, hwaiting⟩ | ⟨hnot, hsame, hwaiting⟩ := hqueue
  · rw [hhead] at hall hnodup
    rw [hwaiting, hhead]
    refine ⟨?_, ?_, ?_, fun ticket => List.mem_of_mem_tail⟩
    · obtain ⟨ticket, tickets, _, hall, htickets⟩ := List.forall₂_cons_left_iff.1 hall
      rw [htickets]
      exact hall
    · rintro s hs rfl
      exact (List.nodup_cons.1 hnodup).1 hs
    · intro s hs hne
      exact (List.mem_cons.1 hs).resolve_left hne
  · rw [hwaiting, hsame]
    exact ⟨hall, fun s hs heq => hnot (heq ▸ hs), fun s hs _ => hs, fun ticket => id⟩

theorem finish (h : Ordered tasks tickets b log) (hb : Bound tasks b) {i slot : Nat} {t : Task}
    (hslot : (tasks i).slot = some slot) (ht : t.state ≠ .submitted)
    (hmark : b'.sets.mark = Function.update b.sets.mark slot none)
    (hqueue : b.submitted = slot :: b'.submitted ∧ waiting log' = (waiting log).tail ∨
      slot ∉ b.submitted ∧ b'.submitted = b.submitted ∧ waiting log' = waiting log)
    (hlast : lastReset log' = lastReset log) (hlength : log.length ≤ log'.length) :
    Ordered (Function.update tasks i t) tickets b' log' := by
  have hother : ∀ j, (Function.update tasks i t j).state = .submitted → j ≠ i := by
    rintro j hj rfl
    rw [Function.update_self] at hj
    exact ht hj
  have hne : ∀ j s, (tasks j).slot = some s → j ≠ i → s ≠ slot := by
    rintro j s hs hji rfl
    exact hji (hb.distinct j i s hs hslot)
  obtain ⟨hall, hnotin, hstay, hfewer⟩ := h.leave hb.nodup hqueue
  refine h.shrink (fun j hj => ?_) (fun j s hs hj => ?_) ?_ (fun j s hs hj hmem => ?_)
    (fun ticket hticket => ?_) hlast.ge hlength
  · have hji := hother j hj
    simpa [hji] using hj
  · have hji := hother j hj
    rw [Function.update_of_ne hji] at hs
    rw [hmark, Function.update_of_ne (hne j s hs hji)]
  · refine ((List.forall₂_and_left _ _).2 ⟨hnotin, hall⟩).imp ?_
    rintro s ticket ⟨hs, j, hj, hstate, hticket⟩
    have hji : j ≠ i := by
      rintro rfl
      exact hs (Option.some.inj (hj.symm.trans hslot))
    exact ⟨j, by simpa [hji] using ⟨hj, hstate, hticket⟩⟩
  · have hji := hother j hj
    rw [Function.update_of_ne hji] at hs
    exact .inl (hstay s hmem (hne j s hs hji))
  · rw [hlast]
    exact h.fresh ticket (hfewer ticket hticket)

end Ordered

end VideoAccel
