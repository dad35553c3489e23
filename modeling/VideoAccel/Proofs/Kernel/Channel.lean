import VideoAccel.Proofs.Kernel.Messages

namespace VideoAccel

theorem length_fitWords (count : Nat) (words : List UInt32) :
    (fitWords count words).length = count := by
  simp only [fitWords, List.length_append, List.length_take, List.length_replicate]
  omega

theorem fitWords_take (count : Nat) (words : List UInt32) :
    fitWords count (words.take count) = fitWords count words := by
  have hlength : count - min count words.length = count - words.length := by omega
  simp only [fitWords, List.take_take, Nat.min_self, List.length_take, hlength]

namespace Kernel

namespace PendingBatch

def fresh (ticket : Nat) (batch : Batch) : PendingBatch :=
  ⟨ticket, batch.reads.map fun (_, count) => { length := count }⟩

def shape (b : PendingBatch) : Nat × List Nat := (b.ticket, b.reads.map (·.length))

theorem shape_fresh (ticket : Nat) (batch : Batch) :
    (fresh ticket batch).shape = (ticket, batch.reads.map Prod.snd) := by
  simp only [shape, fresh, List.map_map]
  rfl

theorem shape_deliver (b : PendingBatch) (d : Delivery) : (b.deliver d).shape = b.shape := by
  simp only [deliver]
  split
  · refine Prod.ext rfl (List.ext_getElem? fun i => ?_)
    simp only [shape, List.getElem?_map, List.getElem?_modify]
    cases b.reads[i]? with
    | none => rfl
    | some r =>
      simp only [Option.map_some]
      split <;> rfl
  · rfl

theorem shape_deliverAll (b : PendingBatch) (ds : List Delivery) :
    (ds.foldl deliver b).shape = b.shape := by
  induction ds generalizing b with
  | nil => rfl
  | cons d ds ih => exact (ih (b.deliver d)).trans (b.shape_deliver d)

theorem deliverAll_of_ne {b : PendingBatch} {ds : List Delivery}
    (h : ∀ d ∈ ds, d.target.ticket ≠ b.ticket) : ds.foldl deliver b = b := by
  induction ds with
  | nil => rfl
  | cons d ds ih =>
    obtain ⟨hfirst, hrest⟩ := List.forall_mem_cons.1 h
    rw [List.foldl_cons, deliver, if_neg hfirst, ih hrest]

theorem overwrite_nil (r : ReadBuffer) : r.overwrite [] = r := by
  simp [ReadBuffer.overwrite]

/-- Blocks delivered to the reads from number `k` on each go to their own read. -/
theorem getElem?_reads_deliverAll {b : PendingBatch} {ticket : Nat} (hticket : b.ticket = ticket)
    (reads : List (Nat × Nat)) (blocks : List (List UInt32)) (k i : Nat) :
    (((reads.mapIdx fun index _ => ReadTarget.mk ticket (index + k)).zipWith Delivery.mk
        blocks).foldl deliver b).reads[i]? =
      b.reads[i]?.map fun r =>
        if k ≤ i ∧ i < k + reads.length then r.overwrite (blocks.getD (i - k) []) else r := by
  induction reads generalizing b blocks k with
  | nil =>
    have hnone : ∀ r : ReadBuffer, (if k ≤ i ∧ i < k + ([] : List (Nat × Nat)).length then
        r.overwrite (blocks.getD (i - k) []) else r) = r :=
      fun r => if_neg fun h => by simp at h; omega
    simp only [hnone, Option.map_id']
    rfl
  | cons read reads ih =>
    cases blocks with
    | nil =>
      have hsame : ∀ r : ReadBuffer, (if k ≤ i ∧ i < k + (read :: reads).length then
          r.overwrite (([] : List (List UInt32)).getD (i - k) []) else r) = r :=
        fun r => by rw [List.getD_nil, overwrite_nil, ite_self]
      simp only [hsame, Option.map_id']
      rw [List.zipWith_nil_right]
      rfl
    | cons block blocks =>
      have hdeliver : b.deliver ⟨⟨ticket, k⟩, block⟩ =
          { b with reads := b.reads.modify k (ReadBuffer.overwrite block) } := by
        rw [deliver, if_pos hticket.symm]
      have hnext : (fun index (_ : Nat × Nat) => ReadTarget.mk ticket (index + 1 + k)) =
          fun index _ => ReadTarget.mk ticket (index + (k + 1)) := by
        funext index _
        rw [Nat.add_assoc, Nat.add_comm 1 k]
      rw [List.mapIdx_cons, Nat.zero_add, List.zipWith_cons_cons, List.foldl_cons, hdeliver, hnext,
        ih (b := { b with reads := b.reads.modify k (ReadBuffer.overwrite block) }) hticket]
      simp only [List.getElem?_modify, Option.map_eq_map]
      cases b.reads[i]? with
      | none => rfl
      | some r =>
        simp only [Option.map_some, List.length_cons]
        by_cases hk : k = i
        · subst hk
          rw [if_neg (by omega), if_pos rfl, if_pos (by omega), Nat.sub_self]
          rfl
        · by_cases hin : k + 1 ≤ i ∧ i < k + 1 + reads.length
          · have hindex : i - k = i - (k + 1) + 1 := by omega
            rw [if_pos hin, if_neg hk, if_pos (by omega), hindex]
            rfl
          · rw [if_neg hin, if_neg hk, if_neg (by omega)]

/-- The reads of a batch get one block each, in order and of the requested lengths. -/
theorem words_deliverAll_fresh (ticket : Nat) (batch : Batch) (blocks : List (List UInt32)) :
    (((readTargets ticket batch).zipWith Delivery.mk blocks).foldl deliver
        (fresh ticket batch)).reads.map ReadBuffer.words =
      batch.reads.mapIdx fun i (_, count) => fitWords count (blocks.getD i []) := by
  refine List.ext_getElem? fun i => ?_
  have hticket : (fresh ticket batch).ticket = ticket := rfl
  have hreads := getElem?_reads_deliverAll hticket batch.reads blocks 0 i
  simp only [Nat.add_zero, Nat.zero_le, true_and, Nat.zero_add, Nat.sub_zero] at hreads
  rw [List.getElem?_map, readTargets, hreads, List.getElem?_mapIdx, fresh, List.getElem?_map]
  by_cases hi : i < batch.reads.length
  · rw [List.getElem?_eq_getElem hi]
    simp only [Option.map_some, if_pos hi, ReadBuffer.overwrite, ReadBuffer.words, List.drop_nil,
      List.append_nil, fitWords_take]
  · rw [List.getElem?_eq_none (Nat.le_of_not_lt hi)]
    rfl

end PendingBatch

namespace Service

theorem succeed_reset (s : Service) :
    s.succeed (sealMessage [resetRequest]) = ([], { s with running := [] }) := rfl

theorem fail_reset (s : Service) :
    s.fail (sealMessage [resetRequest]) = { s with running := [] } := rfl

end Service

namespace Connection

variable {c : Connection} {batch : Batch} {message : List Request} {errno : Nat}

structure Submission (c : Connection) (batch : Batch) (message : List Request) (errno : Nat) :
    Prop where
  mirrors : Mirrors c.channel.nextTicket batch message
  asked : Asked message errno c.service (c.submit batch).2.service
  accepted : errno = 0 → (c.submit batch).1 = .ok () ∧
    (c.submit batch).2.channel.pending =
      c.channel.pending ++ [.fresh c.channel.nextTicket batch]
  rejected : errno ≠ 0 →
    (c.submit batch).1 = .error (.rejected (channelError errno).message) ∧
      (c.submit batch).2.channel = c.channel

structure Polling (c : Connection) (oldest : PendingBatch) (rest : List PendingBatch)
    (errno : Nat) : Prop where
  asked : Asked (sealMessage [pollRequest]) errno c.service c.poll.2.service
  finished : errno = 0 → ∃ blocks, c.poll.1 = .ok blocks ∧
    blocks.map List.length = oldest.reads.map (·.length)
  failed : errno ≠ 0 → c.poll.1 = .error (channelError errno)
  timedOut : errno = Errno.timedOut.code → c.poll.1 = .error .timeout
  consumed : c.poll.2.channel.pending.map PendingBatch.shape = rest.map PendingBatch.shape

structure Resetting (c : Connection) (errno : Nat) : Prop where
  asked : Asked (sealMessage [resetRequest]) errno c.service c.reset.2.service
  succeeded : errno = 0 → c.reset.1 = .ok ()
  failed : errno ≠ 0 → c.reset.1 = .error (channelError errno)
  emptied : c.reset.2.channel.pending = []

/-- A submission is accepted, by the service as by the channel, or changes neither of them. -/
theorem submit_cases (c : Connection) (hne : batch ≠ []) :
    ∃ errno, Asked (sealMessage (batchRequests c.channel.nextTicket batch)) errno c.service
        (c.submit batch).2.service ∧
      (errno = 0 ∧ (c.submit batch).1 = .ok () ∧
          (c.submit batch).2.channel =
            { c.channel with
              pending := c.channel.pending ++ [.fresh c.channel.nextTicket batch]
              nextTicket := c.channel.nextTicket + 1 } ∧
          (c.submit batch).2.service.running =
            c.service.running ++ [readTargets c.channel.nextTicket batch] ∨
        errno ≠ 0 ∧ (c.submit batch).1 = .error (.rejected (channelError errno).message) ∧
          (c.submit batch).2.channel = c.channel ∧
          (c.submit batch).2.service.running = c.service.running) := by
  obtain ⟨errno, hanswered⟩ :=
    send_answered (batchRequests_ne_nil hne c.channel.nextTicket) c.service
  refine ⟨errno, ?_⟩
  rcases hsend : send (batchRequests c.channel.nextTicket batch) c.service with ⟨e | delivered, s⟩ <;>
    rw [hsend] at hanswered
  · obtain ⟨herrno, rfl, hrunning⟩ := hanswered.of_error
    rw [Service.fail_message hne] at hrunning
    have hsubmit : c.submit batch =
        (.error (.rejected (channelError errno).message), { c with service := s }) := by
      simp only [submit, hsend]
    rw [hsubmit]
    exact ⟨hanswered.asked, .inr ⟨herrno, rfl, rfl, hrunning⟩⟩
  · obtain ⟨hzero, -, hrunning⟩ := hanswered.of_ok
    rw [Service.succeed_message hne] at hrunning
    have hsubmit : c.submit batch = (.ok (), { c with
        channel := { c.channel with
          pending := c.channel.pending ++ [.fresh c.channel.nextTicket batch]
          nextTicket := c.channel.nextTicket + 1 }
        service := s }) := by
      simp only [submit, hsend, PendingBatch.fresh]
    rw [hsubmit]
    exact ⟨hanswered.asked, .inl ⟨hzero, rfl, rfl, hrunning⟩⟩

theorem submission (c : Connection) (hne : batch ≠ []) :
    ∃ message errno, Submission c batch message errno := by
  obtain ⟨errno, hasked, houtcome⟩ := c.submit_cases hne
  refine ⟨_, errno, mirrors_batchRequests _ batch, hasked, fun hzero => ?_, fun hne => ?_⟩
  · obtain ⟨-, hok, hchannel, -⟩ | ⟨hne, -⟩ := houtcome
    · exact ⟨hok, by rw [hchannel]⟩
    · exact absurd hzero hne
  · obtain ⟨hzero, -⟩ | ⟨-, herror, hchannel, -⟩ := houtcome
    · exact absurd hzero hne
    · exact ⟨herror, hchannel⟩

theorem poll_nil (h : c.channel.pending = []) : c.poll = (.error .nothingPending, c) := by
  simp only [poll, h]

/-- A poll takes the oldest batch in any case. What is delivered goes to all batches. -/
theorem poll_cases {oldest : PendingBatch} {rest : List PendingBatch}
    (h : c.channel.pending = oldest :: rest) :
    ∃ errno, Asked (sealMessage [pollRequest]) errno c.service c.poll.2.service ∧
      c.poll.2.service.running = c.service.running.tail ∧
      c.poll.2.channel.nextTicket = c.channel.nextTicket ∧
      (errno = 0 ∧ (∃ delivered,
          delivered = (c.service.running.head?.getD []).zipWith Delivery.mk
            (c.service.fill.head?.getD []) ∧
          c.poll.1 = .ok ((delivered.foldl PendingBatch.deliver oldest).reads.map
            ReadBuffer.words) ∧
          c.poll.2.channel.pending = rest.map fun b => delivered.foldl PendingBatch.deliver b) ∨
        errno ≠ 0 ∧ c.poll.1 = .error (channelError errno) ∧ c.poll.2.channel.pending = rest) := by
  obtain ⟨errno, hanswered⟩ := send_answered (List.cons_ne_nil pollRequest []) c.service
  refine ⟨errno, ?_⟩
  rcases hsend : send [pollRequest] c.service with ⟨e | delivered, s⟩ <;>
    rw [hsend] at hanswered
  · obtain ⟨hne, rfl, hrunning⟩ := hanswered.of_error
    have hpoll : c.poll = (.error (channelError errno),
        { channel := { c.channel with pending := rest }, service := s }) := by
      simp only [poll, h, hsend]
    rw [hpoll]
    exact ⟨hanswered.asked, hrunning, rfl, .inr ⟨hne, rfl, rfl⟩⟩
  · obtain ⟨hzero, hdelivered, hrunning⟩ := hanswered.of_ok
    have hpoll : c.poll =
        (.ok ((delivered.foldl PendingBatch.deliver oldest).reads.map ReadBuffer.words),
          { channel := { c.channel with
              pending := rest.map fun b => delivered.foldl PendingBatch.deliver b }
            service := s }) := by
      simp only [poll, h, hsend]
    rw [hpoll]
    exact ⟨hanswered.asked, hrunning, rfl, .inl ⟨hzero, delivered, hdelivered, rfl, rfl⟩⟩

theorem polling {oldest : PendingBatch} {rest : List PendingBatch}
    (h : c.channel.pending = oldest :: rest) : ∃ errno, Polling c oldest rest errno := by
  obtain ⟨errno, hasked, -, -, houtcome⟩ := poll_cases h
  obtain ⟨hzero, delivered, -, hok, hpending⟩ | ⟨hne, herror, hpending⟩ := houtcome
  · refine ⟨errno, hasked, fun _ => ⟨_, hok, ?_⟩, fun hne => absurd hzero hne, fun htime => ?_, ?_⟩
    · have hshape := congrArg Prod.snd (oldest.shape_deliverAll delivered)
      refine Eq.trans ?_ hshape
      simp only [PendingBatch.shape, List.map_map]
      refine List.map_congr_left fun r _ => ?_
      exact length_fitWords r.length r.delivered
    · rw [hzero] at htime
      cases htime
    · rw [hpending, List.map_map]
      exact List.map_congr_left fun b _ => b.shape_deliverAll delivered
  · refine ⟨errno, hasked, fun hzero => absurd hzero hne, fun _ => herror, fun htime => ?_,
      by rw [hpending]⟩
    rw [herror, channelError, if_pos htime]

theorem reset_cases (c : Connection) :
    ∃ errno, Resetting c errno ∧ c.reset.2.service.running = [] ∧
      c.reset.2.channel.nextTicket = c.channel.nextTicket := by
  obtain ⟨errno, hasked, hsucceeded, hfailed⟩ :=
    send_answered (List.cons_ne_nil resetRequest []) c.service
  rw [Service.succeed_reset] at hsucceeded
  rw [Service.fail_reset] at hfailed
  have hrunning : (send [resetRequest] c.service).2.running = [] := by
    by_cases hzero : errno = 0
    · exact (hsucceeded hzero).2
    · exact (hfailed hzero).2
  refine ⟨errno, ⟨hasked, fun hzero => ?_, fun hne => ?_, rfl⟩, hrunning, rfl⟩
  · simp only [reset, (hsucceeded hzero).1]
    rfl
  · simp only [reset, (hfailed hne).1]
    rfl

end Connection

/-- An operation of a channel. -/
inductive ChannelEvent
  | submit (batch : Batch)
  | poll
  | reset
  deriving DecidableEq, Repr

/-- A channel with the batches that it has accepted and not been polled for yet. -/
structure Ledger where
  /-- The oldest batch first, each with its ticket. -/
  queue : List (Nat × Batch) := []
  connection : Connection

namespace Ledger

def act (l : Ledger) : ChannelEvent → Ledger
  | .submit batch =>
    match l.connection.submit batch with
    | (.ok _, c) => ⟨l.queue ++ [(l.connection.channel.nextTicket, batch)], c⟩
    | (.error _, c) => ⟨l.queue, c⟩
  | .poll => ⟨l.queue.tail, l.connection.poll.2⟩
  | .reset => ⟨[], l.connection.reset.2⟩

def run (l : Ledger) (events : List ChannelEvent) : Ledger := events.foldl act l

def Matched (l : Ledger) : Prop :=
  l.connection.channel.pending.map PendingBatch.shape =
    l.queue.map fun x => (x.1, x.2.reads.map Prod.snd)

structure Synced (l : Ledger) : Prop where
  pending : l.connection.channel.pending = l.queue.map fun x => .fresh x.1 x.2
  running : l.connection.service.running = l.queue.map fun x => readTargets x.1 x.2
  nodup : (l.queue.map Prod.fst).Nodup
  issued : ∀ x ∈ l.queue, x.1 < l.connection.channel.nextTicket

variable {l : Ledger}

theorem act_submit_ok {batch : Batch} (h : (l.connection.submit batch).1 = .ok ()) :
    l.act (.submit batch) =
      ⟨l.queue ++ [(l.connection.channel.nextTicket, batch)], (l.connection.submit batch).2⟩ := by
  simp only [act]
  split <;> rename_i hsubmit <;> rw [hsubmit] at h ⊢
  cases h

theorem act_submit_error {batch : Batch} {e : ChannelError}
    (h : (l.connection.submit batch).1 = .error e) :
    l.act (.submit batch) = ⟨l.queue, (l.connection.submit batch).2⟩ := by
  simp only [act]
  split <;> rename_i hsubmit <;> rw [hsubmit] at h ⊢
  cases h

theorem Matched.act (h : l.Matched) (event : ChannelEvent) : (l.act event).Matched := by
  have haccepted : ∀ batch, (l.connection.submit batch).1 = .ok () →
      (l.connection.submit batch).2.channel.pending =
        l.connection.channel.pending ++ [.fresh l.connection.channel.nextTicket batch] →
      (l.act (.submit batch)).Matched := by
    intro batch hok hpending
    rw [act_submit_ok hok, Matched, hpending, List.map_append, List.map_append, h]
    exact congrArg (_ ++ [·]) (PendingBatch.shape_fresh _ batch)
  cases event with
  | submit batch =>
    by_cases hne : batch = []
    · subst hne
      exact haccepted [] rfl rfl
    · obtain ⟨_, _, ⟨_, hok, hchannel, _⟩ | ⟨_, herror, hchannel, _⟩⟩ :=
        l.connection.submit_cases hne
      · exact haccepted batch hok (by rw [hchannel])
      · rw [act_submit_error herror, Matched, hchannel]
        exact h
  | poll =>
    rcases hpending : l.connection.channel.pending with _ | ⟨oldest, rest⟩
    · have hqueue : l.queue = [] := by
        rw [Matched, hpending] at h
        exact List.map_eq_nil_iff.1 h.symm
      simp only [Ledger.act, Connection.poll_nil hpending, hqueue]
      exact (congrArg (List.map _) hpending).trans rfl
    · obtain ⟨_, hpolling⟩ := Connection.polling hpending
      rw [Matched, hpending, List.map_cons] at h
      simp only [Ledger.act, Matched, hpolling.consumed, List.map_tail, ← h, List.tail_cons]
  | reset => rfl

theorem Matched.run (h : l.Matched) (events : List ChannelEvent) : (l.run events).Matched := by
  induction events generalizing l with
  | nil => exact h
  | cons event events ih => exact ih (h.act event)

/-- A poll that succeeds answers what the service delivers for the reads of the oldest batch, each
block cut or extended to the length of its read, and writes nowhere else. -/
theorem Synced.poll {ticket : Nat} {batch : Batch} {queue : List (Nat × Batch)} (h : l.Synced)
    (hqueue : l.queue = (ticket, batch) :: queue) :
    (∀ readback, l.connection.poll.1 = .ok readback →
      readback = batch.reads.mapIdx fun i (_, count) =>
        fitWords count ((l.connection.service.fill.head?.getD []).getD i [])) ∧
      l.connection.poll.2.channel.pending = queue.map fun x => .fresh x.1 x.2 := by
  obtain ⟨hpending, hrunning, hnodup, -⟩ := h
  rw [hqueue, List.map_cons] at hpending hrunning hnodup
  obtain ⟨errno, -, -, -, ⟨-, delivered, hdelivered, hok, hrest⟩ | ⟨-, herror, hrest⟩⟩ :=
    Connection.poll_cases hpending
  · rw [hrunning, List.head?_cons, Option.getD_some] at hdelivered
    refine ⟨fun readback hreadback => ?_, ?_⟩
    · rw [← PendingBatch.words_deliverAll_fresh ticket, ← hdelivered]
      exact (Except.ok.inj (hok.symm.trans hreadback)).symm
    · rw [hrest, List.map_map]
      refine List.map_congr_left fun x hx => PendingBatch.deliverAll_of_ne fun d hd => ?_
      -- the ticket of another batch in the queue is another one
      have hticket : d.target.ticket = ticket := by
        rw [hdelivered, List.mem_iff_getElem] at hd
        obtain ⟨i, hi, rfl⟩ := hd
        simp only [List.getElem_zipWith, readTargets, List.getElem_mapIdx]
      rw [hticket]
      intro heq
      exact (List.nodup_cons.1 hnodup).1 (List.mem_map.2 ⟨x, hx, heq.symm⟩)
  · refine ⟨fun readback hreadback => ?_, hrest⟩
    cases herror.symm.trans hreadback

/-- The ticket of a batch that is accepted is a new one. -/
theorem Synced.accept (h : l.Synced) {c : Connection} {batch : Batch}
    (hchannel : c.channel = { l.connection.channel with
      pending := l.connection.channel.pending ++ [.fresh l.connection.channel.nextTicket batch]
      nextTicket := l.connection.channel.nextTicket + 1 })
    (hrunning : c.service.running =
      l.connection.service.running ++ [readTargets l.connection.channel.nextTicket batch]) :
    Synced ⟨l.queue ++ [(l.connection.channel.nextTicket, batch)], c⟩ where
  pending := by simp only [hchannel, h.pending, List.map_append, List.map_cons, List.map_nil]
  running := by simp only [hrunning, h.running, List.map_append, List.map_cons, List.map_nil]
  nodup := by
    rw [List.map_append, List.map_cons, List.map_nil]
    refine List.nodup_append.2 ⟨h.nodup, List.pairwise_singleton _ _, ?_⟩
    intro t ht t' ht' heq
    obtain ⟨x, hx, rfl⟩ := List.mem_map.1 ht
    have hlt := h.issued x hx
    rw [heq, List.mem_singleton.1 ht'] at hlt
    exact Nat.lt_irrefl _ hlt
  issued := by
    simp only [hchannel, List.mem_append, List.mem_singleton]
    rintro x (hx | rfl)
    · exact Nat.lt_succ_of_lt (h.issued x hx)
    · exact Nat.lt_succ_self _

theorem Synced.act (h : l.Synced) {event : ChannelEvent}
    (hne : ∀ batch, event = .submit batch → batch ≠ []) : (l.act event).Synced := by
  cases event with
  | submit batch =>
    obtain ⟨_, _, ⟨_, hok, hchannel, hrunning⟩ | ⟨_, herror, hchannel, hrunning⟩⟩ :=
      l.connection.submit_cases (hne batch rfl)
    · rw [act_submit_ok hok]
      exact h.accept hchannel hrunning
    · rw [act_submit_error herror]
      exact ⟨hchannel ▸ h.pending, hrunning.trans h.running, h.nodup, hchannel ▸ h.issued⟩
  | poll =>
    rcases hqueue : l.queue with _ | ⟨⟨ticket, batch⟩, queue⟩
    · have hpending : l.connection.channel.pending = [] := by rw [h.pending, hqueue]; rfl
      simp only [Ledger.act, Connection.poll_nil hpending, hqueue, List.tail_nil]
      exact ⟨hpending, h.running.trans (by rw [hqueue]), List.nodup_nil, nofun⟩
    · have hpending : l.connection.channel.pending = .fresh ticket batch ::
          queue.map fun x => .fresh x.1 x.2 := by
        rw [h.pending, hqueue, List.map_cons]
      obtain ⟨_, _, hrunning, hnext, _⟩ := Connection.poll_cases hpending
      have hnodup := h.nodup
      have hissued := h.issued
      rw [hqueue, List.map_cons, List.nodup_cons] at hnodup
      rw [hqueue] at hissued
      simp only [Ledger.act, hqueue, List.tail_cons]
      refine ⟨(h.poll hqueue).2, ?_, hnodup.2, fun x hx => ?_⟩
      · rw [hrunning, h.running, hqueue, List.map_cons, List.tail_cons]
      · rw [hnext]
        exact hissued x (List.mem_cons_of_mem _ hx)
  | reset =>
    obtain ⟨_, hreset, hrunning, _⟩ := l.connection.reset_cases
    exact ⟨hreset.emptied, hrunning, List.nodup_nil, nofun⟩

theorem Synced.run (h : l.Synced) {events : List ChannelEvent}
    (hne : ∀ batch, .submit batch ∈ events → batch ≠ []) : (l.run events).Synced := by
  induction events generalizing l with
  | nil => exact h
  | cons event events ih =>
    refine ih (h.act fun batch heq => hne batch ?_) fun batch hmem =>
      hne batch (List.mem_cons_of_mem _ hmem)
    rw [heq]
    exact List.mem_cons_self

/-- What each operation does next. -/
structure Serves (l : Ledger) : Prop where
  matched : l.Matched
  submit : ∀ batch, batch ≠ [] → ∃ message errno, l.connection.Submission batch message errno
  poll : ∀ ticket batch queue, l.queue = (ticket, batch) :: queue →
    ∃ oldest rest errno, l.connection.channel.pending = oldest :: rest ∧
      oldest.shape = (ticket, batch.reads.map Prod.snd) ∧ l.connection.Polling oldest rest errno
  pollNothing : l.queue = [] → l.connection.poll = (.error .nothingPending, l.connection)
  reset : ∃ errno, l.connection.Resetting errno

theorem Matched.serves (h : l.Matched) : l.Serves where
  matched := h
  submit _ hne := l.connection.submission hne
  poll ticket batch queue hqueue := by
    rw [Matched, hqueue, List.map_cons] at h
    obtain ⟨oldest, rest, hpending, hshape, -⟩ := List.map_eq_cons_iff.1 h
    obtain ⟨errno, hpolling⟩ := Connection.polling hpending
    exact ⟨oldest, rest, errno, hpending, hshape, hpolling⟩
  pollNothing hqueue := by
    rw [Matched, hqueue] at h
    exact Connection.poll_nil (List.map_eq_nil_iff.1 h)
  reset := by
    obtain ⟨errno, hreset, -⟩ := l.connection.reset_cases
    exact ⟨errno, hreset⟩

end Ledger

theorem ServiceChannel.eq_of_connect {client : Client} {deviceExists : Bool} {s s' : Service}
    {channel : ServiceChannel} (h : connect client deviceExists s = (.ok channel, s')) :
    channel = { client } ∧ s'.running = s.running := by
  obtain ⟨errno, hanswered⟩ := send_answered (List.cons_ne_nil (attachRequest client) []) s
  simp only [connect] at h
  split at h
  · split at h <;> rename_i hsend
    · cases h
    · cases h
      rw [hsend] at hanswered
      exact ⟨rfl, hanswered.of_ok.2.2⟩
  · cases h

/-- However a channel is used after it was opened, every operation sends the message that it should
and has the effect that it should, whatever the service answers. The blocks of a poll are the words
that were delivered for the reads of the oldest batch, as long as no empty batch was submitted,
which the service would not hear of. -/
theorem requests_mirror_of_run {client : Client} {deviceExists : Bool} {s s' : Service}
    {channel : ServiceChannel}
    (hopen : ServiceChannel.connect client deviceExists s = (.ok channel, s'))
    (events : List ChannelEvent) :
    let l := Ledger.run ⟨[], ⟨channel, s'⟩⟩ events
    l.Serves ∧ (s.running = [] → (∀ batch, .submit batch ∈ events → batch ≠ []) →
      ∀ ticket batch queue readback, l.queue = (ticket, batch) :: queue →
        l.connection.poll.1 = .ok readback →
        readback = batch.reads.mapIdx fun i (_, count) =>
          fitWords count ((l.connection.service.fill.head?.getD []).getD i [])) := by
  obtain ⟨rfl, hrunning⟩ := ServiceChannel.eq_of_connect hopen
  have hmatched : Ledger.Matched ⟨[], ⟨{ client }, s'⟩⟩ := rfl
  refine ⟨(hmatched.run events).serves, fun hidle hne ticket batch queue readback hqueue => ?_⟩
  have hsynced : Ledger.Synced ⟨[], ⟨{ client }, s'⟩⟩ :=
    ⟨rfl, hrunning.trans hidle, List.nodup_nil, nofun⟩
  exact ((hsynced.run hne).poll hqueue).1 readback

namespace Sample

/-- A service that refuses its third call and interrupts the fourth. -/
def service : Service := { outcomes := [0, 0, 22, 4], fill := [[[7, 8, 9]]] }

def batch : Batch := [.write 4 [1, 2], .read 8 2, .address ⟨6, 256⟩]

def ledger : Ledger :=
  Ledger.run ⟨[], ⟨{ client := .rkvDec }, (ServiceChannel.connect .rkvDec true service).2⟩⟩
    [.submit batch, .submit batch]

end Sample

open Sample in
theorem requests_mirror_of_run_refused :
    ServiceChannel.connect .rkvDec true service =
        (.ok { client := .rkvDec }, (ServiceChannel.connect .rkvDec true service).2) ∧
      ledger.Serves ∧ ledger.queue = [(0, batch)] ∧ ledger.connection.poll.1 = .ok [[7, 8]] ∧
      [[7, 8]] = batch.reads.mapIdx fun i (_, count) => fitWords count ([[7, 8, 9]].getD i []) := by
  have hopen : ServiceChannel.connect .rkvDec true service =
      (.ok { client := .rkvDec }, (ServiceChannel.connect .rkvDec true service).2) := rfl
  obtain ⟨hserves, hwords⟩ := requests_mirror_of_run hopen [.submit batch, .submit batch]
  have hpoll : ledger.connection.poll.1 = .ok [[7, 8]] := rfl
  refine ⟨hopen, hserves, rfl, hpoll, hwords rfl ?_ 0 batch [] [[7, 8]] rfl hpoll⟩
  simp [batch]

open Sample in
example : ledger.connection.poll.2.service.calls.drop 3 =
    [⟨4, [{ command := 0x300, flags := 3 }]⟩, ⟨0, [{ command := 0x300, flags := 3 }]⟩] := by
  decide

end Kernel

end VideoAccel
