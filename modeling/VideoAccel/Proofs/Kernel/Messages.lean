import VideoAccel.Kernel.Channel
import VideoAccel.Proofs.Batch.Loading

namespace VideoAccel

def Batch.wordWrites (b : Batch) : List (Nat × List UInt32) :=
  b.filterMap fun
    | .write offset words => some (offset, words)
    | .read .. | .address _ => none

namespace Kernel

def wordPairs : List UInt32 → List (UInt32 × UInt32)
  | first :: second :: rest => (first, second) :: wordPairs rest
  | [_] | [] => []

theorem wordPairs_flatMap {α : Type} (f g : α → UInt32) (l : List α) :
    wordPairs (l.flatMap fun x => [f x, g x]) = l.map fun x => (f x, g x) := by
  induction l with
  | nil => rfl
  | cons x l ih =>
    simp only [List.flatMap_cons, List.cons_append, List.nil_append, wordPairs, ih, List.map_cons]

namespace Request

/-- Offset and words, if the request is a write. -/
def write? (r : Request) : Option (Nat × List UInt32) :=
  match r.payload with
  | .words data => if r.command = Command.writeRegisters then some (r.offset, data) else none
  | .target _ | .none => none

def offsets? (r : Request) : Option (List (UInt32 × UInt32)) :=
  match r.payload with
  | .words data => if r.command = Command.addressOffsets then some (wordPairs data) else none
  | .target _ | .none => none

def read? (r : Request) : Option (Nat × Nat × ReadTarget) :=
  match r.payload with
  | .target t =>
    if r.command = Command.readRegisters then some (r.offset, r.size.toNat, t) else none
  | .words _ | .none => none

def target? (r : Request) : Option ReadTarget :=
  match r.payload with
  | .target t => some t
  | .words _ | .none => none

end Request

section Sealing

variable {requests : List Request}

theorem filterMap_sealMessage {α : Type} {f : Request → Option α}
    (hf : ∀ (r : Request) (flags : Nat), f { r with flags } = f r) (requests : List Request) :
    (sealMessage requests).filterMap f = requests.filterMap f := by
  fun_induction sealMessage requests with
  | case1 => rfl
  | case2 r => simp only [List.filterMap_cons, hf]
  | case3 r rest _ ih => simp only [List.filterMap_cons, hf, ih]

theorem map_sealMessage {α : Type} {f : Request → α}
    (hf : ∀ (r : Request) (flags : Nat), f { r with flags } = f r) (requests : List Request) :
    (sealMessage requests).map f = requests.map f := by
  have hmap := filterMap_sealMessage (f := fun r => some (f r))
    (fun r flags => congrArg some (hf r flags)) requests
  simpa only [List.filterMap_eq_map'] using hmap

/-- Every request gets the flag of a message, and the last one in addition the flag of its end. -/
theorem getElem?_sealMessage (requests : List Request) (i : Nat) :
    (sealMessage requests)[i]? = requests[i]?.map fun r =>
      { r with flags := r.flags |||
          if i + 1 = requests.length then partOfMessage ||| endOfMessage else partOfMessage } := by
  fun_induction sealMessage requests generalizing i with
  | case1 => rfl
  | case2 r =>
    cases i with
    | zero => simp [Nat.or_assoc]
    | succ i => simp
  | case3 r rest hrest ih =>
    cases i with
    | zero =>
      have hmore : rest ≠ [] := hrest
      simp [hmore]
    | succ i => simp [ih]

theorem length_sealMessage (requests : List Request) :
    (sealMessage requests).length = requests.length := by
  have hlength := congrArg List.length (map_sealMessage (f := fun _ => ()) (fun _ _ => rfl) requests)
  simpa only [List.length_map] using hlength

end Sealing

structure Mirrors (ticket : Nat) (batch : Batch) (message : List Request) : Prop where
  commands : message.map (·.command) =
    List.replicate batch.wordWrites.length Command.writeRegisters ++
      (if batch.addressOffsets = [] then [] else [Command.addressOffsets]) ++
      List.replicate batch.reads.length Command.readRegisters
  writes : message.filterMap Request.write? = batch.wordWrites
  offsets : message.filterMap Request.offsets? =
    if batch.addressOffsets = [] then []
    else [batch.addressOffsets.map fun p => (p.reg.toUInt32, p.offset)]
  reads : message.filterMap Request.read? =
    batch.reads.mapIdx fun index (offset, count) =>
      (offset, count * 4 % Nat.pow 2 32, ⟨ticket, index⟩)
  sizes : ∀ r ∈ message, ∀ data, r.payload = .words data →
    r.size.toNat = data.length * 4 % Nat.pow 2 32
  marked : ∀ r ∈ message, r.flags.testBit 0 = true
  ended : ∀ i r, message[i]? = some r → (r.flags.testBit 1 = true ↔ i + 1 = message.length)

theorem testBit_messageFlags (last : Prop) [Decidable last] :
    (0 ||| if last then partOfMessage ||| endOfMessage else partOfMessage).testBit 0 = true ∧
      ((0 ||| if last then partOfMessage ||| endOfMessage else partOfMessage).testBit 1 = true ↔
        last) := by
  by_cases h : last
  · simp only [h, iff_true]
    decide
  · simp only [h, iff_false]
    decide

theorem filterMap_mapIdx {α β γ : Type} {f : Nat → α → β} {g : β → Option γ} {h : Nat → α → γ}
    (hg : ∀ i a, g (f i a) = some (h i a)) (l : List α) :
    (l.mapIdx f).filterMap g = l.mapIdx h := by
  induction l generalizing f h with
  | nil => rfl
  | cons a l ih =>
    rw [List.mapIdx_cons, List.mapIdx_cons, List.filterMap_cons_some (hg 0 a),
      ih fun i a => hg (i + 1) a]

def writeRequest (offset : Nat) (words : List UInt32) : Request :=
  { command := Command.writeRegisters, size := (words.length * 4).toUInt32, offset
    payload := .words words }

def offsetRequest (patches : List AddressOffset) : Request :=
  { command := Command.addressOffsets, size := (patches.length * 8).toUInt32
    payload := .words (patches.flatMap fun p => [p.reg.toUInt32, p.offset]) }

def readRequest (ticket index : Nat) (read : Nat × Nat) : Request :=
  { command := Command.readRegisters, size := (read.2 * 4).toUInt32, offset := read.1
    payload := .target ⟨ticket, index⟩ }

theorem writeRequests_eq (batch : Batch) :
    writeRequests batch = batch.wordWrites.map fun x => writeRequest x.1 x.2 := by
  simp only [writeRequests, Batch.wordWrites, List.map_filterMap]
  refine congrArg (fun f => List.filterMap f batch) (funext fun op => ?_)
  cases op <;> rfl

theorem offsetRequests_eq (batch : Batch) :
    offsetRequests batch =
      if batch.addressOffsets = [] then [] else [offsetRequest batch.addressOffsets] := by
  simp only [offsetRequests]
  generalize hpatches : batch.filterMap _ = patches
  have heq : batch.addressOffsets = patches := by
    rw [← hpatches]
    refine congrArg (fun f => List.filterMap f batch) (funext fun op => ?_)
    cases op <;> rfl
  rw [heq]
  simp only [List.isEmpty_iff]
  rfl

theorem batchRequests_eq (ticket : Nat) (batch : Batch) :
    batchRequests ticket batch =
      (batch.wordWrites.map fun x => writeRequest x.1 x.2) ++
        (if batch.addressOffsets = [] then [] else [offsetRequest batch.addressOffsets]) ++
        batch.reads.mapIdx (readRequest ticket) := by
  rw [batchRequests, writeRequests_eq, offsetRequests_eq]
  rfl

/-- What a view that takes one kind of request each shows of a message. -/
theorem filterMap_message {α : Type} {f : Request → Option α}
    (hf : ∀ (r : Request) (flags : Nat), f { r with flags } = f r) (ticket : Nat) (batch : Batch) :
    (sealMessage (batchRequests ticket batch)).filterMap f =
      (batch.wordWrites.filterMap fun x => f (writeRequest x.1 x.2)) ++
        (if batch.addressOffsets = [] then []
          else (f (offsetRequest batch.addressOffsets)).toList) ++
        (batch.reads.mapIdx (readRequest ticket)).filterMap f := by
  rw [filterMap_sealMessage hf, batchRequests_eq, List.filterMap_append, List.filterMap_append,
    List.filterMap_map]
  refine congrArg (_ ++ · ++ _) ?_
  split
  · rfl
  · rw [List.filterMap_cons, List.filterMap_nil]
    cases f (offsetRequest batch.addressOffsets) <;> rfl

theorem filterMap_readRequests_none {α : Type} {f : Request → Option α}
    (hf : ∀ ticket index read, f (readRequest ticket index read) = none) (ticket : Nat)
    (reads : List (Nat × Nat)) : (reads.mapIdx (readRequest ticket)).filterMap f = [] := by
  rw [List.filterMap_eq_nil_iff]
  intro r hr
  obtain ⟨i, hi, rfl⟩ := List.mem_mapIdx.1 hr
  exact hf ticket i reads[i]

structure Request.Plain (r : Request) : Prop where
  flags : r.flags = 0
  size : ∀ data, r.payload = .words data → r.size.toNat = data.length * 4 % Nat.pow 2 32

theorem plain_of_mem_batchRequests {ticket : Nat} {batch : Batch} {r : Request}
    (h : r ∈ batchRequests ticket batch) : r.Plain := by
  rw [batchRequests_eq, List.mem_append, List.mem_append] at h
  obtain (h | h) | h := h
  · obtain ⟨⟨offset, words⟩, _, rfl⟩ := List.mem_map.1 h
    refine ⟨rfl, fun data hdata => ?_⟩
    obtain rfl := Payload.words.inj hdata
    rfl
  · split at h
    · cases h
    · obtain rfl := List.mem_singleton.1 h
      refine ⟨rfl, fun data hdata => ?_⟩
      obtain rfl := Payload.words.inj hdata
      have hlength : ∀ patches : List AddressOffset,
          (patches.flatMap fun p => [p.reg.toUInt32, p.offset]).length = patches.length * 2 := by
        intro patches
        simp [List.length_flatMap, List.map_const']
      rw [hlength, Nat.mul_assoc]
      rfl
  · obtain ⟨i, hi, rfl⟩ := List.mem_mapIdx.1 h
    refine ⟨rfl, fun data hdata => ?_⟩
    cases hdata

theorem exists_of_getElem?_message {ticket : Nat} {batch : Batch} {r : Request} {i : Nat}
    (h : (sealMessage (batchRequests ticket batch))[i]? = some r) :
    (∀ data, r.payload = .words data → r.size.toNat = data.length * 4 % Nat.pow 2 32) ∧
      r.flags.testBit 0 = true ∧
      (r.flags.testBit 1 = true ↔ i + 1 = (sealMessage (batchRequests ticket batch)).length) := by
  rw [getElem?_sealMessage] at h
  obtain ⟨plain, hplain, rfl⟩ := Option.map_eq_some_iff.1 h
  obtain ⟨hflags, hsize⟩ := plain_of_mem_batchRequests (List.mem_of_getElem? hplain)
  simp only [hflags, length_sealMessage]
  exact ⟨hsize, testBit_messageFlags _⟩

theorem mirrors_batchRequests (ticket : Nat) (batch : Batch) :
    Mirrors ticket batch (sealMessage (batchRequests ticket batch)) where
  commands := by
    have hwords : (batch.wordWrites.filterMap fun x => some (writeRequest x.1 x.2).command) =
        List.replicate batch.wordWrites.length Command.writeRegisters :=
      (congrFun List.filterMap_eq_map' _).trans List.map_const'
    have hreads : (batch.reads.mapIdx fun index read => (readRequest ticket index read).command) =
        List.replicate batch.reads.length Command.readRegisters := by
      refine List.eq_replicate_iff.2 ⟨List.length_mapIdx, fun c hc => ?_⟩
      obtain ⟨_, _, rfl⟩ := List.mem_mapIdx.1 hc
      rfl
    rw [← List.filterMap_eq_map', filterMap_message (fun _ _ => rfl), hwords,
      filterMap_mapIdx (g := fun r : Request => some r.command) (fun _ _ => rfl), hreads]
    rfl
  writes := by
    have hwords : (batch.wordWrites.filterMap fun x => (writeRequest x.1 x.2).write?) =
        batch.wordWrites := List.filterMap_some
    rw [filterMap_message (fun _ _ => rfl), filterMap_readRequests_none fun _ _ _ => rfl, hwords,
      List.append_nil]
    exact (congrArg _ (ite_self _)).trans (List.append_nil _)
  offsets := by
    have hwords : (batch.wordWrites.filterMap fun x => (writeRequest x.1 x.2).offsets?) = [] :=
      List.filterMap_eq_nil_iff.2 fun _ _ => rfl
    have hpatches : ∀ patches, Request.offsets? (offsetRequest patches) =
        some (patches.map fun p => (p.reg.toUInt32, p.offset)) := fun patches =>
      congrArg some (wordPairs_flatMap _ _ patches)
    rw [filterMap_message (fun _ _ => rfl), filterMap_readRequests_none fun _ _ _ => rfl, hwords,
      List.append_nil, List.nil_append, hpatches]
    rfl
  reads := by
    have hwords : (batch.wordWrites.filterMap fun x => (writeRequest x.1 x.2).read?) = [] :=
      List.filterMap_eq_nil_iff.2 fun _ _ => rfl
    rw [filterMap_message (fun _ _ => rfl), hwords,
      filterMap_mapIdx (g := Request.read?) (fun _ _ => rfl), List.nil_append]
    exact congrArg (· ++ _) (ite_self _)
  sizes r hr := by
    obtain ⟨i, hi⟩ := List.mem_iff_getElem?.1 hr
    exact (exists_of_getElem?_message hi).1
  marked r hr := by
    obtain ⟨i, hi⟩ := List.mem_iff_getElem?.1 hr
    exact (exists_of_getElem?_message hi).2.1
  ended i r hi := (exists_of_getElem?_message hi).2.2

theorem batchRequests_ne_nil {batch : Batch} (hne : batch ≠ []) (ticket : Nat) :
    batchRequests ticket batch ≠ [] := by
  intro hnil
  rw [batchRequests_eq, List.append_eq_nil_iff, List.append_eq_nil_iff, List.map_eq_nil_iff,
    List.mapIdx_eq_nil_iff] at hnil
  obtain ⟨⟨hwrites, hpatches⟩, hreads⟩ := hnil
  obtain ⟨op, hop⟩ := List.exists_mem_of_ne_nil batch hne
  cases op with
  | write offset words => cases List.filterMap_eq_nil_iff.1 hwrites _ hop
  | read offset count => cases List.filterMap_eq_nil_iff.1 hreads _ hop
  | address p =>
    have hsome : batch.addressOffsets ≠ [] := fun h => by
      cases List.filterMap_eq_nil_iff.1 h _ hop
    rw [if_neg hsome] at hpatches
    cases hpatches

def readTargets (ticket : Nat) (batch : Batch) : List ReadTarget :=
  batch.reads.mapIdx fun index _ => ⟨ticket, index⟩

namespace Service

variable {batch : Batch}

theorem targetsOf_eq (requests : List Request) :
    targetsOf requests = requests.filterMap Request.target? := by
  refine congrArg (fun f => List.filterMap f requests) (funext fun r => ?_)
  obtain ⟨_, _, _, _, payload⟩ := r
  cases payload <;> rfl

theorem targetsOf_message (ticket : Nat) (batch : Batch) :
    targetsOf (sealMessage (batchRequests ticket batch)) = readTargets ticket batch := by
  have hwords : (batch.wordWrites.filterMap fun x => (writeRequest x.1 x.2).target?) = [] :=
    List.filterMap_eq_nil_iff.2 fun _ _ => rfl
  rw [targetsOf_eq, filterMap_message (fun _ _ => rfl), hwords,
    filterMap_mapIdx (g := Request.target?) (fun _ _ => rfl), List.nil_append]
  exact congrArg (· ++ _) (ite_self _)

theorem commandOf_message (hne : batch ≠ []) (ticket : Nat) :
    commandOf (sealMessage (batchRequests ticket batch)) ∈
      [Command.writeRegisters, Command.addressOffsets, Command.readRegisters] := by
  have hcommands := (mirrors_batchRequests ticket batch).commands
  have hmessage : sealMessage (batchRequests ticket batch) ≠ [] := by
    rw [← List.length_pos_iff, length_sealMessage, List.length_pos_iff]
    exact batchRequests_ne_nil hne ticket
  obtain ⟨r, rest, hcons⟩ := List.exists_cons_of_ne_nil hmessage
  have hmem : r.command ∈ (sealMessage (batchRequests ticket batch)).map (·.command) := by
    rw [hcons]
    exact List.mem_cons_self
  rw [hcons]
  change r.command ∈ _
  rw [hcommands, List.mem_append, List.mem_append] at hmem
  obtain (h | h) | h := hmem
  · rw [List.eq_of_mem_replicate h]
    decide
  · split at h
    · cases h
    · rw [List.mem_singleton.1 h]
      decide
  · rw [List.eq_of_mem_replicate h]
    decide

theorem not_special_message (hne : batch ≠ []) (ticket : Nat) :
    isPoll (sealMessage (batchRequests ticket batch)) = false ∧
      isReset (sealMessage (batchRequests ticket batch)) = false ∧
      isAttach (sealMessage (batchRequests ticket batch)) = false := by
  have hcommand := commandOf_message hne ticket
  simp only [isPoll, isReset, isAttach]
  generalize commandOf (sealMessage (batchRequests ticket batch)) = command at hcommand
  revert command
  decide

theorem succeed_message (hne : batch ≠ []) (ticket : Nat) (s : Service) :
    s.succeed (sealMessage (batchRequests ticket batch)) =
      ([], { s with running := s.running ++ [readTargets ticket batch] }) := by
  obtain ⟨hpoll, hreset, hattach⟩ := not_special_message hne ticket
  simp only [succeed, hpoll, hreset, hattach, targetsOf_message, Bool.false_eq_true, if_false]

theorem fail_message (hne : batch ≠ []) (ticket : Nat) (s : Service) :
    s.fail (sealMessage (batchRequests ticket batch)) = s := by
  obtain ⟨hpoll, hreset, -⟩ := not_special_message hne ticket
  simp only [fail, hpoll, hreset, Bool.false_eq_true, if_false]

end Service

section Outcome

variable {α ε : Type} {errno : Nat} {a a' : α} {e e' : ε} {P Q : Prop}

/-- What came to a value had no error number, if each outcome is that of its error number. -/
theorem succeeded_of_ok (hsucceeded : errno = 0 → (.ok a : Except ε α) = .ok a' ∧ P)
    (hfailed : errno ≠ 0 → (.ok a : Except ε α) = .error e ∧ Q) : errno = 0 ∧ a = a' ∧ P := by
  have hzero : errno = 0 := Decidable.byContradiction fun hne => by cases (hfailed hne).1
  obtain ⟨hok, hP⟩ := hsucceeded hzero
  exact ⟨hzero, Except.ok.inj hok, hP⟩

theorem failed_of_error (hsucceeded : errno = 0 → (.error e : Except ε α) = .ok a ∧ P)
    (hfailed : errno ≠ 0 → (.error e : Except ε α) = .error e' ∧ Q) :
    errno ≠ 0 ∧ e = e' ∧ Q := by
  have hne : errno ≠ 0 := fun hzero => by cases (hsucceeded hzero).1
  obtain ⟨herror, hQ⟩ := hfailed hne
  exact ⟨hne, Except.error.inj herror, hQ⟩

end Outcome

def Asked (message : List Request) (errno : Nat) (s s' : Service) : Prop :=
  ∃ interruptions rest,
    s.outcomes = List.replicate interruptions Errno.interrupted.code ++ rest ∧
      errno = rest.head?.getD 0 ∧ errno ≠ Errno.interrupted.code ∧ s'.outcomes = rest.tail ∧
      s'.calls = s.calls ++ (List.replicate interruptions ⟨Errno.interrupted.code, message⟩ ++
        [⟨errno, message⟩])

namespace Service

variable {message : List Request}

theorem succeed_record (message : List Request) (s : Service) (outcomes : List Nat)
    (calls : List Call) :
    (succeed message { s with outcomes, calls }).1 = (s.succeed message).1 ∧
      (succeed message { s with outcomes, calls }).2 =
        { (s.succeed message).2 with outcomes, calls } := by
  simp only [succeed]
  split
  · exact ⟨rfl, rfl⟩
  split
  · exact ⟨rfl, rfl⟩
  split <;> exact ⟨rfl, rfl⟩

theorem fail_record (message : List Request) (s : Service) (outcomes : List Nat)
    (calls : List Call) :
    fail message { s with outcomes, calls } = { s.fail message with outcomes, calls } := by
  simp only [fail]
  split
  · rfl
  split <;> rfl

structure Ends (message : List Request) (s : Service) (errno : Nat)
    (r : Except Errno (List Delivery) × Service) : Prop where
  asked : Asked message errno s r.2
  succeeded : errno = 0 → r.1 = .ok (s.succeed message).1 ∧
    r.2.running = (s.succeed message).2.running
  failed : errno ≠ 0 → r.1 = .error ⟨errno⟩ ∧ r.2.running = (s.fail message).running

theorem Ends.of_ok {s s' : Service} {errno : Nat} {delivered : List Delivery}
    (h : Ends message s errno (.ok delivered, s')) :
    errno = 0 ∧ delivered = (s.succeed message).1 ∧ s'.running = (s.succeed message).2.running :=
  succeeded_of_ok h.succeeded h.failed

theorem Ends.of_error {s s' : Service} {errno : Nat} {e : Errno}
    (h : Ends message s errno (.error e, s')) :
    errno ≠ 0 ∧ e = ⟨errno⟩ ∧ s'.running = (s.fail message).running :=
  failed_of_error h.succeeded h.failed

theorem call_ends (message : List Request) (outcomes : List Nat) (s : Service)
    (h : s.outcomes = outcomes) :
    ∃ errno, Ends message s errno (call message outcomes s) := by
  induction outcomes generalizing s with
  | nil =>
    obtain ⟨hdelivered, hstate⟩ := succeed_record message s [] (s.calls ++ [⟨0, message⟩])
    refine ⟨0, ⟨0, [], h, rfl, by decide, ?_, ?_⟩, fun _ => ?_, fun hne => absurd rfl hne⟩
    · simp only [call, hstate, List.tail_nil]
    · simp only [call, hstate, List.replicate_zero, List.nil_append]
    · simp only [call, hdelivered, hstate, true_and]
  | cons errno rest ih =>
    by_cases hzero : errno = 0
    · subst hzero
      obtain ⟨hdelivered, hstate⟩ := succeed_record message s rest (s.calls ++ [⟨0, message⟩])
      refine ⟨0, ⟨0, 0 :: rest, h, rfl, by decide, ?_, ?_⟩, fun _ => ?_,
        fun hne => absurd rfl hne⟩
      · simp only [call, if_true, hstate, List.tail_cons]
      · simp only [call, if_true, hstate, List.replicate_zero, List.nil_append]
      · simp only [call, if_true, hdelivered, hstate, true_and]
    by_cases hagain : errno = Errno.interrupted.code
    · -- an interrupted attempt only shows on record
      obtain ⟨last, ⟨count, rest', houtcomes, hlast, hne, hleft, hcalls⟩, hsucceeded, hfailed⟩ :=
        ih { s with outcomes := rest, calls := s.calls ++ [⟨errno, message⟩] } rfl
      obtain ⟨hdelivered, hstate⟩ := succeed_record message s rest
        (s.calls ++ [⟨errno, message⟩])
      have hfail := fail_record message s rest (s.calls ++ [⟨errno, message⟩])
      have hcall : call message (errno :: rest) s =
          call message rest { s with outcomes := rest, calls := s.calls ++ [⟨errno, message⟩] } := by
        simp only [call, if_neg hzero, if_pos hagain]
      rw [hdelivered, hstate] at hsucceeded
      rw [hfail] at hfailed
      rw [hcall]
      refine ⟨last, ⟨count + 1, rest', ?_, hlast, hne, hleft, ?_⟩, hsucceeded, hfailed⟩
      · change rest = _ at houtcomes
        rw [h, houtcomes, ← hagain, List.replicate_succ, List.cons_append]
      · rw [hcalls, ← hagain, List.replicate_succ]
        simp only [List.append_assoc, List.cons_append, List.nil_append]
    · have hfail := fail_record message s rest (s.calls ++ [⟨errno, message⟩])
      refine ⟨errno, ⟨0, errno :: rest, h, rfl, hagain, ?_, ?_⟩, fun hz => absurd hz hzero,
        fun _ => ?_⟩
      · simp only [call, if_neg hzero, if_neg hagain, hfail, List.tail_cons]
      · simp only [call, if_neg hzero, if_neg hagain, hfail, List.replicate_zero, List.nil_append]
      · simp only [call, if_neg hzero, if_neg hagain, hfail, true_and]

end Service

def channelError (errno : Nat) : ChannelError :=
  if errno = Errno.timedOut.code then .timeout else .io ⟨errno⟩

structure Answered (message : List Request) (s : Service) (errno : Nat)
    (r : Except ChannelError (List Delivery) × Service) : Prop where
  asked : Asked message errno s r.2
  succeeded : errno = 0 → r.1 = .ok (s.succeed message).1 ∧
    r.2.running = (s.succeed message).2.running
  failed : errno ≠ 0 → r.1 = .error (channelError errno) ∧ r.2.running = (s.fail message).running

theorem send_answered {requests : List Request} (h : requests ≠ []) (s : Service) :
    ∃ errno, Answered (sealMessage requests) s errno (send requests s) := by
  obtain ⟨errno, hends⟩ := Service.call_ends (sealMessage requests) s.outcomes s rfl
  have hempty : requests.isEmpty = false := by simpa using h
  refine ⟨errno, ?_⟩
  simp only [send, hempty, Bool.false_eq_true, if_false]
  rcases hcall : Service.call (sealMessage requests) s.outcomes s with ⟨e | delivered, s'⟩ <;>
    rw [hcall] at hends
  · obtain ⟨hne, rfl, hrunning⟩ := hends.of_error
    refine ⟨hends.asked, fun hzero => absurd hzero hne, fun _ => ⟨?_, hrunning⟩⟩
    by_cases htime : errno = Errno.timedOut.code
    · subst htime
      rfl
    · have hother : Errno.mk errno ≠ .timedOut := fun heq => htime (congrArg Errno.code heq)
      simp only [channelError, if_neg htime, if_neg hother]
  · obtain ⟨hzero, rfl, hrunning⟩ := hends.of_ok
    exact ⟨hends.asked, fun _ => ⟨rfl, hrunning⟩, fun hne => absurd hzero hne⟩

namespace Answered

variable {message : List Request} {s s' : Service} {errno : Nat}

theorem of_ok {delivered : List Delivery} (h : Answered message s errno (.ok delivered, s')) :
    errno = 0 ∧ delivered = (s.succeed message).1 ∧ s'.running = (s.succeed message).2.running :=
  succeeded_of_ok h.succeeded h.failed

theorem of_error {e : ChannelError} (h : Answered message s errno (.error e, s')) :
    errno ≠ 0 ∧ e = channelError errno ∧ s'.running = (s.fail message).running :=
  failed_of_error h.succeeded h.failed

end Answered

end Kernel

end VideoAccel
