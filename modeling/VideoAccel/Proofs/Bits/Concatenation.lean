import VideoAccel.Proofs.Bits.Calls

namespace VideoAccel

namespace BitCall

def allBits (position : Nat) : List BitCall → List Bool
  | [] => []
  | c :: cs => c.bits position ++ allBits (position + (c.bits position).length) cs

theorem allBits_append (position : Nat) (cs cs' : List BitCall) :
    allBits position (cs ++ cs') =
      allBits position cs ++ allBits (position + (allBits position cs).length) cs' := by
  induction cs generalizing position with
  | nil => rfl
  | cons c cs ih =>
    rw [List.cons_append, allBits, allBits, ih, List.append_assoc, List.length_append,
      Nat.add_assoc]

theorem allBits_middle (before : List BitCall) (c : BitCall) (after : List BitCall) :
    allBits 0 (before ++ c :: after) = allBits 0 before ++
      (c.bits (allBits 0 before).length ++
        allBits ((allBits 0 before ++ c.bits (allBits 0 before).length).length) after) := by
  rw [allBits_append, Nat.zero_add, allBits, List.length_append]

end BitCall

namespace BitWriter

variable {w : BitWriter} {written : List Bool} {c : BitCall} {cs : List BitCall} {capacity : Nat}

/-- None of the calls is refused. -/
def TakesAll (w : BitWriter) (cs : List BitCall) : Prop :=
  ∀ answer ∈ (w.callAll cs).1, answer = .ok ()

instance (w : BitWriter) (cs : List BitCall) : Decidable (w.TakesAll cs) :=
  inferInstanceAs (Decidable (∀ answer ∈ (w.callAll cs).1, answer = .ok ()))

theorem takesAll_cons :
    w.TakesAll (c :: cs) ↔ (w.call c).1 = .ok () ∧ (w.call c).2.TakesAll cs := List.forall_mem_cons

theorem takesAll_append (w : BitWriter) (cs cs' : List BitCall) :
    w.TakesAll (cs ++ cs') ↔ w.TakesAll cs ∧ (w.callAll cs).2.TakesAll cs' := by
  induction cs generalizing w with
  | nil => simp [TakesAll, callAll]
  | cons c cs ih =>
    rw [List.cons_append, takesAll_cons, takesAll_cons, ih, and_assoc]
    rfl

def slice (w : BitWriter) (position width : Nat) : List Bool := (w.bits.drop position).take width

/-- The field of a call is read at a position of the region, one in two's complement with its sign
extended. -/
def ReadsBack (w : BitWriter) (position : Nat) : BitCall → Prop
  | .unsigned bits value => ofBits (w.slice position bits) = value.toNat
  | .signed bits value => Int.bmod (ofBits (w.slice position bits)) (2 ^ bits) = value.toInt
  | .flag value => w.slice position 1 = [value]
  | .align bits fill =>
    w.slice position (alignUp position bits - position) =
      List.replicate (alignUp position bits - position) fill

namespace Holds

theorem taken_iff (h : w.Holds written) (c : BitCall) :
    (w.call c).1 = .ok () ↔ c.Admitted w := by
  have houtcome := h.outcome c
  generalize w.call c = result at houtcome ⊢
  cases houtcome with
  | taken admitted => exact iff_of_true rfl admitted
  | refused refused => exact iff_of_false nofun refused

theorem call_of_taken (h : w.Holds written) (hc : (w.call c).1 = .ok ()) :
    (w.call c).2.wordCount = w.wordCount ∧
      (w.call c).2.Holds (written ++ c.bits w.position) := by
  have houtcome := h.outcome c
  generalize w.call c = result at houtcome hc ⊢
  cases houtcome with
  | taken _ count holds => exact ⟨count, holds⟩
  | refused => cases hc

theorem callAll_of_takesAll (h : w.Holds written) (hcs : w.TakesAll cs) :
    (w.callAll cs).2.wordCount = w.wordCount ∧
      (w.callAll cs).2.Holds (written ++ BitCall.allBits w.position cs) := by
  induction cs generalizing w written with
  | nil =>
    refine ⟨rfl, ?_⟩
    rw [BitCall.allBits, List.append_nil]
    exact h
  | cons c cs ih =>
    obtain ⟨hc, hcs⟩ := takesAll_cons.1 hcs
    obtain ⟨hcount, hnext⟩ := h.call_of_taken hc
    obtain ⟨hcounts, hall⟩ := ih hnext hcs
    refine ⟨hcounts.trans hcount, ?_⟩
    have hposition : (w.call c).2.position = w.position + (c.bits w.position).length := by
      rw [hnext.position, List.length_append, h.position]
    rw [hposition, List.append_assoc] at hall
    exact hall

theorem slice (h : w.Holds written) {before field after : List Bool}
    (hwritten : written = before ++ (field ++ after)) :
    w.slice before.length field.length = field := by
  rw [BitWriter.slice, h.bits, hwritten, List.append_assoc, List.append_assoc, List.drop_left,
    List.take_left]

end Holds

theorem readsBack_of_slice {before : BitWriter} (hc : c.Admitted before) {position : Nat}
    (hslice : w.slice position (c.bits position).length = c.bits position) :
    w.ReadsBack position c := by
  cases c with
  | unsigned bits value =>
    obtain ⟨-, hvalue, -⟩ := hc
    rw [BitCall.bits, length_lowBits] at hslice
    rw [ReadsBack, hslice, ofBits_lowBits, Nat.mod_eq_of_lt hvalue]
  | signed bits value =>
    obtain ⟨hbits, hvalue, -⟩ := hc
    rw [BitCall.bits, length_lowBits] at hslice
    have hcode : ofBits (lowBits bits (value.toInt % (2 ^ bits : Nat)).toNat) =
        twosComplement bits value.toInt + 2 ^ bits * 0 := by
      rw [ofBits_lowBits]
      exact Nat.mod_eq_of_lt (BitField.code_lt (f := .signed bits value.toInt) hvalue)
    rw [ReadsBack, hslice, hcode]
    exact bmod_twosComplement hbits.1 hvalue.1 hvalue.2 0
  | flag value => exact hslice
  | align bits fill =>
    rw [BitCall.bits, List.length_replicate] at hslice
    exact hslice

theorem writeTo_of_le {destination : List UInt8} (h : w.capacity ≤ 8 * destination.length) :
    w.writeTo destination = (.ok w.bytes.length, w.bytes ++ destination.drop w.bytes.length) := by
  have hsize : ¬ destination.length < w.wordCount * 8 := by
    rw [capacity] at h
    omega
  rw [writeTo, bytesFor, if_neg hsize]

theorem writeTo_of_lt {destination : List UInt8} (h : 8 * destination.length < w.capacity) :
    w.writeTo destination = (.error (.destinationTooSmall destination.length), destination) := by
  have hsize : destination.length < w.wordCount * 8 := by
    rw [capacity] at h
    omega
  rw [writeTo, bytesFor, if_pos hsize]

/-- What calls leave that were all taken by an empty region. -/
structure Concatenates (w : BitWriter) (capacity : Nat) (cs : List BitCall) : Prop where
  capacity_eq : w.capacity = alignUp capacity 64
  position_eq : w.position = (BitCall.allBits 0 cs).length
  position_le : w.position ≤ w.capacity
  bits_eq : w.bits =
    BitCall.allBits 0 cs ++ List.replicate (w.capacity - w.position) false
  readsBack : ∀ before c after, cs = before ++ c :: after →
    w.ReadsBack (BitCall.allBits 0 before).length c
  taken_iff : ∀ c, (w.call c).1 = .ok () ↔ c.Admitted w
  stored : ∀ destination, w.capacity ≤ 8 * destination.length →
    ∃ bytes, w.writeTo destination = (.ok bytes.length, bytes ++ destination.drop bytes.length) ∧
      8 * bytes.length = w.capacity ∧ bytes.flatMap (fun byte => lowBits 8 byte.toNat) = w.bits
  untouched : ∀ destination, 8 * destination.length < w.capacity →
    ∃ e, w.writeTo destination = (.error e, destination)

theorem holds_callAll_ofCapacity (h : (ofCapacity capacity).TakesAll cs) :
    ((ofCapacity capacity).callAll cs).2.wordCount = (capacity + 63) / 64 ∧
      ((ofCapacity capacity).callAll cs).2.Holds (BitCall.allBits 0 cs) := by
  have hall := (holds_ofCapacity capacity).callAll_of_takesAll h
  rwa [wordCount_ofCapacity, List.nil_append] at hall

/-- A writer that took all of its calls holds exactly the concatenation of their fields. -/
theorem concatenates_of_takesAll (h : (ofCapacity capacity).TakesAll cs) :
    ((ofCapacity capacity).callAll cs).2.Concatenates capacity cs := by
  obtain ⟨hcount, hall⟩ := holds_callAll_ofCapacity h
  refine
    { capacity_eq := ?_
      position_eq := hall.position
      position_le := hall.room
      bits_eq := hall.bits
      readsBack := ?_
      taken_iff := hall.taken_iff
      stored := fun destination hsize => ⟨_, writeTo_of_le hsize, ?_, flatMap_bytes _⟩
      untouched := fun destination hsize => ⟨_, writeTo_of_lt hsize⟩ }
  · rw [BitWriter.capacity, hcount]
    rfl
  · rintro before c after rfl
    obtain ⟨hbefore, hrest⟩ := (takesAll_append _ _ _).1 h
    obtain ⟨-, hstart⟩ := holds_callAll_ofCapacity hbefore
    exact readsBack_of_slice ((hstart.taken_iff c).1 (takesAll_cons.1 hrest).1)
      (hall.slice (BitCall.allBits_middle before c after))
  · rw [length_bytes, BitWriter.capacity]
    omega

/-- The signed field has bits in both words, and the padding ends within the second one. -/
theorem concatenates_of_takesAll_straddling :
    let cs : List BitCall := [.unsigned 60 5, .signed 8 (-85), .flag true, .align 32 true]
    let w := ((ofCapacity 100).callAll cs).2
    (ofCapacity 100).TakesAll cs ∧ w.capacity = 128 ∧ w.position = 96 ∧
      Int.bmod (ofBits (w.slice 60 8)) (2 ^ 8) = -85 ∧ (w.call (.unsigned 33 0)).1 ≠ .ok () := by
  intro cs w
  have htakes : (ofCapacity 100).TakesAll cs := by decide +kernel
  have h := concatenates_of_takesAll htakes
  refine ⟨htakes, h.capacity_eq, h.position_eq,
    h.readsBack [.unsigned 60 5] (.signed 8 (-85)) [.flag true, .align 32 true] rfl, ?_⟩
  intro htaken
  obtain ⟨-, -, hroom⟩ := (h.taken_iff _).1 htaken
  rw [h.position_eq, h.capacity_eq] at hroom
  exact absurd hroom (by decide)

end BitWriter

end VideoAccel
