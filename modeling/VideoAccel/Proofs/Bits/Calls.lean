import VideoAccel.Bits.Call
import VideoAccel.Proofs.Bits.BitStrings
import VideoAccel.Proofs.Bits.Packing
import VideoAccel.Proofs.Rounding

namespace VideoAccel

namespace BitCall

/-- What a call writes at a position: a value cut to its width, or padding up to a multiple. -/
def bits (position : Nat) : BitCall → List Bool
  | .unsigned bits value => lowBits bits value.toNat
  | .signed bits value => lowBits bits (value.toInt % (2 ^ bits : Nat)).toNat
  | .flag value => [value]
  | .align bits fill => List.replicate (alignUp position bits - position) fill

/-- The call has an allowed width, its value fits into it, and its bits into the region. -/
def Admitted (w : BitWriter) : BitCall → Prop
  | .unsigned bits value =>
    bits ≤ 64 ∧ value.toNat < 2 ^ bits ∧ w.position + bits ≤ w.capacity
  | .signed bits value =>
    (1 ≤ bits ∧ bits ≤ 64) ∧
      (-(2 ^ (bits - 1) : Nat) ≤ value.toInt ∧ value.toInt < (2 ^ (bits - 1) : Nat)) ∧
      w.position + bits ≤ w.capacity
  | .flag _ => w.position + 1 ≤ w.capacity
  | .align bits _ => 0 < bits ∧ alignUp w.position bits ≤ w.capacity

/-- What stays of padding that does not fit: its chunks of 64 bits up to the end of the region. -/
def leftover (w : BitWriter) : BitCall → List Bool
  | .align bits fill =>
    if bits = 0 then [] else List.replicate ((w.capacity - w.position) / 64 * 64) fill
  | _ => []

end BitCall

namespace BitWriter

variable {w w' : BitWriter} {written : List Bool}

structure Holds (w : BitWriter) (written : List Bool) : Prop where
  position : w.position = written.length
  value : w.value = ofBits written
  room : w.position ≤ w.capacity

theorem holds_ofCapacity (capacity : Nat) : (ofCapacity capacity).Holds [] :=
  ⟨rfl, value_ofCapacity capacity, Nat.zero_le _⟩

namespace Holds

theorem bits (h : w.Holds written) :
    w.bits = written ++ List.replicate (w.capacity - w.position) false := by
  have hcapacity : w.capacity = written.length + (w.capacity - w.position) := by
    rw [← h.position]
    have hroom := h.room
    omega
  rw [bits_eq, h.value, hcapacity, lowBits_ofBits, ← hcapacity]

theorem eq (h : w.Holds written) (h' : w'.Holds written) (hcount : w'.wordCount = w.wordCount) :
    w' = w :=
  eq_of_value hcount (h'.position.trans h.position.symm) (h'.value.trans h.value.symm)

theorem isClear (h : w.Holds written) : w.IsClear := by
  rw [IsClear, h.value, h.position]
  exact ofBits_lt written

theorem append (h : w.Holds written) {bits : Nat} (hbits : bits ≤ 64)
    (hroom : w.position + bits ≤ w.capacity) (value : UInt64) :
    (w.append bits value).Holds (written ++ lowBits bits value.toNat) := by
  refine ⟨?_, ?_, ?_⟩
  · rw [position_append, List.length_append, length_lowBits, h.position]
  · rw [value_append hbits hroom, h.isClear.or_shiftLeft, ofBits_append, ofBits_lowBits, h.value,
      h.position]
  · rwa [position_append, capacity_append]

theorem chunk (h : w.Holds written) (fill : Bool) {bits : Nat} (hbits : bits ≤ 64)
    (hroom : w.position + bits ≤ w.capacity) :
    (w.append bits (if fill then 0xffffffffffffffff else 0)).Holds
      (written ++ List.replicate bits fill) := by
  have hnext := h.append hbits hroom (if fill then 0xffffffffffffffff else 0)
  have hword : (if fill then 0xffffffffffffffff else 0 : UInt64).toNat =
      if fill then 2 ^ 64 - 1 else 0 := by
    cases fill <;> rfl
  rwa [hword, lowBits_fill hbits] at hnext

theorem pad (h : w.Holds written) (fill : Bool) {bits : Nat}
    (hroom : w.position + bits ≤ w.capacity) :
    ∃ w', w.pad fill bits = (.ok (), w') ∧ w'.wordCount = w.wordCount ∧
      w'.Holds (written ++ List.replicate bits fill) := by
  induction bits using Nat.strong_induction_on generalizing w written with
  | _ bits ih =>
    rw [BitWriter.pad]
    by_cases hbits : bits = 0
    · subst hbits
      refine ⟨w, if_pos rfl, rfl, ?_⟩
      rw [List.replicate_zero, List.append_nil]
      exact h
    · have hchunk : w.position + min bits 64 ≤ w.capacity := by omega
      have hrest (value : UInt64) :
          (w.append (min bits 64) value).position + (bits - min bits 64) ≤
            (w.append (min bits 64) value).capacity := by
        rw [position_append, capacity_append]
        omega
      obtain ⟨w', hpad, hcount, hw'⟩ := ih (bits - min bits 64) (by omega)
        (h.chunk fill (Nat.min_le_right bits 64) hchunk) (hrest _)
      refine ⟨w', ?_, hcount.trans (wordCount_append _ _ _), ?_⟩
      · rw [if_neg hbits, BitField.putBits_of_room (Nat.min_le_right bits 64) hchunk]
        exact hpad
      · rwa [List.append_assoc, List.replicate_append_replicate,
          Nat.add_sub_cancel' (Nat.min_le_left bits 64)] at hw'

/-- Padding that does not fit is written in chunks of 64 bits for as long as there is room. -/
theorem pad_refused (h : w.Holds written) (fill : Bool) {bits : Nat}
    (hroom : w.capacity < w.position + bits) :
    ∃ e w', w.pad fill bits = (.error e, w') ∧ w'.wordCount = w.wordCount ∧
      w'.Holds (written ++ List.replicate ((w.capacity - w.position) / 64 * 64) fill) := by
  induction bits using Nat.strong_induction_on generalizing w written with
  | _ bits ih =>
    have hinside := h.room
    rw [BitWriter.pad, if_neg (by omega)]
    by_cases hchunk : w.position + min bits 64 ≤ w.capacity
    · have hrest (value : UInt64) : (w.append (min bits 64) value).capacity <
          (w.append (min bits 64) value).position + (bits - min bits 64) := by
        rw [position_append, capacity_append]
        omega
      obtain ⟨e, w', hpad, hcount, hw'⟩ := ih (bits - min bits 64) (by omega)
        (h.chunk fill (Nat.min_le_right bits 64) hchunk) (hrest _)
      refine ⟨e, w', ?_, hcount.trans (wordCount_append _ _ _), ?_⟩
      · rw [BitField.putBits_of_room (Nat.min_le_right bits 64) hchunk]
        exact hpad
      · -- a chunk that fits although the padding does not is a whole one
        have hchunks : min bits 64 + (w.capacity - (w.position + min bits 64)) / 64 * 64 =
            (w.capacity - w.position) / 64 * 64 := by
          omega
        rwa [position_append, capacity_append, List.append_assoc, List.replicate_append_replicate,
          hchunks] at hw'
    · have hnone : (w.capacity - w.position) / 64 * 64 = 0 := by omega
      refine ⟨.overflow w.capacity, w, ?_, rfl, ?_⟩
      · rw [putBits, if_neg (by omega), if_pos (by omega)]
      · rw [hnone, List.replicate_zero, List.append_nil]
        exact h

end Holds

/-- What a call can come to, for a writer that holds what was written. -/
inductive Outcome (w : BitWriter) (written : List Bool) (c : BitCall) :
    Except BitError Unit × BitWriter → Prop
  | taken {w' : BitWriter} (admitted : c.Admitted w) (count : w'.wordCount = w.wordCount)
    (holds : w'.Holds (written ++ c.bits w.position)) : Outcome w written c (.ok (), w')
  | refused {e : BitError} {w' : BitWriter} (refused : ¬ c.Admitted w)
    (count : w'.wordCount = w.wordCount) (holds : w'.Holds (written ++ c.leftover w)) :
    Outcome w written c (.error e, w')

theorem putBits_refused {bits : Nat} (h : ¬ (bits ≤ 64 ∧ w.position + bits ≤ w.capacity))
    (value : UInt64) : ∃ e, w.putBits bits value = .error e := by
  rw [putBits]
  by_cases hbits : 64 < bits
  · exact ⟨_, if_pos hbits⟩
  · rw [if_neg hbits, if_pos (by omega)]
    exact ⟨_, rfl⟩

namespace Holds

theorem refused (h : w.Holds written) {c : BitCall} {r : Except BitError BitWriter}
    (hc : ¬ c.Admitted w) (hleft : c.leftover w = []) (hr : ∃ e, r = .error e) :
    Outcome w written c (w.orKept r) := by
  obtain ⟨e, rfl⟩ := hr
  refine .refused hc rfl ?_
  rw [hleft, List.append_nil]
  exact h

theorem taken (h : w.Holds written) {c : BitCall} {f : BitField} (hc : c.Admitted w)
    (hallowed : f.shape.isAllowed = true) (hf : f.Fits) (hroom : w.position + f.width ≤ w.capacity)
    (hbits : c.bits w.position = lowBits f.width f.code) :
    Outcome w written c (w.orKept (f.put w)) := by
  have hput := BitField.put_of_fits hallowed hf hroom
  obtain ⟨hwidth, -⟩ := BitField.putBits_eq_ok (BitField.putBits_of_put hput)
  rw [hput]
  refine .taken hc (wordCount_append _ _ _) ?_
  rw [hbits, ← BitField.word_mod hf hwidth, lowBits_mod]
  exact h.append hwidth hroom f.word

theorem outcome_unsigned (h : w.Holds written) (bits : Nat) (value : UInt64) :
    Outcome w written (.unsigned bits value) (w.call (.unsigned bits value)) := by
  by_cases hc : (BitCall.unsigned bits value).Admitted w
  · have ⟨hbits, hvalue, hroom⟩ := hc
    have hallowed : (FieldShape.unsigned bits).isAllowed = true := decide_eq_true hbits
    exact h.taken (f := .unsigned bits value.toNat) hc hallowed hvalue hroom rfl
  · apply h.refused hc rfl
    rw [putUnsigned]
    by_cases hwide : bits < 64 ∧ Nat.pow 2 bits ≤ value.toNat
    · exact ⟨_, if_pos hwide⟩
    · rw [if_neg hwide]
      apply putBits_refused
      rintro ⟨hbits, hroom⟩
      refine hc ⟨hbits, Nat.lt_of_not_le fun hle => hwide ⟨?_, hle⟩, hroom⟩
      -- no value of 64 bits is too wide for 64 bits
      apply Nat.lt_of_le_of_ne hbits
      rintro rfl
      exact Nat.not_lt_of_le hle value.toNat_lt

theorem outcome_signed (h : w.Holds written) (bits : Nat) (value : Int64) :
    Outcome w written (.signed bits value) (w.call (.signed bits value)) := by
  by_cases hc : (BitCall.signed bits value).Admitted w
  · have ⟨hbits, hvalue, hroom⟩ := hc
    have hallowed : (FieldShape.signed bits).isAllowed = true := by
      rw [FieldShape.isAllowed, Bool.and_eq_true]
      exact ⟨decide_eq_true hbits.1, decide_eq_true hbits.2⟩
    exact h.taken (f := .signed bits value.toInt) hc hallowed hvalue hroom rfl
  · apply h.refused hc rfl
    rw [putSigned]
    by_cases hbits : bits = 0 ∨ 64 < bits
    · exact ⟨_, if_pos hbits⟩
    · rw [if_neg hbits]
      by_cases hwide : bits < 64 ∧ (value.toInt < -(Nat.pow 2 (bits - 1) : Nat) ∨
          (Nat.pow 2 (bits - 1) : Nat) ≤ value.toInt)
      · exact ⟨_, if_pos hwide⟩
      · rw [if_neg hwide]
        apply putBits_refused
        rintro ⟨hle, hroom⟩
        refine hc ⟨⟨by omega, hle⟩, ?_, hroom⟩
        by_cases hfull : bits = 64
        · subst hfull
          exact ⟨value.le_toInt, value.toInt_lt⟩
        · have hfits := not_or.1 fun h => hwide ⟨by omega, h⟩
          exact ⟨Int.not_lt.1 hfits.1, Int.not_le.1 hfits.2⟩

theorem outcome_flag (h : w.Holds written) (value : Bool) :
    Outcome w written (.flag value) (w.call (.flag value)) := by
  by_cases hc : (BitCall.flag value).Admitted w
  · have hbits : [value] = lowBits 1 value.toNat := by cases value <;> rfl
    exact h.taken (f := .flag value) hc rfl trivial hc hbits
  · exact h.refused hc rfl (putBits_refused (fun hroom => hc hroom.2) value.toUInt64)

theorem outcome_align (h : w.Holds written) (bits : Nat) (fill : Bool) :
    Outcome w written (.align bits fill) (w.call (.align bits fill)) := by
  rw [call, align]
  by_cases hbits : bits = 0
  · subst hbits
    rw [if_pos rfl]
    refine .refused (fun hc => Nat.lt_irrefl 0 hc.1) rfl ?_
    rw [BitCall.leftover, if_pos rfl, List.append_nil]
    exact h
  · have hpos := Nat.pos_of_ne_zero hbits
    have hnext : (w.position + bits - 1) / bits * bits = alignUp w.position bits := by
      rw [alignUp, ceilDiv, Nat.add_sub_assoc hpos]
    have hle := le_alignUp w.position hpos
    rw [if_neg hbits, hnext]
    by_cases hroom : alignUp w.position bits ≤ w.capacity
    · have hfits : w.position + (alignUp w.position bits - w.position) ≤ w.capacity := by omega
      obtain ⟨w', hpad, hcount, hw'⟩ := h.pad fill hfits
      rw [hpad]
      exact .taken ⟨hpos, hroom⟩ hcount hw'
    · have hover : w.capacity < w.position + (alignUp w.position bits - w.position) := by omega
      obtain ⟨e, w', hpad, hcount, hw'⟩ := h.pad_refused fill hover
      rw [hpad]
      refine .refused (fun hc => hroom hc.2) hcount ?_
      rw [BitCall.leftover, if_neg hbits]
      exact hw'

theorem outcome (h : w.Holds written) (c : BitCall) : Outcome w written c (w.call c) := by
  cases c with
  | unsigned bits value => exact h.outcome_unsigned bits value
  | signed bits value => exact h.outcome_signed bits value
  | flag value => exact h.outcome_flag value
  | align bits fill => exact h.outcome_align bits fill

end Holds

end BitWriter

end VideoAccel
