import VideoAccel.Proofs.Bits.Calls

namespace VideoAccel

/-- The call is padding, and the region has room for one of its chunks. -/
def BitCall.CanOverrun (w : BitWriter) : BitCall → Prop
  | .align bits _ => 0 < bits ∧ w.position + 64 ≤ w.capacity
  | _ => False

namespace BitWriter

variable {w w' : BitWriter} {written : List Bool} {c : BitCall} {cs : List BitCall} {e : BitError}
  {capacity : Nat}

theorem leftover_eq_nil_iff (w : BitWriter) (c : BitCall) :
    c.leftover w = [] ↔ ¬ c.CanOverrun w := by
  cases c with
  | unsigned | signed | flag => exact ⟨fun _ => nofun, fun _ => rfl⟩
  | align bits fill =>
    rw [BitCall.leftover, BitCall.CanOverrun]
    by_cases hbits : bits = 0
    · simp [hbits]
    · rw [if_neg hbits, List.replicate_eq_nil_iff]
      omega

theorem Holds.exists_callAll (h : w.Holds written) (cs : List BitCall) :
    ∃ written', (w.callAll cs).2.Holds written' := by
  induction cs generalizing w written with
  | nil => exact ⟨written, h⟩
  | cons c cs ih =>
    have houtcome := h.outcome c
    rw [callAll]
    generalize w.call c = result at houtcome ⊢
    cases houtcome with
    | taken _ _ holds | refused _ _ holds => exact ih holds

/-- After any calls, one that is refused changes nothing exactly if it is not padding with room for
a chunk. Such padding goes on to the last chunk that fits. -/
theorem refused_unchanged_iff (hw : ((ofCapacity capacity).callAll cs).2 = w)
    (h : w.call c = (.error e, w')) :
    (w'.words = w.words ∧ w'.position = w.position ↔ ¬ c.CanOverrun w) ∧
      w'.position = w.position + (c.leftover w).length ∧
      w'.bits = w.bits.take w.position ++ c.leftover w ++
        List.replicate (w.capacity - w'.position) false := by
  obtain ⟨written, hwritten⟩ := (holds_ofCapacity capacity).exists_callAll cs
  rw [hw] at hwritten
  have houtcome := hwritten.outcome c
  rw [h] at houtcome
  cases houtcome with
  | refused _ count holds =>
    have hposition : w'.position = w.position + (c.leftover w).length := by
      rw [holds.position, List.length_append, hwritten.position]
    refine ⟨?_, hposition, ?_⟩
    · rw [← leftover_eq_nil_iff]
      constructor
      · rintro ⟨-, hsame⟩
        rw [hsame] at hposition
        exact List.eq_nil_of_length_eq_zero (by omega)
      · intro hnone
        rw [hnone, List.append_nil] at holds
        obtain rfl := hwritten.eq holds count
        exact ⟨rfl, rfl⟩
    · have hcapacity : w'.capacity = w.capacity := congrArg (· * 64) count
      rw [holds.bits, hcapacity, hwritten.bits, hwritten.position, List.take_left]

/-- Padding up to 128 bits is refused by a region with 63 bits left, and leaves nothing. -/
theorem refused_unchanged_iff_short :
    let w := ((ofCapacity 64).callAll [.flag true]).2
    w.call (.align 128 true) = (.error (.overflow 64), (w.call (.align 128 true)).2) ∧
      (w.call (.align 128 true)).2.words = w.words ∧
      (w.call (.align 128 true)).2.position = w.position := by
  intro w
  have hcall : w.call (.align 128 true) =
      (.error (.overflow 64), (w.call (.align 128 true)).2) := by
    decide +kernel
  refine ⟨hcall, (refused_unchanged_iff rfl hcall).1.2 ?_⟩
  rintro ⟨-, hroom⟩
  exact absurd hroom (by decide)

/-- Padding up to 256 bits is refused by a region of 128 bits, and a chunk of it stays. -/
theorem refused_padding_stays :
    let w := ((ofCapacity 128).callAll [.flag true]).2
    (w.call (.align 256 true)).1 = .error (.overflow 128) ∧
      (w.words, w.position) = ([1, 0], 1) ∧
      ((w.call (.align 256 true)).2.words, (w.call (.align 256 true)).2.position) =
        ([0xffffffffffffffff, 1], 65) := by
  decide +kernel

end BitWriter

end VideoAccel
