import Mathlib.Algebra.Ring.Nat
import Mathlib.Data.List.Basic
import VideoAccel.Proofs.Bits.Words

namespace VideoAccel

def lowBits (width n : Nat) : List Bool := (List.range width).map n.testBit

def ofBits (bits : List Bool) : Nat := bits.foldr (fun b n => b.toNat + 2 * n) 0

@[simp]
theorem length_lowBits (width n : Nat) : (lowBits width n).length = width := by
  simp [lowBits]

theorem lowBits_zero (width : Nat) : lowBits width 0 = List.replicate width false := by
  have hzero : Nat.testBit 0 = fun _ => false := by
    funext i
    exact Nat.zero_testBit i
  rw [lowBits, hzero, List.map_const', List.length_range]

theorem lowBits_succ (width n : Nat) :
    lowBits (width + 1) n = n.testBit 0 :: lowBits width (n / 2) := by
  simp only [lowBits, List.range_succ_eq_map, List.map_cons, List.map_map, Function.comp_def,
    Nat.testBit_succ]

theorem lowBits_add (a b n : Nat) : lowBits (a + b) n = lowBits a n ++ lowBits b (n >>> a) := by
  have htest : (n >>> a).testBit = fun i => n.testBit (a + i) := by
    funext i
    exact Nat.testBit_shiftRight n
  simp only [lowBits, List.range_add, List.map_append, List.map_map, Function.comp_def, htest]

theorem lowBits_mod (width n : Nat) : lowBits width (n % 2 ^ width) = lowBits width n := by
  apply List.map_congr_left
  intro i hi
  rw [Nat.testBit_mod_two_pow, decide_eq_true (List.mem_range.1 hi), Bool.true_and]

theorem lowBits_fill {width bits : Nat} (h : width ≤ bits) (fill : Bool) :
    lowBits width (if fill then 2 ^ bits - 1 else 0) = List.replicate width fill := by
  cases fill with
  | false => exact lowBits_zero width
  | true =>
    apply List.ext_getElem
    · simp
    · intro i hi _
      rw [length_lowBits] at hi
      simp [lowBits, Nat.testBit_two_pow_sub_one, Nat.lt_of_lt_of_le hi h]

theorem ofBits_cons (b : Bool) (bits : List Bool) :
    ofBits (b :: bits) = b.toNat + 2 * ofBits bits := rfl

theorem ofBits_lt (bits : List Bool) : ofBits bits < 2 ^ bits.length := by
  induction bits with
  | nil => exact Nat.one_pos
  | cons b bits ih =>
    have hb := Bool.toNat_lt b
    rw [ofBits_cons, List.length_cons, Nat.pow_succ]
    omega

theorem ofBits_append (bits bits' : List Bool) :
    ofBits (bits ++ bits') = ofBits bits + 2 ^ bits.length * ofBits bits' := by
  induction bits with
  | nil => simp [ofBits]
  | cons b bits ih =>
    rw [List.cons_append, ofBits_cons, ofBits_cons, ih, Nat.mul_add, List.length_cons,
      Nat.pow_succ', Nat.mul_assoc, Nat.add_assoc]

theorem ofBits_lowBits (width n : Nat) : ofBits (lowBits width n) = n % 2 ^ width := by
  induction width generalizing n with
  | zero => rw [Nat.pow_zero, Nat.mod_one]; rfl
  | succ width ih =>
    rw [lowBits_succ, ofBits_cons, ih, Nat.pow_succ', Nat.mod_mul, Nat.toNat_testBit, Nat.pow_zero,
      Nat.div_one]

theorem lowBits_ofBits (bits : List Bool) (zeros : Nat) :
    lowBits (bits.length + zeros) (ofBits bits) = bits ++ List.replicate zeros false := by
  induction bits with
  | nil =>
    rw [List.length_nil, Nat.zero_add]
    exact lowBits_zero zeros
  | cons b bits ih =>
    have hlow : (b.toNat + 2 * ofBits bits).testBit 0 = b := by
      cases b <;> simp [Nat.testBit_zero]
    have hhigh : (b.toNat + 2 * ofBits bits) / 2 = ofBits bits := by
      have hb := Bool.toNat_lt b
      omega
    rw [List.length_cons, Nat.succ_add, lowBits_succ, ofBits_cons, hlow, hhigh, ih,
      List.cons_append]

theorem flatMap_lowBits (width count n : Nat) :
    (List.range count).flatMap (fun i => lowBits width (n >>> (width * i))) =
      lowBits (width * count) n := by
  induction count with
  | zero => rfl
  | succ count ih =>
    rw [List.range_succ, List.flatMap_append, ih, List.flatMap_singleton, Nat.mul_succ,
      lowBits_add]

theorem flatMap_lowBits_words (words : List UInt64) :
    words.flatMap (fun word => lowBits 64 word.toNat) =
      lowBits (64 * words.length) (ofWords words) := by
  induction words with
  | nil => rfl
  | cons word words ih =>
    have hlow : lowBits 64 (ofWords (word :: words)) = lowBits 64 word.toNat := by
      rw [← lowBits_mod, ofWords_cons, Nat.add_mul_mod_self_left, lowBits_mod]
    have hhigh : ofWords (word :: words) >>> 64 = ofWords words := by
      rw [ofWords_cons, Nat.shiftRight_eq_div_pow, Nat.add_mul_div_left _ _ (Nat.two_pow_pos 64),
        Nat.div_eq_of_lt word.toNat_lt, Nat.zero_add]
    rw [List.flatMap_cons, ih, List.length_cons, Nat.mul_succ, Nat.add_comm, lowBits_add, hlow,
      hhigh]

namespace BitWriter

/-- The words of the region as one string. -/
def bits (w : BitWriter) : List Bool := w.words.flatMap fun word => lowBits 64 word.toNat

theorem bits_eq (w : BitWriter) : w.bits = lowBits w.capacity w.value := by
  rw [bits, flatMap_lowBits_words, capacity, Nat.mul_comm]
  rfl

theorem flatMap_wordBytes (word : UInt64) :
    (wordBytes word).flatMap (fun byte => lowBits 8 byte.toNat) = lowBits 64 word.toNat := by
  rw [wordBytes, List.flatMap_map, ← flatMap_lowBits 8 8]
  apply List.flatMap_congr
  intro i hi
  have hshift : 8 * i < 64 := by
    have := List.mem_range.1 hi
    omega
  rw [UInt64.toNat_toUInt8, toNat_shiftRight_word word hshift]
  exact lowBits_mod 8 _

theorem flatMap_bytes (w : BitWriter) :
    w.bytes.flatMap (fun byte => lowBits 8 byte.toNat) = w.bits := by
  rw [bytes, List.flatMap_assoc, bits]
  simp only [flatMap_wordBytes]

end BitWriter

end VideoAccel
