import Mathlib.Algebra.Ring.Nat
import VideoAccel.Bits.Writer

namespace VideoAccel

def ofWords (words : List UInt64) : Nat := words.foldr (fun word n => word.toNat + 2 ^ 64 * n) 0

theorem ofWords_cons (word : UInt64) (words : List UInt64) :
    ofWords (word :: words) = word.toNat + 2 ^ 64 * ofWords words := rfl

theorem ofWords_cons_eq_or (word : UInt64) (words : List UInt64) :
    ofWords (word :: words) = ofWords words <<< 64 ||| word.toNat := by
  rw [← Nat.shiftLeft_add_eq_or_of_lt word.toNat_lt, ofWords_cons, Nat.shiftLeft_eq, Nat.mul_comm,
    Nat.add_comm]

theorem ofWords_replicate_zero (count : Nat) : ofWords (List.replicate count 0) = 0 := by
  induction count with
  | zero => rfl
  | succ count ih => rw [List.replicate_succ, ofWords_cons, ih]; rfl

theorem eq_of_ofWords {words words' : List UInt64} (hlength : words.length = words'.length)
    (h : ofWords words = ofWords words') : words = words' := by
  induction words generalizing words' with
  | nil => exact (List.length_eq_zero_iff.1 hlength.symm).symm
  | cons word words ih =>
    cases words' with
    | nil => cases hlength
    | cons word' words' =>
      have hword := word.toNat_lt
      have hword' := word'.toNat_lt
      rw [ofWords_cons, ofWords_cons] at h
      rw [UInt64.toNat_inj.1 (show word.toNat = word'.toNat by omega),
        ih (Nat.succ.inj hlength) (by omega)]

theorem ofWords_modify_or {words : List UInt64} {i : Nat} (hi : i < words.length) (x : UInt64) :
    ofWords (words.modify i (· ||| x)) = ofWords words ||| x.toNat <<< (64 * i) := by
  induction words generalizing i with
  | nil => cases hi
  | cons word words ih =>
    cases i with
    | zero =>
      rw [List.modify_zero_cons, ofWords_cons_eq_or, ofWords_cons_eq_or, UInt64.toNat_or,
        Nat.or_assoc]
      rfl
    | succ i =>
      rw [List.modify_succ_cons, ofWords_cons_eq_or, ofWords_cons_eq_or,
        ih (Nat.lt_of_succ_lt_succ hi), Nat.shiftLeft_or_distrib, ← Nat.shiftLeft_add, ← Nat.mul_succ,
        Nat.or_assoc, Nat.or_assoc, Nat.or_comm word.toNat]

theorem toNat_toUInt64_mod {shift : Nat} (hshift : shift < 64) :
    shift.toUInt64.toNat % 64 = shift := by
  rw [Nat.toUInt64, UInt64.toNat_ofNat']
  omega

theorem toNat_shiftLeft_word (word : UInt64) {shift : Nat} (hshift : shift < 64) :
    (word <<< shift.toUInt64).toNat = word.toNat <<< shift % 2 ^ 64 := by
  rw [UInt64.toNat_shiftLeft, toNat_toUInt64_mod hshift]

theorem toNat_shiftRight_word (word : UInt64) {shift : Nat} (hshift : shift < 64) :
    (word >>> shift.toUInt64).toNat = word.toNat >>> shift := by
  rw [UInt64.toNat_shiftRight, toNat_toUInt64_mod hshift]

theorem shiftLeft_eq_or (n : Nat) {shift : Nat} (hshift : shift ≤ 64) :
    n <<< shift = n <<< shift % 2 ^ 64 ||| n >>> (64 - shift) <<< 64 := by
  have hpow : 2 ^ 64 = 2 ^ (64 - shift) * 2 ^ shift := by
    rw [← Nat.pow_add, Nat.sub_add_cancel hshift]
  have hhigh : n <<< shift / 2 ^ 64 = n >>> (64 - shift) := by
    rw [Nat.shiftLeft_eq, Nat.shiftRight_eq_div_pow, hpow,
      Nat.mul_div_mul_right _ _ (Nat.two_pow_pos shift)]
  calc n <<< shift = 2 ^ 64 * (n <<< shift / 2 ^ 64) + n <<< shift % 2 ^ 64 :=
        (Nat.div_add_mod _ _).symm
    _ = (n <<< shift / 2 ^ 64) <<< 64 ||| n <<< shift % 2 ^ 64 := by
        rw [← Nat.shiftLeft_add_eq_or_of_lt (Nat.mod_lt _ (Nat.two_pow_pos 64)),
          Nat.shiftLeft_eq _ 64, Nat.mul_comm]
    _ = n <<< shift % 2 ^ 64 ||| n >>> (64 - shift) <<< 64 := by rw [hhigh, Nat.or_comm]

theorem ofWords_modify_one {words : List UInt64} {i shift : Nat} {low : UInt64}
    (hi : i < words.length) (hshift : shift < 64) (hlow : low.toNat <<< shift < 2 ^ 64) :
    ofWords (words.modify i (· ||| low <<< shift.toUInt64)) =
      ofWords words ||| low.toNat <<< (shift + 64 * i) := by
  rw [ofWords_modify_or hi, toNat_shiftLeft_word low hshift, Nat.mod_eq_of_lt hlow,
    Nat.shiftLeft_add]

/-- What does not fit into a word goes to the low end of the next one. -/
theorem ofWords_modify_two {words : List UInt64} {i shift : Nat} (hi : i + 1 < words.length)
    (hpos : 0 < shift) (hshift : shift < 64) (low : UInt64) :
    ofWords ((words.modify i (· ||| low <<< shift.toUInt64)).modify (i + 1)
        (· ||| low >>> (64 - shift).toUInt64)) =
      ofWords words ||| low.toNat <<< (shift + 64 * i) := by
  have hnext : i + 1 < (words.modify i (· ||| low <<< shift.toUInt64)).length := by
    rwa [List.length_modify]
  rw [ofWords_modify_or hnext, ofWords_modify_or (Nat.lt_of_succ_lt hi),
    toNat_shiftLeft_word low hshift, toNat_shiftRight_word low (by omega), Nat.mul_succ,
    Nat.add_comm (64 * i), Nat.shiftLeft_add, Nat.or_assoc, ← Nat.shiftLeft_or_distrib,
    ← shiftLeft_eq_or low.toNat (Nat.le_of_lt hshift), ← Nat.shiftLeft_add]

namespace BitWriter

def value (w : BitWriter) : Nat := ofWords w.words

@[simp]
theorem position_ofCapacity (capacity : Nat) : (ofCapacity capacity).position = 0 := rfl

@[simp]
theorem wordCount_ofCapacity (capacity : Nat) :
    (ofCapacity capacity).wordCount = (capacity + 63) / 64 := List.length_replicate

theorem value_ofCapacity (capacity : Nat) : (ofCapacity capacity).value = 0 :=
  ofWords_replicate_zero _

theorem eq_of_value {w w' : BitWriter} (hcount : w.wordCount = w'.wordCount)
    (hposition : w.position = w'.position) (hvalue : w.value = w'.value) : w = w' := by
  obtain ⟨words, position⟩ := w
  obtain ⟨words', position'⟩ := w'
  obtain rfl : words = words' := eq_of_ofWords hcount hvalue
  obtain rfl : position = position' := hposition
  rfl

theorem toNat_lowWord {bits : Nat} (hbits : bits ≤ 64) (value : UInt64) :
    (lowWord bits value).toNat = value.toNat % 2 ^ bits := by
  rw [lowWord]
  split
  · rename_i hfull
    rw [hfull, Nat.mod_eq_of_lt value.toNat_lt]
  · have hlt : bits < 64 := by omega
    have hpow : (1 <<< bits.toUInt64 : UInt64).toNat = 2 ^ bits := by
      rw [toNat_shiftLeft_word 1 hlt, UInt64.toNat_one, Nat.one_shiftLeft]
      exact Nat.mod_eq_of_lt (Nat.pow_lt_pow_right (by decide) hlt)
    have hone : (1 : UInt64) ≤ 1 <<< bits.toUInt64 := by
      rw [UInt64.le_iff_toNat_le, hpow]
      exact Nat.one_le_two_pow
    rw [UInt64.toNat_and, UInt64.toNat_sub_of_le _ _ hone, hpow]
    exact Nat.and_two_pow_sub_one_eq_mod _ _

@[simp]
theorem position_append (w : BitWriter) (bits : Nat) (value : UInt64) :
    (w.append bits value).position = w.position + bits := by
  rw [append]
  split
  · omega
  · rfl

@[simp]
theorem wordCount_append (w : BitWriter) (bits : Nat) (value : UInt64) :
    (w.append bits value).wordCount = w.wordCount := by
  rw [append]
  split
  · rfl
  · simp only [wordCount]
    split <;> simp

@[simp]
theorem capacity_append (w : BitWriter) (bits : Nat) (value : UInt64) :
    (w.append bits value).capacity = w.capacity := by
  rw [capacity, wordCount_append, capacity]

/-- Whether they go into one word or into two, the bits are put at the position of the number. -/
theorem value_append {w : BitWriter} {bits : Nat} (hbits : bits ≤ 64)
    (hroom : w.position + bits ≤ w.capacity) (value : UInt64) :
    (w.append bits value).value = w.value ||| (value.toNat % 2 ^ bits) <<< w.position := by
  by_cases hzero : bits = 0
  · subst hzero
    rw [append, if_pos rfl, Nat.pow_zero, Nat.mod_one, Nat.zero_shiftLeft, Nat.or_zero]
  have hshift : w.position % 64 < 64 := Nat.mod_lt _ (by decide)
  have hlow := toNat_lowWord hbits value
  have hlt : (lowWord bits value).toNat < 2 ^ bits := hlow ▸ Nat.mod_lt _ (Nat.two_pow_pos bits)
  rw [capacity, wordCount] at hroom
  rw [append, if_neg hzero, ← hlow, BitWriter.value, BitWriter.value]
  dsimp only
  split
  · have hnext : w.position / 64 + 1 < w.words.length := by omega
    have hput := ofWords_modify_two hnext (by omega) hshift (lowWord bits value)
    rwa [Nat.mod_add_div] at hput
  · have hfirst : w.position / 64 < w.words.length := by omega
    have hfits : (lowWord bits value).toNat <<< (w.position % 64) < 2 ^ 64 := by
      rw [Nat.shiftLeft_eq]
      calc (lowWord bits value).toNat * 2 ^ (w.position % 64)
          < 2 ^ bits * 2 ^ (w.position % 64) := Nat.mul_lt_mul_of_pos_right hlt (Nat.two_pow_pos _)
        _ = 2 ^ (bits + w.position % 64) := (Nat.pow_add 2 _ _).symm
        _ ≤ 2 ^ 64 := Nat.pow_le_pow_right (by decide) (by omega)
    have hput := ofWords_modify_one hfirst hshift hfits
    rwa [Nat.mod_add_div] at hput

end BitWriter

end VideoAccel
