import Mathlib.Algebra.Ring.Nat
import VideoAccel.Bits.Field
import VideoAccel.Proofs.Bits.Words

namespace VideoAccel

/-- How many bits a field takes, and how they are read. -/
inductive FieldShape
  | unsigned (bits : Nat)
  | signed (bits : Nat)
  | flag
  deriving DecidableEq, Repr

namespace FieldShape

def width : FieldShape → Nat
  | .unsigned bits => bits
  | .signed bits => bits
  | .flag => 1

def isChecked : FieldShape → Bool
  | .unsigned bits => bits < 64
  | .signed bits => 0 < bits && bits < 64
  | .flag => true

def isAllowed : FieldShape → Bool
  | .unsigned bits => bits ≤ 64
  | .signed bits => 0 < bits && bits ≤ 64
  | .flag => true

theorem isAllowed_of_isChecked {s : FieldShape} (h : s.isChecked = true) : s.isAllowed = true := by
  cases s with
  | unsigned bits =>
    simp only [isChecked, decide_eq_true_eq] at h
    exact decide_eq_true (Nat.le_of_lt h)
  | signed bits =>
    simp only [isChecked, Bool.and_eq_true, decide_eq_true_eq] at h
    simp only [isAllowed, Bool.and_eq_true, decide_eq_true_eq]
    exact ⟨h.1, Nat.le_of_lt h.2⟩
  | flag => rfl

/-- The value in the lowest bits of a number; that of a signed field has its sign extended. -/
def read (s : FieldShape) (n : Nat) : Int :=
  match s with
  | .unsigned bits => (n % 2 ^ bits : Nat)
  | .signed bits => Int.bmod n (2 ^ bits)
  | .flag => (n % 2 : Nat)

def readAll : List FieldShape → Nat → List Int
  | [], _ => []
  | s :: rest, n => s.read n :: readAll rest (n >>> s.width)

def totalWidth (shapes : List FieldShape) : Nat := (shapes.map width).sum

end FieldShape

theorem natCast_twosComplement (bits : Nat) (value : Int) :
    ((twosComplement bits value : Nat) : Int) = value % (2 ^ bits : Nat) := by
  have hne : ((2 ^ bits : Nat) : Int) ≠ 0 :=
    Int.natCast_ne_zero.2 (Nat.ne_of_gt (Nat.two_pow_pos bits))
  exact Int.toNat_of_nonneg (Int.emod_nonneg value hne)

theorem twosComplement_lt (bits : Nat) (value : Int) : twosComplement bits value < 2 ^ bits := by
  have hpos : (0 : Int) < (2 ^ bits : Nat) := Int.natCast_pos.2 (Nat.two_pow_pos bits)
  have hlt := Int.emod_lt_of_pos value hpos
  rw [← natCast_twosComplement] at hlt
  exact Int.ofNat_lt.1 hlt

theorem bmod_twosComplement {bits : Nat} {value : Int} (hbits : 0 < bits)
    (hlow : -(2 ^ (bits - 1) : Nat) ≤ value) (hhigh : value < (2 ^ (bits - 1) : Nat)) (n : Nat) :
    Int.bmod (twosComplement bits value + 2 ^ bits * n : Nat) (2 ^ bits) = value := by
  have hhalf : 2 ^ bits = 2 * 2 ^ (bits - 1) := by
    rw [← Nat.pow_succ', Nat.succ_eq_add_one, Nat.sub_one_add_one (Nat.ne_of_gt hbits)]
  rw [Int.natCast_add, Int.natCast_mul, Int.add_mul_bmod_self_left, natCast_twosComplement,
    Int.emod_bmod]
  apply Int.bmod_eq_of_le <;> omega

namespace BitField

def shape : BitField → FieldShape
  | .unsigned bits _ => .unsigned bits
  | .signed bits _ => .signed bits
  | .flag _ => .flag

/-- The value is one that the width can hold. -/
def Fits : BitField → Prop
  | .unsigned bits value => value < 2 ^ bits
  | .signed bits value => -(2 ^ (bits - 1) : Nat) ≤ value ∧ value < (2 ^ (bits - 1) : Nat)
  | .flag _ => True

instance (f : BitField) : Decidable f.Fits :=
  match f with
  | .unsigned bits value => inferInstanceAs (Decidable (value < 2 ^ bits))
  | .signed bits value =>
    inferInstanceAs (Decidable (-(2 ^ (bits - 1) : Nat) ≤ value ∧ value < (2 ^ (bits - 1) : Nat)))
  | .flag _ => inferInstanceAs (Decidable True)

def value : BitField → Int
  | .unsigned _ value => value
  | .signed _ value => value
  | .flag value => value.toNat

/-- The value as an error shows it. -/
def shown : BitField → Int
  | .unsigned _ value => signed64 value
  | .signed _ value => value
  | .flag value => value.toNat

def code : BitField → Nat
  | .unsigned _ value => value
  | .signed bits value => twosComplement bits value
  | .flag value => value.toNat

/-- The word that the writer is given, of which it takes the low bits. -/
def word : BitField → UInt64
  | .unsigned _ value => value.toUInt64
  | .signed _ value => (Int64.ofInt value).toUInt64
  | .flag value => value.toUInt64

def packed : List BitField → Nat
  | [] => 0
  | f :: fs => f.code + 2 ^ f.width * packed fs

def totalWidth (fs : List BitField) : Nat := (fs.map width).sum

theorem width_shape (f : BitField) : f.shape.width = f.width := by
  cases f <;> rfl

theorem totalWidth_map_shape (fs : List BitField) :
    FieldShape.totalWidth (fs.map shape) = totalWidth fs := by
  simp [FieldShape.totalWidth, totalWidth, Function.comp_def, width_shape]

theorem code_lt {f : BitField} (hf : f.Fits) : f.code < 2 ^ f.width := by
  cases f with
  | unsigned bits value => exact hf
  | signed bits value => exact twosComplement_lt bits value
  | flag value => cases value <;> decide

theorem word_mod {f : BitField} (hf : f.Fits) (hwidth : f.width ≤ 64) :
    f.word.toNat % 2 ^ f.width = f.code := by
  cases f with
  | unsigned bits value =>
    have hpow : 2 ^ bits ∣ 2 ^ 64 := Nat.pow_dvd_pow 2 hwidth
    change value.toUInt64.toNat % 2 ^ bits = value
    rw [Nat.toUInt64, UInt64.toNat_ofNat', Nat.mod_mod_of_dvd _ hpow]
    exact Nat.mod_eq_of_lt hf
  | signed bits value =>
    have hpow : 2 ^ bits ∣ 2 ^ 64 := Nat.pow_dvd_pow 2 hwidth
    have hword : (Int64.ofInt value).toUInt64.toNat = twosComplement 64 value :=
      BitVec.toNat_ofInt value
    change (Int64.ofInt value).toUInt64.toNat % 2 ^ bits = twosComplement bits value
    apply Int.ofNat_inj.1
    rw [hword, Int.natCast_emod, natCast_twosComplement, natCast_twosComplement]
    exact Int.emod_emod_of_dvd value (Int.natCast_dvd_natCast.2 hpow)
  | flag value => cases value <;> rfl

theorem packed_lt {fs : List BitField} (hfs : ∀ f ∈ fs, f.Fits) :
    packed fs < 2 ^ totalWidth fs := by
  induction fs with
  | nil => exact Nat.one_pos
  | cons f fs ih =>
    have hcode := code_lt (hfs f (by simp))
    have hrest := ih fun f' hf' => hfs f' (by simp [hf'])
    simp only [totalWidth, List.map_cons, List.sum_cons, Nat.pow_add]
    calc packed (f :: fs) < 2 ^ f.width + 2 ^ f.width * packed fs := Nat.add_lt_add_right hcode _
      _ = 2 ^ f.width * (packed fs + 1) := by rw [Nat.mul_add, Nat.mul_one, Nat.add_comm]
      _ ≤ 2 ^ f.width * 2 ^ totalWidth fs := Nat.mul_le_mul_left _ hrest

theorem packed_append (fs gs : List BitField) :
    packed (fs ++ gs) = packed fs + 2 ^ totalWidth fs * packed gs := by
  induction fs with
  | nil => simp [packed, totalWidth]
  | cons f fs ih =>
    simp only [List.cons_append, packed, ih, totalWidth, List.map_cons, List.sum_cons]
    rw [Nat.pow_add, Nat.mul_add, Nat.mul_assoc, Nat.add_assoc]

theorem totalWidth_append (fs gs : List BitField) :
    totalWidth (fs ++ gs) = totalWidth fs + totalWidth gs := by
  simp [totalWidth]

theorem read_code {f : BitField} (hf : f.Fits) (hchecked : f.shape.isChecked = true) (n : Nat) :
    f.shape.read (f.code + 2 ^ f.width * n) = f.value := by
  cases f with
  | unsigned bits value =>
    change value < 2 ^ bits at hf
    simp only [shape, code, width, FieldShape.read, BitField.value]
    rw [Nat.add_mul_mod_self_left, Nat.mod_eq_of_lt hf]
  | signed bits value =>
    obtain ⟨hlow, hhigh⟩ := hf
    have hbits : 0 < bits := by
      simp only [shape, FieldShape.isChecked, Bool.and_eq_true, decide_eq_true_eq] at hchecked
      exact hchecked.1
    exact bmod_twosComplement hbits hlow hhigh n
  | flag value =>
    simp only [shape, code, width, FieldShape.read, BitField.value]
    cases value <;> simp

theorem readAll_packed {fs : List BitField} (hfs : ∀ f ∈ fs, f.Fits)
    (hchecked : ∀ f ∈ fs, f.shape.isChecked = true) (n : Nat) :
    FieldShape.readAll (fs.map shape) (packed fs + 2 ^ totalWidth fs * n) = fs.map value := by
  induction fs with
  | nil => rfl
  | cons f fs ih =>
    have hcode := code_lt (hfs f (by simp))
    have hnumber : packed (f :: fs) + 2 ^ totalWidth (f :: fs) * n =
        f.code + 2 ^ f.width * (packed fs + 2 ^ totalWidth fs * n) := by
      simp only [packed, totalWidth, List.map_cons, List.sum_cons]
      rw [Nat.pow_add, Nat.mul_add, Nat.mul_assoc, Nat.add_assoc]
    have habove : (f.code + 2 ^ f.width * (packed fs + 2 ^ totalWidth fs * n)) >>> f.width =
        packed fs + 2 ^ totalWidth fs * n := by
      rw [Nat.shiftRight_eq_div_pow, Nat.add_mul_div_left _ _ (Nat.two_pow_pos f.width),
        Nat.div_eq_of_lt hcode, Nat.zero_add]
    rw [hnumber]
    simp only [List.map_cons, FieldShape.readAll, width_shape]
    rw [read_code (hfs f (by simp)) (hchecked f (by simp)), habove,
      ih (fun f' hf' => hfs f' (by simp [hf'])) fun f' hf' => hchecked f' (by simp [hf'])]

variable {w : BitWriter} {f : BitField}

theorem putBits_of_room {bits : Nat} (hbits : bits ≤ 64) (hroom : w.position + bits ≤ w.capacity)
    (value : UInt64) : w.putBits bits value = .ok (w.append bits value) := by
  rw [BitWriter.putBits, if_neg (Nat.not_lt_of_le hbits), if_neg (Nat.not_lt_of_le hroom)]

theorem put_of_fits (hallowed : f.shape.isAllowed = true) (hf : f.Fits)
    (hroom : w.position + f.width ≤ w.capacity) : f.put w = .ok (w.append f.width f.word) := by
  cases f with
  | unsigned bits value =>
    simp only [shape, FieldShape.isAllowed, decide_eq_true_eq] at hallowed
    change value < 2 ^ bits at hf
    have hwide : ¬(bits < 64 ∧ Nat.pow 2 bits ≤ value) := fun h => Nat.not_le_of_lt hf h.2
    simp only [put, BitWriter.putUnsigned, hwide, if_false]
    exact putBits_of_room hallowed hroom _
  | signed bits value =>
    simp only [shape, FieldShape.isAllowed, Bool.and_eq_true, decide_eq_true_eq] at hallowed
    have hwide :
        ¬(value < -(Nat.pow 2 (bits - 1) : Nat) ∨ (Nat.pow 2 (bits - 1) : Nat) ≤ value) := by
      rintro (h | h)
      · exact absurd hf.1 (Int.not_le_of_gt h)
      · exact absurd hf.2 (Int.not_lt_of_ge h)
    have hcount : ¬(bits = 0 ∨ 64 < bits) := by omega
    simp only [put, BitWriter.putSigned, hcount, hwide, and_false, if_false]
    exact putBits_of_room hallowed.2 hroom _
  | flag value =>
    exact putBits_of_room (show 1 ≤ 64 by decide) hroom _

theorem put_of_not_fits (hchecked : f.shape.isChecked = true) (hf : ¬ f.Fits) :
    f.put w = .error (.valueTooWide f.shown f.width) := by
  cases f with
  | unsigned bits value =>
    simp only [shape, FieldShape.isChecked, decide_eq_true_eq] at hchecked
    have hwide : bits < 64 ∧ Nat.pow 2 bits ≤ value := ⟨hchecked, Nat.le_of_not_lt hf⟩
    simp only [put, BitWriter.putUnsigned, if_pos hwide, shown, width]
  | signed bits value =>
    simp only [shape, FieldShape.isChecked, Bool.and_eq_true, decide_eq_true_eq] at hchecked
    have hwide : bits < 64 ∧
        (value < -(Nat.pow 2 (bits - 1) : Nat) ∨ (Nat.pow 2 (bits - 1) : Nat) ≤ value) := by
      refine ⟨hchecked.2, ?_⟩
      by_cases hlow : -(2 ^ (bits - 1) : Nat) ≤ value
      · exact .inr (Int.not_lt.1 fun hhigh => hf ⟨hlow, hhigh⟩)
      · exact .inl (Int.not_le.1 hlow)
    simp only [put, BitWriter.putSigned, shown, width]
    rw [if_neg (by omega), if_pos hwide]
  | flag value => exact absurd trivial hf

theorem putBits_eq_ok {w' : BitWriter} {bits : Nat} {value : UInt64}
    (h : w.putBits bits value = .ok w') :
    bits ≤ 64 ∧ w.position + bits ≤ w.capacity ∧ w' = w.append bits value := by
  simp only [BitWriter.putBits] at h
  split at h
  · cases h
  split at h
  · cases h
  · rename_i hbits hroom
    exact ⟨Nat.le_of_not_lt hbits, Nat.le_of_not_lt hroom, (Except.ok.inj h).symm⟩

theorem putBits_of_put {w' : BitWriter} (h : f.put w = .ok w') :
    w.putBits f.width f.word = .ok w' := by
  cases f with
  | unsigned bits value =>
    simp only [put, BitWriter.putUnsigned] at h
    split at h
    · cases h
    · exact h
  | signed bits value =>
    simp only [put, BitWriter.putSigned] at h
    split at h
    · cases h
    split at h
    · cases h
    · exact h
  | flag value => exact h

theorem fits_of_put {w' : BitWriter} (hchecked : f.shape.isChecked = true)
    (h : f.put w = .ok w') : f.Fits := by
  by_contra hf
  cases h.symm.trans (put_of_not_fits hchecked hf)

end BitField

namespace BitWriter

open BitField

def extend (w : BitWriter) (fs : List BitField) : BitWriter :=
  fs.foldl (fun w f => w.append f.width f.word) w

theorem extend_append (w : BitWriter) (fs gs : List BitField) :
    (w.extend fs).extend gs = w.extend (fs ++ gs) := List.foldl_append.symm

@[simp]
theorem position_extend (w : BitWriter) (fs : List BitField) :
    (w.extend fs).position = w.position + totalWidth fs := by
  induction fs generalizing w with
  | nil => rfl
  | cons f fs ih =>
    rw [extend, List.foldl_cons, ← extend, ih, position_append, Nat.add_assoc]
    rfl

@[simp]
theorem wordCount_extend (w : BitWriter) (fs : List BitField) :
    (w.extend fs).wordCount = w.wordCount := by
  induction fs generalizing w with
  | nil => rfl
  | cons f fs ih => rw [extend, List.foldl_cons, ← extend, ih, wordCount_append]

@[simp]
theorem capacity_extend (w : BitWriter) (fs : List BitField) :
    (w.extend fs).capacity = w.capacity := by
  rw [capacity, wordCount_extend, capacity]

/-- Nothing is written from the position on. -/
def IsClear (w : BitWriter) : Prop := w.value < 2 ^ w.position

theorem isClear_ofCapacity (capacity : Nat) : (ofCapacity capacity).IsClear := by
  rw [IsClear, value_ofCapacity]
  exact Nat.two_pow_pos _

theorem IsClear.or_shiftLeft {w : BitWriter} (hw : w.IsClear) (n : Nat) :
    w.value ||| n <<< w.position = w.value + 2 ^ w.position * n := by
  rw [Nat.or_comm, ← Nat.shiftLeft_add_eq_or_of_lt hw, Nat.shiftLeft_eq, Nat.mul_comm,
    Nat.add_comm]

theorem IsClear.shiftRight_of_value {w w' : BitWriter} (hw : w.IsClear) {n : Nat}
    (h : w'.value = w.value + 2 ^ w.position * n) : w'.value >>> w.position = n := by
  rw [h, Nat.shiftRight_eq_div_pow, Nat.add_mul_div_left _ _ (Nat.two_pow_pos w.position),
    Nat.div_eq_of_lt hw, Nat.zero_add]

theorem IsClear.mod_of_value {w w' : BitWriter} (hw : w.IsClear) {n : Nat}
    (h : w'.value = w.value + 2 ^ w.position * n) : w'.value % 2 ^ w.position = w.value := by
  rw [h, Nat.add_mul_mod_self_left, Nat.mod_eq_of_lt hw]

theorem IsClear.append {w : BitWriter} (hw : w.IsClear) {f : BitField} (hf : f.Fits)
    (hwidth : f.width ≤ 64) (hroom : w.position + f.width ≤ w.capacity) :
    (w.append f.width f.word).value = w.value + 2 ^ w.position * f.code ∧
      (w.append f.width f.word).IsClear := by
  have hvalue : (w.append f.width f.word).value = w.value + 2 ^ w.position * f.code := by
    rw [value_append hwidth hroom, word_mod hf hwidth, hw.or_shiftLeft]
  refine ⟨hvalue, ?_⟩
  rw [IsClear, hvalue, position_append, Nat.pow_add]
  calc w.value + 2 ^ w.position * f.code
      < 2 ^ w.position + 2 ^ w.position * f.code := Nat.add_lt_add_right hw _
    _ = 2 ^ w.position * (f.code + 1) := by rw [Nat.mul_add, Nat.mul_one, Nat.add_comm]
    _ ≤ 2 ^ w.position * 2 ^ f.width := Nat.mul_le_mul_left _ (code_lt hf)

section

variable {w w' : BitWriter} {fs : List BitField}
  (hchecked : ∀ f ∈ fs, f.shape.isChecked = true)

include hchecked

theorem putAll_of_fits (hfs : ∀ f ∈ fs, f.Fits) (hroom : w.position + totalWidth fs ≤ w.capacity) :
    w.putAll fs = .ok (w.extend fs) := by
  induction fs generalizing w with
  | nil => rfl
  | cons f fs ih =>
    obtain ⟨hf, hfs⟩ := List.forall_mem_cons.1 hfs
    obtain ⟨hfirst, hchecked⟩ := List.forall_mem_cons.1 hchecked
    have hwidth : totalWidth (f :: fs) = f.width + totalWidth fs := rfl
    have hput := put_of_fits (FieldShape.isAllowed_of_isChecked hfirst) hf
      (show w.position + f.width ≤ w.capacity by omega)
    have hrest : (w.append f.width f.word).position + totalWidth fs ≤
        (w.append f.width f.word).capacity := by
      rw [position_append, capacity_append]
      omega
    simp only [putAll, hput]
    exact ih hchecked hfs hrest

theorem putAll_of_not_fits (hfs : ¬ ∀ f ∈ fs, f.Fits)
    (hroom : w.position + totalWidth fs ≤ w.capacity) :
    ∃ f ∈ fs, ¬ f.Fits ∧ w.putAll fs = .error (.valueTooWide f.shown f.width) := by
  induction fs generalizing w with
  | nil => exact absurd nofun hfs
  | cons f fs ih =>
    obtain ⟨hfirst, hchecked⟩ := List.forall_mem_cons.1 hchecked
    have hwidth : totalWidth (f :: fs) = f.width + totalWidth fs := rfl
    -- there is room for every field, so the first that does not fit is the one refused
    by_cases hf : f.Fits
    · have hput := put_of_fits (FieldShape.isAllowed_of_isChecked hfirst) hf
        (show w.position + f.width ≤ w.capacity by omega)
      obtain ⟨f', hf', hnot, hrest⟩ := ih (w := w.append f.width f.word) hchecked
        (fun h => hfs (List.forall_mem_cons.2 ⟨hf, h⟩)) (by
          rw [position_append, capacity_append]
          omega)
      exact ⟨f', List.mem_cons_of_mem f hf', hnot, by simp only [putAll, hput, hrest]⟩
    · refine ⟨f, List.mem_cons_self, hf, ?_⟩
      simp only [putAll, put_of_not_fits hfirst hf]

theorem extend_of_putAll (h : w.putAll fs = .ok w') : (∀ f ∈ fs, f.Fits) ∧ w' = w.extend fs := by
  induction fs generalizing w with
  | nil =>
    cases h
    exact ⟨nofun, rfl⟩
  | cons f fs ih =>
    obtain ⟨hfirst, hchecked⟩ := List.forall_mem_cons.1 hchecked
    simp only [putAll] at h
    split at h
    · cases h
    · rename_i hput
      have hf := fits_of_put hfirst hput
      obtain ⟨-, -, rfl⟩ := putBits_eq_ok (putBits_of_put hput)
      obtain ⟨hfs, rfl⟩ := ih hchecked h
      exact ⟨List.forall_mem_cons.2 ⟨hf, hfs⟩, rfl⟩

theorem IsClear.value_of_putAll (hw : w.IsClear) (h : w.putAll fs = .ok w') :
    w'.value = w.value + 2 ^ w.position * packed fs ∧ w'.IsClear := by
  induction fs generalizing w with
  | nil =>
    cases h
    exact ⟨rfl, hw⟩
  | cons f fs ih =>
    obtain ⟨hfirst, hchecked⟩ := List.forall_mem_cons.1 hchecked
    simp only [putAll] at h
    split at h
    · cases h
    · rename_i hput
      have hf := fits_of_put hfirst hput
      obtain ⟨hwidth, hroom, rfl⟩ := putBits_eq_ok (putBits_of_put hput)
      obtain ⟨hvalue, hclear⟩ := hw.append hf hwidth hroom
      obtain ⟨hrest, hlast⟩ := ih hchecked hclear h
      refine ⟨?_, hlast⟩
      rw [hrest, hvalue, position_append, packed, Nat.mul_add, Nat.pow_add, Nat.mul_assoc,
        Nat.add_assoc]

end

theorem wordCount_putAll {w w' : BitWriter} {fs : List BitField} (h : w.putAll fs = .ok w') :
    w'.wordCount = w.wordCount := by
  induction fs generalizing w with
  | nil =>
    cases h
    rfl
  | cons f fs ih =>
    simp only [putAll] at h
    split at h
    · cases h
    · rename_i hput
      obtain ⟨-, -, rfl⟩ := putBits_eq_ok (putBits_of_put hput)
      rw [ih h, wordCount_append]

end BitWriter

/-- The bits of a sequence of bytes as one number, the lowest bit of the first byte lowest. -/
def bitString (bytes : List UInt8) : Nat := bytes.foldr (fun b n => b.toNat + 256 * n) 0

theorem bitString_range (n count : Nat) :
    bitString ((List.range count).map fun i => (n >>> (8 * i)).toUInt8) = n % 256 ^ count := by
  induction count generalizing n with
  | zero => simp [bitString, Nat.mod_one]
  | succ count ih =>
    have hrest := ih (n / 256)
    have hshift : ∀ i, n >>> (8 * (i + 1)) = (n / 256) >>> (8 * i) := by
      intro i
      rw [Nat.mul_succ, Nat.add_comm, Nat.shiftRight_add, Nat.shiftRight_eq_div_pow n 8]
    simp only [List.range_succ_eq_map, List.map_cons, List.map_map, Function.comp_def, bitString,
      List.foldr_cons, Nat.mul_zero, Nat.shiftRight_zero, Nat.succ_eq_add_one, hshift]
    simp only [bitString] at hrest
    rw [hrest, Nat.pow_succ', Nat.mod_mul]
    rfl

theorem bitString_append (bytes bytes' : List UInt8) :
    bitString (bytes ++ bytes') = bitString bytes + 256 ^ bytes.length * bitString bytes' := by
  induction bytes with
  | nil => simp [bitString]
  | cons b bytes ih =>
    simp only [bitString] at ih
    simp only [bitString, List.cons_append, List.foldr_cons, List.length_cons, ih]
    rw [Nat.pow_succ', Nat.mul_add, Nat.mul_assoc, Nat.add_assoc]

namespace BitWriter

theorem bitString_wordBytes (word : UInt64) : bitString (wordBytes word) = word.toNat := by
  have hbytes : wordBytes word = (List.range 8).map fun i => (word.toNat >>> (8 * i)).toUInt8 := by
    apply List.map_congr_left
    intro i hi
    have hshift : 8 * i < 64 := by
      have := List.mem_range.1 hi
      omega
    apply UInt8.toNat_inj.1
    rw [UInt64.toNat_toUInt8, toNat_shiftRight_word word hshift]
    rfl
  rw [hbytes, bitString_range]
  exact Nat.mod_eq_of_lt word.toNat_lt

theorem bitString_bytes (w : BitWriter) : bitString w.bytes = w.value := by
  rw [bytes, BitWriter.value]
  induction w.words with
  | nil => rfl
  | cons word words ih =>
    have hlength : (wordBytes word).length = 8 := by simp [wordBytes]
    rw [List.flatMap_cons, bitString_append, ih, bitString_wordBytes, hlength, ofWords_cons]
    rfl

end BitWriter

end VideoAccel
