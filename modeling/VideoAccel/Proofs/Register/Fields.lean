import Mathlib.Algebra.Ring.Nat
import VideoAccel.Proofs.Register.Image
import VideoAccel.Register.Status

namespace VideoAccel

namespace RegisterField

theorem toNat_mask (f : RegisterField) : f.mask.toNat = 2 ^ min f.width 32 - 1 := by
  unfold mask
  split
  · rename_i h
    rw [Nat.min_eq_right h]
    rfl
  · rename_i h
    have hwidth : f.width < 32 := Nat.lt_of_not_le h
    have hnat : f.width.toUInt32.toNat = f.width := Nat.mod_eq_of_lt (by omega)
    have hpow : ((1 : UInt32) <<< f.width.toUInt32).toNat = 2 ^ f.width := by
      rw [UInt32.toNat_shiftLeft, hnat, Nat.mod_eq_of_lt hwidth, UInt32.toNat_one,
        Nat.one_shiftLeft]
      exact Nat.mod_eq_of_lt (Nat.pow_lt_pow_right (by decide) hwidth)
    have hle : (1 : UInt32) ≤ 1 <<< f.width.toUInt32 := by
      rw [UInt32.le_iff_toNat_le, hpow]
      exact Nat.one_le_two_pow
    rw [UInt32.toNat_sub_of_le _ _ hle, hpow, Nat.min_eq_left (Nat.le_of_lt hwidth)]
    rfl

theorem testBit_mask (f : RegisterField) {b : Nat} (hb : b < 32) :
    f.mask.toNat.testBit b = decide (b < f.width) := by
  rw [toNat_mask, Nat.testBit_two_pow_sub_one]
  exact decide_eq_decide.2 (by omega)

theorem testBit_shiftLeft (w : UInt32) {shift b : Nat} (hshift : shift < 32) (hb : b < 32) :
    (w <<< shift.toUInt32).toNat.testBit b =
      (decide (shift ≤ b) && w.toNat.testBit (b - shift)) := by
  have hnat : shift.toUInt32.toNat = shift := Nat.mod_eq_of_lt (by omega)
  rw [UInt32.toNat_shiftLeft, hnat, Nat.mod_eq_of_lt hshift, Nat.testBit_mod_two_pow,
    Nat.testBit_shiftLeft, decide_eq_true hb, Bool.true_and]

theorem testBit_write {f : RegisterField} (hshift : f.shift < 32) (w v : UInt32) {b : Nat}
    (hb : b < 32) :
    (f.write w v).toNat.testBit b =
      if f.shift ≤ b ∧ b < f.shift + f.width then v.toNat.testBit (b - f.shift)
      else w.toNat.testBit b := by
  have hmask := f.testBit_mask (b := b - f.shift) (by omega)
  have hnot : ∀ x : UInt32, (~~~ x).toNat.testBit b = !x.toNat.testBit b := by
    intro x
    rw [← UInt32.toNat_toBitVec, UInt32.toBitVec_not, BitVec.testBit_toNat, BitVec.getLsbD_not,
      decide_eq_true hb, Bool.true_and]
    rfl
  simp only [write, UInt32.toNat_or, UInt32.toNat_and, Nat.testBit_or, Nat.testBit_and, hnot,
    testBit_shiftLeft _ hshift hb, hmask]
  by_cases hlow : f.shift ≤ b <;> by_cases hhigh : b < f.shift + f.width
  · have : b - f.shift < f.width := by omega
    simp [*]
  · have : ¬ b - f.shift < f.width := by omega
    simp [*]
  · simp [*]
  · simp [*]

theorem testBit_read {f : RegisterField} (hshift : f.shift < 32) (w : UInt32) (b : Nat) :
    (f.read w).toNat.testBit b = (decide (b < f.width) && w.toNat.testBit (f.shift + b)) := by
  have hnat : f.shift.toUInt32.toNat = f.shift := Nat.mod_eq_of_lt (by omega)
  have hshifted : (w >>> f.shift.toUInt32).toNat = w.toNat >>> f.shift := by
    rw [UInt32.toNat_shiftRight, hnat, Nat.mod_eq_of_lt hshift]
  simp only [read, UInt32.toNat_and, Nat.testBit_and, hshifted, Nat.testBit_shiftRight]
  by_cases hb : b < 32
  · rw [testBit_mask f hb, Bool.and_comm]
  · have hzero : w.toNat.testBit (f.shift + b) = false :=
      Nat.testBit_lt_two_pow (Nat.lt_of_lt_of_le w.toNat_lt (Nat.pow_le_pow_right (by decide)
        (by omega)))
    rw [hzero, Bool.false_and, Bool.and_false]

end RegisterField

theorem hasBit_eq (w : UInt32) {b : Nat} (hb : b < 32) : hasBit w b = w.toNat.testBit b := by
  have hnat : b.toUInt32.toNat = b := Nat.mod_eq_of_lt (by omega)
  have hmask : (RegisterField.bit b).mask.toNat = 1 := RegisterField.toNat_mask _
  have hread : ((RegisterField.bit b).read w).toNat = (w.toNat.testBit b).toNat := by
    rw [RegisterField.read, UInt32.toNat_and, hmask, UInt32.toNat_shiftRight, Nat.and_one_is_mod,
      Nat.toNat_testBit, Nat.shiftRight_eq_div_pow]
    change w.toNat / 2 ^ (b.toUInt32.toNat % 32) % 2 = _
    rw [hnat, Nat.mod_eq_of_lt hb]
  cases hbit : w.toNat.testBit b with
  | false =>
    rw [hbit] at hread
    have hzero : (RegisterField.bit b).read w = 0 := UInt32.toNat_inj.1 hread
    simp [hasBit, hzero]
  | true =>
    rw [hbit] at hread
    have hone : (RegisterField.bit b).read w = 1 := UInt32.toNat_inj.1 hread
    simp [hasBit, hone]

theorem getD_getLast?_filterMap_cons {α β : Type} (f : α → Option β) (x : α) (l : List α)
    (old : β) :
    (((x :: l).filterMap f).getLast?).getD old =
      ((l.filterMap f).getLast?).getD ((f x).getD old) := by
  cases hx : f x with
  | none => rw [List.filterMap_cons_none hx, Option.getD_none]
  | some y =>
    rw [List.filterMap_cons_some hx, List.getLast?_cons, Option.getD_some, Option.getD_some]

theorem getLast?_filterMap_eq_some {α β : Type} {f : α → Option β} {l : List α} {y : β}
    (h : ∀ x ∈ l, ∀ y', f x = some y' → y' = y) (hsome : ∃ x ∈ l, (f x).isSome = true) :
    (l.filterMap f).getLast? = some y := by
  have hall : ∀ y' ∈ l.filterMap f, y' = y := by
    intro y' hy'
    obtain ⟨x, hx, hdecides⟩ := List.mem_filterMap.1 hy'
    exact h x hx y' hdecides
  obtain ⟨x, hx, hsome⟩ := hsome
  obtain ⟨y', hy'⟩ := Option.isSome_iff_exists.1 hsome
  have hne : l.filterMap f ≠ [] := List.ne_nil_of_mem (List.mem_filterMap.2 ⟨x, hx, hy'⟩)
  rw [List.getLast?_eq_some_getLast hne, hall _ (List.getLast_mem hne)]

def RegisterWrite.bit? (w : RegisterWrite) (reg b : Nat) : Option Bool :=
  if w.reg = reg ∧ w.field.shift ≤ b ∧ b < w.field.shift + w.field.width then
    some (hasBit w.value (b - w.field.shift))
  else none

namespace RegisterImage

def bit? (image : RegisterImage) (reg b : Nat) : Option Bool :=
  (image.get? reg).map fun v => hasBit v b

variable {ws : List RegisterWrite} {reg b : Nat}

theorem bit?_write (image : RegisterImage) {w : RegisterWrite}
    (hshift : w.reg = reg → w.field.shift < 32) (hb : b < 32) :
    (image.write w).bit? reg b =
      (image.bit? reg b).map fun old => (w.bit? reg b).getD old := by
  simp only [bit?, get?_write, RegisterWrite.bit?]
  by_cases hreg : reg = w.reg
  · subst hreg
    simp only [if_true, Option.map_map, true_and]
    refine congrArg (fun f => (image.get? w.reg).map f) (funext fun v => ?_)
    have hbit := RegisterField.testBit_write (hshift rfl) v w.value hb
    simp only [Function.comp_apply, hasBit_eq _ hb, hbit]
    split
    · rw [Option.getD_some, hasBit_eq _ (by omega)]
    · rfl
  · have hne : ¬ w.reg = reg := Ne.symm hreg
    simp [hreg, hne, Function.comp_def]

theorem bit?_writeAll (image : RegisterImage)
    (hshift : ∀ w ∈ ws, w.reg = reg → w.field.shift < 32) (hb : b < 32) :
    (image.writeAll ws).bit? reg b =
      (image.bit? reg b).map fun old =>
        ((ws.filterMap fun w => w.bit? reg b).getLast?).getD old := by
  induction ws generalizing image with
  | nil => simp [writeAll]
  | cons w ws ih =>
    obtain ⟨hfirst, hrest⟩ := List.forall_mem_cons.1 hshift
    refine (ih (image.write w) hrest).trans ?_
    rw [bit?_write image hfirst hb, Option.map_map]
    refine congrArg (fun f => (image.bit? reg b).map f) (funext fun old => ?_)
    exact (getD_getLast?_filterMap_cons _ w ws old).symm

theorem reg_eq_of_bit? {w : RegisterWrite} {x : Bool} (h : w.bit? reg b = some x) :
    w.reg = reg := by
  simp only [RegisterWrite.bit?] at h
  split at h
  · rename_i hcovers
    exact hcovers.1
  · cases h

theorem bit?_writeAll_cases (image : RegisterImage) {x : Bool} (hb : b < 32)
    (hshift : ∀ w ∈ ws, w.reg = reg → w.field.shift < 32)
    (h : (image.writeAll ws).bit? reg b = some x) :
    (∃ w ∈ ws, w.bit? reg b = some x) ∨ image.bit? reg b = some x := by
  rw [bit?_writeAll image hshift hb] at h
  obtain ⟨old, hold, hlast⟩ := Option.map_eq_some_iff.1 h
  cases hwrites : (ws.filterMap fun w => w.bit? reg b).getLast? with
  | none =>
    rw [hwrites] at hlast
    exact .inr (hlast ▸ hold)
  | some y =>
    rw [hwrites] at hlast
    obtain ⟨w, hw, hbit⟩ := List.mem_filterMap.1 (List.mem_of_getLast? hwrites)
    exact .inl ⟨w, hw, hlast ▸ hbit⟩

theorem bit?_writeAll_of_written (image : RegisterImage) {x : Bool} (hb : b < 32)
    (hexists : (image.get? reg).isSome = true)
    (h : ∀ w ∈ ws, w.reg = reg → w.field.shift < 32 ∧ ∀ y, w.bit? reg b = some y → y = x)
    (hwritten : ∃ w ∈ ws, (w.bit? reg b).isSome = true) :
    (image.writeAll ws).bit? reg b = some x := by
  obtain ⟨v, hv⟩ := Option.isSome_iff_exists.1 hexists
  have hlast : (ws.filterMap fun w => w.bit? reg b).getLast? = some x :=
    getLast?_filterMap_eq_some (fun w hw y hbit => (h w hw (reg_eq_of_bit? hbit)).2 y hbit) hwritten
  rw [bit?_writeAll image (fun w hw hreg => (h w hw hreg).1) hb, bit?, hv, hlast]
  rfl

end RegisterImage

end VideoAccel
