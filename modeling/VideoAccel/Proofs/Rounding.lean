import Mathlib.Data.Rat.Floor
import Mathlib.Order.Bounds.Defs
import VideoAccel.Rounding

namespace VideoAccel

theorem le_ceilDiv_mul {d : Nat} (n : Nat) (h : 0 < d) : n ≤ ceilDiv n d * d := by
  have hdiv := Nat.div_add_mod (n + (d - 1)) d
  have hmod := Nat.mod_lt (n + (d - 1)) h
  rw [Nat.mul_comm] at hdiv
  simp only [ceilDiv]
  omega

theorem isLeast_ceilDiv (n : Nat) {d : Nat} (h : 0 < d) :
    IsLeast {q | n ≤ q * d} (ceilDiv n d) := by
  refine ⟨le_ceilDiv_mul n h, fun q hq => ?_⟩
  change n ≤ q * d at hq
  have hlt : n + (d - 1) < (q + 1) * d := by
    rw [Nat.succ_mul]
    omega
  exact Nat.le_of_lt_succ (Nat.div_lt_of_lt_mul (by rwa [Nat.mul_comm] at hlt))

theorem ceilDiv_eq_natCeil (n : Nat) {d : Nat} (hd : 0 < d) : ceilDiv n d = ⌈(n : ℚ) / d⌉₊ := by
  have hpos : (0 : ℚ) < d := Nat.cast_pos.2 hd
  apply Nat.le_antisymm
  · apply (isLeast_ceilDiv n hd).2
    have hle := (div_le_iff₀ hpos).1 (Nat.le_ceil ((n : ℚ) / d))
    exact_mod_cast hle
  · apply Nat.ceil_le.2
    rw [div_le_iff₀ hpos]
    exact_mod_cast le_ceilDiv_mul n hd

theorem ceilDiv_of_mod_pos {n d : Nat} (h : 0 < n % d) (hd : 0 < d) :
    ceilDiv n d = n / d + 1 := by
  have hdiv := Nat.div_add_mod n d
  have hlt := Nat.mod_lt n hd
  calc (n + (d - 1)) / d
      = (d * (n / d + 1) + (n % d - 1)) / d := by
        rw [Nat.mul_add]
        congr 1
        omega
    _ = n / d + 1 := by
        have hrest : n % d - 1 < d := by omega
        rw [Nat.mul_add_div hd, Nat.div_eq_of_lt hrest, Nat.add_zero]

theorem ceilDiv_mono {n m : Nat} (d : Nat) (h : n ≤ m) : ceilDiv n d ≤ ceilDiv m d :=
  Nat.div_le_div_right (Nat.add_le_add_right h _)

theorem le_alignUp {alignment : Nat} (value : Nat) (h : 0 < alignment) :
    value ≤ alignUp value alignment := le_ceilDiv_mul value h

theorem alignUp_le (value alignment : Nat) :
    alignUp value alignment ≤ value + (alignment - 1) := Nat.div_mul_le_self _ _

theorem dvd_alignUp (value alignment : Nat) : alignment ∣ alignUp value alignment :=
  Nat.dvd_mul_left _ _

theorem isLeast_alignUp (value : Nat) {alignment : Nat} (h : 0 < alignment) :
    IsLeast {m | alignment ∣ m ∧ value ≤ m} (alignUp value alignment) := by
  refine ⟨⟨dvd_alignUp value alignment, le_alignUp value h⟩, ?_⟩
  rintro m ⟨⟨q, rfl⟩, hle⟩
  rw [Nat.mul_comm] at hle ⊢
  exact Nat.mul_le_mul_right alignment ((isLeast_ceilDiv value h).2 hle)

end VideoAccel
