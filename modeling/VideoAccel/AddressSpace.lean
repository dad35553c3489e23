namespace VideoAccel

def maxArrayBytes : Nat := Nat.pow 2 63 - 1

/-- There can be an array of `count` elements of `width` bytes each. -/
def isAddressable (count width : Nat) : Bool := count * width ≤ maxArrayBytes

theorem isAddressable_of_le {m n width : Nat} (h : m ≤ n) (hn : isAddressable n width) :
    isAddressable m width := by
  simp only [isAddressable, decide_eq_true_eq] at hn ⊢
  exact Nat.le_trans (Nat.mul_le_mul_right width h) hn

end VideoAccel
