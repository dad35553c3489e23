import VideoAccel.AddressSpace

namespace VideoAccel

def narrow (n : Nat) : Nat := n % Nat.pow 2 32

theorem narrow_of_lt {n : Nat} (h : n < Nat.pow 2 32) : narrow n = n := Nat.mod_eq_of_lt h

/-- `width` bits from bit `shift` on. -/
structure RegisterField where
  shift : Nat
  width : Nat
  deriving DecidableEq, Repr

namespace RegisterField

def bit (shift : Nat) : RegisterField := ⟨shift, 1⟩

def word : RegisterField := ⟨0, 32⟩

def mask (f : RegisterField) : UInt32 :=
  if 32 ≤ f.width then 0xffffffff else (1 <<< f.width.toUInt32) - 1

def read (f : RegisterField) (w : UInt32) : UInt32 :=
  (w >>> f.shift.toUInt32) &&& f.mask

/-- The register `w` with the field replaced; bits of `v` beyond the width are cut off. -/
def write (f : RegisterField) (w v : UInt32) : UInt32 :=
  (w &&& ~~~(f.mask <<< f.shift.toUInt32)) ||| ((v &&& f.mask) <<< f.shift.toUInt32)

end RegisterField

structure RegisterBlock where
  first : Nat
  words : List UInt32
  deriving DecidableEq, Repr

namespace RegisterBlock

def blank (first count : Nat) : RegisterBlock := ⟨first, List.replicate count 0⟩

def blank? (first count : Nat) : Option RegisterBlock :=
  if isAddressable count 4 then some (blank first count) else none

def offset (b : RegisterBlock) : Nat := b.first * 4

def contains (b : RegisterBlock) (reg : Nat) : Bool :=
  b.first ≤ reg && reg - b.first < b.words.length

def get? (b : RegisterBlock) (reg : Nat) : Option UInt32 :=
  if b.first ≤ reg then b.words[reg - b.first]? else none

def range? (b : RegisterBlock) (first last : Nat) : Option (List UInt32) :=
  if b.first ≤ first ∧ b.first ≤ last ∧ first ≤ last + 1 ∧ last - b.first < b.words.length then
    some ((b.words.drop (first - b.first)).take (last + 1 - first))
  else none

/-- The block with field `f` of register `reg` replaced; a register of another block is not touched. -/
def write (b : RegisterBlock) (reg : Nat) (f : RegisterField) (v : UInt32) : RegisterBlock :=
  if b.first ≤ reg then
    { b with words := b.words.modify (reg - b.first) fun w => f.write w v }
  else b

def field? (b : RegisterBlock) (reg : Nat) (f : RegisterField) : Option UInt32 :=
  if f.shift < 32 then (b.get? reg).map f.read else none

def write? (b : RegisterBlock) (reg : Nat) (f : RegisterField) (v : UInt32) : Option RegisterBlock :=
  if b.contains reg && f.shift < 32 then some (b.write reg f v) else none

def clear (b : RegisterBlock) : RegisterBlock :=
  { b with words := List.replicate b.words.length 0 }

end RegisterBlock

end VideoAccel
