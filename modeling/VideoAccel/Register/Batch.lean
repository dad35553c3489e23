namespace VideoAccel

structure AddressOffset where
  reg : Nat
  offset : UInt32
  deriving DecidableEq, Repr

inductive RegisterOp
  | write (offset : Nat) (words : List UInt32)
  | read (offset count : Nat)
  | address (patch : AddressOffset)
  deriving DecidableEq, Repr

abbrev Batch := List RegisterOp

instance : Coe (List AddressOffset) Batch := ⟨List.map .address⟩

def fitWords (count : Nat) (words : List UInt32) : List UInt32 :=
  words.take count ++ List.replicate (count - words.length) 0

/-- The blocks of words a finished batch answers, one per read. -/
abbrev Readback := List (List UInt32)

def Batch.reads (b : Batch) : List (Nat × Nat) :=
  b.filterMap fun
    | .read offset count => some (offset, count)
    | _ => none

def RegisterOp.address? : RegisterOp → Option AddressOffset
  | .address p => some p
  | .write .. | .read .. => none

def Batch.addressOffsets (b : Batch) : List AddressOffset := b.filterMap RegisterOp.address?

end VideoAccel
