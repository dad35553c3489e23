import VideoAccel.AddressSpace
import VideoAccel.Memory.Buffer
import VideoAccel.Register.Batch

namespace VideoAccel

structure RegisterSet (α : Type) where
  registers : α
  tables : Option DeviceBuffer := none
  patches : List AddressOffset := []
  /-- The task in the set bypasses the hardware. -/
  skip : Bool := false
  valid : Bool := false
  deriving DecidableEq, Repr

structure RegisterSets (α : Type) where
  sets : List (RegisterSet α) := []
  deriving DecidableEq, Repr

/-- The bytes of a set by itself, without the memory that it refers to. -/
def setEntryBytes : Nat := 64

namespace RegisterSets

variable {α : Type}

def replicate (count : Nat) (registers : α) : RegisterSets α :=
  ⟨List.replicate count { registers }⟩

def replicate? (count : Nat) (registers : α) : Option (RegisterSets α) :=
  if isAddressable count setEntryBytes then some (replicate count registers) else none

def size (s : RegisterSets α) : Nat := s.sets.length

def get? (s : RegisterSets α) (i : Nat) : Option (RegisterSet α) := s.sets[i]?

def modify (s : RegisterSets α) (i : Nat) (f : RegisterSet α → RegisterSet α) : RegisterSets α :=
  ⟨s.sets.modify i f⟩

def map (s : RegisterSets α) (f : RegisterSet α → RegisterSet α) : RegisterSets α :=
  ⟨s.sets.map f⟩

def isValid (s : RegisterSets α) (i : Nat) : Bool := (s.get? i).any (·.valid)

def validCount (s : RegisterSets α) : Nat := s.sets.countP (·.valid)

/-- The lowest free set, and the sets with it taken: not skipped and without address offsets. -/
def acquire? (s : RegisterSets α) : Option (Nat × RegisterSets α) :=
  (s.sets.findIdx? fun set => !set.valid).map fun i =>
    (i, s.modify i fun set => { set with valid := true, skip := false, patches := [] })

def release (s : RegisterSets α) (i : Nat) : RegisterSets α :=
  s.modify i fun set => { set with valid := false }

end RegisterSets

end VideoAccel
