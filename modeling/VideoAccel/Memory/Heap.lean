import VideoAccel.AddressSpace
import VideoAccel.Memory.Buffer

namespace VideoAccel

structure Heap where
  next : UInt32 := 1
  budget : Option Nat := none
  /-- Allocations that have not been freed, and their bytes. -/
  live : Nat := 0
  bytes : Nat := 0
  /-- Allocations ever made. -/
  made : Nat := 0
  deriving DecidableEq, Repr

namespace Heap

def hasRoom (h : Heap) (size : Nat) : Bool :=
  match h.budget with
  | none => true
  | some budget => h.bytes + size ≤ budget

def allocate (size : Nat) (h : Heap) : Except AllocError Memory × Heap :=
  if size = 0 then (.error .zeroSize, h)
  else if Nat.pow 2 64 ≤ h.bytes + size then (.error (.fault .overflow), h)
  else if !h.hasRoom size then (.error (.outOfMemory size), h)
  else if !isAddressable size 1 then (.error (.fault .outOfRange), h)
  else
    (.ok { handle := h.next, size },
      { h with next := h.next + 1, live := h.live + 1, bytes := h.bytes + size, made := h.made + 1 })

def free (m : Memory) (h : Heap) : Heap :=
  { h with live := h.live - 1, bytes := h.bytes - m.size }

def source : MemorySource Heap := ⟨allocate, free⟩

end Heap

end VideoAccel
