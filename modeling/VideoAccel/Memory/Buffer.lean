import VideoAccel.Errno
import VideoAccel.Fault

namespace VideoAccel

inductive AllocError
  | zeroSize
  | outOfMemory (size : Nat)
  | io (e : Errno)
  | fault (f : Fault)
  deriving DecidableEq, Repr

def AllocError.name : AllocError → String
  | .zeroSize => "ZeroSize"
  | .outOfMemory _ => "OutOfMemory"
  | .io _ => "Io"
  | .fault _ => "Fault"

def AllocError.message : AllocError → String
  | .zeroSize => "cannot allocate an empty buffer"
  | .outOfMemory size => s!"out of device memory while allocating {size} bytes"
  | .io e => "allocation failed: " ++ e.text
  | .fault _ => "operation outside its domain"

structure Memory where
  handle : UInt32
  size : Nat
  contents : List UInt8 := []
  deriving DecidableEq, Repr

namespace Memory

def byte (m : Memory) (i : Nat) : UInt8 := m.contents.getD i 0

/-- The bytes from `offset` on, not beyond the end of the memory. -/
def read (m : Memory) (offset length : Nat) : List UInt8 :=
  let bytes := (m.contents.drop offset).take length
  bytes ++ List.replicate (min length (m.size - offset) - bytes.length) 0

def store (m : Memory) (offset : Nat) (bytes : List UInt8) : Memory :=
  { m with
    contents := m.contents.take offset ++ List.replicate (offset - m.contents.length) 0
      ++ bytes ++ m.contents.drop (offset + bytes.length) }

def storeByte? (m : Memory) (i : Nat) (b : UInt8) : Option Memory :=
  if i < m.size then some (m.store i [b]) else none

def zeroed (m : Memory) : Memory := { m with contents := [] }

end Memory

/-- What a buffer is used for. Buffers are recycled for the purpose they were last used for. -/
inductive Purpose
  | tables
  | auxiliary
  | motionVectors
  deriving DecidableEq, Repr

def Purpose.name : Purpose → String
  | .tables => "Tables"
  | .auxiliary => "Auxiliary"
  | .motionVectors => "MotionVectors"

structure DeviceBuffer where
  memory : Memory
  purpose : Purpose
  deriving DecidableEq, Repr

namespace DeviceBuffer

def handle (b : DeviceBuffer) : UInt32 := b.memory.handle

def size (b : DeviceBuffer) : Nat := b.memory.size

def zeroed (b : DeviceBuffer) : DeviceBuffer := { b with memory := b.memory.zeroed }

def text (b : DeviceBuffer) : String :=
  "DeviceBuffer \x7b handle: " ++ toString b.handle ++ ", size: " ++ toString b.size ++
    ", purpose: " ++ b.purpose.name ++ " \x7d"

end DeviceBuffer

/-- Where memory comes from and goes back to, as operations on a state `σ`. -/
structure MemorySource (σ : Type) where
  allocate : Nat → σ → Except AllocError Memory × σ
  free : Memory → σ → σ

end VideoAccel
