import VideoAccel.Memory.Buffer

namespace VideoAccel.Kernel

def descriptorFlags : Nat := 0o2 ||| 0o2000000

structure HeapCall where
  errno : Nat
  length : Nat
  descriptor : Nat := 0
  descriptorFlags : Nat := Kernel.descriptorFlags
  heapFlags : Nat := 0
  deriving DecidableEq, Repr

structure DmaHeap where
  outcomes : List Nat := []
  nextDescriptor : UInt32 := 500
  calls : List HeapCall := []
  deriving DecidableEq, Repr

namespace DmaHeap

def connect (deviceExists : Bool) (h : DmaHeap) : Except AllocError DmaHeap :=
  if deviceExists then .ok h else .error (.io .noSuchFile)

def take (size : Nat) (h : DmaHeap) : Memory × DmaHeap :=
  ({ handle := h.nextDescriptor, size }, { h with nextDescriptor := h.nextDescriptor + 1 })

/-- A call is repeated as long as it is interrupted. -/
def call (size : Nat) : List Nat → DmaHeap → Except AllocError Memory × DmaHeap
  | [], h =>
    match take size { h with outcomes := [], calls := h.calls ++ [{ errno := 0, length := size }] } with
    | (m, h) => (.ok m, h)
  | errno :: rest, h =>
    let h := { h with outcomes := rest, calls := h.calls ++ [{ errno, length := size }] }
    if errno = 0 then
      match h.take size with
      | (m, h) => (.ok m, h)
    else if errno = Errno.interrupted.code then call size rest h
    else if errno = Errno.outOfMemory.code then (.error (.outOfMemory size), h)
    else (.error (.io ⟨errno⟩), h)

def allocate (size : Nat) (h : DmaHeap) : Except AllocError Memory × DmaHeap :=
  if size = 0 then (.error .zeroSize, h) else call size h.outcomes h

/-- The kernel frees memory when its descriptor is closed, without a call. -/
def source : MemorySource DmaHeap := ⟨allocate, fun _ h => h⟩

end DmaHeap

end VideoAccel.Kernel
