import VideoAccel.AddressSpace
import VideoAccel.Memory.Group

namespace VideoAccel

structure MotionPool where
  storeSize : Nat := 0
  stores : List DeviceBuffer := []
  deriving DecidableEq, Repr

namespace MotionPool

variable {σ : Type}

def needsGrowth (p : MotionPool) (count size : Nat) : Bool :=
  p.stores.length < count || size != p.storeSize

def storeEntryBytes : Nat := 32

/-- The pool has `count` stores of the size afterwards, or none at all after an error. -/
def ensure (source : MemorySource σ) (count size : Nat) (p : MotionPool) (group : BufferGroup)
    (s : σ) : Except AllocError Bool × MotionPool × BufferGroup × σ :=
  if p.needsGrowth count size then
    match group.giveMany source p.stores s with
    | (group, s) =>
      if isAddressable count storeEntryBytes then
        match group.getMany source .motionVectors size count s with
        | (some e, got, group, s) =>
          match group.giveMany source got s with
          | (group, s) => (.error e, {}, group, s)
        | (none, got, group, s) => (.ok true, ⟨size, got⟩, group, s)
      else (.error (.fault .outOfRange), {}, group, s)
  else (.ok false, p, group, s)

def handle? (p : MotionPool) (slot : Nat) : Option UInt32 := p.stores[slot]?.map (·.handle)

end MotionPool

end VideoAccel
