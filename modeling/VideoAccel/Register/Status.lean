import VideoAccel.Register.Batch
import VideoAccel.Register.Block

namespace VideoAccel

structure HardwareStatus where
  hardError : Bool := false
  /-- The references that were read, one bit each, if the hardware counts them. -/
  refUsed : Option UInt32 := none
  deriving DecidableEq, Repr

/-- A word of a readback; one that is absent is zero. -/
def Readback.word (r : Readback) (block index : Nat) : UInt32 :=
  ((r[block]?.getD [])[index]?).getD 0

def hasBit (w : UInt32) (i : Nat) : Bool := (RegisterField.bit i).read w != 0

end VideoAccel
