import VideoAccel.Errno
import VideoAccel.Memory.Buffer
import VideoAccel.Register.Batch

namespace VideoAccel

inductive ChannelError
  | rejected (reason : String)
  | timeout
  | nothingPending
  | io (e : Errno)
  deriving DecidableEq, Repr

def ChannelError.name : ChannelError → String
  | .rejected _ => "Rejected"
  | .timeout => "Timeout"
  | .nothingPending => "NothingPending"
  | .io _ => "Io"

def ChannelError.message : ChannelError → String
  | .rejected reason => "request rejected by the device: " ++ reason
  | .timeout => "timed out waiting for the hardware"
  | .nothingPending => "no request is pending"
  | .io e => "device error: " ++ e.text

structure Channel (σ : Type) where
  submit : Batch → σ → Except ChannelError Unit × σ
  poll : σ → Except ChannelError Readback × σ
  reset : σ → Except ChannelError Unit × σ
  flush : σ → Except ChannelError Unit × σ

structure Device (σ : Type) where
  channel : Channel σ
  memory : MemorySource σ

/-- Memory on the chip that can hold some of the auxiliary regions. -/
structure ScratchMemory where
  handle : UInt32
  size : Nat
  deriving DecidableEq, Repr

end VideoAccel
