import VideoAccel.Hardware
import VideoAccel.Device

namespace VideoAccel

structure Platform (σ : Type) where
  openChannel : Client → σ → Except ChannelError Nat × σ
  closeChannel : Nat → σ → σ
  openMemory : σ → Except AllocError Nat × σ
  scratch : σ → Option ScratchMemory
  channel : Nat → Channel σ
  memory : Nat → MemorySource σ

structure Link where
  channel : Nat
  memory : Nat
  deriving DecidableEq, Repr

inductive ConnectError
  | channel (e : ChannelError)
  | memory (e : AllocError)
  deriving DecidableEq, Repr

namespace Platform

variable {σ : Type}

def device (p : Platform σ) (link : Link) : Device σ :=
  ⟨p.channel link.channel, p.memory link.memory⟩

/-- A channel and a source of memory. The channel is closed again if there is no memory. -/
def connect (p : Platform σ) (client : Client) (s : σ) : Except ConnectError Link × σ :=
  match p.openChannel client s with
  | (.error e, s) => (.error (.channel e), s)
  | (.ok channel, s) =>
    match p.openMemory s with
    | (.error e, s) => (.error (.memory e), p.closeChannel channel s)
    | (.ok memory, s) => (.ok ⟨channel, memory⟩, s)

end Platform

end VideoAccel
