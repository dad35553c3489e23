import VideoAccel.Hardware
import VideoAccel.Register.Batch

namespace VideoAccel.Kernel

namespace Command

def attachClient : Nat := 0x100
def writeRegisters : Nat := 0x200
def readRegisters : Nat := 0x201
def addressOffsets : Nat := 0x202
def pollFinish : Nat := 0x300
def resetSession : Nat := 0x400

end Command

/-- The read of a batch that a request asks for: the batch's ticket and the read's index. -/
structure ReadTarget where
  ticket : Nat
  index : Nat
  deriving DecidableEq, Repr

inductive Payload
  | none
  | words (data : List UInt32)
  | target (t : ReadTarget)
  deriving DecidableEq, Repr

structure Request where
  command : Nat
  flags : Nat := 0
  /-- The bytes of the payload; the service counts them in 32 bits. -/
  size : UInt32 := 0
  offset : Nat := 0
  payload : Payload := .none
  deriving DecidableEq, Repr

def partOfMessage : Nat := 1

def endOfMessage : Nat := 2

def sealMessage : List Request → List Request
  | [] => []
  | [r] => [{ r with flags := r.flags ||| partOfMessage ||| endOfMessage }]
  | r :: rest => { r with flags := r.flags ||| partOfMessage } :: sealMessage rest

def attachRequest (client : Client) : Request :=
  { command := Command.attachClient, size := 4, payload := .words [client.code.toUInt32] }

def pollRequest : Request := { command := Command.pollFinish }

def resetRequest : Request := { command := Command.resetSession }

def writeRequests (batch : Batch) : List Request :=
  batch.filterMap fun
    | .write offset words =>
      some { command := Command.writeRegisters, size := (words.length * 4).toUInt32, offset
             payload := .words words }
    | _ => none

def offsetRequests (batch : Batch) : List Request :=
  let patches := batch.filterMap fun
    | .address p => some p
    | _ => none
  if patches.isEmpty then []
  else
    [{ command := Command.addressOffsets, size := (patches.length * 8).toUInt32
       payload := .words (patches.flatMap fun p => [p.reg.toUInt32, p.offset]) }]

def readRequests (ticket : Nat) (batch : Batch) : List Request :=
  batch.reads.mapIdx fun index (offset, count) =>
    { command := Command.readRegisters, size := (count * 4).toUInt32, offset
      payload := .target ⟨ticket, index⟩ }

def batchRequests (ticket : Nat) (batch : Batch) : List Request :=
  writeRequests batch ++ offsetRequests batch ++ readRequests ticket batch

end VideoAccel.Kernel
