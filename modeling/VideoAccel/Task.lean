import VideoAccel.Device
import VideoAccel.Emission
import VideoAccel.Hardware
import VideoAccel.Picture.Coded

namespace VideoAccel

inductive TaskState
  | idle
  | registersGenerated
  | submitted
  | completed
  deriving DecidableEq, Repr

def TaskState.name : TaskState → String
  | .idle => "Idle"
  | .registersGenerated => "RegistersGenerated"
  | .submitted => "Submitted"
  | .completed => "Completed"

structure TaskFlags where
  parseError : Bool := false
  refError : Bool := false
  deriving DecidableEq, Repr

namespace TaskFlags

def bits (f : TaskFlags) : Nat := f.parseError.toNat + 2 * f.refError.toNat

def ofBits (n : Nat) : TaskFlags := ⟨n.testBit 0, n.testBit 1⟩

end TaskFlags

structure Task where
  picture : CodedPicture
  input : Nat := 0
  streamLength : Nat := 0
  output : Nat := 0
  flags : TaskFlags := {}
  refUsed : Option UInt32 := none
  slot : Option Nat := none
  state : TaskState := .idle
  deriving DecidableEq, Repr

namespace Task

def recycle (t : Task) : Task :=
  { t with flags := {}, refUsed := none, slot := none, state := .idle }

/-- A picture that cannot be decoded, or one with broken references unless these are tolerated. -/
def mustSkip (t : Task) (config : Config) : Bool :=
  t.flags.parseError || (t.flags.refError && !config.errorTolerance)

end Task

inductive BackendError
  | noFreeSlot
  | invalidState (state expected : TaskState)
  | wrongStandard (standard : CodingStandard)
  | layoutBusy
  | missingFrame (slot : Nat)
  | missingPacket (slot : Nat)
  | unsupportedLayout (layout : FrameLayout)
  | submitFailed (e : ChannelError)
  | channel (e : ChannelError)
  | alloc (e : AllocError)
  | step (e : StepError)
  | unboundTask
  | missingSet (slot : Nat)
  | missingTables (slot : Nat)
  | outOfOrder (first slot : Nat)
  | noSibling (standard : CodingStandard) (family : Family)
  | fault (f : Fault)
  deriving DecidableEq, Repr

/-- The kind of an error; those that a caller does not tell apart have one name. -/
def BackendError.name : BackendError → String
  | .noFreeSlot => "NoFreeSlot"
  | .invalidState .. => "InvalidState"
  | .wrongStandard _ => "WrongStandard"
  | .layoutBusy => "LayoutBusy"
  | .missingFrame _ => "MissingFrame"
  | .missingPacket _ => "MissingPacket"
  | .unsupportedLayout _ => "UnsupportedLayout"
  | .submitFailed _ => "SubmitFailed"
  | .channel _ => "Channel"
  | .alloc _ => "Alloc"
  | _ => "Other"

def BackendError.message : BackendError → String
  | .noFreeSlot => "no free register set"
  | .invalidState state expected =>
    "task is " ++ state.name ++ ", expected " ++ expected.name
  | .wrongStandard standard =>
    "task syntax is " ++ standard.text ++ ", which this backend does not decode"
  | .layoutBusy => "picture geometry changed while other tasks are in flight"
  | .missingFrame slot => s!"no frame in slot {slot}"
  | .missingPacket slot => s!"no packet in slot {slot}"
  | .unsupportedLayout layout =>
    "frame layout " ++ layout.name ++ " is not supported by this hardware"
  | .submitFailed e => "failed to submit task: " ++ e.message
  | .channel e => e.message
  | .alloc e => e.message
  | .step e => e.message
  | .unboundTask => "task has no register set"
  | .missingSet slot => s!"register set {slot} does not exist"
  | .missingTables slot => s!"register set {slot} has no table buffer"
  | .outOfOrder first slot =>
    s!"register set {first} must complete before register set {slot}"
  | .noSibling standard family =>
    "no " ++ standard.text ++ " backend of the " ++ family.name ++ " family could be opened"
  | .fault _ => "operation outside its domain"

def BackendError.ofStep : StepError → BackendError
  | .fault f => .fault f
  | e => .step e

def BackendError.ofAlloc : AllocError → BackendError
  | .fault f => .fault f
  | e => .alloc e

structure CompletionReport where
  /-- The task as it completes, still bound to its register set. -/
  task : Task
  /-- All words read back. -/
  status : List UInt32 := []
  hardError : Bool := false
  refUsed : Option UInt32 := none
  skipped : Bool := false
  timedOut : Bool := false
  deriving DecidableEq, Repr

inductive Control
  | frameInfo (width height : Nat) (bitDepth : UInt8) (layout : FrameLayout)
  | errorTolerance (enabled : Bool)
  deriving DecidableEq, Repr

end VideoAccel
