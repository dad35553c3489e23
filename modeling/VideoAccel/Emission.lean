import VideoAccel.Auxiliary.Scratch
import VideoAccel.Bits.Field
import VideoAccel.Memory.Buffer
import VideoAccel.Picture.Format
import VideoAccel.Reference
import VideoAccel.Register.Batch
import VideoAccel.Register.Image

namespace VideoAccel

structure AuxBinding where
  handle : UInt32
  layout : AuxLayout
  scratch : ScratchChoice := []
  scratchHandle : UInt32 := 0
  deriving DecidableEq, Repr

def AuxBinding.locate (a : AuxBinding) (id : RegionId) : Option (UInt32 × Nat) :=
  match a.scratch.lookup id with
  | some offset => some (a.scratchHandle, offset)
  | none => (a.layout.region? id).map fun region => (a.handle, region.offset)

/-- The motion vector stores of a task: that of the output and one per reference. -/
structure MotionBinding where
  current : UInt32
  refs : List UInt32
  deriving DecidableEq, Repr

/-- Everything but the picture that the registers of a task depend on. -/
structure Binding where
  output : Frame
  outputSlot : Nat := 0
  stream : Packet := {}
  streamLength : Nat := 0
  refs : List ResolvedRef := []
  tables : UInt32 := 0
  aux : Option AuxBinding := none
  motion : Option MotionBinding := none
  bitDepth : UInt8 := 8
  deriving DecidableEq, Repr

def Binding.headerDepths (b : Binding) (lumaMinus8 chromaMinus8 : UInt8) :
    Except Fault (UInt8 × UInt8) :=
  match bitDepthOf lumaMinus8 chromaMinus8 with
  | .error f => .error f
  | .ok depth =>
    if depth = b.bitDepth then .ok (lumaMinus8, chromaMinus8)
    else .ok (b.bitDepth - min b.bitDepth 8, b.bitDepth - min b.bitDepth 8)

def parameterOffset : Nat := 0

def refSetOffset : Nat := 0x100

def scalingOffset : Nat := 0x200

inductive StepError
  | bits (e : BitError)
  | tooManyTiles (columns rows : Nat)
  | noRoomForScaling
  | fault (f : Fault)
  deriving DecidableEq, Repr

def StepError.message : StepError → String
  | .bits e => e.message
  | .tooManyTiles columns rows => s!"{columns}x{rows} tiles exceed the hardware limit"
  | .noRoomForScaling => "table buffer too small for scaling lists"
  | .fault _ => "operation outside its domain"

inductive Edit
  | register (w : RegisterWrite)
  | table (offset : Nat) (bytes : List UInt8)
  | patch (p : AddressOffset)
  deriving DecidableEq, Repr

def patchEdits (reg offset : Nat) : List Edit :=
  if offset = 0 then [] else [.patch ⟨reg, offset.toUInt32⟩]

structure StepResult where
  edits : List Edit := []
  failure : Option StepError := none
  deriving DecidableEq, Repr

namespace StepResult

def ofExcept : Except StepError (List Edit) → StepResult
  | .ok edits => { edits }
  | .error e => { failure := some e }

def after (edits : List Edit) (r : StepResult) : StepResult := { r with edits := edits ++ r.edits }

end StepResult

def packedTable (w : BitWriter) (size offset : Nat) : Except StepError (List Edit) :=
  if size < offset then .error (.fault .outOfRange)
  else
    match w.bytesFor (size - offset) with
    | .error e => .error (.bits e)
    | .ok bytes => .ok [.table offset bytes]

def scalingTable (bytes : List UInt8) (size : Nat) : Except StepError (List Edit) :=
  if size < scalingOffset + bytes.length then .error .noRoomForScaling
  else .ok [.table scalingOffset bytes]

/-- What the generation steps fill in. -/
structure Emission where
  image : RegisterImage
  tables : Memory
  patches : List AddressOffset := []
  deriving DecidableEq, Repr

namespace Emission

def apply (e : Emission) : Edit → Emission
  | .register w => { e with image := e.image.write w }
  | .table offset bytes => { e with tables := e.tables.store offset bytes }
  | .patch p => { e with patches := e.patches ++ [p] }

def applyAll (e : Emission) (edits : List Edit) : Emission := edits.foldl apply e

def fits (e : Emission) : Edit → Bool
  | .register w => e.image.fits w
  | .table offset bytes => offset + bytes.length ≤ e.tables.size
  | .patch _ => true

def run (e : Emission) (r : StepResult) : Except StepError Unit × Emission :=
  if r.edits.all e.fits then
    match r.failure with
    | none => (.ok (), e.applyAll r.edits)
    | some failure => (.error failure, e.applyAll r.edits)
  else (.error (.fault .outOfRange), e)

end Emission

end VideoAccel
