import VideoAccel.Emission
import VideoAccel.Register.Status

namespace VideoAccel.Rkv

def registerCount : Nat := 96

def refRegisters : Nat := 16

namespace Reg

def interrupt : Nat := 1
def control : Nat := 2
def strides : Nat := 3
def streamBase : Nat := 4
def streamLength : Nat := 5
def parameterBase : Nat := 6
def outputBase : Nat := 7
def lumaStride : Nat := 8
def pictureStride : Nat := 9
def refBase : Nat := 10
def refPocTop : Nat := 26
def refPocBottom : Nat := 42
def currentPocTop : Nat := 58
def currentPocBottom : Nat := 59
def refSetBase : Nat := 60
def scalingBase : Nat := 61
def refInfo : Nat := 62
def frameNumWrap : Nat := 66
def errorEnable : Nat := 74
def streamError : Nat := 75
def streamDetect : Nat := 77
def lastStatus : Nat := 79

end Reg

namespace Bit

def start : Nat := 0
def clockGate : Nat := 1
def ready : Nat := 8
def busError : Nat := 9
def error : Nat := 10
def timeout : Nat := 11
def bufferEmpty : Nat := 12
def motionError : Nat := 13

end Bit

def statusField : RegisterField := ⟨8, 6⟩

def modeField : RegisterField := ⟨20, 2⟩

def lumaStrideField : RegisterField := ⟨0, 10⟩

def chromaStrideField : RegisterField := ⟨10, 10⟩

def modeHevc : UInt32 := 0

def modeAvc : UInt32 := 1

def blankImage : RegisterImage := ⟨[.blank 0 registerCount]⟩

structure RefInfo where
  topUsed : Bool := false
  bottomUsed : Bool := false
  longTerm : Bool := false
  invalid : Bool := false
  deriving DecidableEq, Repr

def RefInfo.bits (r : RefInfo) : Nat :=
  r.topUsed.toNat + 2 * r.bottomUsed.toNat + 4 * r.longTerm.toNat + 8 * r.invalid.toNat

def setRefInfo (index : Nat) (info : RefInfo) : RegisterWrite :=
  { reg := Reg.refInfo + narrow (index / 4), field := ⟨index % 4 * 8, 8⟩, value := info.bits.toUInt32 }

def setFrameNumWrap (index : Nat) (value : Int) : RegisterWrite :=
  { reg := Reg.frameNumWrap + narrow (index / 2), field := ⟨index % 2 * 16, 16⟩
    value := (twosComplement 16 value).toUInt32 }

def clearStatus : List RegisterWrite :=
  { reg := Reg.interrupt, field := statusField, value := 0 } ::
    (List.range (Reg.lastStatus + 1 - Reg.errorEnable)).map fun i => .word (Reg.errorEnable + i) 0

def addressEdits (bind : Binding) (tables : List (Nat × Nat)) : List Edit :=
  [.register (.word Reg.streamBase bind.stream.handle),
    .register (.word Reg.streamLength bind.streamLength.toUInt32),
    .register (.word Reg.outputBase bind.output.handle)]
  ++ ((bind.refs.take refRegisters).mapIdx fun i r =>
      .register (.word (Reg.refBase + i) r.frame.handle))
  ++ tables.flatMap fun (reg, offset) =>
      .register (.word reg bind.tables) :: patchEdits reg offset

def geometryWrites (output : Frame) (mode : UInt32) : List RegisterWrite :=
  let stride := (output.horStride / 16).toUInt32
  [{ reg := Reg.control, field := modeField, value := mode },
    { reg := Reg.strides, field := lumaStrideField, value := stride },
    { reg := Reg.strides, field := chromaStrideField, value := stride },
    .word Reg.lumaStride (output.lumaSize / 16).toUInt32,
    .word Reg.pictureStride (output.pictureSize / 16).toUInt32,
    .flag Reg.interrupt Bit.start true,
    .flag Reg.interrupt Bit.clockGate true]

def imageRange (image : RegisterImage) (first last : Nat) : List UInt32 :=
  (List.range (last + 1 - first)).map fun i => (image.get? (first + i)).getD 0

def queue (image : RegisterImage) (patches : Batch) : Batch :=
  [.write (Reg.control * 4) (imageRange image Reg.control Reg.streamDetect)]
  ++ patches.addressOffsets.map .address
  ++ [.write (Reg.interrupt * 4) (imageRange image Reg.interrupt Reg.interrupt),
    .read (Reg.interrupt * 4) 1,
    .read (Reg.errorEnable * 4) (Reg.lastStatus - Reg.errorEnable + 1)]

/-- A task failed unless the hardware is ready and reports no error of itself or of the stream. -/
def decodeStatus (r : Readback) : HardwareStatus :=
  let interrupt := r.word 0 0
  let failed := [Bit.busError, Bit.error, Bit.timeout, Bit.bufferEmpty, Bit.motionError].any
    (hasBit interrupt)
  let streamFailed := hasBit (r.word 1 (Reg.streamError - Reg.errorEnable)) 0
    || hasBit (r.word 1 (Reg.streamDetect - Reg.errorEnable)) 0
  { hardError := !hasBit interrupt Bit.ready || failed || streamFailed }

def alignmentFor (width : Nat) : AlignmentClass := if 1920 < width then .odd256 else .align16

end VideoAccel.Rkv
