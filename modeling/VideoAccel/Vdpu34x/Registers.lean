import VideoAccel.Emission
import VideoAccel.Register.Status

namespace VideoAccel.Vdpu34x

def refRegisters : Nat := 16

namespace Reg

def decodeMode : Nat := 9
def decodeEnable : Nat := 10
def importantEnable : Nat := 11
def timeoutThreshold : Nat := 13
def streamLength : Nat := 14
def lumaRowStride : Nat := 16
def chromaRowStride : Nat := 17
def lumaStride : Nat := 18
def compressedHeaderStride : Nat := 19
def currentPoc : Nat := 64
def currentPocBottom : Nat := 65
def refPoc : Nat := 66
def refInfo : Nat := 98
def refValidMask : Nat := 102
def refSameAsCurrentMask : Nat := 103
def refLongTermMask : Nat := 104
def streamBase : Nat := 128
def parameterBase : Nat := 129
def refSetBase : Nat := 130
def scalingBase : Nat := 131
def outputBase : Nat := 132
def motionCurrentBase : Nat := 133
def compressedPayloadBase : Nat := 134
def thumbnailBase : Nat := 135
def regionBase : Nat := 140
def regionSize : Nat := 151
def refBase : Nat := 164
def motionRefBase : Nat := 180
def interruptStatus : Nat := 224
def performanceControl : Nat := 256
def refUsed : Nat := 260
def errorStatus : Nat := 262

end Reg

namespace Bit

def start : Nat := 0
def bufferEmptyEnable : Nat := 0
def timeoutEnable : Nat := 1
def compressedEnable : Nat := 4
def scaleDownEnable : Nat := 5
def errorProcessing : Nat := 8
def ready : Nat := 1
def busError : Nat := 2
def error : Nat := 3
def timeout : Nat := 4
def bufferEmpty : Nat := 5
def motionError : Nat := 6

end Bit

def modeHevc : UInt32 := 0

def modeAvc : UInt32 := 1

def defaultTimeout : UInt32 := 0x3ffff

def performanceEnable : UInt32 := 7

def commonRange : Nat × Nat := (8, 31)

def parameterRange : Nat × Nat := (64, 111)

def addressRange : Nat × Nat := (128, 199)

def statisticsRange : Nat × Nat := (256, 271)

/-- Statistics, parameters and addresses, then the block with the start bit. -/
def blankImage : RegisterImage :=
  ⟨[statisticsRange, parameterRange, addressRange, commonRange].map fun (first, last) =>
    .blank first (last - first + 1)⟩

structure RefInfo where
  used : Bool := false
  field : Bool := false
  longTerm : Bool := false
  invalid : Bool := false
  deriving DecidableEq, Repr

def RefInfo.bits (r : RefInfo) : Nat :=
  r.used.toNat + 2 * r.field.toNat + 4 * r.longTerm.toNat + 8 * r.invalid.toNat

def setRefInfo (index : Nat) (info : RefInfo) : List RegisterWrite :=
  [{ reg := Reg.refInfo + narrow (index / 4), field := ⟨index % 4 * 8, 8⟩
     value := info.bits.toUInt32 },
    .flag Reg.refValidMask (narrow index) (info.used && !info.invalid),
    .flag Reg.refLongTermMask (narrow index) info.longTerm]

def setSameAsCurrent (index : Nat) (same : Bool) : RegisterWrite :=
  .flag Reg.refSameAsCurrentMask (narrow index) same

def clearStatus : List RegisterWrite :=
  (List.range (statisticsRange.2 - Reg.performanceControl)).map fun i =>
    .word (Reg.performanceControl + 1 + i) 0

def regionEdits (aux : AuxBinding) : List Edit :=
  aux.layout.regions.flatMap fun (id, region) =>
    match aux.locate id with
    | none => []
    | some (handle, offset) =>
      [.register (.word (Reg.regionBase + id.index) handle),
        .register (.word (Reg.regionSize + id.index) (region.size / 16).toUInt32)]
      ++ patchEdits (Reg.regionBase + id.index) offset

def motionEdits (motion : MotionBinding) : List Edit :=
  .register (.word Reg.motionCurrentBase motion.current) ::
    (motion.refs.take refRegisters).mapIdx fun i handle =>
      .register (.word (Reg.motionRefBase + i) handle)

def addressEdits (bind : Binding) (tables : List (Nat × Nat)) : List Edit :=
  [.register (.word Reg.streamBase bind.stream.handle),
    .register (.word Reg.outputBase bind.output.handle)]
  ++ ((bind.refs.take refRegisters).mapIdx fun i r =>
      .register (.word (Reg.refBase + i) r.frame.handle))
  ++ (match bind.motion with
      | none => []
      | some motion => motionEdits motion)
  ++ (tables.flatMap fun (reg, offset) =>
      .register (.word reg bind.tables) :: patchEdits reg offset)
  ++ match bind.aux with
      | none => []
      | some aux => regionEdits aux

def headerStride (output : Frame) : UInt32 :=
  (alignUp output.resolution.width 64 / 64 * 16).toUInt32

/-- The header of a compressed frame, in whole pages; a row of blocks has 16 lines. -/
def headerSize (output : Frame) : Nat :=
  alignUp ((headerStride output).toNat * ceilDiv output.resolution.height 16) 4096

def compressedEdits (output : Frame) : List Edit :=
  if output.layout = .compressed then
    [.register (.flag Reg.importantEnable Bit.compressedEnable true),
      .register (.word Reg.compressedHeaderStride (headerStride output)),
      .register (.word Reg.compressedPayloadBase output.handle)]
    ++ patchEdits Reg.compressedPayloadBase (headerSize output)
  else []

def thumbnailEdits (output : Frame) : List Edit :=
  if output.thumbnail = .downscale then
    [.register (.flag Reg.importantEnable Bit.scaleDownEnable true),
      .register (.word Reg.thumbnailBase output.handle)]
    ++ patchEdits Reg.thumbnailBase output.pictureSize
  else []

def geometryEdits (bind : Binding) (mode : UInt32) : List Edit :=
  let output := bind.output
  [.register (.word Reg.decodeMode mode),
    .register (.word Reg.streamLength bind.streamLength.toUInt32),
    .register (.word Reg.timeoutThreshold defaultTimeout),
    .register (.word Reg.lumaRowStride (output.horStride / 16).toUInt32),
    .register (.word Reg.chromaRowStride (output.horStride / 16).toUInt32),
    .register (.word Reg.lumaStride (output.lumaSize / 16).toUInt32),
    .register (.flag Reg.importantEnable Bit.bufferEmptyEnable true),
    .register (.flag Reg.importantEnable Bit.timeoutEnable true),
    .register (.flag Reg.importantEnable Bit.errorProcessing true)]
  ++ compressedEdits output
  ++ thumbnailEdits output
  ++ [.register (.word Reg.performanceControl performanceEnable),
    .register (.flag Reg.decodeEnable Bit.start true)]

def queue (image : RegisterImage) (patches : Batch) : Batch :=
  (image.blocks.map fun b => .write b.offset b.words)
  ++ patches.addressOffsets.map .address
  ++ [.read (Reg.interruptStatus * 4) 1,
    .read (statisticsRange.1 * 4) (statisticsRange.2 - statisticsRange.1 + 1)]

/-- A task failed unless the hardware is ready and reports no error of itself or of the stream. -/
def decodeStatus (r : Readback) : HardwareStatus :=
  let interrupt := r.word 0 0
  let errors := r.word 1 (Reg.errorStatus - statisticsRange.1)
  let failed := [Bit.busError, Bit.error, Bit.timeout, Bit.bufferEmpty, Bit.motionError].any
    (hasBit interrupt)
  { hardError := !hasBit interrupt Bit.ready || failed || hasBit errors 0 || hasBit errors 1
    refUsed := some (r.word 1 (Reg.refUsed - statisticsRange.1) &&& 0xffff) }

def alignmentFor (width : Nat) (layout : FrameLayout) : AlignmentClass :=
  match layout with
  | .compressed => .align64
  | .raster => if 1920 < width then .odd256 else .align16

end VideoAccel.Vdpu34x
