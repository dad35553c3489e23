import VideoAccel.Header.Avc
import VideoAccel.Strategy.Basic
import VideoAccel.Vdpu34x.Registers

namespace VideoAccel.Vdpu34x.Avc

open VideoAccel.Avc

def headerBits : Nat := 256

def refEntryBits : Nat := 20

def regions : List RegionFormula :=
  [{ id := .strmdRow, axis := .row, unit := 16, bytesPerUnit := 8, packed := true },
    { id := .transdRow, axis := .row, unit := 16, bytesPerUnit := 4, packed := true },
    { id := .interRow, axis := .row, unit := 16, bytesPerUnit := 32 },
    { id := .intraRow, axis := .row, unit := 16, bytesPerUnit := 24 },
    { id := .dblkRow, axis := .row, unit := 16, bytesPerUnit := 32, scaled := true },
    { id := .fbcRow, axis := .row, unit := 16, bytesPerUnit := 4, scaled := true }]

def motionStoreSize (picture : Picture) : Nat :=
  let (width, height) := picture.params.resolution.blocks 16
  alignUp (width * height * 16) 4096

def parameterFields (picture : Picture) (depths : UInt8 × UInt8) : List BitField :=
  let p := picture.params
  sizeFields p 16 ++ sequenceFields p depths ++ pictureSetFields p picture.scaling.isSome
    ++ currentFields p

def referenceWrites (p : Params) (outputSlot i : Nat) (r : RefFrame) (resolved : ResolvedRef) :
    List RegisterWrite :=
  let valid := resolved.valid
  [.word (Reg.refPoc + 2 * i) (if valid then r.topPoc else p.topPoc).toUInt32,
    .word (Reg.refPoc + 2 * i + 1) (if valid then r.bottomPoc else p.bottomPoc).toUInt32]
  ++ setRefInfo i
      { used := valid && (r.topUsed || r.bottomUsed), field := r.isSingleField
        longTerm := r.longTerm, invalid := !valid }
  ++ [setSameAsCurrent i (resolved.slot == outputSlot)]

def refEntryFields (r : RefFrame) (valid : Bool) (wrap : Int) : List BitField :=
  [.unsigned 16 (twosComplement 16 wrap),
    .flag r.longTerm,
    .flag r.topUsed,
    .flag r.bottomUsed,
    .flag valid]

def refSetTable (fields : List BitField) (size : Nat) : StepResult :=
  .ofExcept <|
    match (BitWriter.ofCapacity (refEntryBits * maxRefs)).putAll fields with
    | .error e => .error (.bits e)
    | .ok w => packedTable w size refSetOffset

def references (picture : Picture) (bind : Binding) (size : Nat) : StepResult :=
  let p := picture.params
  let entries := p.refs.toList.zip bind.refs
  match entries.mapM fun (r, _) => p.frameNumWrap r with
  | .error f => { failure := some (.fault f) }
  | .ok wraps =>
    let writes := (entries.mapIdx fun i (r, resolved) =>
        referenceWrites p bind.outputSlot i r resolved).flatten
      ++ [.word Reg.currentPoc p.topPoc.toUInt32,
        .word Reg.currentPocBottom p.bottomPoc.toUInt32]
    let fields := (entries.zip wraps).flatMap fun ((r, resolved), wrap) =>
      refEntryFields r resolved.valid wrap
    (refSetTable fields size).after (writes.map .register)

def tableBases (picture : Picture) : List (Nat × Nat) :=
  [(Reg.parameterBase, parameterOffset), (Reg.refSetBase, refSetOffset)]
    ++ if picture.scaling.isSome then [(Reg.scalingBase, scalingOffset)] else []

def step (s : GenerationStep) (picture : Picture) (bind : Binding) (size : Nat) : StepResult :=
  match s with
  | .parameters =>
    parameterTable picture.params bind size headerBits (parameterFields picture)
  | .references => references picture bind size
  | .tables => scalingEdits picture size
  | .addresses => { edits := addressEdits bind (tableBases picture) }
  | .geometry => { edits := geometryEdits bind modeAvc }

def strategy : Strategy Picture where
  standard := .avc
  generation := .vdpu34x
  format p := p.params.format
  referenceSlots p := p.params.referenceSlots
  regions := regions
  scratchPolicy := some .largestFirst
  motionStoreSize p := some (motionStoreSize p)
  step := step

end VideoAccel.Vdpu34x.Avc
