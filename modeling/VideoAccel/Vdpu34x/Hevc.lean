import VideoAccel.Header.Hevc
import VideoAccel.Strategy.Basic
import VideoAccel.Vdpu34x.Registers

namespace VideoAccel.Vdpu34x.Hevc

open VideoAccel.Hevc

def headerParts : List HeaderPart := [.current, .sequence, .pictureSet, .tiles]

def regions : List RegionFormula :=
  [{ id := .strmdRow, axis := .row, unit := 16, bytesPerUnit := 8, packed := true },
    { id := .transdRow, axis := .row, unit := 16, bytesPerUnit := 6, packed := true },
    { id := .transdCol, axis := .column, unit := 16, bytesPerUnit := 6 },
    { id := .interRow, axis := .row, unit := 16, bytesPerUnit := 24 },
    { id := .interCol, axis := .column, unit := 16, bytesPerUnit := 24 },
    { id := .intraRow, axis := .row, unit := 16, bytesPerUnit := 32 },
    { id := .dblkRow, axis := .row, unit := 16, bytesPerUnit := 48, scaled := true },
    { id := .saoRow, axis := .row, unit := 16, bytesPerUnit := 24, scaled := true },
    { id := .fbcRow, axis := .row, unit := 16, bytesPerUnit := 8, scaled := true },
    { id := .filtCol, axis := .column, unit := 16, bytesPerUnit := 48, scaled := true }]

def scratchOrder : List RegionId :=
  [.intraRow, .transdRow, .strmdRow, .interRow, .dblkRow, .saoRow, .fbcRow, .transdCol, .interCol,
    .filtCol]

def motionStoreSize (picture : Picture) : Nat :=
  let r := picture.params.resolution
  alignUp r.width 64 / 16 * (alignUp r.height 64 / 16) * 16

def referenceWrites (p : Params) (outputSlot i : Nat) (r : RefPicture) (resolved : ResolvedRef) :
    List RegisterWrite :=
  let valid := resolved.valid
  .word (Reg.refPoc + i) (if valid then r.poc else p.currentPoc).toUInt32 ::
    setRefInfo i { used := valid, longTerm := r.longTerm, invalid := !valid }
    ++ [setSameAsCurrent i (resolved.slot == outputSlot)]

def references (picture : Picture) (bind : Binding) (size : Nat) : StepResult :=
  let p := picture.params
  let writes := ((p.refs.toList.zip bind.refs).mapIdx fun i (r, resolved) =>
      referenceWrites p bind.outputSlot i r resolved).flatten
    ++ [.word Reg.currentPoc p.currentPoc.toUInt32]
  (refSetTable p bind.refs size).after (writes.map .register)

def tableBases (picture : Picture) : List (Nat × Nat) :=
  [(Reg.parameterBase, parameterOffset), (Reg.refSetBase, refSetOffset)]
    ++ if picture.activeScaling.isSome then [(Reg.scalingBase, scalingOffset)] else []

def step (s : GenerationStep) (picture : Picture) (bind : Binding) (size : Nat) : StepResult :=
  match s with
  | .parameters => parameterTable picture.params bind size headerParts
  | .references => references picture bind size
  | .tables => scalingEdits picture size
  | .addresses => { edits := addressEdits bind (tableBases picture) }
  | .geometry => { edits := geometryEdits bind modeHevc }

def strategy : Strategy Picture where
  standard := .hevc
  generation := .vdpu34x
  format p := p.params.format
  referenceSlots p := p.params.referenceSlots
  regions := regions
  scratchPolicy := some (.priority scratchOrder)
  motionStoreSize p := some (motionStoreSize p)
  step := step

end VideoAccel.Vdpu34x.Hevc
