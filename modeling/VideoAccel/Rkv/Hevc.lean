import VideoAccel.Header.Hevc
import VideoAccel.Rkv.Registers
import VideoAccel.Strategy.Basic

namespace VideoAccel.Rkv.Hevc

open VideoAccel.Hevc

def headerParts : List HeaderPart := [.sequence, .pictureSet, .tiles, .current]

def referenceWrites (p : Params) (i : Nat) (r : RefPicture) (valid : Bool) : List RegisterWrite :=
  [.word (Reg.refPocTop + i) (if valid then r.poc else p.currentPoc).toUInt32,
    setRefInfo i
      { topUsed := valid, bottomUsed := valid, longTerm := r.longTerm, invalid := !valid }]

def references (picture : Picture) (bind : Binding) (size : Nat) : StepResult :=
  let p := picture.params
  let writes := ((p.refs.toList.zip bind.refs).mapIdx fun i (r, resolved) =>
      referenceWrites p i r resolved.valid).flatten
    ++ [.word Reg.currentPocTop p.currentPoc.toUInt32]
  (refSetTable p bind.refs size).after (writes.map .register)

def tableBases (picture : Picture) : List (Nat × Nat) :=
  [(Reg.parameterBase, parameterOffset), (Reg.refSetBase, refSetOffset)]
    ++ if picture.activeScaling.isSome then [(Reg.scalingBase, scalingOffset)] else []

def step (s : GenerationStep) (picture : Picture) (bind : Binding) (size : Nat) : StepResult :=
  match s with
  | .parameters => parameterTable picture.params bind size headerParts
  | .references => references picture bind size
  | .tables => scalingEdits picture size
  | .addresses => { edits := addressEdits bind (tableBases picture) }
  | .geometry => { edits := (geometryWrites bind.output modeHevc).map .register }

def strategy : Strategy Picture where
  standard := .hevc
  generation := .rkv
  format p := p.params.format
  referenceSlots p := p.params.referenceSlots
  step := step

end VideoAccel.Rkv.Hevc
