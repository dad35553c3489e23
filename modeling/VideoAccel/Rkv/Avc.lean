import VideoAccel.Header.Avc
import VideoAccel.Rkv.Registers
import VideoAccel.Strategy.Basic

namespace VideoAccel.Rkv.Avc

open VideoAccel.Avc

def headerBits : Nat := 192

def refFlagsBits : Nat := 64

def refFlagsOffset : Nat := parameterOffset + headerBits / 8

def parameterFields (picture : Picture) (depths : UInt8 × UInt8) : List BitField :=
  let p := picture.params
  sequenceFields p depths ++ sizeFields p 9 ++ pictureSetFields p picture.scaling.isSome
    ++ currentFields p

def referenceWrites (p : Params) (i : Nat) (r : RefFrame) (valid : Bool) (wrap : Int) :
    List RegisterWrite :=
  [.word (Reg.refPocTop + i) (if valid then r.topPoc else p.topPoc).toUInt32,
    .word (Reg.refPocBottom + i) (if valid then r.bottomPoc else p.bottomPoc).toUInt32,
    setRefInfo i
      { topUsed := valid && r.topUsed, bottomUsed := valid && r.bottomUsed
        longTerm := r.longTerm, invalid := !valid },
    setFrameNumWrap i wrap]

def singleFieldBits (refs : List RefFrame) : Nat :=
  refs.foldr (fun r bits => r.isSingleField.toNat + 2 * bits) 0

def refFlagFields (refs : List RefFrame) : List BitField :=
  (refs.map fun r => .flag r.longTerm) ++ [.unsigned 16 (singleFieldBits refs)]

def refFlagsTable (refs : List RefFrame) (size : Nat) : StepResult :=
  .ofExcept <|
    match (BitWriter.ofCapacity refFlagsBits).putAll (refFlagFields refs) with
    | .error e => .error (.bits e)
    | .ok w => packedTable w size refFlagsOffset

def references (picture : Picture) (bind : Binding) (size : Nat) : StepResult :=
  let p := picture.params
  let entries := p.refs.toList.zip bind.refs
  match entries.mapM fun (r, _) => p.frameNumWrap r with
  | .error f => { failure := some (.fault f) }
  | .ok wraps =>
    let writes := ((entries.zip wraps).mapIdx fun i ((r, resolved), wrap) =>
        referenceWrites p i r resolved.valid wrap).flatten
      ++ [.word Reg.currentPocTop p.topPoc.toUInt32,
        .word Reg.currentPocBottom p.bottomPoc.toUInt32]
    (refFlagsTable (entries.map (·.1)) size).after (writes.map .register)

def tableBases (picture : Picture) : List (Nat × Nat) :=
  (Reg.parameterBase, parameterOffset) ::
    if picture.scaling.isSome then [(Reg.scalingBase, scalingOffset)] else []

def step (s : GenerationStep) (picture : Picture) (bind : Binding) (size : Nat) : StepResult :=
  match s with
  | .parameters =>
    parameterTable picture.params bind size headerBits (parameterFields picture)
  | .references => references picture bind size
  | .tables => scalingEdits picture size
  | .addresses => { edits := addressEdits bind (tableBases picture) }
  | .geometry => { edits := (geometryWrites bind.output modeAvc).map .register }

def strategy : Strategy Picture where
  standard := .avc
  generation := .rkv
  format p := p.params.format
  referenceSlots p := p.params.referenceSlots
  step := step

end VideoAccel.Rkv.Avc
