import VideoAccel.Emission
import VideoAccel.Picture.Avc

namespace VideoAccel.Avc

def sequenceFields (p : Params) (depths : UInt8 × UInt8) : List BitField :=
  [.unsigned 8 p.profileIdc.toNat,
    .flag p.constraintSet3Flag,
    .unsigned 2 p.chromaFormatIdc.toNat,
    .unsigned 3 depths.1.toNat,
    .unsigned 3 depths.2.toNat,
    .flag p.qpprimeYZeroTransformBypassFlag,
    .unsigned 4 p.log2MaxFrameNumMinus4.toNat,
    .unsigned 5 p.maxNumRefFrames.toNat,
    .unsigned 2 p.picOrderCntType.toNat,
    .unsigned 4 p.log2MaxPicOrderCntLsbMinus4.toNat,
    .flag p.deltaPicOrderAlwaysZeroFlag,
    .flag p.frameMbsOnlyFlag,
    .flag p.mbAdaptiveFrameFieldFlag,
    .flag p.direct8x8InferenceFlag]

def sizeFields (p : Params) (bits : Nat) : List BitField :=
  [.unsigned bits p.picWidthInMbsMinus1.toNat, .unsigned bits p.frameHeightInMbsMinus1.toNat]

def pictureSetFields (p : Params) (hasScaling : Bool) : List BitField :=
  [.flag p.entropyCodingModeFlag,
    .flag p.bottomFieldPicOrderInFramePresentFlag,
    .unsigned 5 p.numRefIdxL0DefaultActiveMinus1.toNat,
    .unsigned 5 p.numRefIdxL1DefaultActiveMinus1.toNat,
    .flag p.weightedPredFlag,
    .unsigned 2 p.weightedBipredIdc.toNat,
    .signed 7 p.picInitQpMinus26.toInt,
    .signed 6 p.picInitQsMinus26.toInt,
    .signed 5 p.chromaQpIndexOffset.toInt,
    .signed 5 p.secondChromaQpIndexOffset.toInt,
    .flag p.deblockingFilterControlPresentFlag,
    .flag p.constrainedIntraPredFlag,
    .flag p.redundantPicCntPresentFlag,
    .flag p.transform8x8ModeFlag,
    .flag hasScaling]

def currentFields (p : Params) : List BitField :=
  [.flag p.fieldPicFlag,
    .flag p.bottomFieldFlag,
    .flag p.mbaffFrameFlag,
    .flag p.isReference,
    .flag p.idrPicFlag,
    .unsigned 16 p.frameNum.toNat,
    .signed 32 p.topPoc.toInt,
    .signed 32 p.bottomPoc.toInt]

def parameterTable (p : Params) (bind : Binding) (size capacity : Nat)
    (fields : UInt8 × UInt8 → List BitField) : StepResult :=
  .ofExcept <|
    match bind.headerDepths p.bitDepthLumaMinus8 p.bitDepthChromaMinus8 with
    | .error f => .error (.fault f)
    | .ok depths =>
      match (BitWriter.ofCapacity capacity).putAll (fields depths) with
      | .error e => .error (.bits e)
      | .ok w => packedTable w size parameterOffset

def scalingEdits (picture : Picture) (size : Nat) : StepResult :=
  match picture.scaling with
  | none => {}
  | some lists => .ofExcept (scalingTable lists.bytes size)

end VideoAccel.Avc
