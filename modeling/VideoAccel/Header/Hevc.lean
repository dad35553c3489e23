import VideoAccel.Emission
import VideoAccel.Picture.Hevc

namespace VideoAccel.Hevc

def headerBits : Nat := 1024

def refSetBits : Nat := 192

def sequenceFields (p : Params) (depths : UInt8 × UInt8) : List BitField :=
  [.unsigned 2 p.chromaFormatIdc.toNat,
    .unsigned 16 p.picWidthInLumaSamples.toNat,
    .unsigned 16 p.picHeightInLumaSamples.toNat,
    .unsigned 3 depths.1.toNat,
    .unsigned 3 depths.2.toNat,
    .unsigned 4 p.log2MaxPicOrderCntLsbMinus4.toNat,
    .unsigned 2 p.log2MinLumaCodingBlockSizeMinus3.toNat,
    .unsigned 2 p.log2DiffMaxMinLumaCodingBlockSize.toNat,
    .unsigned 2 p.log2MinTransformBlockSizeMinus2.toNat,
    .unsigned 2 p.log2DiffMaxMinTransformBlockSize.toNat,
    .unsigned 3 p.maxTransformHierarchyDepthInter.toNat,
    .unsigned 3 p.maxTransformHierarchyDepthIntra.toNat,
    .flag p.scalingListEnabledFlag,
    .flag p.ampEnabledFlag,
    .flag p.sampleAdaptiveOffsetEnabledFlag,
    .flag p.pcmEnabledFlag,
    .unsigned 4 p.pcmSampleBitDepthLumaMinus1.toNat,
    .unsigned 4 p.pcmSampleBitDepthChromaMinus1.toNat,
    .unsigned 2 p.log2MinPcmLumaCodingBlockSizeMinus3.toNat,
    .unsigned 2 p.log2DiffMaxMinPcmLumaCodingBlockSize.toNat,
    .flag p.pcmLoopFilterDisabledFlag,
    .unsigned 7 p.numShortTermRefPicSets.toNat,
    .flag p.longTermRefPicsPresentFlag,
    .unsigned 6 p.numLongTermRefPicsSps.toNat,
    .flag p.spsTemporalMvpEnabledFlag,
    .flag p.strongIntraSmoothingEnabledFlag]

def pictureSetFields (p : Params) : List BitField :=
  [.flag p.dependentSliceSegmentsEnabledFlag,
    .flag p.outputFlagPresentFlag,
    .unsigned 3 p.numExtraSliceHeaderBits.toNat,
    .flag p.signDataHidingEnabledFlag,
    .flag p.cabacInitPresentFlag,
    .unsigned 4 p.numRefIdxL0DefaultActiveMinus1.toNat,
    .unsigned 4 p.numRefIdxL1DefaultActiveMinus1.toNat,
    .signed 7 p.initQpMinus26.toInt,
    .flag p.constrainedIntraPredFlag,
    .flag p.transformSkipEnabledFlag,
    .flag p.cuQpDeltaEnabledFlag,
    .unsigned 2 p.diffCuQpDeltaDepth.toNat,
    .signed 5 p.ppsCbQpOffset.toInt,
    .signed 5 p.ppsCrQpOffset.toInt,
    .flag p.ppsSliceChromaQpOffsetsPresentFlag,
    .flag p.weightedPredFlag,
    .flag p.weightedBipredFlag,
    .flag p.transquantBypassEnabledFlag,
    .flag p.tilesEnabledFlag,
    .flag p.entropyCodingSyncEnabledFlag,
    .flag p.ppsLoopFilterAcrossSlicesEnabledFlag,
    .flag p.loopFilterAcrossTilesEnabledFlag,
    .flag p.deblockingFilterOverrideEnabledFlag,
    .flag p.ppsDeblockingFilterDisabledFlag,
    .signed 4 p.ppsBetaOffsetDiv2.toInt,
    .signed 4 p.ppsTcOffsetDiv2.toInt,
    .flag p.listsModificationPresentFlag,
    .unsigned 3 p.log2ParallelMergeLevelMinus2.toNat,
    .flag p.sliceSegmentHeaderExtensionPresentFlag,
    .unsigned 5 p.numTileColumnsMinus1.toNat,
    .unsigned 5 p.numTileRowsMinus1.toNat]

def headerTiles (p : Params) : Except Fault (List Nat × List Nat) :=
  if p.tilesEnabledFlag then p.tileGrid
  else
    match p.sizeInCtbs with
    | .error f => .error f
    | .ok (width, height) => .ok ([width], [height])

def sizeFields (sizes : List Nat) (count : Nat) : List BitField :=
  (List.range count).map fun i => .unsigned 12 (sizes.getD i 0)

def tileFields (p : Params) : Except StepError (List BitField) :=
  match headerTiles p with
  | .error f => .error (.fault f)
  | .ok (columns, rows) =>
    if maxTileColumns < columns.length ∨ maxTileRows < rows.length then
      .error (.tooManyTiles columns.length rows.length)
    else .ok (sizeFields columns maxTileColumns ++ sizeFields rows maxTileRows)

def currentFields (p : Params) : List BitField :=
  [.flag p.irapPic, .flag p.idrPic, .signed 32 p.currentPoc.toInt]

inductive HeaderPart
  | sequence
  | pictureSet
  | tiles
  | current
  deriving DecidableEq, Repr

def HeaderPart.fields (p : Params) (bind : Binding) : HeaderPart → Except StepError (List BitField)
  | .sequence =>
    match bind.headerDepths p.bitDepthLumaMinus8 p.bitDepthChromaMinus8 with
    | .error f => .error (.fault f)
    | .ok depths => .ok (sequenceFields p depths)
  | .pictureSet => .ok (pictureSetFields p)
  | .tiles => tileFields p
  | .current => .ok (currentFields p)

/-- The parts one after the other. A part is packed before the next one is looked at. -/
def packParts (p : Params) (bind : Binding) (w : BitWriter) :
    List HeaderPart → Except StepError BitWriter
  | [] => .ok w
  | part :: rest =>
    match part.fields p bind with
    | .error e => .error e
    | .ok fields =>
      match w.putAll fields with
      | .error e => .error (.bits e)
      | .ok w => packParts p bind w rest

def parameterTable (p : Params) (bind : Binding) (size : Nat) (parts : List HeaderPart) :
    StepResult :=
  .ofExcept <|
    match packParts p bind (.ofCapacity headerBits) parts with
    | .error e => .error e
    | .ok w => packedTable w size parameterOffset

def noReference : UInt8 := 15

def isMissing (p : Params) (refs : List ResolvedRef) (i : Nat) : Bool :=
  p.refLists.any (fun list => list.any fun entry => entry.any fun e => e.toNat == i)
    && !((refs[i]?).any fun r => r.valid)

def missingBits (p : Params) (refs : List ResolvedRef) : Nat :=
  (List.range maxRefs).foldr (fun i bits => (isMissing p refs i).toNat + 2 * bits) 0

/-- The reference picture set: how many entries each list has before its first gap, all entries,
which references are long-term, and which are missing. -/
def refSetFields (p : Params) (refs : List ResolvedRef) : List BitField :=
  (p.refLists.map fun list => .unsigned 4 (list.takeWhile (·.isSome)).length)
    ++ (p.refLists.flatMap fun list => list.map fun e => .unsigned 4 (e.getD noReference).toNat)
    ++ (p.refs.toList.map fun r => .flag r.longTerm)
    ++ [.unsigned maxRefs (missingBits p refs)]

def refSetTable (p : Params) (refs : List ResolvedRef) (size : Nat) : StepResult :=
  .ofExcept <|
    match (BitWriter.ofCapacity refSetBits).putAll (refSetFields p refs) with
    | .error e => .error (.bits e)
    | .ok w => packedTable w size refSetOffset

def scalingEdits (picture : Picture) (size : Nat) : StepResult :=
  match picture.activeScaling with
  | none => {}
  | some lists => .ofExcept (scalingTable lists.bytes size)

end VideoAccel.Hevc
