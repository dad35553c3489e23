import VideoAccel.Picture.Format

namespace VideoAccel.Hevc

structure RefPicture where
  slot : Option Nat := none
  poc : Int32 := 0
  longTerm : Bool := false
  deriving DecidableEq, Repr

instance : Inhabited RefPicture := ⟨{}⟩

def maxRefs : Nat := 15

def maxListEntries : Nat := 8

def maxTileColumns : Nat := 20

def maxTileRows : Nat := 22

abbrev RefList := Vector (Option UInt8) maxListEntries

structure Params where
  chromaFormatIdc : UInt8 := 1
  picWidthInLumaSamples : UInt16 := 0
  picHeightInLumaSamples : UInt16 := 0
  bitDepthLumaMinus8 : UInt8 := 0
  bitDepthChromaMinus8 : UInt8 := 0
  log2MaxPicOrderCntLsbMinus4 : UInt8 := 4
  log2MinLumaCodingBlockSizeMinus3 : UInt8 := 0
  log2DiffMaxMinLumaCodingBlockSize : UInt8 := 3
  log2MinTransformBlockSizeMinus2 : UInt8 := 0
  log2DiffMaxMinTransformBlockSize : UInt8 := 3
  maxTransformHierarchyDepthInter : UInt8 := 0
  maxTransformHierarchyDepthIntra : UInt8 := 0
  scalingListEnabledFlag : Bool := false
  ampEnabledFlag : Bool := false
  sampleAdaptiveOffsetEnabledFlag : Bool := false
  pcmEnabledFlag : Bool := false
  pcmSampleBitDepthLumaMinus1 : UInt8 := 7
  pcmSampleBitDepthChromaMinus1 : UInt8 := 7
  log2MinPcmLumaCodingBlockSizeMinus3 : UInt8 := 0
  log2DiffMaxMinPcmLumaCodingBlockSize : UInt8 := 0
  pcmLoopFilterDisabledFlag : Bool := false
  numShortTermRefPicSets : UInt8 := 0
  longTermRefPicsPresentFlag : Bool := false
  numLongTermRefPicsSps : UInt8 := 0
  spsTemporalMvpEnabledFlag : Bool := false
  strongIntraSmoothingEnabledFlag : Bool := false
  dependentSliceSegmentsEnabledFlag : Bool := false
  outputFlagPresentFlag : Bool := false
  numExtraSliceHeaderBits : UInt8 := 0
  signDataHidingEnabledFlag : Bool := false
  cabacInitPresentFlag : Bool := false
  numRefIdxL0DefaultActiveMinus1 : UInt8 := 0
  numRefIdxL1DefaultActiveMinus1 : UInt8 := 0
  initQpMinus26 : Int8 := 0
  constrainedIntraPredFlag : Bool := false
  transformSkipEnabledFlag : Bool := false
  cuQpDeltaEnabledFlag : Bool := false
  diffCuQpDeltaDepth : UInt8 := 0
  ppsCbQpOffset : Int8 := 0
  ppsCrQpOffset : Int8 := 0
  ppsSliceChromaQpOffsetsPresentFlag : Bool := false
  weightedPredFlag : Bool := false
  weightedBipredFlag : Bool := false
  transquantBypassEnabledFlag : Bool := false
  tilesEnabledFlag : Bool := false
  entropyCodingSyncEnabledFlag : Bool := false
  ppsLoopFilterAcrossSlicesEnabledFlag : Bool := false
  loopFilterAcrossTilesEnabledFlag : Bool := false
  deblockingFilterOverrideEnabledFlag : Bool := false
  ppsDeblockingFilterDisabledFlag : Bool := false
  ppsBetaOffsetDiv2 : Int8 := 0
  ppsTcOffsetDiv2 : Int8 := 0
  listsModificationPresentFlag : Bool := false
  log2ParallelMergeLevelMinus2 : UInt8 := 0
  sliceSegmentHeaderExtensionPresentFlag : Bool := false
  numTileColumnsMinus1 : UInt8 := 0
  numTileRowsMinus1 : UInt8 := 0
  uniformSpacingFlag : Bool := true
  columnWidthMinus1 : Vector UInt16 maxTileColumns := Vector.replicate maxTileColumns 0
  rowHeightMinus1 : Vector UInt16 maxTileRows := Vector.replicate maxTileRows 0
  irapPic : Bool := false
  idrPic : Bool := false
  currentPoc : Int32 := 0
  refs : Vector RefPicture maxRefs := Vector.replicate maxRefs {}
  stCurrBefore : RefList := Vector.replicate maxListEntries none
  stCurrAfter : RefList := Vector.replicate maxListEntries none
  ltCurr : RefList := Vector.replicate maxListEntries none
  deriving DecidableEq, Repr

/-- The sizes of `count` tiles over `total` blocks. With uniform spacing the borders are the
rounded-down fractions of the total. Otherwise all sizes but the last are given, and the last
tile takes what is left. -/
def tileSizes (total count : Nat) (uniform : Bool) (explicitMinus1 : List UInt16) : List Nat :=
  if uniform then
    (List.range count).map fun i => (i + 1) * total / count - i * total / count
  else
    let sizes := (explicitMinus1.take (count - 1)).map fun s => s.toNat + 1
    sizes ++ [total - sizes.foldr (· + ·) 0]

namespace Params

def resolution (p : Params) : Resolution :=
  ⟨p.picWidthInLumaSamples.toNat, p.picHeightInLumaSamples.toNat⟩

def bitDepth (p : Params) : Except Fault UInt8 :=
  bitDepthOf p.bitDepthLumaMinus8 p.bitDepthChromaMinus8

def chroma (p : Params) : ChromaFormat := chromaOfCode p.chromaFormatIdc

def ctbLog2Size (p : Params) : Nat :=
  p.log2MinLumaCodingBlockSizeMinus3.toNat + 3 + p.log2DiffMaxMinLumaCodingBlockSize.toNat

/-- The size in coding tree blocks, whose side has to be a word of 32 bits. -/
def sizeInCtbs (p : Params) : Except Fault (Nat × Nat) :=
  if p.ctbLog2Size < 32 then .ok (p.resolution.blocks (Nat.pow 2 p.ctbLog2Size)) else .error .overflow

def tileColumns (p : Params) (width : Nat) : List Nat :=
  tileSizes width (p.numTileColumnsMinus1.toNat + 1) p.uniformSpacingFlag p.columnWidthMinus1.toList

def tileRows (p : Params) (height : Nat) : List Nat :=
  tileSizes height (p.numTileRowsMinus1.toNat + 1) p.uniformSpacingFlag p.rowHeightMinus1.toList

/-- Tile widths and heights in coding tree blocks, as the tile parameters divide the picture. -/
def tileGrid (p : Params) : Except Fault (List Nat × List Nat) :=
  match p.sizeInCtbs with
  | .error f => .error f
  | .ok (width, height) => .ok (p.tileColumns width, p.tileRows height)

def referenceSlots (p : Params) : List (Option Nat) := p.refs.toList.map (·.slot)

def refLists (p : Params) : List (List (Option UInt8)) :=
  [p.stCurrBefore.toList, p.stCurrAfter.toList, p.ltCurr.toList]

def format (p : Params) : Except Fault PictureFormat :=
  match p.bitDepth with
  | .error f => .error f
  | .ok bitDepth => .ok ⟨p.resolution, bitDepth, p.chroma⟩

end Params

structure ScalingLists where
  list4x4 : Vector (Vector UInt8 16) 6 := Vector.replicate 6 (Vector.replicate 16 16)
  list8x8 : Vector (Vector UInt8 64) 6 := Vector.replicate 6 (Vector.replicate 64 16)
  list16x16 : Vector (Vector UInt8 64) 6 := Vector.replicate 6 (Vector.replicate 64 16)
  list32x32 : Vector (Vector UInt8 64) 2 := Vector.replicate 2 (Vector.replicate 64 16)
  dc16x16 : Vector UInt8 6 := Vector.replicate 6 16
  dc32x32 : Vector UInt8 2 := Vector.replicate 2 16
  deriving DecidableEq, Repr

/-- The lists in the order in which the hardware reads them. -/
def ScalingLists.bytes (s : ScalingLists) : List UInt8 :=
  s.list4x4.toList.flatMap (·.toList) ++ s.list8x8.toList.flatMap (·.toList)
    ++ s.list16x16.toList.flatMap (·.toList) ++ s.list32x32.toList.flatMap (·.toList)
    ++ s.dc16x16.toList ++ s.dc32x32.toList

def ScalingLists.ofBytes (byte : Nat → UInt8) : ScalingLists :=
  { list4x4 := Vector.ofFn fun i => Vector.ofFn fun j => byte (16 * i + j)
    list8x8 := Vector.ofFn fun i => Vector.ofFn fun j => byte (96 + 64 * i + j)
    list16x16 := Vector.ofFn fun i => Vector.ofFn fun j => byte (480 + 64 * i + j)
    list32x32 := Vector.ofFn fun i => Vector.ofFn fun j => byte (864 + 64 * i + j)
    dc16x16 := Vector.ofFn fun j => byte (992 + j)
    dc32x32 := Vector.ofFn fun j => byte (998 + j) }

structure Picture where
  params : Params := {}
  scaling : Option ScalingLists := none
  deriving DecidableEq, Repr

def Picture.activeScaling (p : Picture) : Option ScalingLists :=
  if p.params.scalingListEnabledFlag then p.scaling else none

end VideoAccel.Hevc
