import VideoAccel.Picture.Format

namespace VideoAccel.Avc

structure RefFrame where
  slot : Option Nat := none
  longTerm : Bool := false
  frameIdx : UInt16 := 0
  topPoc : Int32 := 0
  bottomPoc : Int32 := 0
  topUsed : Bool := false
  bottomUsed : Bool := false
  nonExisting : Bool := false
  deriving DecidableEq, Repr

namespace RefFrame

instance : Inhabited RefFrame := ⟨{}⟩

def isSingleField (r : RefFrame) : Bool := r.topUsed != r.bottomUsed

end RefFrame

def maxRefs : Nat := 16

structure Params where
  profileIdc : UInt8 := 100
  constraintSet3Flag : Bool := false
  chromaFormatIdc : UInt8 := 1
  bitDepthLumaMinus8 : UInt8 := 0
  bitDepthChromaMinus8 : UInt8 := 0
  qpprimeYZeroTransformBypassFlag : Bool := false
  log2MaxFrameNumMinus4 : UInt8 := 0
  maxNumRefFrames : UInt8 := 0
  picOrderCntType : UInt8 := 0
  log2MaxPicOrderCntLsbMinus4 : UInt8 := 0
  deltaPicOrderAlwaysZeroFlag : Bool := false
  picWidthInMbsMinus1 : UInt16 := 0
  frameHeightInMbsMinus1 : UInt16 := 0
  frameMbsOnlyFlag : Bool := true
  mbAdaptiveFrameFieldFlag : Bool := false
  direct8x8InferenceFlag : Bool := true
  entropyCodingModeFlag : Bool := false
  bottomFieldPicOrderInFramePresentFlag : Bool := false
  numRefIdxL0DefaultActiveMinus1 : UInt8 := 0
  numRefIdxL1DefaultActiveMinus1 : UInt8 := 0
  weightedPredFlag : Bool := false
  weightedBipredIdc : UInt8 := 0
  picInitQpMinus26 : Int8 := 0
  picInitQsMinus26 : Int8 := 0
  chromaQpIndexOffset : Int8 := 0
  secondChromaQpIndexOffset : Int8 := 0
  deblockingFilterControlPresentFlag : Bool := false
  constrainedIntraPredFlag : Bool := false
  redundantPicCntPresentFlag : Bool := false
  transform8x8ModeFlag : Bool := false
  fieldPicFlag : Bool := false
  bottomFieldFlag : Bool := false
  isReference : Bool := true
  idrPicFlag : Bool := false
  frameNum : UInt16 := 0
  topPoc : Int32 := 0
  bottomPoc : Int32 := 0
  refs : Vector RefFrame maxRefs := Vector.replicate maxRefs {}
  deriving DecidableEq, Repr

namespace Params

def resolution (p : Params) : Resolution :=
  ⟨(p.picWidthInMbsMinus1.toNat + 1) * 16, (p.frameHeightInMbsMinus1.toNat + 1) * 16⟩

def bitDepth (p : Params) : Except Fault UInt8 :=
  bitDepthOf p.bitDepthLumaMinus8 p.bitDepthChromaMinus8

def chroma (p : Params) : ChromaFormat := chromaOfCode p.chromaFormatIdc

def maxFrameNum (p : Params) : Except Fault Nat :=
  if p.log2MaxFrameNumMinus4.toNat + 4 < 32 then .ok (Nat.pow 2 (p.log2MaxFrameNumMinus4.toNat + 4))
  else .error .overflow

def mbaffFrameFlag (p : Params) : Bool := p.mbAdaptiveFrameFieldFlag && !p.fieldPicFlag

/-- The frame number of a reference relative to the current one: a short-term reference with a
larger number was coded before the counter wrapped. The difference has to be a 32-bit integer. -/
def frameNumWrap (p : Params) (r : RefFrame) : Except Fault Int :=
  if r.longTerm then .ok r.frameIdx.toNat
  else if p.frameNum < r.frameIdx then
    match p.maxFrameNum with
    | .error f => .error f
    | .ok n => if n < Nat.pow 2 31 then .ok (r.frameIdx.toNat - n) else .error .overflow
  else .ok r.frameIdx.toNat

/-- The slot that a reference names; a non-existing frame has none. -/
def referenceSlots (p : Params) : List (Option Nat) :=
  p.refs.toList.map fun r => if r.nonExisting then none else r.slot

def format (p : Params) : Except Fault PictureFormat :=
  match p.bitDepth with
  | .error f => .error f
  | .ok bitDepth => .ok ⟨p.resolution, bitDepth, p.chroma⟩

end Params

structure ScalingLists where
  list4x4 : Vector (Vector UInt8 16) 6 := Vector.replicate 6 (Vector.replicate 16 16)
  list8x8 : Vector (Vector UInt8 64) 6 := Vector.replicate 6 (Vector.replicate 64 16)
  deriving DecidableEq, Repr

/-- The lists in the order in which the hardware reads them. -/
def ScalingLists.bytes (s : ScalingLists) : List UInt8 :=
  s.list4x4.toList.flatMap (·.toList) ++ s.list8x8.toList.flatMap (·.toList)

def ScalingLists.ofBytes (byte : Nat → UInt8) : ScalingLists :=
  { list4x4 := Vector.ofFn fun i => Vector.ofFn fun j => byte (16 * i + j)
    list8x8 := Vector.ofFn fun i => Vector.ofFn fun j => byte (96 + 64 * i + j) }

structure Picture where
  params : Params := {}
  scaling : Option ScalingLists := none
  deriving DecidableEq, Repr

end VideoAccel.Avc
