import VideoAccel.Proofs.Header.Format

namespace VideoAccel

open BitField

/-- A syntax element of a packed header: the bit of its part at which its field starts, how the
field is read, and the value that the element has. -/
structure HeaderElement where
  position : Nat
  shape : FieldShape
  value : Int
  deriving DecidableEq, Repr

namespace HeaderElement

/-- The value is one that the field can hold. -/
def Fits (x : HeaderElement) : Prop :=
  match x.shape with
  | .unsigned bits => 0 ≤ x.value ∧ x.value < (2 ^ bits : Nat)
  | .signed bits => -(2 ^ (bits - 1) : Nat) ≤ x.value ∧ x.value < (2 ^ (bits - 1) : Nat)
  | .flag => x.value = 0 ∨ x.value = 1

/-- The value as an error shows it. -/
def shown (x : HeaderElement) : Int :=
  match x.shape with
  | .unsigned _ => signed64 x.value.toNat
  | .signed _ | .flag => x.value

instance (x : HeaderElement) : Decidable x.Fits :=
  match hx : x.shape with
  | .unsigned bits =>
    decidable_of_iff (0 ≤ x.value ∧ x.value < (2 ^ bits : Nat)) (by rw [Fits, hx])
  | .signed bits =>
    decidable_of_iff (-(2 ^ (bits - 1) : Nat) ≤ x.value ∧ x.value < (2 ^ (bits - 1) : Nat))
      (by rw [Fits, hx])
  | .flag => decidable_of_iff (x.value = 0 ∨ x.value = 1) (by rw [Fits, hx])

/-- The value at the place of the element, in a header whose part starts at `start`. -/
def readFrom (x : HeaderElement) (start header : Nat) : Int :=
  x.shape.read (header >>> (start + x.position))

/-- Each element starts where the one before it ends. -/
def consecutive (start : Nat) : List HeaderElement → Bool
  | [] => true
  | x :: xs => x.position == start && consecutive (start + x.shape.width) xs

theorem readAll_of_consecutive {xs : List HeaderElement} {offset : Nat}
    (h : consecutive offset xs = true) (start header : Nat) :
    FieldShape.readAll (xs.map shape) (header >>> (start + offset)) =
      xs.map fun x => x.readFrom start header := by
  induction xs generalizing offset with
  | nil => rfl
  | cons x xs ih =>
    rw [consecutive, Bool.and_eq_true, beq_iff_eq] at h
    obtain ⟨hposition, hrest⟩ := h
    rw [List.map_cons, List.map_cons, FieldShape.readAll, ← Nat.shiftRight_add, Nat.add_assoc,
      ih hrest, readFrom, hposition]

theorem eq_of_consecutive {xs ys : List HeaderElement} {offset : Nat}
    (hxs : consecutive offset xs = true) (hys : consecutive offset ys = true)
    (hshapes : xs.map shape = ys.map shape) (hvalues : xs.map value = ys.map value) : xs = ys := by
  induction xs generalizing ys offset with
  | nil => exact (List.map_eq_nil_iff.1 hshapes.symm).symm
  | cons x xs ih =>
    cases ys with
    | nil => cases hshapes
    | cons y ys =>
      simp only [List.map_cons, List.cons.injEq] at hshapes hvalues
      obtain ⟨hshape, hshapes⟩ := hshapes
      obtain ⟨hvalue, hvalues⟩ := hvalues
      rw [consecutive, Bool.and_eq_true, beq_iff_eq] at hxs hys
      obtain ⟨hx, hxs⟩ := hxs
      obtain ⟨hy, hys⟩ := hys
      rw [← hshape] at hys
      obtain ⟨position, shape, value⟩ := x
      obtain ⟨position', shape', value'⟩ := y
      rw [ih hxs hys hshapes hvalues]
      obtain rfl : position = position' := hx.trans hy.symm
      obtain rfl : shape = shape' := hshape
      obtain rfl : value = value' := hvalue
      rfl

theorem consecutive_append (offset : Nat) (xs ys : List HeaderElement) :
    consecutive offset (xs ++ ys) =
      (consecutive offset xs && consecutive (offset + FieldShape.totalWidth (xs.map shape)) ys) := by
  induction xs generalizing offset with
  | nil => rfl
  | cons x xs ih =>
    rw [List.cons_append, consecutive, consecutive, ih, Bool.and_assoc, Nat.add_assoc]
    rfl

theorem consecutive_map_range (offset count width : Nat) (v : Nat → Int) :
    consecutive offset
      ((List.range count).map fun i => ⟨offset + width * i, .unsigned width, v i⟩) = true := by
  induction count generalizing offset v with
  | zero => rfl
  | succ count ih =>
    have hrest : ∀ i, offset + width * (i + 1) = offset + width + width * i := fun i => by
      rw [Nat.mul_succ, Nat.add_assoc, Nat.add_comm width]
    simp only [List.range_succ_eq_map, List.map_cons, List.map_map, Function.comp_def, consecutive,
      Nat.succ_eq_add_one, hrest]
    rw [FieldShape.width, ih, Bool.and_true, beq_iff_eq]
    rfl

theorem fits_iff (f : BitField) (position : Nat) :
    Fits ⟨position, f.shape, f.value⟩ ↔ f.Fits := by
  cases f with
  | unsigned bits value =>
    change 0 ≤ (value : Int) ∧ (value : Int) < (2 ^ bits : Nat) ↔ value < 2 ^ bits
    omega
  | signed bits value => exact Iff.rfl
  | flag value =>
    cases value with
    | false => exact iff_of_true (.inl rfl) trivial
    | true => exact iff_of_true (.inr rfl) trivial

theorem shown_eq (f : BitField) (position : Nat) :
    shown ⟨position, f.shape, f.value⟩ = f.shown := by
  cases f <;> rfl

theorem forall_fits_iff {xs : List HeaderElement} {fs : List BitField}
    (h : xs.map (fun x => (x.shape, x.value)) = fs.map fun f => (f.shape, f.value)) :
    (∀ x ∈ xs, x.Fits) ↔ ∀ f ∈ fs, f.Fits := by
  have hpairs : (∀ y ∈ xs.map (fun x => (x.shape, x.value)), Fits ⟨0, y.1, y.2⟩) ↔
      ∀ y ∈ fs.map (fun f => (f.shape, f.value)), Fits ⟨0, y.1, y.2⟩ := by
    rw [h]
  rw [List.forall_mem_map, List.forall_mem_map] at hpairs
  exact hpairs.trans (forall₂_congr fun f _ => fits_iff f 0)

end HeaderElement

namespace Avc

def sequenceElements (p : Params) (depths : Nat × Nat) : List HeaderElement :=
  [⟨0, .unsigned 8, p.profileIdc.toNat⟩,
    ⟨8, .flag, p.constraintSet3Flag.toNat⟩,
    ⟨9, .unsigned 2, p.chromaFormatIdc.toNat⟩,
    ⟨11, .unsigned 3, depths.1⟩,
    ⟨14, .unsigned 3, depths.2⟩,
    ⟨17, .flag, p.qpprimeYZeroTransformBypassFlag.toNat⟩,
    ⟨18, .unsigned 4, p.log2MaxFrameNumMinus4.toNat⟩,
    ⟨22, .unsigned 5, p.maxNumRefFrames.toNat⟩,
    ⟨27, .unsigned 2, p.picOrderCntType.toNat⟩,
    ⟨29, .unsigned 4, p.log2MaxPicOrderCntLsbMinus4.toNat⟩,
    ⟨33, .flag, p.deltaPicOrderAlwaysZeroFlag.toNat⟩,
    ⟨34, .flag, p.frameMbsOnlyFlag.toNat⟩,
    ⟨35, .flag, p.mbAdaptiveFrameFieldFlag.toNat⟩,
    ⟨36, .flag, p.direct8x8InferenceFlag.toNat⟩]

def sizeElements (p : Params) : Generation → List HeaderElement
  | .rkv =>
    [⟨0, .unsigned 9, p.picWidthInMbsMinus1.toNat⟩,
      ⟨9, .unsigned 9, p.frameHeightInMbsMinus1.toNat⟩]
  | .vdpu34x =>
    [⟨0, .unsigned 16, p.picWidthInMbsMinus1.toNat⟩,
      ⟨16, .unsigned 16, p.frameHeightInMbsMinus1.toNat⟩]

def pictureSetElements (p : Params) (hasScaling : Bool) : List HeaderElement :=
  [⟨0, .flag, p.entropyCodingModeFlag.toNat⟩,
    ⟨1, .flag, p.bottomFieldPicOrderInFramePresentFlag.toNat⟩,
    ⟨2, .unsigned 5, p.numRefIdxL0DefaultActiveMinus1.toNat⟩,
    ⟨7, .unsigned 5, p.numRefIdxL1DefaultActiveMinus1.toNat⟩,
    ⟨12, .flag, p.weightedPredFlag.toNat⟩,
    ⟨13, .unsigned 2, p.weightedBipredIdc.toNat⟩,
    ⟨15, .signed 7, p.picInitQpMinus26.toInt⟩,
    ⟨22, .signed 6, p.picInitQsMinus26.toInt⟩,
    ⟨28, .signed 5, p.chromaQpIndexOffset.toInt⟩,
    ⟨33, .signed 5, p.secondChromaQpIndexOffset.toInt⟩,
    ⟨38, .flag, p.deblockingFilterControlPresentFlag.toNat⟩,
    ⟨39, .flag, p.constrainedIntraPredFlag.toNat⟩,
    ⟨40, .flag, p.redundantPicCntPresentFlag.toNat⟩,
    ⟨41, .flag, p.transform8x8ModeFlag.toNat⟩,
    ⟨42, .flag, hasScaling.toNat⟩]

def currentElements (p : Params) : List HeaderElement :=
  [⟨0, .flag, p.fieldPicFlag.toNat⟩,
    ⟨1, .flag, p.bottomFieldFlag.toNat⟩,
    ⟨2, .flag, (p.mbAdaptiveFrameFieldFlag && !p.fieldPicFlag).toNat⟩,
    ⟨3, .flag, p.isReference.toNat⟩,
    ⟨4, .flag, p.idrPicFlag.toNat⟩,
    ⟨5, .unsigned 16, p.frameNum.toNat⟩,
    ⟨21, .signed 32, p.topPoc.toInt⟩,
    ⟨53, .signed 32, p.bottomPoc.toInt⟩]

end Avc

namespace Hevc

def sequenceElements (p : Params) (depths : Nat × Nat) : List HeaderElement :=
  [⟨0, .unsigned 2, p.chromaFormatIdc.toNat⟩,
    ⟨2, .unsigned 16, p.picWidthInLumaSamples.toNat⟩,
    ⟨18, .unsigned 16, p.picHeightInLumaSamples.toNat⟩,
    ⟨34, .unsigned 3, depths.1⟩,
    ⟨37, .unsigned 3, depths.2⟩,
    ⟨40, .unsigned 4, p.log2MaxPicOrderCntLsbMinus4.toNat⟩,
    ⟨44, .unsigned 2, p.log2MinLumaCodingBlockSizeMinus3.toNat⟩,
    ⟨46, .unsigned 2, p.log2DiffMaxMinLumaCodingBlockSize.toNat⟩,
    ⟨48, .unsigned 2, p.log2MinTransformBlockSizeMinus2.toNat⟩,
    ⟨50, .unsigned 2, p.log2DiffMaxMinTransformBlockSize.toNat⟩,
    ⟨52, .unsigned 3, p.maxTransformHierarchyDepthInter.toNat⟩,
    ⟨55, .unsigned 3, p.maxTransformHierarchyDepthIntra.toNat⟩,
    ⟨58, .flag, p.scalingListEnabledFlag.toNat⟩,
    ⟨59, .flag, p.ampEnabledFlag.toNat⟩,
    ⟨60, .flag, p.sampleAdaptiveOffsetEnabledFlag.toNat⟩,
    ⟨61, .flag, p.pcmEnabledFlag.toNat⟩,
    ⟨62, .unsigned 4, p.pcmSampleBitDepthLumaMinus1.toNat⟩,
    ⟨66, .unsigned 4, p.pcmSampleBitDepthChromaMinus1.toNat⟩,
    ⟨70, .unsigned 2, p.log2MinPcmLumaCodingBlockSizeMinus3.toNat⟩,
    ⟨72, .unsigned 2, p.log2DiffMaxMinPcmLumaCodingBlockSize.toNat⟩,
    ⟨74, .flag, p.pcmLoopFilterDisabledFlag.toNat⟩,
    ⟨75, .unsigned 7, p.numShortTermRefPicSets.toNat⟩,
    ⟨82, .flag, p.longTermRefPicsPresentFlag.toNat⟩,
    ⟨83, .unsigned 6, p.numLongTermRefPicsSps.toNat⟩,
    ⟨89, .flag, p.spsTemporalMvpEnabledFlag.toNat⟩,
    ⟨90, .flag, p.strongIntraSmoothingEnabledFlag.toNat⟩]

def pictureSetElements (p : Params) : List HeaderElement :=
  [⟨0, .flag, p.dependentSliceSegmentsEnabledFlag.toNat⟩,
    ⟨1, .flag, p.outputFlagPresentFlag.toNat⟩,
    ⟨2, .unsigned 3, p.numExtraSliceHeaderBits.toNat⟩,
    ⟨5, .flag, p.signDataHidingEnabledFlag.toNat⟩,
    ⟨6, .flag, p.cabacInitPresentFlag.toNat⟩,
    ⟨7, .unsigned 4, p.numRefIdxL0DefaultActiveMinus1.toNat⟩,
    ⟨11, .unsigned 4, p.numRefIdxL1DefaultActiveMinus1.toNat⟩,
    ⟨15, .signed 7, p.initQpMinus26.toInt⟩,
    ⟨22, .flag, p.constrainedIntraPredFlag.toNat⟩,
    ⟨23, .flag, p.transformSkipEnabledFlag.toNat⟩,
    ⟨24, .flag, p.cuQpDeltaEnabledFlag.toNat⟩,
    ⟨25, .unsigned 2, p.diffCuQpDeltaDepth.toNat⟩,
    ⟨27, .signed 5, p.ppsCbQpOffset.toInt⟩,
    ⟨32, .signed 5, p.ppsCrQpOffset.toInt⟩,
    ⟨37, .flag, p.ppsSliceChromaQpOffsetsPresentFlag.toNat⟩,
    ⟨38, .flag, p.weightedPredFlag.toNat⟩,
    ⟨39, .flag, p.weightedBipredFlag.toNat⟩,
    ⟨40, .flag, p.transquantBypassEnabledFlag.toNat⟩,
    ⟨41, .flag, p.tilesEnabledFlag.toNat⟩,
    ⟨42, .flag, p.entropyCodingSyncEnabledFlag.toNat⟩,
    ⟨43, .flag, p.ppsLoopFilterAcrossSlicesEnabledFlag.toNat⟩,
    ⟨44, .flag, p.loopFilterAcrossTilesEnabledFlag.toNat⟩,
    ⟨45, .flag, p.deblockingFilterOverrideEnabledFlag.toNat⟩,
    ⟨46, .flag, p.ppsDeblockingFilterDisabledFlag.toNat⟩,
    ⟨47, .signed 4, p.ppsBetaOffsetDiv2.toInt⟩,
    ⟨51, .signed 4, p.ppsTcOffsetDiv2.toInt⟩,
    ⟨55, .flag, p.listsModificationPresentFlag.toNat⟩,
    ⟨56, .unsigned 3, p.log2ParallelMergeLevelMinus2.toNat⟩,
    ⟨59, .flag, p.sliceSegmentHeaderExtensionPresentFlag.toNat⟩,
    ⟨60, .unsigned 5, p.numTileColumnsMinus1.toNat⟩,
    ⟨65, .unsigned 5, p.numTileRowsMinus1.toNat⟩]

def tileElements (p : Params) : List HeaderElement :=
  (List.range 20).map (fun i => ⟨12 * i, .unsigned 12, (grid p).1.getD i 0⟩)
  ++ (List.range 22).map (fun i => ⟨240 + 12 * i, .unsigned 12, (grid p).2.getD i 0⟩)

def currentElements (p : Params) : List HeaderElement :=
  [⟨0, .flag, p.irapPic.toNat⟩,
    ⟨1, .flag, p.idrPic.toNat⟩,
    ⟨2, .signed 32, p.currentPoc.toInt⟩]

theorem consecutive_tileElements (p : Params) :
    HeaderElement.consecutive 0 (tileElements p) = true := by
  have hcolumns := HeaderElement.consecutive_map_range 0 20 12 fun i => ((grid p).1.getD i 0 : Nat)
  have hrows := HeaderElement.consecutive_map_range 240 22 12 fun i => ((grid p).2.getD i 0 : Nat)
  simp only [Nat.zero_add] at hcolumns
  have hwidth : FieldShape.totalWidth (((List.range 20).map fun i =>
      (⟨12 * i, .unsigned 12, ((grid p).1.getD i 0 : Nat)⟩ : HeaderElement)).map
        HeaderElement.shape) = 240 := by
    simp only [List.map_map, Function.comp_def, List.map_const', List.length_range]
    rfl
  rw [tileElements, HeaderElement.consecutive_append, hcolumns, hwidth, Bool.true_and]
  exact hrows

end Hevc

/-- The bit at which a part of the header starts. -/
def Generation.partStart : Generation → CodingStandard → ParameterPart → Nat
  | .rkv, .avc, .sequence => 0
  | .rkv, .avc, .size => 37
  | .rkv, .avc, .pictureSet => 55
  | .rkv, .avc, .current => 98
  | .vdpu34x, .avc, .size => 0
  | .vdpu34x, .avc, .sequence => 32
  | .vdpu34x, .avc, .pictureSet => 69
  | .vdpu34x, .avc, .current => 112
  | .rkv, .hevc, .sequence => 0
  | .rkv, .hevc, .pictureSet => 91
  | .rkv, .hevc, .tiles => 161
  | .rkv, .hevc, .current => 665
  | .vdpu34x, .hevc, .current => 0
  | .vdpu34x, .hevc, .sequence => 34
  | .vdpu34x, .hevc, .pictureSet => 125
  | .vdpu34x, .hevc, .tiles => 195
  | _, .avc, .tiles | _, .hevc, .size => 0

namespace CodedPicture

/-- The larger bit depth of luma and chroma, less eight. -/
def largerMinus8 (picture : CodedPicture) : Nat :=
  max picture.depthsMinus8.1.toNat picture.depthsMinus8.2.toNat

/-- The bit depths to announce, less eight: those of the stream, unless it is decoded at another
one. -/
def announcedDepths (picture : CodedPicture) (bind : Binding) : Nat × Nat :=
  if picture.largerMinus8 + 8 = bind.bitDepth.toNat then
    (picture.depthsMinus8.1.toNat, picture.depthsMinus8.2.toNat)
  else (bind.bitDepth.toNat - 8, bind.bitDepth.toNat - 8)

/-- The syntax elements of a part of the header. -/
def elements (picture : CodedPicture) (g : Generation) (bind : Binding) :
    ParameterPart → List HeaderElement :=
  match picture with
  | .avc p => fun
    | .sequence => Avc.sequenceElements p.params (picture.announcedDepths bind)
    | .size => Avc.sizeElements p.params g
    | .pictureSet => Avc.pictureSetElements p.params p.scaling.isSome
    | .current => Avc.currentElements p.params
    | .tiles => []
  | .hevc p => fun
    | .sequence => Hevc.sequenceElements p.params (picture.announcedDepths bind)
    | .pictureSet => Hevc.pictureSetElements p.params
    | .tiles => Hevc.tileElements p.params
    | .current => Hevc.currentElements p.params
    | .size => []

def HasTooManyTiles : CodedPicture → Prop
  | .avc _ => False
  | .hevc p => p.params.tilesEnabledFlag = true ∧
      (20 < p.params.numTileColumnsMinus1.toNat + 1 ∨ 22 < p.params.numTileRowsMinus1.toNat + 1)

instance (picture : CodedPicture) : Decidable picture.HasTooManyTiles :=
  match picture with
  | .avc _ => inferInstanceAs (Decidable False)
  | .hevc p => inferInstanceAs (Decidable (p.params.tilesEnabledFlag = true ∧ (_ ∨ _)))

/-- The header can announce the picture: its fields can hold all elements, and there are not too
many tiles. -/
structure Announceable (picture : CodedPicture) (g : Generation) (bind : Binding) : Prop where
  fits : ∀ part, ∀ x ∈ picture.elements g bind part, x.Fits
  tiles : ¬ picture.HasTooManyTiles

theorem tilesAdmitted_iff {picture : CodedPicture} :
    picture.TilesAdmitted ↔ ¬ picture.HasTooManyTiles := by
  cases picture with
  | avc p => exact iff_of_true trivial nofun
  | hevc p =>
    rw [TilesAdmitted, Hevc.Params.TilesAdmitted, HasTooManyTiles, not_and]
    refine forall_congr' fun _ => ?_
    rw [Hevc.maxTileColumns, Hevc.maxTileRows]
    omega

variable {picture : CodedPicture} {bind : Binding} {depths : UInt8 × UInt8}

theorem announcedDepths_of_headerDepths (h : picture.headerDepths bind = .ok depths) :
    picture.largerMinus8 < 248 ∧
      picture.announcedDepths bind = (depths.1.toNat, depths.2.toNat) := by
  rw [headerDepths, Binding.headerDepths] at h
  split at h
  · cases h
  rename_i depth hdepth
  have hlarger : depth.toNat = picture.largerMinus8 + 8 := bitDepthOf_ok hdepth
  have hbyte := depth.toNat_lt
  refine ⟨by omega, ?_⟩
  rw [announcedDepths, ← hlarger]
  split at h
  · rename_i hsame
    rw [if_pos (congrArg UInt8.toNat hsame), ← Except.ok.inj h]
  · rename_i hother
    rw [if_neg (mt UInt8.toNat_inj.1 hother), ← Except.ok.inj h]
    exact congrArg (fun n => (n, n)) (toNat_sub_min bind.bitDepth 8).symm

theorem map_elements (g : Generation) (h : picture.headerDepths bind = .ok depths)
    (part : ParameterPart) :
    (picture.elements g bind part).map (fun x => (x.shape, x.value)) =
      (picture.parameterFields g depths part).map fun f => (f.shape, f.value) := by
  obtain ⟨-, hdepths⟩ := announcedDepths_of_headerDepths h
  cases picture with
  | avc p => cases part <;> cases g <;> simp only [elements, hdepths] <;> rfl
  | hevc p =>
    cases part with
    | tiles =>
      simp only [elements, parameterFields, Hevc.tileElements, Hevc.gridFields, Hevc.sizeFields,
        List.map_append, List.map_map]
      rfl
    | sequence | size | pictureSet | current =>
      simp only [elements, hdepths]
      rfl

theorem shapes_elements (picture : CodedPicture) (g : Generation) (bind : Binding)
    (part : ParameterPart) :
    (picture.elements g bind part).map HeaderElement.shape =
      g.parameterShapes picture.standard part := by
  cases picture with
  | avc p => cases part <;> cases g <;> rfl
  | hevc p =>
    cases part with
    | tiles =>
      simp only [elements, Hevc.tileElements, List.map_append, List.map_map, Function.comp_def,
        List.map_const', List.length_range]
      rfl
    | sequence | size | pictureSet | current => rfl

theorem values_elements (g : Generation) (h : picture.headerDepths bind = .ok depths)
    (part : ParameterPart) :
    (picture.elements g bind part).map HeaderElement.value = picture.announced depths part := by
  have hsame := congrArg (List.map Prod.snd) (picture.map_elements g h part)
  rw [List.map_map, List.map_map] at hsame
  exact hsame.trans (picture.values_parameterFields g depths part)

theorem values_elements_eq (picture : CodedPicture) (g g' : Generation) {bind' : Binding}
    (h : bind'.bitDepth = bind.bitDepth) (part : ParameterPart) :
    (picture.elements g bind part).map HeaderElement.value =
      (picture.elements g' bind' part).map HeaderElement.value := by
  have hdepths : picture.announcedDepths bind' = picture.announcedDepths bind := by
    simp only [announcedDepths, h]
  cases picture with
  | avc p => cases part <;> cases g <;> cases g' <;> simp only [elements, hdepths] <;> rfl
  | hevc p => cases part <;> simp only [elements, hdepths]

theorem consecutive_elements (picture : CodedPicture) (g : Generation) (bind : Binding)
    (part : ParameterPart) :
    HeaderElement.consecutive 0 (picture.elements g bind part) = true := by
  cases picture with
  | avc p => cases part <;> cases g <;> rfl
  | hevc p =>
    cases part with
    | tiles => exact Hevc.consecutive_tileElements p.params
    | sequence | size | pictureSet | current => rfl

theorem position_parameterLayout (g : Generation) {standard : CodingStandard}
    {part : ParameterPart} (h : part ∈ g.parameterOrder standard) :
    (g.parameterLayout standard).position part = g.partStart standard part := by
  cases g <;> cases standard <;> cases part <;> revert h <;> decide

theorem elements_eq_nil {g : Generation} (bind : Binding) {part : ParameterPart}
    (h : part ∉ g.parameterOrder picture.standard) : picture.elements g bind part = [] := by
  cases g <;> cases picture <;> cases part <;> first
    | rfl
    | simp [Generation.parameterOrder, standard] at h

theorem fieldsFit_iff (g : Generation) (h : picture.headerDepths bind = .ok depths) :
    picture.FieldsFit g depths ↔ ∀ part, ∀ x ∈ picture.elements g bind part, x.Fits := by
  have hpart : ∀ part, (∀ x ∈ picture.elements g bind part, x.Fits) ↔
      ∀ f ∈ picture.parameterFields g depths part, f.Fits := fun part =>
    HeaderElement.forall_fits_iff (map_elements g h part)
  constructor
  · intro hfits part
    by_cases hmem : part ∈ g.parameterOrder picture.standard
    · exact (hpart part).2 (hfits part hmem)
    · rw [elements_eq_nil bind hmem]
      exact nofun
  · exact fun hfits part _ => (hpart part).1 (hfits part)

theorem map_readFrom_elements (g : Generation) (bind : Binding) {part : ParameterPart}
    (h : part ∈ g.parameterOrder picture.standard) (header : Nat) :
    (picture.elements g bind part).map
        (fun x => x.readFrom (g.partStart picture.standard part) header) =
      (g.parameterLayout picture.standard).read header part := by
  have hread := HeaderElement.readAll_of_consecutive (picture.consecutive_elements g bind part)
    (g.partStart picture.standard part) header
  rw [shapes_elements, Nat.add_zero, ← position_parameterLayout g h] at hread
  rw [← position_parameterLayout g h]
  exact hread.symm

end CodedPicture

end VideoAccel
