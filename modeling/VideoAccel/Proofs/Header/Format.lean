import VideoAccel.Picture.Coded
import VideoAccel.Proofs.Bits.Layout
import VideoAccel.Strategy.Generation

namespace VideoAccel

open BitField

/-- The parts of a parameter header. Only H.264 has one for the size, only H.265 one for the
tiles. -/
inductive ParameterPart
  | sequence
  | size
  | pictureSet
  | tiles
  | current
  deriving DecidableEq, Repr

namespace Generation

def parameterOrder : Generation → CodingStandard → List ParameterPart
  | .rkv, .avc => [.sequence, .size, .pictureSet, .current]
  | .vdpu34x, .avc => [.size, .sequence, .pictureSet, .current]
  | .rkv, .hevc => [.sequence, .pictureSet, .tiles, .current]
  | .vdpu34x, .hevc => [.current, .sequence, .pictureSet, .tiles]

def sizeBits : Generation → Nat
  | .rkv => 9
  | .vdpu34x => 16

def parameterShapes (g : Generation) : CodingStandard → ParameterPart → List FieldShape
  | .avc, .sequence =>
    [.unsigned 8, .flag, .unsigned 2, .unsigned 3, .unsigned 3, .flag, .unsigned 4, .unsigned 5,
      .unsigned 2, .unsigned 4, .flag, .flag, .flag, .flag]
  | .avc, .size => [.unsigned g.sizeBits, .unsigned g.sizeBits]
  | .avc, .pictureSet =>
    [.flag, .flag, .unsigned 5, .unsigned 5, .flag, .unsigned 2, .signed 7, .signed 6, .signed 5,
      .signed 5, .flag, .flag, .flag, .flag, .flag]
  | .avc, .current =>
    [.flag, .flag, .flag, .flag, .flag, .unsigned 16, .signed 32, .signed 32]
  | .hevc, .sequence =>
    [.unsigned 2, .unsigned 16, .unsigned 16, .unsigned 3, .unsigned 3, .unsigned 4, .unsigned 2,
      .unsigned 2, .unsigned 2, .unsigned 2, .unsigned 3, .unsigned 3, .flag, .flag, .flag, .flag,
      .unsigned 4, .unsigned 4, .unsigned 2, .unsigned 2, .flag, .unsigned 7, .flag, .unsigned 6,
      .flag, .flag]
  | .hevc, .pictureSet =>
    [.flag, .flag, .unsigned 3, .flag, .flag, .unsigned 4, .unsigned 4, .signed 7, .flag, .flag,
      .flag, .unsigned 2, .signed 5, .signed 5, .flag, .flag, .flag, .flag, .flag, .flag, .flag,
      .flag, .flag, .flag, .signed 4, .signed 4, .flag, .unsigned 3, .flag, .unsigned 5,
      .unsigned 5]
  | .hevc, .tiles => List.replicate (Hevc.maxTileColumns + Hevc.maxTileRows) (.unsigned 12)
  | .hevc, .current => [.flag, .flag, .signed 32]
  | .avc, .tiles | .hevc, .size => []

def parameterLayout (g : Generation) (standard : CodingStandard) : PartLayout ParameterPart :=
  ⟨g.parameterOrder standard, g.parameterShapes standard⟩

def parameterWords : Generation → CodingStandard → Nat
  | .rkv, .avc => 3
  | .vdpu34x, .avc => 4
  | _, .hevc => 16

/-- The fields of a part of the header in a table buffer, as the hardware reads them. -/
def readParameters (g : Generation) (standard : CodingStandard) (tables : Memory)
    (part : ParameterPart) : List Int :=
  (g.parameterLayout standard).read
    (bitString (tables.read parameterOffset (g.parameterWords standard * 8))) part

theorem isChecked_parameterShapes (g : Generation) (standard : CodingStandard)
    (part : ParameterPart) : ∀ s ∈ g.parameterShapes standard part, s.isChecked = true := by
  cases g <;> cases standard <;> cases part <;> decide

theorem totalWidth_parameterShapes (g : Generation) (standard : CodingStandard) :
    FieldShape.totalWidth ((g.parameterOrder standard).flatMap (g.parameterShapes standard)) ≤
      g.parameterWords standard * 64 := by
  cases g <;> cases standard <;> decide

end Generation

namespace Hevc

def grid (p : Params) : List Nat × List Nat :=
  let (width, height) := p.resolution.blocks (Nat.pow 2 p.ctbLog2Size)
  if p.tilesEnabledFlag then (p.tileColumns width, p.tileRows height) else ([width], [height])

def gridFields (p : Params) : List BitField :=
  sizeFields (grid p).1 maxTileColumns ++ sizeFields (grid p).2 maxTileRows

def Params.TilesAdmitted (p : Params) : Prop :=
  p.tilesEnabledFlag = true →
    p.numTileColumnsMinus1.toNat + 1 ≤ maxTileColumns ∧
      p.numTileRowsMinus1.toNat + 1 ≤ maxTileRows

instance (p : Params) : Decidable p.TilesAdmitted :=
  inferInstanceAs (Decidable (p.tilesEnabledFlag = true → _ ∧ _))

end Hevc

theorem toNat_max (a b : UInt8) : (max a b).toNat = max a.toNat b.toNat := by
  change (if a ≤ b then b else a).toNat = _
  split <;> rename_i h <;> rw [UInt8.le_iff_toNat_le] at h <;> omega

theorem toNat_sub_min (a b : UInt8) : (a - min a b).toNat = a.toNat - b.toNat := by
  have hmin : (min a b).toNat = min a.toNat b.toNat := by
    change (if a ≤ b then a else b).toNat = _
    split <;> rename_i h <;> rw [UInt8.le_iff_toNat_le] at h <;> omega
  have hle : min a b ≤ a := by
    rw [UInt8.le_iff_toNat_le, hmin]
    exact Nat.min_le_left _ _
  rw [UInt8.toNat_sub_of_le _ _ hle, hmin]
  omega

theorem bitDepthOf_ok {luma chroma depth : UInt8} (h : bitDepthOf luma chroma = .ok depth) :
    depth.toNat = max luma.toNat chroma.toNat + 8 := by
  simp only [bitDepthOf] at h
  split at h
  · rename_i hbyte
    cases h
    rw [UInt8.toNat_add, ← toNat_max]
    exact Nat.mod_eq_of_lt hbyte
  · cases h

namespace CodedPicture

def depthsMinus8 : CodedPicture → UInt8 × UInt8
  | .avc p => (p.params.bitDepthLumaMinus8, p.params.bitDepthChromaMinus8)
  | .hevc p => (p.params.bitDepthLumaMinus8, p.params.bitDepthChromaMinus8)

def headerDepths (picture : CodedPicture) (bind : Binding) : Except Fault (UInt8 × UInt8) :=
  bind.headerDepths picture.depthsMinus8.1 picture.depthsMinus8.2

def parameterFields (picture : CodedPicture) (g : Generation) (depths : UInt8 × UInt8)
    (part : ParameterPart) : List BitField :=
  match picture, part with
  | .avc p, .sequence => Avc.sequenceFields p.params depths
  | .avc p, .size => Avc.sizeFields p.params g.sizeBits
  | .avc p, .pictureSet => Avc.pictureSetFields p.params p.scaling.isSome
  | .avc p, .current => Avc.currentFields p.params
  | .hevc p, .sequence => Hevc.sequenceFields p.params depths
  | .hevc p, .pictureSet => Hevc.pictureSetFields p.params
  | .hevc p, .tiles => Hevc.gridFields p.params
  | .hevc p, .current => Hevc.currentFields p.params
  | .avc _, .tiles | .hevc _, .size => []

/-- The values of the fields of a part, in order. -/
def announced (picture : CodedPicture) (depths : UInt8 × UInt8) : ParameterPart → List Int
  | .size =>
    match picture with
    | .avc p => [p.params.picWidthInMbsMinus1.toNat, p.params.frameHeightInMbsMinus1.toNat]
    | .hevc _ => []
  | part => (picture.parameterFields .vdpu34x depths part).map value

def TilesAdmitted : CodedPicture → Prop
  | .avc _ => True
  | .hevc p => p.params.TilesAdmitted

instance (picture : CodedPicture) : Decidable picture.TilesAdmitted :=
  match picture with
  | .avc _ => inferInstanceAs (Decidable True)
  | .hevc p => inferInstanceAs (Decidable p.params.TilesAdmitted)

variable (picture : CodedPicture) (g : Generation) (depths : UInt8 × UInt8)

theorem shapes_parameterFields (part : ParameterPart) :
    (picture.parameterFields g depths part).map shape =
      g.parameterShapes picture.standard part := by
  cases picture <;> cases part <;> rfl

theorem values_parameterFields (part : ParameterPart) :
    (picture.parameterFields g depths part).map value = picture.announced depths part := by
  cases picture <;> cases part <;> rfl

def allFields : List BitField :=
  (g.parameterOrder picture.standard).flatMap (picture.parameterFields g depths)

def FieldsFit : Prop :=
  ∀ part ∈ g.parameterOrder picture.standard, ∀ f ∈ picture.parameterFields g depths part, f.Fits

instance : Decidable (picture.FieldsFit g depths) :=
  inferInstanceAs (Decidable (∀ part ∈ g.parameterOrder picture.standard,
    ∀ f ∈ picture.parameterFields g depths part, f.Fits))

theorem forall_mem_allFields {P : BitField → Prop} :
    (∀ f ∈ picture.allFields g depths, P f) ↔
      ∀ part ∈ g.parameterOrder picture.standard,
        ∀ f ∈ picture.parameterFields g depths part, P f := by
  simp only [allFields, List.mem_flatMap]
  exact ⟨fun h part hpart f hf => h f ⟨part, hpart, hf⟩,
    fun h f ⟨part, hpart, hf⟩ => h part hpart f hf⟩

theorem isChecked_parameterFields (part : ParameterPart) :
    ∀ f ∈ picture.parameterFields g depths part, f.shape.isChecked = true := by
  intro f hf
  refine g.isChecked_parameterShapes picture.standard part _ ?_
  rw [← picture.shapes_parameterFields g depths part]
  exact List.mem_map_of_mem hf

theorem isChecked_allFields : ∀ f ∈ picture.allFields g depths, f.shape.isChecked = true :=
  (picture.forall_mem_allFields g depths).2 fun part _ =>
    picture.isChecked_parameterFields g depths part

theorem totalWidth_allFields :
    totalWidth (picture.allFields g depths) ≤ g.parameterWords picture.standard * 64 := by
  have hshapes : (picture.allFields g depths).map shape =
      (g.parameterOrder picture.standard).flatMap (g.parameterShapes picture.standard) := by
    simp only [allFields, List.map_flatMap, shapes_parameterFields]
  rw [← totalWidth_map_shape, hshapes]
  exact g.totalWidth_parameterShapes picture.standard

theorem read_allFields (hfits : picture.FieldsFit g depths) {part : ParameterPart}
    (hpart : part ∈ g.parameterOrder picture.standard) :
    (g.parameterLayout picture.standard).read (packed (picture.allFields g depths)) part =
      picture.announced depths part := by
  rw [← picture.values_parameterFields g depths part]
  exact (g.parameterLayout picture.standard).read_packed _
    (fun part _ => picture.shapes_parameterFields g depths part)
    (fun part _ => g.isChecked_parameterShapes picture.standard part) hfits hpart

end CodedPicture

end VideoAccel
