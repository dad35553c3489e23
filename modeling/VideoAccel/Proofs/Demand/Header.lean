import VideoAccel.Proofs.Backend.Announcement
import VideoAccel.Proofs.Demand.Packing

namespace VideoAccel

def faultOf {α : Type} : Except Fault α → Option Fault
  | .ok _ => none
  | .error f => some f

def depthDemands (lumaMinus8 chromaMinus8 : UInt8) : List Demand :=
  [.word 8 ((max lumaMinus8 chromaMinus8).toNat + 8)]

theorem firstFault_depthDemands (lumaMinus8 chromaMinus8 : UInt8) :
    firstFault (depthDemands lumaMinus8 chromaMinus8) =
      faultOf (bitDepthOf lumaMinus8 chromaMinus8) := by
  have hbyte : (Demand.word 8 ((max lumaMinus8 chromaMinus8).toNat + 8)).Met ↔
    (max lumaMinus8 chromaMinus8).toNat + 8 < 256 := Iff.rfl
  simp only [depthDemands, firstFault, bitDepthOf]
  by_cases h : (max lumaMinus8 chromaMinus8).toNat + 8 < 256
  · rw [if_pos (hbyte.2 h), if_pos h]
    rfl
  · rw [if_neg (mt hbyte.1 h), if_neg h]
    rfl

namespace Avc

def sideDemands (minus1 : UInt16) : List Demand :=
  [.word 32 (minus1.toNat + 1), .word 32 ((minus1.toNat + 1) * 16)]

theorem allMet_side (minus1 : UInt16) : AllMet (sideDemands minus1) := by
  have hlt := minus1.toNat_lt
  simp only [sideDemands, allMet_cons, allMet_nil, and_true, Demand.Met]
  exact ⟨by omega, by omega⟩

def wrapDemands (p : Params) (r : RefFrame) : List Demand :=
  if r.longTerm ∨ ¬ p.frameNum < r.frameIdx then []
  else
    [.word 32 (p.log2MaxFrameNumMinus4.toNat + 4), .shift 32 (p.log2MaxFrameNumMinus4.toNat + 4),
      .signed 32
        (r.frameIdx.toNat - Int.bmod (2 ^ (p.log2MaxFrameNumMinus4.toNat + 4) : Nat) (2 ^ 32))]

variable {p : Params}

theorem maxFrameNum_eq (h : p.log2MaxFrameNumMinus4.toNat < 16) :
    p.maxFrameNum = .ok (2 ^ (p.log2MaxFrameNumMinus4.toNat + 4)) ∧
      2 ^ (p.log2MaxFrameNumMinus4.toNat + 4) ≤ 2 ^ 19 := by
  refine ⟨?_, Nat.pow_le_pow_right (by decide) (by omega)⟩
  rw [Params.maxFrameNum, if_pos (by omega)]
  rfl

theorem allMet_wrap (h : p.log2MaxFrameNumMinus4.toNat < 16) (r : RefFrame) :
    AllMet (wrapDemands p r) := by
  have hidx := r.frameIdx.toNat_lt
  have hmodulus := (maxFrameNum_eq h).2
  refine allMet_ite (fun _ => allMet_nil) fun _ => ?_
  simp only [allMet_cons, allMet_nil, and_true, Demand.Met]
  generalize 2 ^ (p.log2MaxFrameNumMinus4.toNat + 4) = modulus at hmodulus
  have hread : Int.bmod (modulus : Nat) (2 ^ 32) = (modulus : Nat) := by
    apply Int.bmod_eq_of_le <;> omega
  rw [hread]
  exact ⟨by omega, by omega, by omega, by omega⟩

theorem frameNumWrap_ne_error (h : p.log2MaxFrameNumMinus4.toNat < 16) (r : RefFrame) (f : Fault) :
    p.frameNumWrap r ≠ .error f := by
  obtain ⟨hmodulus, hle⟩ := maxFrameNum_eq h
  simp only [Params.frameNumWrap, hmodulus]
  by_cases hlong : r.longTerm = true
  · rw [if_pos hlong]
    nofun
  rw [if_neg hlong]
  by_cases hwrapped : p.frameNum < r.frameIdx
  · rw [if_pos hwrapped, if_pos (Nat.lt_of_le_of_lt hle (by decide))]
    nofun
  · rw [if_neg hwrapped]
    nofun

end Avc

namespace Hevc

def ctbDemands (p : Params) : List Demand :=
  [.word 32 (p.log2MinLumaCodingBlockSizeMinus3.toNat + 3), .word 32 p.ctbLog2Size,
    .shift 32 p.ctbLog2Size]
  ++ ceilDivDemands 32 p.resolution.width (2 ^ p.ctbLog2Size)
  ++ ceilDivDemands 32 p.resolution.height (2 ^ p.ctbLog2Size)

def tileSizesDemands (total count : Nat) (uniform : Bool) (explicitMinus1 : List UInt16) :
    List Demand :=
  .word 32 count ::
    if uniform then
      (List.range count).flatMap fun i =>
        [.word 32 (i + 1), .word 32 ((i + 1) * total), .word 32 (i * total), .divisor count,
          .difference ((i + 1) * total / count) (i * total / count)]
    else
      .difference count 1 ::
        (explicitMinus1.take (count - 1)).map (fun s => .word 32 (s.toNat + 1))
        ++ [.word 32 (((explicitMinus1.take (count - 1)).map fun s => s.toNat + 1).sum)]

def tileDemands (p : Params) : List Demand :=
  let (width, height) := p.resolution.blocks (2 ^ p.ctbLog2Size)
  ctbDemands p ++
    if p.tilesEnabledFlag then
      tileSizesDemands width (p.numTileColumnsMinus1.toNat + 1) p.uniformSpacingFlag
        p.columnWidthMinus1.toList
      ++ tileSizesDemands height (p.numTileRowsMinus1.toNat + 1) p.uniformSpacingFlag
        p.rowHeightMinus1.toList
    else []

variable {p : Params}

theorem allMet_ctb (h : p.ctbLog2Size < 32) : AllMet (ctbDemands p) := by
  have hwidth := p.picWidthInLumaSamples.toNat_lt
  have hheight := p.picHeightInLumaSamples.toNat_lt
  have hside : 2 ^ p.ctbLog2Size ≠ 0 := Nat.ne_of_gt (Nat.two_pow_pos _)
  have hmin : p.log2MinLumaCodingBlockSizeMinus3.toNat + 3 ≤ p.ctbLog2Size := Nat.le_add_right _ _
  simp only [ctbDemands, allMet_append, allMet_cons, allMet_nil, and_true, Demand.Met]
  refine ⟨⟨⟨by omega, by omega, h⟩, allMet_ceilDiv hside ?_⟩, allMet_ceilDiv hside ?_⟩
  · exact Nat.lt_trans hwidth (by decide)
  · exact Nat.lt_trans hheight (by decide)

theorem sum_take_le (sizes : List UInt16) (n : Nat) :
    ((sizes.take n).map fun s => s.toNat + 1).sum ≤ sizes.length * 2 ^ 16 := by
  induction sizes generalizing n with
  | nil => simp
  | cons s sizes ih =>
    cases n with
    | zero => simp
    | succ n =>
      have hs := s.toNat_lt
      have hrest := ih n
      simp only [List.take_succ_cons, List.map_cons, List.sum_cons, List.length_cons]
      omega

theorem allMet_tileSizes {total count : Nat} (htotal : total < 2 ^ 16) (hpos : count ≠ 0)
    (hcount : count ≤ 256) (uniform : Bool) {explicitMinus1 : List UInt16}
    (hlength : explicitMinus1.length ≤ 256) :
    AllMet (tileSizesDemands total count uniform explicitMinus1) := by
  rw [tileSizesDemands, allMet_cons]
  refine ⟨by simp only [Demand.Met]; omega, allMet_ite (fun _ => ?_) fun _ => ?_⟩
  · refine allMet_flatMap fun i hi => ?_
    have hlt := List.mem_range.1 hi
    have hnext : (i + 1) * total ≤ 256 * 2 ^ 16 :=
      Nat.mul_le_mul (by omega) (Nat.le_of_lt htotal)
    have hborder : i * total ≤ (i + 1) * total := Nat.mul_le_mul_right total (Nat.le_succ i)
    simp only [allMet_cons, allMet_nil, and_true, Demand.Met]
    exact ⟨by omega, by omega, by omega, hpos, Nat.div_le_div_right hborder⟩
  · have hsum := sum_take_le explicitMinus1 (count - 1)
    rw [List.cons_append, allMet_cons, allMet_append, allMet_cons]
    refine ⟨Nat.pos_of_ne_zero hpos, allMet_map fun s _ => ?_, ?_, allMet_nil⟩
    · have hs := s.toNat_lt
      simp only [Demand.Met]
      omega
    · simp only [Demand.Met]
      omega

theorem allMet_tiles (h : p.ctbLog2Size < 32) : AllMet (tileDemands p) := by
  have hside : 2 ^ p.ctbLog2Size ≠ 0 := Nat.ne_of_gt (Nat.two_pow_pos _)
  have hwidth : ceilDiv p.resolution.width (2 ^ p.ctbLog2Size) < 2 ^ 16 :=
    Nat.lt_of_le_of_lt (ceilDiv_le_self _ hside) p.picWidthInLumaSamples.toNat_lt
  have hheight : ceilDiv p.resolution.height (2 ^ p.ctbLog2Size) < 2 ^ 16 :=
    Nat.lt_of_le_of_lt (ceilDiv_le_self _ hside) p.picHeightInLumaSamples.toNat_lt
  have hcolumns := p.numTileColumnsMinus1.toNat_lt
  have hrows := p.numTileRowsMinus1.toNat_lt
  simp only [tileDemands, Resolution.blocks, allMet_append]
  refine ⟨allMet_ctb h, allMet_ite (fun _ => ?_) fun _ => allMet_nil⟩
  have hlists : p.columnWidthMinus1.toList.length ≤ 256 ∧
      p.rowHeightMinus1.toList.length ≤ 256 := by
    rw [Vector.length_toList, Vector.length_toList]
    decide
  rw [allMet_append]
  constructor
  · exact allMet_tileSizes hwidth (Nat.succ_ne_zero _) (by omega) _ hlists.1
  · exact allMet_tileSizes hheight (Nat.succ_ne_zero _) (by omega) _ hlists.2

def HeaderPart.demands (p : Params) : HeaderPart → List Demand
  | .sequence => depthDemands p.bitDepthLumaMinus8 p.bitDepthChromaMinus8
  | .tiles => tileDemands p
  | .pictureSet | .current => []

def packDemands (p : Params) (bind : Binding) (w : BitWriter) : List HeaderPart → List Demand
  | [] => []
  | part :: rest =>
    part.demands p ++
      match part.fields p bind with
      | .error _ => []
      | .ok fields =>
        w.putAllDemands fields ++
          match w.putAll fields with
          | .error _ => []
          | .ok w => packDemands p bind w rest

end Hevc

namespace Hevc

variable {p : Params} {bind : Binding} {w : BitWriter} {parts : List HeaderPart}

/-- What is common to all parts: the fields are packed, and the rest comes on top of them. -/
theorem allMet_packDemands_cons {part : HeaderPart} (hw : w.InRoom)
    (hpart : AllMet (part.demands p))
    (hrest : ∀ fields w', part.fields p bind = .ok fields → w.putAll fields = .ok w' →
      w'.InRoom → AllMet (packDemands p bind w' parts)) :
    AllMet (packDemands p bind w (part :: parts)) := by
  rw [packDemands, allMet_append]
  refine ⟨hpart, ?_⟩
  split
  · exact allMet_nil
  · rename_i fields hfields
    rw [allMet_append]
    refine ⟨BitWriter.allMet_putAll hw fields, ?_⟩
    split
    · exact allMet_nil
    · rename_i w' hput
      exact hrest fields w' hfields hput (hw.putAll hput)

theorem allMet_packDemands (hdepth : AllMet (depthDemands p.bitDepthLumaMinus8
    p.bitDepthChromaMinus8)) (hsize : p.ctbLog2Size < 32) (hw : w.InRoom) :
    AllMet (packDemands p bind w parts) := by
  induction parts generalizing w with
  | nil => exact allMet_nil
  | cons part parts ih =>
    refine allMet_packDemands_cons hw ?_ fun _ _ _ _ hw' => ih hw'
    cases part with
    | sequence => exact hdepth
    | tiles => exact allMet_tiles hsize
    | pictureSet | current => exact allMet_nil

theorem allMet_packDemands_sequence (hdepth : AllMet (depthDemands p.bitDepthLumaMinus8
    p.bitDepthChromaMinus8)) (hw : w.InRoom) :
    AllMet (packDemands p bind w (.sequence :: parts)) := by
  refine allMet_packDemands_cons hw hdepth fun fields w' hfields hput hw' => ?_
  refine allMet_packDemands hdepth ?_ hw'
  simp only [HeaderPart.fields] at hfields
  split at hfields
  · cases hfields
  · rename_i depths _
    cases hfields
    have hchecked : ∀ f ∈ sequenceFields p depths, f.shape.isChecked = true :=
      (CodedPicture.hevc { params := p }).isChecked_parameterFields .rkv depths .sequence
    exact ctbLog2Size_lt (BitWriter.extend_of_putAll hchecked hput).1

end Hevc

namespace CodedPicture

def depthDemands (picture : CodedPicture) : List Demand :=
  VideoAccel.depthDemands picture.depthsMinus8.1 picture.depthsMinus8.2

def formatDemands : CodedPicture → List Demand
  | .avc p =>
    Avc.sideDemands p.params.picWidthInMbsMinus1 ++ Avc.sideDemands p.params.frameHeightInMbsMinus1
    ++ VideoAccel.depthDemands p.params.bitDepthLumaMinus8 p.params.bitDepthChromaMinus8
  | .hevc p => VideoAccel.depthDemands p.params.bitDepthLumaMinus8 p.params.bitDepthChromaMinus8

theorem faultOf_format (picture : CodedPicture) :
    faultOf picture.format =
      faultOf (bitDepthOf picture.depthsMinus8.1 picture.depthsMinus8.2) := by
  cases picture with
  | avc p =>
    simp only [format, Avc.Params.format, Avc.Params.bitDepth, depthsMinus8]
    split <;> rename_i h <;> rw [h] <;> rfl
  | hevc p =>
    simp only [format, Hevc.Params.format, Hevc.Params.bitDepth, depthsMinus8]
    split <;> rename_i h <;> rw [h] <;> rfl

theorem firstFault_formatDemands (picture : CodedPicture) :
    firstFault picture.formatDemands = faultOf picture.format := by
  rw [faultOf_format, ← firstFault_depthDemands]
  cases picture with
  | avc p =>
    exact firstFault_of_allMet (allMet_append.2 ⟨Avc.allMet_side _, Avc.allMet_side _⟩) _
  | hevc p => rfl

theorem faultOf_format_eq_some_iff {picture : CodedPicture} {f : Fault} :
    faultOf picture.format = some f ↔
      f = .overflow ∧ 248 ≤ (max picture.depthsMinus8.1 picture.depthsMinus8.2).toNat := by
  rw [faultOf_format]
  simp only [bitDepthOf]
  by_cases h : (max picture.depthsMinus8.1 picture.depthsMinus8.2).toNat + 8 < 256
  · rw [if_pos h]
    simp only [faultOf, reduceCtorEq, false_iff, not_and]
    omega
  · rw [if_neg h]
    simp only [faultOf, Option.some.injEq]
    constructor
    · rintro rfl
      exact ⟨rfl, by omega⟩
    · exact fun hf => hf.1.symm

theorem allMet_depth {picture : CodedPicture} {format : PictureFormat}
    (h : picture.format = .ok format) : AllMet picture.depthDemands := by
  rw [← firstFault_eq_none_iff, depthDemands, firstFault_depthDemands, ← faultOf_format, h]
  rfl

end CodedPicture

def Avc.parameterDemands (p : Params) (bind : Binding) (size capacity : Nat)
    (fields : UInt8 × UInt8 → List BitField) : List Demand :=
  depthDemands p.bitDepthLumaMinus8 p.bitDepthChromaMinus8 ++
    match bind.headerDepths p.bitDepthLumaMinus8 p.bitDepthChromaMinus8 with
    | .error _ => []
    | .ok depths => packRegionDemands capacity (fields depths) size parameterOffset

def Hevc.parameterDemands (p : Params) (bind : Binding) (size : Nat) (parts : List HeaderPart) :
    List Demand :=
  ceilDivDemands 64 headerBits 64 ++ packDemands p bind (.ofCapacity headerBits) parts ++
    match packParts p bind (.ofCapacity headerBits) parts with
    | .error _ => []
    | .ok w => packedTableDemands w size parameterOffset

theorem Hevc.InRoom.packParts {p : Params} {bind : Binding} {w w' : BitWriter}
    {parts : List HeaderPart} (hw : w.InRoom) (h : Hevc.packParts p bind w parts = .ok w') :
    w'.InRoom := by
  induction parts generalizing w with
  | nil =>
    cases h
    exact hw
  | cons part parts ih =>
    simp only [Hevc.packParts] at h
    split at h
    · cases h
    split at h
    · cases h
    · rename_i hput
      exact ih (hw.putAll hput) h

def Generation.parameterDemands (g : Generation) (picture : CodedPicture) (bind : Binding)
    (size : Nat) : List Demand :=
  match g, picture with
  | .rkv, .avc p =>
    Avc.parameterDemands p.params bind size Rkv.Avc.headerBits (Rkv.Avc.parameterFields p)
  | .vdpu34x, .avc p =>
    Avc.parameterDemands p.params bind size Vdpu34x.Avc.headerBits (Vdpu34x.Avc.parameterFields p)
  | .rkv, .hevc p => Hevc.parameterDemands p.params bind size Rkv.Hevc.headerParts
  | .vdpu34x, .hevc p => Hevc.parameterDemands p.params bind size Vdpu34x.Hevc.headerParts

theorem Generation.allMet_parameters (g : Generation) {picture : CodedPicture}
    {format : PictureFormat} (h : picture.format = .ok format) (bind : Binding) (size : Nat) :
    AllMet (g.parameterDemands picture bind size) := by
  have hdepth := CodedPicture.allMet_depth h
  cases picture with
  | avc p =>
    have havc : ∀ (capacity : Nat) (fields : UInt8 × UInt8 → List BitField), capacity ≤ 1024 →
        AllMet (Avc.parameterDemands p.params bind size capacity fields) := by
      intro capacity fields hcapacity
      rw [Avc.parameterDemands, allMet_append]
      refine ⟨hdepth, ?_⟩
      split
      · exact allMet_nil
      · exact allMet_packRegion hcapacity (Nat.zero_le size) _
    cases g with
    | rkv => exact havc _ _ (by decide)
    | vdpu34x => exact havc _ _ (by decide)
  | hevc p =>
    have hroom : (BitWriter.ofCapacity Hevc.headerBits).InRoom :=
      BitWriter.inRoom_ofCapacity (Nat.le_refl _)
    have hhevc : ∀ parts,
        AllMet (Hevc.packDemands p.params bind (.ofCapacity Hevc.headerBits) parts) →
          AllMet (Hevc.parameterDemands p.params bind size parts) := by
      intro parts hparts
      simp only [Hevc.parameterDemands, allMet_append]
      refine ⟨⟨allMet_ceilDiv (by decide) (by decide), hparts⟩, ?_⟩
      split
      · exact allMet_nil
      · rename_i hpack
        exact allMet_packedTable (Hevc.InRoom.packParts hroom hpack) (Nat.zero_le size)
    cases g with
    | rkv => exact hhevc _ (Hevc.allMet_packDemands_sequence hdepth hroom)
    | vdpu34x =>
      refine hhevc _ (Hevc.allMet_packDemands_cons hroom allMet_nil fun _ _ _ _ hw => ?_)
      exact Hevc.allMet_packDemands_sequence hdepth hw

end VideoAccel
