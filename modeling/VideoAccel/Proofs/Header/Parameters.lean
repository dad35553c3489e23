import VideoAccel.Proofs.Header.Elements
import VideoAccel.Proofs.Header.Region
import VideoAccel.Proofs.Strategy.Coded

namespace VideoAccel

open BitField

namespace CodedPicture

variable {picture : CodedPicture} {g : Generation} {bind : Binding} {depths : UInt8 × UInt8}

theorem headerDepths_eq_error {f : Fault} :
    picture.headerDepths bind = .error f ↔ f = .overflow ∧ 248 ≤ picture.largerMinus8 := by
  simp only [headerDepths, Binding.headerDepths, bitDepthOf, toNat_max]
  rw [← largerMinus8]
  by_cases h : picture.largerMinus8 + 8 < 256
  · have hbyte : ¬ 248 ≤ picture.largerMinus8 := by omega
    simp only [h, if_true, hbyte, and_false, iff_false]
    split <;> simp
  · have hbyte : 248 ≤ picture.largerMinus8 := by omega
    simp only [h, if_false, hbyte, and_true, Except.error.injEq]
    exact eq_comm

/-- An error of packing the parameters, with what it says of the picture. -/
inductive Refuses (picture : CodedPicture) (g : Generation) (bind : Binding) : StepError → Prop
  | overflow (h : 248 ≤ picture.largerMinus8) : Refuses picture g bind (.fault .overflow)
  | tooWide {part : ParameterPart} {x : HeaderElement} (hdepth : picture.largerMinus8 < 248)
      (hx : x ∈ picture.elements g bind part) (h : ¬ x.Fits) :
      Refuses picture g bind (.bits (.valueTooWide x.shown x.shape.width))
  | tooManyTiles (hdepth : picture.largerMinus8 < 248) (h : picture.HasTooManyTiles)
      (columns rows : Nat) : Refuses picture g bind (.tooManyTiles columns rows)

theorem Refuses.of_misfit (hdepths : picture.headerDepths bind = .ok depths)
    {part : ParameterPart} {f : BitField} (hf : f ∈ picture.parameterFields g depths part)
    (h : ¬ f.Fits) : picture.Refuses g bind (.bits (.valueTooWide f.shown f.width)) := by
  obtain ⟨hdepth, -⟩ := announcedDepths_of_headerDepths hdepths
  have hpair : (f.shape, f.value) ∈
      (picture.elements g bind part).map fun x => (x.shape, x.value) := by
    rw [map_elements g hdepths part]
    exact List.mem_map_of_mem hf
  obtain ⟨⟨position, shape, value⟩, hx, hsame⟩ := List.mem_map.1 hpair
  cases hsame
  rw [← HeaderElement.shown_eq f position, ← width_shape]
  exact .tooWide hdepth hx (mt (HeaderElement.fits_iff f position).1 h)

theorem Refuses.not_announceable {failure : StepError} (h : picture.Refuses g bind failure) :
    ¬ (picture.largerMinus8 < 248 ∧ picture.Announceable g bind) := by
  rintro ⟨hdepth, hannounceable⟩
  cases h with
  | overflow h => omega
  | tooWide _ hx hnot => exact hnot (hannounceable.fits _ _ hx)
  | tooManyTiles _ hmany => exact hannounceable.tiles hmany

end CodedPicture

inductive ParameterOutcome (g : Generation) (picture : CodedPicture) (bind : Binding) :
    StepResult → Prop
  | packed (depths : UInt8 × UInt8) (bytes : List UInt8)
      (hdepths : picture.headerDepths bind = .ok depths) (hfits : picture.FieldsFit g depths)
      (htiles : picture.TilesAdmitted)
      (hlength : bytes.length = g.parameterWords picture.standard * 8)
      (hbits : bitString bytes = BitField.packed (picture.allFields g depths)) :
      ParameterOutcome g picture bind { edits := [.table parameterOffset bytes] }
  | refused (failure : StepError) (h : picture.Refuses g bind failure) :
      ParameterOutcome g picture bind { failure := some failure }

namespace ParameterOutcome

variable {g : Generation} {picture : CodedPicture} {bind : Binding} {depths : UInt8 × UInt8}

theorem of_table {capacity size : Nat}
    (hwords : (capacity + 63) / 64 = g.parameterWords picture.standard)
    (hsize : parameterOffset + g.parameterWords picture.standard * 8 ≤ size)
    (hdepths : picture.headerDepths bind = .ok depths) (hfits : picture.FieldsFit g depths)
    (htiles : picture.TilesAdmitted) :
    ParameterOutcome g picture bind (.ofExcept
      (packedTable ((BitWriter.ofCapacity capacity).extend (picture.allFields g depths)) size
        parameterOffset)) := by
  rw [← hwords] at hsize
  obtain ⟨bytes, htable, hlength, hbits⟩ := packedTable_of_fits
    (picture.isChecked_allFields g depths) (hwords ▸ picture.totalWidth_allFields g depths)
    ((picture.forall_mem_allFields g depths).2 hfits) hsize
  rw [hwords] at hlength
  rw [htable]
  exact .packed depths bytes hdepths hfits htiles hlength hbits

end ParameterOutcome

namespace Avc

variable {g : Generation} {picture : Picture} {bind : Binding} {size capacity : Nat}

theorem parameterTable_outcome {fields : UInt8 × UInt8 → List BitField}
    (hfields : ∀ depths, fields depths = (CodedPicture.avc picture).allFields g depths)
    (hwords : (capacity + 63) / 64 = g.parameterWords .avc)
    (hsize : parameterOffset + g.parameterWords .avc * 8 ≤ size) :
    ParameterOutcome g (.avc picture) bind
      (parameterTable picture.params bind size capacity fields) := by
  cases hdepths : (CodedPicture.avc picture).headerDepths bind with
  | error f =>
    have hcode : bind.headerDepths picture.params.bitDepthLumaMinus8
      picture.params.bitDepthChromaMinus8 = .error f := hdepths
    simp only [parameterTable, hcode]
    obtain ⟨rfl, hlarger⟩ := CodedPicture.headerDepths_eq_error.1 hdepths
    exact .refused _ (.overflow hlarger)
  | ok depths =>
    have hcode : bind.headerDepths picture.params.bitDepthLumaMinus8
      picture.params.bitDepthChromaMinus8 = .ok depths := hdepths
    have hroom : totalWidth ((CodedPicture.avc picture).allFields g depths) ≤
        (capacity + 63) / 64 * 64 := by
      rw [hwords]
      exact (CodedPicture.avc picture).totalWidth_allFields g depths
    have hchecked := (CodedPicture.avc picture).isChecked_allFields g depths
    simp only [parameterTable, hcode, hfields]
    by_cases hfits : (CodedPicture.avc picture).FieldsFit g depths
    · have hall := ((CodedPicture.avc picture).forall_mem_allFields g depths).2 hfits
      rw [putAll_ofCapacity hchecked hroom hall]
      exact .of_table hwords hsize hdepths hfits trivial
    · have hnot := mt ((CodedPicture.avc picture).forall_mem_allFields g depths).1 hfits
      obtain ⟨f, hf, hmisfit, hput⟩ := putAll_ofCapacity_of_not_fits hchecked hroom hnot
      obtain ⟨part, -, hf⟩ := List.mem_flatMap.1 hf
      rw [hput]
      exact .refused _ (.of_misfit hdepths hf hmisfit)

end Avc

namespace Hevc

def HeaderPart.parameter : HeaderPart → ParameterPart
  | .sequence => .sequence
  | .pictureSet => .pictureSet
  | .tiles => .tiles
  | .current => .current

theorem length_tileSizes (total count : Nat) (uniform : Bool) (explicitMinus1 : List UInt16) :
    (tileSizes total (count + 1) uniform explicitMinus1).length =
      if uniform then count + 1 else min count explicitMinus1.length + 1 := by
  cases uniform <;> simp [tileSizes]

theorem length_tileSizes_le {total count limit : Nat} {uniform : Bool}
    {explicitMinus1 : List UInt16} (hlimit : explicitMinus1.length = limit) :
    (tileSizes total (count + 1) uniform explicitMinus1).length ≤ limit ↔ count + 1 ≤ limit := by
  rw [length_tileSizes, hlimit]
  split <;> omega

variable {p : Params} {bind : Binding} {g : Generation} {depths : UInt8 × UInt8}

theorem length_grid (p : Params) :
    ((grid p).1.length ≤ maxTileColumns ∧ (grid p).2.length ≤ maxTileRows) ↔
      p.TilesAdmitted := by
  unfold grid Params.TilesAdmitted
  by_cases h : p.tilesEnabledFlag = true
  · simp only [h, if_true, true_imp_iff, Params.tileColumns, Params.tileRows]
    rw [length_tileSizes_le (by simp), length_tileSizes_le (by simp)]
  · simp [h, maxTileColumns, maxTileRows]

theorem headerTiles_eq (h : p.ctbLog2Size < 32) : headerTiles p = .ok (grid p) := by
  unfold headerTiles grid
  split <;> simp [Params.tileGrid, Params.sizeInCtbs, h]

theorem tileFields_of_admitted (h : p.ctbLog2Size < 32) (htiles : p.TilesAdmitted) :
    tileFields p = .ok (gridFields p) := by
  have hlength := (length_grid p).2 htiles
  simp only [tileFields, headerTiles_eq h]
  rw [if_neg (by omega)]
  rfl

theorem tileFields_of_not_admitted (h : p.ctbLog2Size < 32) (htiles : ¬ p.TilesAdmitted) :
    tileFields p = .error (.tooManyTiles (grid p).1.length (grid p).2.length) := by
  have hlength := mt (length_grid p).1 htiles
  simp only [tileFields, headerTiles_eq h]
  rw [if_pos (by omega)]

variable {picture : Picture}

theorem fields_of_part (hsize : picture.params.ctbLog2Size < 32)
    (hdepths : (CodedPicture.hevc picture).headerDepths bind = .ok depths) (part : HeaderPart) :
    part.fields picture.params bind =
        .ok ((CodedPicture.hevc picture).parameterFields g depths part.parameter) ∧
        (part = .tiles → picture.params.TilesAdmitted) ∨
      ∃ failure, part.fields picture.params bind = .error failure ∧
        (CodedPicture.hevc picture).Refuses g bind failure := by
  cases part with
  | sequence =>
    have hcode : bind.headerDepths picture.params.bitDepthLumaMinus8
      picture.params.bitDepthChromaMinus8 = .ok depths := hdepths
    simp only [HeaderPart.fields, hcode]
    exact .inl ⟨rfl, nofun⟩
  | tiles =>
    by_cases htiles : picture.params.TilesAdmitted
    · exact .inl ⟨tileFields_of_admitted hsize htiles, fun _ => htiles⟩
    · have hmany : (CodedPicture.hevc picture).HasTooManyTiles :=
        not_not.1 (mt CodedPicture.tilesAdmitted_iff.2 htiles)
      obtain ⟨hdepth, -⟩ := CodedPicture.announcedDepths_of_headerDepths hdepths
      exact .inr ⟨_, tileFields_of_not_admitted hsize htiles, .tooManyTiles hdepth hmany _ _⟩
  | pictureSet | current => exact .inl ⟨rfl, nofun⟩

/-- Parts are packed as a whole if they all fit. -/
theorem packParts_cases (hsize : picture.params.ctbLog2Size < 32)
    (hdepths : (CodedPicture.hevc picture).headerDepths bind = .ok depths) {w : BitWriter}
    {parts : List HeaderPart}
    (hroom : w.position + totalWidth (parts.flatMap fun part =>
      (CodedPicture.hevc picture).parameterFields g depths part.parameter) ≤ w.capacity) :
    packParts picture.params bind w parts = .ok (w.extend (parts.flatMap fun part =>
        (CodedPicture.hevc picture).parameterFields g depths part.parameter)) ∧
        (∀ part ∈ parts,
          ∀ f ∈ (CodedPicture.hevc picture).parameterFields g depths part.parameter, f.Fits) ∧
        (.tiles ∈ parts → picture.params.TilesAdmitted) ∨
      ∃ failure, packParts picture.params bind w parts = .error failure ∧
        (CodedPicture.hevc picture).Refuses g bind failure := by
  induction parts generalizing w with
  | nil => exact .inl ⟨rfl, nofun, nofun⟩
  | cons part parts ih =>
    obtain ⟨hfields, htiles⟩ | ⟨failure, hfailure, hrefuses⟩ :=
      fields_of_part (g := g) hsize hdepths part
    case inr => exact .inr ⟨failure, by simp only [packParts, hfailure], hrefuses⟩
    have hchecked :=
      (CodedPicture.hevc picture).isChecked_parameterFields g depths part.parameter
    rw [List.flatMap_cons, totalWidth_append] at hroom
    simp only [packParts, hfields]
    by_cases hfits : ∀ f ∈ (CodedPicture.hevc picture).parameterFields g depths part.parameter,
        f.Fits
    · have hput := BitWriter.putAll_of_fits (w := w) hchecked hfits (by omega)
      simp only [hput]
      obtain ⟨hrest, hfits', htiles'⟩ | hrefused := ih (by
          rwa [BitWriter.position_extend, BitWriter.capacity_extend, Nat.add_assoc])
      · refine .inl ⟨?_, List.forall_mem_cons.2 ⟨hfits, hfits'⟩, fun hmem => ?_⟩
        · rw [hrest, BitWriter.extend_append, List.flatMap_cons]
        · obtain h | h := List.mem_cons.1 hmem
          · exact htiles h.symm
          · exact htiles' h
      · exact .inr hrefused
    · obtain ⟨f, hf, hmisfit, hput⟩ :=
        BitWriter.putAll_of_not_fits (w := w) hchecked hfits (by omega)
      rw [hput]
      exact .inr ⟨_, rfl, .of_misfit hdepths hf hmisfit⟩

/-- A part with the sequence's sizes is packed before the tiles are looked at, so the side of a
coding tree block is always a word. -/
theorem ctbLog2Size_lt (hfits : ∀ f ∈ sequenceFields p depths, f.Fits) : p.ctbLog2Size < 32 := by
  have hmin : p.log2MinLumaCodingBlockSizeMinus3.toNat < 2 ^ 2 :=
    hfits (.unsigned 2 p.log2MinLumaCodingBlockSizeMinus3.toNat) (by simp [sequenceFields])
  have hdiff : p.log2DiffMaxMinLumaCodingBlockSize.toNat < 2 ^ 2 :=
    hfits (.unsigned 2 p.log2DiffMaxMinLumaCodingBlockSize.toNat) (by simp [sequenceFields])
  simp only [Params.ctbLog2Size]
  omega

theorem packParts_sequence {w : BitWriter} (rest : List HeaderPart)
    (hroom : w.position + 91 ≤ w.capacity) :
    (∃ depths, (CodedPicture.hevc picture).headerDepths bind = .ok depths ∧
        picture.params.ctbLog2Size < 32) ∨
      ∃ failure, packParts picture.params bind w (.sequence :: rest) = .error failure ∧
        (CodedPicture.hevc picture).Refuses g bind failure := by
  cases hdepths : (CodedPicture.hevc picture).headerDepths bind with
  | error f =>
    have hcode : bind.headerDepths picture.params.bitDepthLumaMinus8
      picture.params.bitDepthChromaMinus8 = .error f := hdepths
    obtain ⟨rfl, hlarger⟩ := CodedPicture.headerDepths_eq_error.1 hdepths
    exact .inr ⟨_, by simp only [packParts, HeaderPart.fields, hcode], .overflow hlarger⟩
  | ok depths =>
    have hcode : bind.headerDepths picture.params.bitDepthLumaMinus8
      picture.params.bitDepthChromaMinus8 = .ok depths := hdepths
    by_cases hfits : ∀ f ∈ sequenceFields picture.params depths, f.Fits
    · exact .inl ⟨depths, rfl, ctbLog2Size_lt hfits⟩
    · have hchecked : ∀ f ∈ sequenceFields picture.params depths, f.shape.isChecked = true :=
        (CodedPicture.hevc picture).isChecked_parameterFields g depths .sequence
      have hwidth : totalWidth (sequenceFields picture.params depths) = 91 := by
        simp [totalWidth, sequenceFields, width]
      obtain ⟨f, hf, hmisfit, hput⟩ :=
        BitWriter.putAll_of_not_fits hchecked hfits (hwidth ▸ hroom)
      have hsequence : f ∈ (CodedPicture.hevc picture).parameterFields g depths .sequence := hf
      refine .inr ⟨_, ?_, .of_misfit hdepths hsequence hmisfit⟩
      simp only [packParts, HeaderPart.fields, hcode, hput]

theorem fits_currentFields (p : Params) : ∀ f ∈ currentFields p, f.Fits := by
  simp only [currentFields, List.forall_mem_cons]
  exact ⟨trivial, trivial, ⟨p.currentPoc.le_toInt, p.currentPoc.toInt_lt⟩, nofun⟩

theorem packParts_current (p : Params) (bind : Binding) {w : BitWriter}
    (rest : List HeaderPart) (hroom : w.position + 34 ≤ w.capacity) :
    packParts p bind w (.current :: rest) =
      packParts p bind (w.extend (currentFields p)) rest := by
  have hchecked : ∀ f ∈ currentFields p, f.shape.isChecked = true := by
    simp only [currentFields, List.forall_mem_cons]
    exact ⟨rfl, rfl, rfl, nofun⟩
  have hwidth : totalWidth (currentFields p) = 34 := rfl
  have hput := BitWriter.putAll_of_fits hchecked (fits_currentFields p) (hwidth ▸ hroom)
  simp only [packParts, HeaderPart.fields, hput]

theorem wordCount_packParts {w w' : BitWriter} {parts : List HeaderPart}
    (h : packParts p bind w parts = .ok w') : w'.wordCount = w.wordCount := by
  induction parts generalizing w with
  | nil =>
    cases h
    rfl
  | cons part parts ih =>
    simp only [packParts] at h
    split at h
    · cases h
    split at h
    · cases h
    · rename_i hput
      exact (ih h).trans (BitWriter.wordCount_putAll hput)

/-- The header is packed from the parts of a generation in their order, if it gets as far as the
tiles. -/
theorem parameterTable_outcome {parts : List HeaderPart} {size : Nat}
    (horder : parts.map HeaderPart.parameter = g.parameterOrder .hevc)
    (hsequence :
      (∃ depths, (CodedPicture.hevc picture).headerDepths bind = .ok depths ∧
        picture.params.ctbLog2Size < 32) ∨
      ∃ failure, packParts picture.params bind (.ofCapacity headerBits) parts = .error failure ∧
        (CodedPicture.hevc picture).Refuses g bind failure)
    (hsize : parameterOffset + g.parameterWords .hevc * 8 ≤ size) :
    ParameterOutcome g (.hevc picture) bind (parameterTable picture.params bind size parts) := by
  have hwords : (headerBits + 63) / 64 = g.parameterWords .hevc := by cases g <;> rfl
  have hrefused : ∀ failure,
      packParts picture.params bind (.ofCapacity headerBits) parts = .error failure →
      (CodedPicture.hevc picture).Refuses g bind failure →
      ParameterOutcome g (.hevc picture) bind (parameterTable picture.params bind size parts) := by
    intro failure hfailure hrefuses
    simp only [parameterTable, hfailure]
    exact .refused failure hrefuses
  obtain ⟨depths, hdepths, hword⟩ | ⟨failure, hfailure, hrefuses⟩ := hsequence
  case inr => exact hrefused failure hfailure hrefuses
  have hall : (parts.flatMap fun part =>
      (CodedPicture.hevc picture).parameterFields g depths part.parameter) =
      (CodedPicture.hevc picture).allFields g depths := by
    simp only [CodedPicture.allFields, CodedPicture.standard, ← horder, List.flatMap_map]
  have hroom : (BitWriter.ofCapacity headerBits).position + totalWidth (parts.flatMap fun part =>
      (CodedPicture.hevc picture).parameterFields g depths part.parameter) ≤
        (BitWriter.ofCapacity headerBits).capacity := by
    have hwidth := (CodedPicture.hevc picture).totalWidth_allFields g depths
    rw [hall]
    rwa [BitWriter.position_ofCapacity, Nat.zero_add, BitWriter.capacity,
      BitWriter.wordCount_ofCapacity, hwords]
  obtain ⟨hpacked, hfits, htiles⟩ | ⟨failure, hfailure, hrefuses⟩ :=
    packParts_cases hword hdepths hroom
  case inr => exact hrefused failure hfailure hrefuses
  have hmem : ParameterPart.tiles ∈ parts.map HeaderPart.parameter := by
    rw [horder]
    cases g <;> decide
  obtain ⟨part, hpart, hparameter⟩ := List.mem_map.1 hmem
  have hlisted : HeaderPart.tiles ∈ parts := by
    cases part <;> cases hparameter
    exact hpart
  simp only [parameterTable, hpacked, hall]
  refine .of_table hwords hsize hdepths (fun part hpart => ?_) (htiles hlisted)
  rw [CodedPicture.standard, ← horder] at hpart
  obtain ⟨part', hpart', rfl⟩ := List.mem_map.1 hpart
  exact hfits part' hpart'

end Hevc

open VideoAccel.Avc VideoAccel.Hevc in
/-- In a table buffer with room for the header, both generations and both standards pack it or say
what is wrong with the picture. -/
theorem Generation.parameters_outcome (g : Generation) (picture : CodedPicture) (bind : Binding)
    {size : Nat} (hsize : parameterOffset + g.parameterWords picture.standard * 8 ≤ size) :
    ParameterOutcome g picture bind (g.stepResult picture bind size .parameters) := by
  cases picture with
  | avc picture =>
    cases g with
    | rkv =>
      refine Avc.parameterTable_outcome (fun depths => ?_) rfl hsize
      simp [Rkv.Avc.parameterFields, CodedPicture.allFields, parameterOrder, CodedPicture.standard,
        CodedPicture.parameterFields, sizeBits]
    | vdpu34x =>
      refine Avc.parameterTable_outcome (fun depths => ?_) rfl hsize
      simp [Vdpu34x.Avc.parameterFields, CodedPicture.allFields, parameterOrder,
        CodedPicture.standard, CodedPicture.parameterFields, sizeBits]
  | hevc picture =>
    cases g with
    | rkv =>
      exact Hevc.parameterTable_outcome rfl (packParts_sequence _ (by decide)) hsize
    | vdpu34x =>
      refine Hevc.parameterTable_outcome rfl ?_ hsize
      have hcurrent := packParts_current picture.params bind (w := .ofCapacity headerBits)
        [.sequence, .pictureSet, .tiles] (by decide)
      have hroom : ((BitWriter.ofCapacity headerBits).extend
          (Hevc.currentFields picture.params)).position + 91 ≤
            ((BitWriter.ofCapacity headerBits).extend
              (Hevc.currentFields picture.params)).capacity := by
        rw [BitWriter.position_extend, BitWriter.capacity_extend]
        exact (by decide : 0 + 34 + 91 ≤ 1024)
      rw [Vdpu34x.Hevc.headerParts, hcurrent]
      exact packParts_sequence _ hroom

end VideoAccel
