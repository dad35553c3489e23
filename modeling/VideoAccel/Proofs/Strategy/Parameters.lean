import VideoAccel.Backend.Basic
import VideoAccel.Proofs.Header.Parameters
import VideoAccel.Proofs.Memory.Contents

namespace VideoAccel.Generation

variable {g : Generation} {picture : CodedPicture} {bind : Binding} {e : Emission}

theorem parameterWords_le (g : Generation) (standard : CodingStandard) :
    parameterOffset + g.parameterWords standard * 8 ≤ refSetOffset := by
  cases g <;> cases standard <;> decide

/-- The bytes of the header in a table buffer. -/
def headerBytes (g : Generation) (standard : CodingStandard) (tables : Memory) : List UInt8 :=
  tables.read parameterOffset (g.parameterWords standard * 8)

theorem readParameters_of_packed {tables : Memory} {depths : UInt8 × UInt8}
    (hfits : picture.FieldsFit g depths)
    (hbits : bitString (g.headerBytes picture.standard tables) =
      BitField.packed (picture.allFields g depths)) {part : ParameterPart}
    (hpart : part ∈ g.parameterOrder picture.standard) :
    g.readParameters picture.standard tables part = picture.announced depths part := by
  simp only [headerBytes] at hbits
  rw [readParameters, hbits, picture.read_allFields g depths hfits hpart]

/-- The step leaves a header that reads as the picture announces, or leaves everything as it was. -/
theorem runSteps_parameters (g : Generation) (picture : CodedPicture) (bind : Binding)
    (hsize : tableBufferSize ≤ e.tables.size) :
    (∃ depths e', picture.headerDepths bind = .ok depths ∧ picture.FieldsFit g depths ∧
        picture.TilesAdmitted ∧ g.runSteps picture bind [.parameters] e = (.ok (), e') ∧
        ∀ part ∈ g.parameterOrder picture.standard,
          g.readParameters picture.standard e'.tables part = picture.announced depths part) ∨
      ∃ failure, g.runSteps picture bind [.parameters] e = (.error failure, e) ∧
        picture.Refuses g bind failure := by
  have hwords := g.parameterWords_le picture.standard
  have hoffset : refSetOffset ≤ tableBufferSize := by decide
  have houtcome : ParameterOutcome g picture bind
      (g.stepResult picture bind e.tables.size .parameters) :=
    g.parameters_outcome picture bind (by omega)
  rw [runSteps_singleton]
  generalize g.stepResult picture bind e.tables.size .parameters = r at houtcome
  cases houtcome with
  | packed depths bytes hdepths hfits htiles hlength hbits =>
    have hroom : parameterOffset + bytes.length ≤ e.tables.size := by omega
    refine .inl ⟨depths, e.apply (.table parameterOffset bytes), hdepths, hfits, htiles, ?_, ?_⟩
    · simp [Emission.run, Emission.fits, hroom, Emission.applyAll]
    · refine fun part hpart => readParameters_of_packed hfits ?_ hpart
      rw [headerBytes, ← hlength]
      exact (congrArg bitString (e.tables.read_store_self hroom)).trans hbits
  | refused failure h => exact .inr ⟨failure, rfl, h⟩

/-- A header that was packed has the value of every element at its place. -/
theorem announceable_of_ok (hsize : tableBufferSize ≤ e.tables.size)
    (hok : (g.runSteps picture bind [.parameters] e).1 = .ok ()) :
    (picture.largerMinus8 < 248 ∧ picture.Announceable g bind) ∧
      ∀ part, ∀ x ∈ picture.elements g bind part,
        x.readFrom (g.partStart picture.standard part) (bitString
          (g.headerBytes picture.standard (g.runSteps picture bind [.parameters] e).2.tables)) =
            x.value := by
  obtain ⟨depths, e', hdepths, hfits, htiles, hrun, hread⟩ | ⟨failure, hrun, -⟩ :=
    runSteps_parameters g picture bind hsize
  case inr =>
    rw [hrun] at hok
    cases hok
  obtain ⟨hlarger, -⟩ := CodedPicture.announcedDepths_of_headerDepths hdepths
  have hall := (CodedPicture.fieldsFit_iff g hdepths).1 hfits
  refine ⟨⟨hlarger, hall, CodedPicture.tilesAdmitted_iff.1 htiles⟩, fun part x hx => ?_⟩
  by_cases hpart : part ∈ g.parameterOrder picture.standard
  case neg =>
    rw [CodedPicture.elements_eq_nil bind hpart] at hx
    cases hx
  have hplaces := CodedPicture.map_readFrom_elements g bind hpart
    (bitString (g.headerBytes picture.standard e'.tables))
  have hvalues := (hread part hpart).trans (CodedPicture.values_elements g hdepths part).symm
  rw [hrun]
  exact List.map_inj_left.1 (hplaces.trans hvalues) x hx

theorem refuses_of_error (hsize : tableBufferSize ≤ e.tables.size) {failure : StepError}
    (herror : (g.runSteps picture bind [.parameters] e).1 = .error failure) :
    (g.runSteps picture bind [.parameters] e).2 = e ∧ picture.Refuses g bind failure := by
  obtain ⟨depths, e', -, -, -, hrun, -⟩ | ⟨failure', hrun, hrefuses⟩ :=
    runSteps_parameters g picture bind hsize
  · rw [hrun] at herror
    cases herror
  · rw [hrun] at herror ⊢
    obtain rfl := Except.error.inj herror
    exact ⟨rfl, hrefuses⟩

theorem ok_iff_announceable (hsize : tableBufferSize ≤ e.tables.size) :
    (g.runSteps picture bind [.parameters] e).1 = .ok () ↔
      picture.largerMinus8 < 248 ∧ picture.Announceable g bind := by
  refine ⟨fun hok => (announceable_of_ok hsize hok).1, fun hannounceable => ?_⟩
  cases hr : (g.runSteps picture bind [.parameters] e).1 with
  | ok => rfl
  | error failure =>
    exact absurd hannounceable (refuses_of_error hsize hr).2.not_announceable

/-- The parameter step succeeds exactly when the larger bit depth is a byte, every syntax element
fits its field and there are not too many tiles, and it never fails for want of room. What it packs
is read back from the fixed places of the elements; so pictures with the same header have the same
elements, and both generations announce the same of one picture. -/
theorem parameters_decode (g : Generation) (picture : CodedPicture) (bind : Binding) (e : Emission)
    (hsize : tableBufferSize ≤ e.tables.size) :
    let r := g.runSteps picture bind [.parameters] e
    let header := bitString (g.headerBytes picture.standard r.2.tables)
    (r.1 = .ok () ↔ picture.largerMinus8 < 248 ∧ picture.Announceable g bind) ∧
      (∀ failure, r.1 = .error failure → r.2 = e ∧ picture.Refuses g bind failure) ∧
      (r.1 = .ok () → ∀ part, ∀ x ∈ picture.elements g bind part,
        x.readFrom (g.partStart picture.standard part) header = x.value) ∧
      (∀ (picture' : CodedPicture) (bind' : Binding) (e' : Emission),
        picture'.standard = picture.standard → tableBufferSize ≤ e'.tables.size →
        let r' := g.runSteps picture' bind' [.parameters] e'
        r.1 = .ok () → r'.1 = .ok () →
        g.headerBytes picture.standard r.2.tables = g.headerBytes picture.standard r'.2.tables →
        ∀ part, picture.elements g bind part = picture'.elements g bind' part) ∧
      ∀ (g' : Generation) (bind' : Binding) (e' : Emission), bind'.bitDepth = bind.bitDepth →
        tableBufferSize ≤ e'.tables.size →
        let r' := g'.runSteps picture bind' [.parameters] e'
        let header' := bitString (g'.headerBytes picture.standard r'.2.tables)
        r.1 = .ok () → r'.1 = .ok () → ∀ part,
          (picture.elements g bind part).map
              (fun x => x.readFrom (g.partStart picture.standard part) header) =
            (picture.elements g' bind' part).map
              fun x => x.readFrom (g'.partStart picture.standard part) header' := by
  intro r header
  refine ⟨ok_iff_announceable hsize, fun _ => refuses_of_error hsize,
    fun hok => (announceable_of_ok hsize hok).2, ?_, ?_⟩
  · intro picture' bind' e' hstandard hsize' r' hok hok' hbytes part
    have hread := (announceable_of_ok hsize hok).2 part
    have hread' := (announceable_of_ok hsize' hok').2 part
    have hshapes : (picture.elements g bind part).map HeaderElement.shape =
        (picture'.elements g bind' part).map HeaderElement.shape := by
      rw [CodedPicture.shapes_elements, CodedPicture.shapes_elements, hstandard]
    have hplaces : (picture.elements g bind part).map
          (fun x => x.readFrom (g.partStart picture.standard part) header) =
        (picture'.elements g bind' part).map
          fun x => x.readFrom (g.partStart picture.standard part) header := by
      rw [← HeaderElement.readAll_of_consecutive (picture.consecutive_elements g bind part),
        ← HeaderElement.readAll_of_consecutive (picture'.consecutive_elements g bind' part),
        hshapes]
    rw [hstandard, ← hbytes] at hread'
    refine HeaderElement.eq_of_consecutive (picture.consecutive_elements g bind part)
      (picture'.consecutive_elements g bind' part) hshapes ?_
    exact (List.map_congr_left hread).symm.trans (hplaces.trans (List.map_congr_left hread'))
  · intro g' bind' e' hdepth hsize' r' header' hok hok' part
    have hread := List.map_congr_left ((announceable_of_ok hsize hok).2 part)
    have hread' := List.map_congr_left ((announceable_of_ok hsize' hok').2 part)
    exact hread.trans ((picture.values_elements_eq g g' hdepth part).trans hread'.symm)

/-- Two columns of tiles and a negative picture order count are read back; twenty-one columns are
refused. -/
theorem parameters_decode_tiled :
    let params (columnsMinus1 : UInt8) : Hevc.Params :=
      { picWidthInLumaSamples := 1920, picHeightInLumaSamples := 1080, tilesEnabledFlag := true
        numTileColumnsMinus1 := columnsMinus1, currentPoc := -7 }
    let e : Emission := { image := vdpu34x.blankImage, tables := { handle := 1, size := 4096 } }
    let r (columnsMinus1 : UInt8) :=
      vdpu34x.runSteps (.hevc { params := params columnsMinus1 }) { output := {} } [.parameters] e
    let header := bitString (vdpu34x.headerBytes .hevc (r 1).2.tables)
    tableBufferSize ≤ e.tables.size ∧ (r 1).1 = .ok () ∧
      HeaderElement.readFrom ⟨2, .signed 32, -7⟩ 0 header = -7 ∧
      (Hevc.tileElements (params 1)).map (fun x => x.readFrom 195 header) =
        [15, 15] ++ List.replicate 18 0 ++ [17] ++ List.replicate 21 0 ∧
      (r 20).1 ≠ .ok () ∧ (r 20).2 = e := by
  intro params e r header
  have hsize : tableBufferSize ≤ e.tables.size := by decide
  obtain ⟨hok, -, hread, -⟩ :=
    parameters_decode vdpu34x (.hevc { params := params 1 }) { output := {} } e hsize
  obtain ⟨hok', hrefused, -⟩ :=
    parameters_decode vdpu34x (.hevc { params := params 20 }) { output := {} } e hsize
  have hfits : ∀ part, ∀ x ∈ (CodedPicture.hevc { params := params 1 }).elements vdpu34x
      { output := {} } part, x.Fits := by
    intro part
    cases part <;> decide +kernel
  have haccepted : (r 1).1 = .ok () := hok.2 ⟨by decide, hfits, by decide⟩
  have hnot : (r 20).1 ≠ .ok () := fun h => (hok'.1 h).2.tiles (by decide)
  refine ⟨hsize, haccepted, hread haccepted .current _ (by decide), ?_, hnot, ?_⟩
  · exact (List.map_congr_left (hread haccepted .tiles)).trans (by decide +kernel)
  cases hr : (r 20).1 with
  | ok => exact absurd hr hnot
  | error failure => exact (hrefused failure hr).1

/-- All elements of a picture of 258 bits fit their fields, which announce eight bits, and the step
faults. -/
theorem parameters_fault_of_deep :
    let picture : CodedPicture := .avc { params :=
      { picWidthInMbsMinus1 := 119, frameHeightInMbsMinus1 := 67, bitDepthLumaMinus8 := 250 } }
    let output : Frame :=
      { handle := 100, resolution := { width := 1920, height := 1080 }
        horStride := 1920, verStride := 1088 }
    let bind : Binding := { output, tables := 7 }
    let e : Emission := { image := rkv.blankImage, tables := { handle := 1, size := 4096 } }
    tableBufferSize ≤ e.tables.size ∧ picture.Announceable rkv bind ∧
      rkv.runSteps picture bind [.parameters] e = (.error (.fault .overflow), e) := by
  intro picture output bind e
  have hfits : ∀ part, ∀ x ∈ picture.elements rkv bind part, x.Fits := by
    intro part
    cases part <;> decide +kernel
  exact ⟨by decide, ⟨hfits, nofun⟩, rfl⟩

end VideoAccel.Generation
