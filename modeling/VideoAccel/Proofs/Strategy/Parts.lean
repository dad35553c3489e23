import VideoAccel.Proofs.Emission.Tables
import VideoAccel.Proofs.Strategy.Footprint
import VideoAccel.Proofs.Strategy.Parameters

namespace VideoAccel

namespace StepResult

def HasOneTable (r : StepResult) : Prop :=
  ∃ (writes : List RegisterWrite) (tables : List Edit),
    r.edits = writes.map .register ++ tables ∧ tables.length ≤ 1

theorem HasOneTable.unique {r : StepResult} (h : r.HasOneTable) {offset offset' : Nat}
    {bytes bytes' : List UInt8} (hmem : .table offset bytes ∈ r.edits)
    (hmem' : .table offset' bytes' ∈ r.edits) : offset' = offset ∧ bytes' = bytes := by
  obtain ⟨writes, tables, hedits, hlength⟩ := h
  have htables : ∀ o b, .table o b ∈ r.edits → .table o b ∈ tables := by
    intro o b hmem
    rw [hedits] at hmem
    obtain hmem | hmem := List.mem_append.1 hmem
    · obtain ⟨w, -, hw⟩ := List.mem_map.1 hmem
      cases hw
    · exact hmem
  match tables, hlength, htables _ _ hmem, htables _ _ hmem' with
  | [edit], _, hmem, hmem' =>
    cases (List.mem_singleton.1 hmem').trans (List.mem_singleton.1 hmem).symm
    exact ⟨rfl, rfl⟩

theorem hasOneTable_ofExcept {r : Except StepError (List Edit)}
    (h : ∀ edits, r = .ok edits → ∃ edit, edits = [edit]) : (ofExcept r).HasOneTable := by
  cases r with
  | ok edits =>
    obtain ⟨edit, rfl⟩ := h edits rfl
    exact ⟨[], [edit], rfl, Nat.le_refl 1⟩
  | error e => exact ⟨[], [], rfl, Nat.zero_le 1⟩

theorem hasOneTable_packRegion (capacity : Nat) (fields : List BitField) (size offset : Nat) :
    (ofExcept (packRegion capacity fields size offset)).HasOneTable := by
  refine hasOneTable_ofExcept fun edits h => ?_
  obtain ⟨bytes, rfl, -⟩ := packRegion_eq_ok h
  exact ⟨_, rfl⟩

theorem HasOneTable.after {r : StepResult} (h : r.HasOneTable) (writes : List RegisterWrite) :
    (r.after (writes.map .register)).HasOneTable := by
  obtain ⟨writes', tables, hedits, hlength⟩ := h
  refine ⟨writes ++ writes', tables, ?_, hlength⟩
  simp [StepResult.after, hedits]

end StepResult

theorem Avc.hasOneTable_parameterTable (p : Params) (bind : Binding) (size capacity : Nat)
    (fields : UInt8 × UInt8 → List BitField) :
    (parameterTable p bind size capacity fields).HasOneTable := by
  unfold parameterTable
  split
  · exact StepResult.hasOneTable_ofExcept nofun
  · rename_i depths _
    exact StepResult.hasOneTable_packRegion capacity (fields depths) size parameterOffset

theorem Hevc.hasOneTable_parameterTable (p : Params) (bind : Binding) (size : Nat)
    (parts : List HeaderPart) : (parameterTable p bind size parts).HasOneTable := by
  refine StepResult.hasOneTable_ofExcept fun edits h => ?_
  split at h
  · cases h
  · exact ⟨_, packedTable_eq_ok h⟩

theorem packedTable_eq_of_failure {w : BitWriter} {size size' offset : Nat}
    (h : (StepResult.ofExcept (packedTable w size offset)).failure = none) (hsize : size ≤ size') :
    packedTable w size' offset = packedTable w size offset := by
  cases hpacked : packedTable w size offset with
  | error failure =>
    rw [hpacked] at h
    cases h
  | ok edits => exact packedTable_mono hpacked hsize

theorem Avc.parameterTable_mono {p : Params} {bind : Binding} {size size' capacity : Nat}
    {fields : UInt8 × UInt8 → List BitField} (hsize : size ≤ size')
    (h : (parameterTable p bind size capacity fields).failure = none) :
    parameterTable p bind size' capacity fields = parameterTable p bind size capacity fields := by
  simp only [parameterTable] at h ⊢
  split
  · rfl
  split
  · rfl
  · rename_i hdepths _ _ hput
    simp only [hdepths, hput] at h
    rw [packedTable_eq_of_failure h hsize]

theorem Hevc.parameterTable_mono {p : Params} {bind : Binding} {size size' : Nat}
    {parts : List HeaderPart} (hsize : size ≤ size')
    (h : (parameterTable p bind size parts).failure = none) :
    parameterTable p bind size' parts = parameterTable p bind size parts := by
  simp only [parameterTable] at h ⊢
  split
  · rfl
  · rename_i hpacked
    simp only [hpacked] at h
    rw [packedTable_eq_of_failure h hsize]

namespace Generation

variable {g : Generation} {picture : CodedPicture} {bind : Binding} {size : Nat}

theorem hasOneTable_parameters :
    (g.stepResult picture bind size .parameters).HasOneTable := by
  cases g <;> cases picture
  · exact Avc.hasOneTable_parameterTable ..
  · exact Hevc.hasOneTable_parameterTable ..
  · exact Avc.hasOneTable_parameterTable ..
  · exact Hevc.hasOneTable_parameterTable ..

theorem hasOneTable_references :
    (g.stepResult picture bind size .references).HasOneTable := by
  have hnone : ∀ failure, StepResult.HasOneTable { failure := some failure } := fun _ =>
    ⟨[], [], rfl, Nat.zero_le 1⟩
  cases g <;> cases picture
  · simp only [stepResult, avc, Rkv.Avc.strategy, Rkv.Avc.step, Rkv.Avc.references]
    split
    · exact hnone _
    · exact (StepResult.hasOneTable_packRegion Rkv.Avc.refFlagsBits _ size _).after _
  · exact (StepResult.hasOneTable_packRegion Hevc.refSetBits _ size _).after _
  · simp only [stepResult, avc, Vdpu34x.Avc.strategy, Vdpu34x.Avc.step, Vdpu34x.Avc.references]
    split
    · exact hnone _
    · exact (StepResult.hasOneTable_packRegion
        (Vdpu34x.Avc.refEntryBits * Avc.maxRefs) _ size _).after _
  · exact (StepResult.hasOneTable_packRegion Hevc.refSetBits _ size _).after _

theorem parts_apart (g : Generation) (standard : CodingStandard) :
    parameterOffset + g.parameterWords standard * 8 ≤ g.refTableOffset standard ∧
      g.refTableOffset standard + g.refTableWords standard * 8 ≤ scalingOffset := by
  cases g <;> cases standard <;> decide

theorem table_unique {step : GenerationStep} {offset offset' : Nat} {bytes bytes' : List UInt8}
    (hmem : .table offset bytes ∈ (g.stepResult picture bind size step).edits)
    (hmem' : .table offset' bytes' ∈ (g.stepResult picture bind size step).edits) :
    offset' = offset ∧ bytes' = bytes := by
  have hmade := (g.made_of_mem picture bind size step _ hmem).table
  have hmade' := (g.made_of_mem picture bind size step _ hmem').table
  cases step with
  | parameters => exact hasOneTable_parameters.unique hmem hmem'
  | references => exact hasOneTable_references.unique hmem hmem'
  | tables =>
    simp only [reduceCtorEq, false_and, false_or, true_and] at hmade hmade'
    exact ⟨hmade'.1.trans hmade.1.symm, Option.some.inj (hmade'.2.symm.trans hmade.2)⟩
  | addresses | geometry =>
    simp only [reduceCtorEq, false_and, or_self] at hmade

variable {steps : List GenerationStep} {e e' : Emission}

theorem read_of_runSteps (hrun : g.runSteps picture bind steps e = (.ok (), e'))
    {step : GenerationStep} (hstep : step ∈ steps) {offset : Nat} {bytes : List UInt8}
    (hmem : .table offset bytes ∈ (g.stepResult picture bind e.tables.size step).edits) :
    e'.tables.read offset bytes.length = bytes := by
  rw [runSteps_ok hrun]
  refine e.read_applyAll_of_stored (List.mem_flatMap.2 ⟨step, hstep, hmem⟩) ?_
    ((of_runSteps_ok hrun hstep).2 offset bytes hmem)
  intro offset' bytes' hmem'
  obtain ⟨step', -, hmem'⟩ := List.mem_flatMap.1 hmem'
  by_cases hsame : step' = step
  · subst hsame
    exact .inl (table_unique hmem hmem')
  · refine .inr ?_
    -- the parts of two steps lie one behind the other
    obtain ⟨hheader, htable⟩ := g.parts_apart picture.standard
    obtain ⟨rfl, rfl, hlength⟩ | ⟨rfl, rfl, hlength⟩ | ⟨rfl, rfl, -⟩ :=
        (g.made_of_mem picture bind _ step _ hmem).table <;>
      obtain ⟨rfl, rfl, hlength'⟩ | ⟨rfl, rfl, hlength'⟩ | ⟨rfl, rfl, -⟩ :=
        (g.made_of_mem picture bind _ step' _ hmem').table <;>
      first | exact absurd rfl hsame | omega

theorem stepResult_parameters_mono
    (h : (g.stepResult picture bind size .parameters).failure = none) {size' : Nat}
    (hsize : size ≤ size') :
    g.stepResult picture bind size' .parameters = g.stepResult picture bind size .parameters := by
  cases g <;> cases picture
  · exact Avc.parameterTable_mono hsize h
  · exact Hevc.parameterTable_mono hsize h
  · exact Avc.parameterTable_mono hsize h
  · exact Hevc.parameterTable_mono hsize h

theorem readParameters_of_runSteps (hrun : g.runSteps picture bind steps e = (.ok (), e'))
    (hstep : .parameters ∈ steps) :
    ∃ depths, picture.headerDepths bind = .ok depths ∧ picture.FieldsFit g depths ∧
      ∀ part ∈ g.parameterOrder picture.standard,
        g.readParameters picture.standard e'.tables part = picture.announced depths part := by
  have hwords := g.parameterWords_le picture.standard
  have hfailure := (of_runSteps_ok hrun hstep).1
  have houtcome : ParameterOutcome g picture bind
      (g.stepResult picture bind e.tables.size .parameters) := by
    have hsame := stepResult_parameters_mono hfailure (Nat.le_add_right e.tables.size refSetOffset)
    exact hsame ▸ g.parameters_outcome picture bind (by omega)
  have hread : ∀ offset bytes, .table offset bytes ∈
      (g.stepResult picture bind e.tables.size .parameters).edits →
      e'.tables.read offset bytes.length = bytes := fun _ _ => read_of_runSteps hrun hstep
  generalize g.stepResult picture bind e.tables.size .parameters = r at *
  cases houtcome with
  | refused failure => cases hfailure
  | packed depths bytes hdepths hfits htiles hlength hbits =>
    refine ⟨depths, hdepths, hfits, fun part hpart => readParameters_of_packed hfits ?_ hpart⟩
    rw [headerBytes, ← hlength, hread parameterOffset bytes List.mem_cons_self, hbits]

end Generation

end VideoAccel
