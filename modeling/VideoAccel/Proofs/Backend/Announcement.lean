import VideoAccel.Proofs.Backend.Anchoring
import VideoAccel.Proofs.Strategy.Parts

namespace VideoAccel

variable {σ Pic : Type}

structure AnnouncedFormat where
  resolution : Resolution
  bitDepth : Nat
  chromaCode : Nat
  deriving DecidableEq, Repr

def Generation.readFormat (g : Generation) (standard : CodingStandard) (tables : Memory) :
    AnnouncedFormat :=
  let sequence i := ((g.readParameters standard tables .sequence).getD i 0).toNat
  let size i := ((g.readParameters standard tables .size).getD i 0).toNat
  match standard with
  | .avc =>
    { resolution := ⟨(size 0 + 1) * 16, (size 1 + 1) * 16⟩
      bitDepth := max (sequence 3) (sequence 4) + 8
      chromaCode := sequence 2 }
  | .hevc =>
    { resolution := ⟨sequence 1, sequence 2⟩
      bitDepth := max (sequence 3) (sequence 4) + 8
      chromaCode := sequence 0 }

theorem Binding.max_headerDepths {bind : Binding} {luma chroma : UInt8} {depths : UInt8 × UInt8}
    (h : bind.headerDepths luma chroma = .ok depths) :
    max depths.1.toNat depths.2.toNat + 8 = max 8 bind.bitDepth.toNat := by
  simp only [headerDepths] at h
  split at h
  · cases h
  rename_i depth hdepth
  have hlarger := bitDepthOf_ok hdepth
  split at h
  · rename_i hsame
    cases h
    rw [← hsame, hlarger]
    simp only
    omega
  · cases h
    simp only [toNat_sub_min, UInt8.reduceToNat]
    omega

theorem chromaOfCode_code {code : UInt8} (h : code.toNat < 4) :
    (chromaOfCode code).code = code.toNat := by
  have hcases : code.toNat = 0 ∨ code.toNat = 1 ∨ code.toNat = 2 ∨ code.toNat = 3 := by omega
  obtain h | h | h | h := hcases <;>
    simp [chromaOfCode, h, ChromaFormat.ofCode?, ChromaFormat.code]

/-- The format of the picture that its parameters describe. -/
def CodedPicture.format : CodedPicture → Except Fault PictureFormat
  | .avc p => p.params.format
  | .hevc p => p.params.format

theorem CodedPicture.bitDepth_ge {picture : CodedPicture} {format : PictureFormat}
    (h : picture.format = .ok format) : 8 ≤ format.bitDepth.toNat := by
  cases picture with
  | avc p =>
    simp only [CodedPicture.format, Avc.Params.format] at h
    split at h <;> rename_i hdepth <;> cases h
    rw [bitDepthOf_ok hdepth]
    omega
  | hevc p =>
    simp only [CodedPicture.format, Hevc.Params.format] at h
    split at h <;> rename_i hdepth <;> cases h
    rw [bitDepthOf_ok hdepth]
    omega

def Vdpu34x.regionsFor : CodingStandard → List RegionFormula
  | .avc => Vdpu34x.Avc.regions
  | .hevc => Vdpu34x.Hevc.regions

theorem Backend.regions_eq {b : Backend} (h : b.generation = .vdpu34x) :
    b.regions = Vdpu34x.regionsFor b.standard := by
  simp only [regions, h]
  cases b.standard <;> rfl

namespace Generation

variable {g : Generation} {picture : CodedPicture} {bind : Binding} {steps : List GenerationStep}
  {e e' : Emission}

theorem readFormat_of_runSteps (hrun : g.runSteps picture bind steps e = (.ok (), e'))
    (hstep : .parameters ∈ steps) {format : PictureFormat}
    (hformat : picture.format = .ok format) :
    g.readFormat picture.standard e'.tables =
      { resolution := format.resolution, bitDepth := max 8 bind.bitDepth.toNat
        chromaCode := format.chroma.code } := by
  obtain ⟨depths, hdepths, hfits, hread⟩ := readParameters_of_runSteps hrun hstep
  have hdepth := Binding.max_headerDepths hdepths
  cases picture with
  | avc p =>
    have hsequence : ParameterPart.sequence ∈ g.parameterOrder .avc := by cases g <;> decide
    have hsize : ParameterPart.size ∈ g.parameterOrder .avc := by cases g <;> decide
    have hcode : p.params.chromaFormatIdc.toNat < 2 ^ 2 :=
      hfits .sequence hsequence (.unsigned 2 p.params.chromaFormatIdc.toNat)
        (by simp [CodedPicture.parameterFields, Avc.sequenceFields])
    simp only [CodedPicture.format, Avc.Params.format] at hformat
    split at hformat <;> cases hformat
    simp only [CodedPicture.standard] at hread ⊢
    simp only [readFormat, hread .sequence hsequence, hread .size hsize,
      AnnouncedFormat.mk.injEq]
    exact ⟨rfl, hdepth, (chromaOfCode_code hcode).symm⟩
  | hevc p =>
    have hsequence : ParameterPart.sequence ∈ g.parameterOrder .hevc := by cases g <;> decide
    have hcode : p.params.chromaFormatIdc.toNat < 2 ^ 2 :=
      hfits .sequence hsequence (.unsigned 2 p.params.chromaFormatIdc.toNat)
        (by simp [CodedPicture.parameterFields, Hevc.sequenceFields])
    simp only [CodedPicture.format, Hevc.Params.format] at hformat
    split at hformat <;> cases hformat
    simp only [CodedPicture.standard] at hread ⊢
    simp only [readFormat, hread .sequence hsequence, AnnouncedFormat.mk.injEq]
    exact ⟨rfl, hdepth, (chromaOfCode_code hcode).symm⟩

end Generation

theorem max_getD_eq_iff {override : Option UInt8} {depth : UInt8} (h : 8 ≤ depth.toNat) :
    max 8 (override.getD depth).toNat = (override.getD depth).toNat ↔
      ∀ depth, override = some depth → 8 ≤ depth.toNat := by
  cases override with
  | none =>
    simp only [Option.getD_none, reduceCtorEq, false_implies, implies_true, iff_true]
    omega
  | some depth' =>
    simp only [Option.getD_some, Option.some.injEq, forall_eq']
    omega

/-- The auxiliary memory is laid out for the resolution and the chroma format that the header of a
register set announces. It is laid out for the announced depth exactly if no depth below eight bits
is configured: the header announces eight bits for these. -/
structure Backend.Announces (b : Backend) (set : RegisterSet RegisterImage) (key : LayoutKey) :
    Prop where
  inUse : b.aux.key = some key
  layout : b.aux.layout = some (AuxLayout.compute (Vdpu34x.regionsFor b.standard) key)
  header : ∃ tables, set.tables = some tables ∧
    let format := Generation.vdpu34x.readFormat b.standard tables.memory
    format.resolution = key.resolution ∧ format.chromaCode = key.chroma.code ∧
      format.bitDepth = max 8 key.bitDepth.toNat ∧
      (format.bitDepth = key.bitDepth.toNat ↔
        ∀ depth, b.config.bitDepthOverride = some depth → 8 ≤ depth.toNat)

structure SameSettings (b b' : Backend) : Prop where
  standard : b'.standard = b.standard
  generation : b'.generation = b.generation
  bitDepthOverride : b'.config.bitDepthOverride = b.config.bitDepthOverride

theorem Backend.Announces.of_same {b b' : Backend} {set : RegisterSet RegisterImage}
    {key : LayoutKey} (h : b.Announces set key) (hsettings : SameSettings b b')
    (haux : b'.aux = b.aux) : b'.Announces set key where
  inUse := by
    rw [haux]
    exact h.inUse
  layout := by
    rw [haux, hsettings.standard]
    exact h.layout
  header := by
    rw [hsettings.standard, hsettings.bitDepthOverride]
    exact h.header

namespace Engine

variable {device : Device σ} {t : Task} {slot : Nat} {e e' : Engine σ}

/-- A filled set holds what the generation steps made for the depth by which the auxiliary memory is
laid out. -/
theorem fill_layout {strategy : Strategy Pic} {picture : Pic}
    (hregions : strategy.regions.isEmpty = false)
    (h : e.fill device strategy picture t slot = (.ok (), e')) :
    ∃ format set tables bind start emission, strategy.format picture = .ok format ∧
      e'.backend.sets.get? slot = some set ∧ set.tables = some tables ∧
      Emission.runSteps strategy picture bind GenerationStep.all start = (.ok (), emission) ∧
      tables.memory = emission.tables ∧
      bind.bitDepth = e.backend.config.bitDepthOverride.getD format.bitDepth ∧
      e'.backend.aux.key =
        some ⟨format.resolution, bind.bitDepth, format.chroma, e.backend.sets.size⟩ := by
  obtain ⟨p, set, tables, bind, emission, hfilled⟩ := exists_filled h
  obtain ⟨format, hformat, hresolution, hdepth, hchroma⟩ := plan_ok hfilled.plan
  have hbound : bind.bitDepth = p.bitDepth := by rw [hfilled.bound]
  obtain ⟨hempty, -⟩ | ⟨-, -, hkey⟩ := hfilled.aux
  · rw [hregions] at hempty
    cases hempty
  rw [TaskPlan.layoutKey, hresolution, hchroma, ← hbound] at hkey
  exact ⟨format, _, _, bind, _, emission, hformat, hfilled.filled, rfl, hfilled.run, rfl,
    hbound.trans hdepth, hkey⟩

theorem fillPicture_layout (hg : e.backend.generation = .vdpu34x)
    (h : e.fillPicture device t slot = (.ok (), e')) :
    t.picture.standard = e.backend.standard ∧
    ∃ format set tables bind start emission, t.picture.format = .ok format ∧
      e'.backend.sets.get? slot = some set ∧ set.tables = some tables ∧
      Generation.vdpu34x.runSteps t.picture bind GenerationStep.all start = (.ok (), emission) ∧
      tables.memory = emission.tables ∧
      bind.bitDepth = e.backend.config.bitDepthOverride.getD format.bitDepth ∧
      e'.backend.aux.key =
        some ⟨format.resolution, bind.bitDepth, format.chroma, e.backend.sets.size⟩ := by
  simp only [fillPicture, hg] at h
  split at h
  · rename_i hstandard hpicture
    rw [hpicture, hstandard]
    exact ⟨rfl, fill_layout rfl h⟩
  · rename_i hstandard hpicture
    rw [hpicture, hstandard]
    exact ⟨rfl, fill_layout rfl h⟩
  · cases h

theorem Refill.settings (h : Refill device slot e e') : SameSettings e.backend e'.backend where
  standard := by rw [h.backend]
  generation := h.generation
  bitDepthOverride := by rw [h.config]

theorem fillPicture_announces (hg : e.backend.generation = .vdpu34x)
    (hfollows : e.backend.aux.Follows (Vdpu34x.regionsFor e.backend.standard))
    (h : e.fillPicture device t slot = (.ok (), e')) :
    ∃ set key, e'.backend.sets.get? slot = some set ∧ e'.backend.Announces set key := by
  obtain ⟨hstandard, format, set, tables, bind, start, emission, hformat, hset, htables, hrun,
    hmemory, hdepth, hkey⟩ := fillPicture_layout hg h
  have hread := Generation.readFormat_of_runSteps hrun (by decide) hformat
  have haux := fillPicture_aux device t slot e
  have hsettings := (refill_of_fillPicture h).settings
  rw [h, Backend.regions_eq hg] at haux
  refine ⟨set, _, hset, hkey, ?_, tables, htables, ?_⟩
  · rw [hsettings.standard]
    exact hfollows.refreshes haux _ hkey
  · rw [hsettings.standard, hsettings.bitDepthOverride, hmemory, ← hstandard, hread]
    refine ⟨rfl, rfl, rfl, ?_⟩
    simp only [hdepth]
    exact max_getD_eq_iff (CodedPicture.bitDepth_ge hformat)

end Engine

end VideoAccel
