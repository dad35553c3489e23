import VideoAccel.Proofs.Demand.Header
import VideoAccel.Proofs.Demand.Registers

namespace VideoAccel

/-- The frame has sides of 32 bits, and its planes can be measured with 64. -/
structure Frame.Sized (f : Frame) : Prop where
  width : f.resolution.width < 2 ^ 32
  height : f.resolution.height < 2 ^ 32
  planes : f.lumaSize * f.chroma.sampleRatio.1 < 2 ^ 64

namespace Frame

def planeDemands (f : Frame) : List Demand :=
  [.word 64 f.lumaSize, .word 64 (f.lumaSize * f.chroma.sampleRatio.1),
    .divisor f.chroma.sampleRatio.2]

theorem Sized.luma {f : Frame} (h : f.Sized) : f.lumaSize < 2 ^ 64 := by
  have hplanes := h.planes
  have hone : 1 ≤ f.chroma.sampleRatio.1 := by
    cases f.chroma <;> decide
  calc f.lumaSize = f.lumaSize * 1 := (Nat.mul_one _).symm
    _ ≤ f.lumaSize * f.chroma.sampleRatio.1 := Nat.mul_le_mul_left _ hone
    _ < 2 ^ 64 := hplanes

theorem Sized.allMet {f : Frame} (h : f.Sized) : AllMet f.planeDemands := by
  have hratio : f.chroma.sampleRatio.2 ≠ 0 := by
    cases f.chroma <;> decide
  simp only [planeDemands, allMet_cons, allMet_nil, and_true]
  exact ⟨h.luma, h.planes, hratio⟩

end Frame

def Avc.referenceDemands (p : Params) (bind : Binding) (capacity size offset : Nat)
    (fields : List Int → List BitField) : List Demand :=
  (p.refs.toList.zip bind.refs).flatMap (fun x => wrapDemands p x.1) ++
    match (p.refs.toList.zip bind.refs).mapM fun (r, _) => p.frameNumWrap r with
    | .error _ => []
    | .ok wraps => packRegionDemands capacity (fields wraps) size offset

def Hevc.referenceDemands (p : Params) (bind : Binding) (size : Nat) : List Demand :=
  (p.refLists.flatMap fun list => (list.filterMap id).filter fun e =>
      isMissing p bind.refs e.toNat && e.toNat < maxRefs).map (fun e => .shift 16 e.toNat)
  ++ packRegionDemands refSetBits (refSetFields p bind.refs) size refSetOffset

namespace Generation

def referenceDemands (g : Generation) (picture : CodedPicture) (bind : Binding) (size : Nat) :
    List Demand :=
  match g, picture with
  | .rkv, .avc p =>
    let entries := p.params.refs.toList.zip bind.refs
    (List.range entries.length).map (.shift 16)
    ++ Avc.referenceDemands p.params bind Rkv.Avc.refFlagsBits size Rkv.Avc.refFlagsOffset fun _ =>
        Rkv.Avc.refFlagFields (entries.map (·.1))
  | .vdpu34x, .avc p =>
    let entries := p.params.refs.toList.zip bind.refs
    Avc.referenceDemands p.params bind (Vdpu34x.Avc.refEntryBits * Avc.maxRefs) size refSetOffset
      fun wraps => (entries.zip wraps).flatMap fun ((r, resolved), wrap) =>
        Vdpu34x.Avc.refEntryFields r resolved.valid wrap
  | _, .hevc p => Hevc.referenceDemands p.params bind size

def geometryDemands (g : Generation) (output : Frame) : List Demand :=
  match g with
  | .rkv => output.planeDemands
  | .vdpu34x =>
    let stride := alignUp output.resolution.width 64 / 64 * 16
    let rows := ceilDiv output.resolution.height 16
    [.word 64 output.lumaSize]
    ++ (if output.layout = .compressed then
        alignUpDemands output.resolution.width 64 ++ [.word 64 stride]
        ++ ceilDivDemands 64 output.resolution.height 16 ++ [.word 64 (stride * rows)]
        ++ alignUpDemands (stride * rows) 4096
      else [])
    ++ if output.thumbnail = .downscale then output.planeDemands else []

def stepDemands (g : Generation) (picture : CodedPicture) (bind : Binding) (size : Nat) :
    GenerationStep → List Demand
  | .parameters => g.parameterDemands picture bind size
  | .references => g.referenceDemands picture bind size
  | .geometry => g.geometryDemands bind.output
  | .tables | .addresses => []

def runDemands (g : Generation) (picture : CodedPicture) (bind : Binding) :
    List GenerationStep → Emission → List Demand
  | [], _ => []
  | step :: steps, e =>
    let r := g.stepResult picture bind e.tables.size step
    g.stepDemands picture bind e.tables.size step ++ r.edits.flatMap e.editDemands ++
      match e.run r with
      | (.error _, _) => []
      | (.ok (), e) => g.runDemands picture bind steps e

structure SafeStep (g : Generation) (picture : CodedPicture) (bind : Binding)
    (step : GenerationStep) : Prop where
  demands : AllMet (g.stepDemands picture bind tableBufferSize step)
  failure : ∀ f, (g.stepResult picture bind tableBufferSize step).failure ≠ some (.fault f)

structure SafeRun (g : Generation) (picture : CodedPicture) (bind : Binding)
    (steps : List GenerationStep) (e : Emission) : Prop where
  demands : AllMet (g.runDemands picture bind steps e)
  result : ∀ f, (g.runSteps picture bind steps e).1 ≠ .error (.fault f)

variable {g : Generation} {picture : CodedPicture} {bind : Binding} {steps : List GenerationStep}
  {step : GenerationStep} {e : Emission}

/-- What is to be shown of the steps after a safe one, and when they run at all. -/
theorem safeRun_cons (he : e.Suits g) (hstep : g.SafeStep picture bind step)
    (hrest : ∀ e', (g.stepResult picture bind tableBufferSize step).failure = none →
      e'.Suits g → g.SafeRun picture bind steps e') :
    g.SafeRun picture bind (step :: steps) e := by
  have hfits : (g.stepResult picture bind tableBufferSize step).edits.all e.fits = true :=
    List.all_eq_true.2 fun _ hedit => fits_of_mem he hedit
  have hedits : AllMet ((g.stepResult picture bind tableBufferSize step).edits.flatMap
    e.editDemands) := allMet_edits he
  cases hfailure : (g.stepResult picture bind tableBufferSize step).failure with
  | some failure =>
    have hrun : e.run (g.stepResult picture bind tableBufferSize step) =
        (.error failure, e.applyAll (g.stepResult picture bind tableBufferSize step).edits) := by
      simp only [Emission.run, hfits, hfailure, if_true]
    constructor
    · simp only [runDemands, he.tables, hrun, allMet_append]
      exact ⟨⟨hstep.demands, hedits⟩, allMet_nil⟩
    · intro f herror
      rw [runSteps_cons, he.tables, hrun] at herror
      cases herror
      exact hstep.failure f hfailure
  | none =>
    have hrun : e.run (g.stepResult picture bind tableBufferSize step) =
        (.ok (), e.applyAll (g.stepResult picture bind tableBufferSize step).edits) :=
      Emission.run_eq_ok_iff.2 ⟨⟨hfailure, hfits⟩, rfl⟩
    have hsafe := hrest _ hfailure
      (he.applyAll (g.stepResult picture bind tableBufferSize step).edits)
    constructor
    · simp only [runDemands, he.tables, hrun, allMet_append]
      exact ⟨⟨hstep.demands, hedits⟩, hsafe.demands⟩
    · rw [runSteps_cons, he.tables, hrun]
      exact hsafe.result

theorem safeRun_of_forall (he : e.Suits g) (h : ∀ step ∈ steps, g.SafeStep picture bind step) :
    g.SafeRun picture bind steps e := by
  induction steps generalizing e with
  | nil =>
    refine ⟨allMet_nil, fun f herror => ?_⟩
    cases picture <;> cases herror
  | cons step steps ih =>
    obtain ⟨hstep, hsteps⟩ := List.forall_mem_cons.1 h
    exact safeRun_cons he hstep fun e' _ he' => ih he' hsteps

end Generation

theorem packRegion_ne_fault {capacity size offset : Nat} {fields : List BitField}
    (h : offset ≤ size) (f : Fault) :
    (StepResult.ofExcept (packRegion capacity fields size offset)).failure ≠ some (.fault f) := by
  simp only [packRegion, packedTable, if_neg (Nat.not_lt.2 h)]
  intro hfault
  split at hfault
  · cases hfault
  · split at hfault <;> cases hfault

theorem exists_of_mapM_eq_error {α β ε : Type} {f : α → Except ε β} {l : List α} {error : ε}
    (h : l.mapM f = .error error) : ∃ a ∈ l, f a = .error error := by
  induction l with
  | nil => cases h
  | cons a l ih =>
    rw [List.mapM_cons] at h
    cases ha : f a with
    | error failure =>
      rw [ha] at h
      cases h
      exact ⟨a, List.mem_cons_self, ha⟩
    | ok b =>
      cases hl : l.mapM f with
      | error failure =>
        rw [ha, hl] at h
        cases h
        obtain ⟨a', ha', herror⟩ := ih hl
        exact ⟨a', List.mem_cons_of_mem a ha', herror⟩
      | ok bs =>
        rw [ha, hl] at h
        cases h

def CodedPicture.HasModulus : CodedPicture → Prop
  | .avc p => p.params.log2MaxFrameNumMinus4.toNat < 16
  | .hevc _ => True

namespace Avc

variable {p : Params} {bind : Binding} {capacity size offset : Nat}
  {fields : List Int → List BitField}

theorem allMet_references (h : p.log2MaxFrameNumMinus4.toNat < 16) (hcapacity : capacity ≤ 1024)
    (hoffset : offset ≤ size) : AllMet (referenceDemands p bind capacity size offset fields) := by
  rw [referenceDemands, allMet_append]
  refine ⟨allMet_flatMap fun x _ => allMet_wrap h x.1, ?_⟩
  split
  · exact allMet_nil
  · exact allMet_packRegion hcapacity hoffset _

theorem mapM_frameNumWrap_ne_error (h : p.log2MaxFrameNumMinus4.toNat < 16)
    (entries : List (RefFrame × ResolvedRef)) (f : Fault) :
    (entries.mapM fun (r, _) => p.frameNumWrap r) ≠ .error f := by
  intro herror
  obtain ⟨⟨r, _⟩, -, hwrap⟩ := exists_of_mapM_eq_error herror
  exact frameNumWrap_ne_error h r f hwrap

end Avc

namespace Generation

variable {g : Generation} {picture : CodedPicture} {format : PictureFormat}

theorem parameters_outcome_table (g : Generation) (picture : CodedPicture) (bind : Binding) :
    ParameterOutcome g picture bind (g.stepResult picture bind tableBufferSize .parameters) := by
  have hwords := g.parameterWords_le picture.standard
  have hoffset : refSetOffset ≤ tableBufferSize := by decide
  exact g.parameters_outcome picture bind (by omega)

theorem safe_parameters (h : picture.format = .ok format) (bind : Binding) :
    g.SafeStep picture bind .parameters where
  demands := g.allMet_parameters h bind tableBufferSize
  failure := by
    have houtcome := g.parameters_outcome_table picture bind
    intro f hfault
    generalize g.stepResult picture bind tableBufferSize .parameters = r at houtcome hfault
    cases houtcome with
    | packed => cases hfault
    | refused failure hrefuses =>
      cases hfault
      cases hrefuses with
      | overflow hlarger =>
        rw [CodedPicture.largerMinus8, ← toNat_max] at hlarger
        have hformat := CodedPicture.faultOf_format_eq_some_iff.2 ⟨rfl, hlarger⟩
        rw [h] at hformat
        cases hformat

theorem hasModulus_of_packed {bind : Binding}
    (h : (g.stepResult picture bind tableBufferSize .parameters).failure = none) :
    picture.HasModulus := by
  have houtcome := g.parameters_outcome_table picture bind
  generalize g.stepResult picture bind tableBufferSize .parameters = r at houtcome h
  cases houtcome with
  | refused => cases h
  | packed depths bytes hdepths hfits =>
    cases picture with
    | hevc p => exact trivial
    | avc p =>
      have hsequence : ParameterPart.sequence ∈ g.parameterOrder .avc := by cases g <;> decide
      exact hfits .sequence hsequence (.unsigned 4 p.params.log2MaxFrameNumMinus4.toNat)
        (by simp [CodedPicture.parameterFields, Avc.sequenceFields])

theorem safe_references (h : picture.HasModulus) (bind : Binding) :
    g.SafeStep picture bind .references where
  demands := by
    have hhevc : ∀ p : Hevc.Params, AllMet (Hevc.referenceDemands p bind tableBufferSize) := by
      intro p
      rw [Hevc.referenceDemands, allMet_append]
      refine ⟨allMet_map fun e he => ?_, allMet_packRegion (by decide) (by decide) _⟩
      obtain ⟨_, -, he⟩ := List.mem_flatMap.1 he
      have hlt := of_decide_eq_true (Bool.and_eq_true_iff.1 (List.mem_filter.1 he).2).2
      exact Nat.lt_trans hlt (by decide)
    cases g <;> cases picture
    · refine allMet_append.2 ⟨allMet_map fun i hi => ?_,
        Avc.allMet_references h (by decide) (by decide)⟩
      exact Nat.lt_of_lt_of_le (List.mem_range.1 hi) (Avc.Params.length_zip_refs _ bind)
    · exact hhevc _
    · exact Avc.allMet_references h (by decide) (by decide)
    · exact hhevc _
  failure := by
    intro f
    cases g <;> cases picture
    · simp only [stepResult, avc, Rkv.Avc.strategy, Rkv.Avc.step, Rkv.Avc.references]
      split
      · rename_i herror
        exact absurd herror (Avc.mapM_frameNumWrap_ne_error h _ _)
      · exact packRegion_ne_fault (by decide) f
    · exact packRegion_ne_fault (by decide) f
    · simp only [stepResult, avc, Vdpu34x.Avc.strategy, Vdpu34x.Avc.step, Vdpu34x.Avc.references]
      split
      · rename_i herror
        exact absurd herror (Avc.mapM_frameNumWrap_ne_error h _ _)
      · exact packRegion_ne_fault (by decide) f
    · exact packRegion_ne_fault (by decide) f

theorem safe_tables (g : Generation) (picture : CodedPicture) (bind : Binding) :
    g.SafeStep picture bind .tables where
  demands := allMet_nil
  failure := by
    have htable : ∀ bytes f, (StepResult.ofExcept (scalingTable bytes tableBufferSize)).failure ≠
        some (.fault f) := by
      intro bytes f
      rw [scalingTable]
      split <;> intro hfault <;> cases hfault
    have havc : ∀ (p : Avc.Picture) f,
        (Avc.scalingEdits p tableBufferSize).failure ≠ some (.fault f) := by
      intro p f
      rw [Avc.scalingEdits]
      split
      · intro hfault
        cases hfault
      · exact htable _ f
    have hhevc : ∀ (p : Hevc.Picture) f,
        (Hevc.scalingEdits p tableBufferSize).failure ≠ some (.fault f) := by
      intro p f
      rw [Hevc.scalingEdits]
      split
      · intro hfault
        cases hfault
      · exact htable _ f
    cases g <;> cases picture
    · exact havc _
    · exact hhevc _
    · exact havc _
    · exact hhevc _

theorem safe_addresses (g : Generation) (picture : CodedPicture) (bind : Binding) :
    g.SafeStep picture bind .addresses where
  demands := allMet_nil
  failure f hfault := by cases g <;> cases picture <;> cases hfault

theorem safe_geometry (g : Generation) (picture : CodedPicture) {bind : Binding}
    (h : bind.output.Sized) : g.SafeStep picture bind .geometry where
  failure f hfault := by cases g <;> cases picture <;> cases hfault
  demands := by
    cases g with
    | rkv => exact h.allMet
    | vdpu34x =>
      have hwidth := h.width
      have hheight := h.height
      have hround := alignUp_le bind.output.resolution.width 64
      have hrows : ceilDiv bind.output.resolution.height 16 ≤ bind.output.resolution.height :=
        ceilDiv_le_self _ (by decide)
      have hstride : alignUp bind.output.resolution.width 64 / 64 * 16 ≤ 2 ^ 31 := by omega
      have hheader : alignUp bind.output.resolution.width 64 / 64 * 16 *
          ceilDiv bind.output.resolution.height 16 ≤ 2 ^ 31 * 2 ^ 32 :=
        Nat.mul_le_mul hstride (Nat.le_of_lt (Nat.lt_of_le_of_lt hrows hheight))
      simp only [stepDemands, geometryDemands, allMet_append, allMet_cons, allMet_nil, and_true]
      refine ⟨⟨h.luma, allMet_ite (fun _ => ?_) fun _ => allMet_nil⟩,
        allMet_ite (fun _ => h.allMet) fun _ => allMet_nil⟩
      simp only [allMet_append, allMet_cons, allMet_nil, and_true, Demand.Met]
      exact ⟨⟨⟨⟨allMet_alignUp (by decide) (by omega), by omega⟩,
        allMet_ceilDiv (by decide) (by omega)⟩, by omega⟩, allMet_alignUp (by decide) (by omega)⟩

/-- For a picture whose bit depth is a byte, a whole generation asks for nothing that is not there,
whatever else the picture says. -/
theorem safeRun_all {bind : Binding} {e : Emission} (h : picture.format = .ok format)
    (houtput : bind.output.Sized) (he : e.Suits g) :
    g.SafeRun picture bind GenerationStep.all e := by
  refine safeRun_cons he (safe_parameters h bind) fun e' hpacked he' => safeRun_of_forall he' ?_
  have hmodulus := hasModulus_of_packed hpacked
  simp only [List.forall_mem_cons]
  exact ⟨safe_references hmodulus bind, g.safe_tables picture bind, g.safe_addresses picture bind,
    g.safe_geometry picture houtput, List.forall_mem_nil _⟩

end Generation

end VideoAccel
