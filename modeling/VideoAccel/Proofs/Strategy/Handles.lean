import VideoAccel.Proofs.Emission.Handles
import VideoAccel.Proofs.Strategy.Addresses
import VideoAccel.Proofs.Strategy.Parts

namespace VideoAccel

variable {R : Purpose → UInt32 → UInt32 → Prop} {g : Generation} {bind bind' : Binding}

theorem Edit.alike_refl (edits : List Edit) : List.Forall₂ (Edit.Alike R g) edits edits :=
  List.forall₂_same.2 fun edit _ => .refl edit

theorem tableEdits_alike (h : R .tables bind.tables bind'.tables) {bases : List (Nat × Nat)}
    (hbases : ∀ x ∈ bases, g.purposeOf? x.1 = some .tables) :
    List.Forall₂ (Edit.Alike R g)
      (bases.flatMap fun (reg, offset) =>
        .register (.word reg bind.tables) :: patchEdits reg offset)
      (bases.flatMap fun (reg, offset) =>
        .register (.word reg bind'.tables) :: patchEdits reg offset) := by
  apply forall₂_flatMap
  rintro ⟨reg, offset⟩ hx
  exact .cons (.handle (hbases _ hx) h) (Edit.alike_refl _)

theorem Rkv.addressEdits_alike (h : bind.Alike R bind') {bases : List (Nat × Nat)}
    (hbases : ∀ x ∈ bases, Generation.rkv.purposeOf? x.1 = some .tables) :
    List.Forall₂ (Edit.Alike R .rkv) (addressEdits bind bases) (addressEdits bind' bases) := by
  simp only [addressEdits]
  refine List.rel_append ?_ (tableEdits_alike h.tables hbases)
  rw [h.same]
  exact Edit.alike_refl _

namespace Vdpu34x

theorem motionEdits_alike {motion motion' : MotionBinding} (h : motion.Alike R motion') :
    List.Forall₂ (Edit.Alike R .vdpu34x) (motionEdits motion) (motionEdits motion') := by
  refine .cons (.handle rfl h.current) ?_
  refine forall₂_mapIdx (List.forall₂_take refRegisters h.refs) fun i hi v v' hv => ?_
  have hlt : i < 16 := Nat.lt_of_lt_of_le hi (List.length_take_le _ _)
  exact .handle (purposeOf?_motionRef hlt) hv

theorem regionEdits_alike {aux aux' : AuxBinding} (h : aux.Alike R aux') :
    List.Forall₂ (Edit.Alike R .vdpu34x) (regionEdits aux) (regionEdits aux') := by
  obtain ⟨handle, rfl⟩ : ∃ handle, aux' = { aux with handle } := ⟨_, h.same⟩
  apply forall₂_flatMap
  rintro ⟨id, region⟩ -
  simp only [AuxBinding.locate]
  cases aux.scratch.lookup id with
  | some offset => exact Edit.alike_refl _
  | none =>
    cases aux.layout.region? id with
    | none => exact .nil
    | some place =>
      have hindex : id.index < 11 := by cases id <;> decide
      exact .cons (.handle (purposeOf?_region hindex) h.handle) (Edit.alike_refl _)

theorem addressEdits_alike (h : bind.Alike R bind') {bases : List (Nat × Nat)}
    (hbases : ∀ x ∈ bases, Generation.vdpu34x.purposeOf? x.1 = some .tables) :
    List.Forall₂ (Edit.Alike R .vdpu34x) (addressEdits bind bases) (addressEdits bind' bases) := by
  have hframes : bind'.stream = bind.stream ∧ bind'.output = bind.output ∧
      bind'.refs = bind.refs := by
    rw [h.same]
    exact ⟨rfl, rfl, rfl⟩
  obtain ⟨hstream, houtput, hrefs⟩ := hframes
  simp only [addressEdits, hstream, houtput, hrefs]
  refine List.rel_append (List.rel_append (List.rel_append (Edit.alike_refl _) ?_)
    (tableEdits_alike h.tables hbases)) ?_
  · have hmotion := h.motion
    generalize bind.motion = motion, bind'.motion = motion' at hmotion
    cases hmotion with
    | none => exact .nil
    | some hmotion => exact motionEdits_alike hmotion
  · have haux := h.aux
    generalize bind.aux = aux, bind'.aux = aux' at haux
    cases haux with
    | none => exact .nil
    | some haux => exact regionEdits_alike haux

end Vdpu34x

namespace Generation

variable {picture : CodedPicture} {size size' : Nat} {step : GenerationStep}

theorem purposeOf?_tableBases (g : Generation) (picture : CodedPicture) :
    ∀ x ∈ g.tableBases picture, g.purposeOf? x.1 = some .tables := by
  cases g <;> cases picture <;>
    simp only [tableBases, Rkv.Avc.tableBases, Rkv.Hevc.tableBases, Vdpu34x.Avc.tableBases,
      Vdpu34x.Hevc.tableBases] <;>
    split <;> decide

theorem stepResult_alike (h : bind.Alike R bind') :
    List.Forall₂ (Edit.Alike R g) (g.stepResult picture bind size step).edits
      (g.stepResult picture bind' size step).edits := by
  by_cases hstep : step = .addresses
  · subst hstep
    have hbases := g.purposeOf?_tableBases picture
    cases g <;> cases picture
    · exact Rkv.addressEdits_alike h hbases
    · exact Rkv.addressEdits_alike h hbases
    · exact Vdpu34x.addressEdits_alike h hbases
    · exact Vdpu34x.addressEdits_alike h hbases
  · have hsame : g.stepResult picture bind' size step = g.stepResult picture bind size step := by
      obtain ⟨tables, aux, motion, rfl⟩ :
          ∃ tables aux motion, bind' = { bind with tables, aux, motion } := ⟨_, _, _, h.same⟩
      cases g <;> cases picture <;> cases step <;> first | exact absurd rfl hstep | rfl
    rw [hsame]
    exact Edit.alike_refl _

end Generation

def StepResult.Stable (f : Nat → StepResult) : Prop :=
  ∀ size size', (f size).failure = none → size ≤ size' → f size' = f size

namespace StepResult.Stable

theorem const (r : StepResult) : Stable fun _ => r := fun _ _ _ _ => rfl

theorem packRegion (capacity : Nat) (fields : List BitField) (offset : Nat) :
    Stable fun size => .ofExcept (VideoAccel.packRegion capacity fields size offset) := by
  intro size size' h hsize
  apply congrArg StepResult.ofExcept
  simp only [VideoAccel.packRegion] at h ⊢
  split
  · rfl
  · rename_i hput
    simp only [hput] at h
    exact packedTable_eq_of_failure h hsize

theorem scalingTable (bytes : List UInt8) :
    Stable fun size => .ofExcept (VideoAccel.scalingTable bytes size) := by
  intro size size' h hsize
  simp only [VideoAccel.scalingTable] at h ⊢
  by_cases hroom : size < scalingOffset + bytes.length
  · rw [if_pos hroom] at h
    cases h
  · rw [if_neg hroom, if_neg (by omega)]

theorem after {f : Nat → StepResult} (h : Stable f) (edits : List Edit) :
    Stable fun size => (f size).after edits := by
  intro size size' hfailure hsize
  exact congrArg (fun r : StepResult => r.after edits) (h size size' hfailure hsize)

end StepResult.Stable

namespace Generation

variable {picture : CodedPicture} {size size' : Nat} {step : GenerationStep}

theorem stable_references (g : Generation) (picture : CodedPicture) (bind : Binding) :
    StepResult.Stable fun size => g.stepResult picture bind size .references := by
  cases g <;> cases picture <;>
    simp only [stepResult, avc, hevc, Rkv.Avc.strategy, Rkv.Avc.step, Rkv.Avc.references,
      Vdpu34x.Avc.strategy, Vdpu34x.Avc.step, Vdpu34x.Avc.references]
  · split
    · exact .const _
    · exact (StepResult.Stable.packRegion _ _ _).after _
  · exact (StepResult.Stable.packRegion _ _ _).after _
  · split
    · exact .const _
    · exact (StepResult.Stable.packRegion _ _ _).after _
  · exact (StepResult.Stable.packRegion _ _ _).after _

theorem stable_tables (g : Generation) (picture : CodedPicture) (bind : Binding) :
    StepResult.Stable fun size => g.stepResult picture bind size .tables := by
  cases picture with
  | avc p =>
    have hstep : ∀ size, g.stepResult (.avc p) bind size .tables = Avc.scalingEdits p size :=
      fun _ => by cases g <;> rfl
    simp only [hstep, Avc.scalingEdits]
    split
    · exact .const _
    · exact .scalingTable _
  | hevc p =>
    have hstep : ∀ size, g.stepResult (.hevc p) bind size .tables = Hevc.scalingEdits p size :=
      fun _ => by cases g <;> rfl
    simp only [hstep, Hevc.scalingEdits]
    split
    · exact .const _
    · exact .scalingTable _

theorem stepResult_mono (h : (g.stepResult picture bind size step).failure = none)
    (hsize : size ≤ size') :
    g.stepResult picture bind size' step = g.stepResult picture bind size step := by
  cases step with
  | parameters => exact stepResult_parameters_mono h hsize
  | references => exact stable_references g picture bind size size' h hsize
  | tables => exact stable_tables g picture bind size size' h hsize
  | addresses | geometry => cases g <;> cases picture <;> rfl

variable {steps : List GenerationStep} {e e' o o' : Emission}

theorem respects_stepResult (g : Generation) (picture : CodedPicture) (bind : Binding) (size : Nat)
    (step : GenerationStep) :
    ∀ edit ∈ (g.stepResult picture bind size step).edits, edit.Respects g bind := by
  cases picture with
  | avc p =>
    have hedits := g.avc_respects.edits p bind size step
    cases g <;> exact hedits
  | hevc p =>
    have hedits := g.hevc_respects.edits p bind size step
    cases g <;> exact hedits

theorem runSteps_alike (picture : CodedPicture) (h : bind.Alike R bind') (hstart : e.Alike R g e')
    (hrun : g.runSteps picture bind steps e = (.ok (), o))
    (hrun' : g.runSteps picture bind' steps e' = (.ok (), o')) : o.Alike R g o' := by
  have hedits : ∀ step ∈ steps, List.Forall₂ (Edit.Alike R g)
      (g.stepResult picture bind e.tables.size step).edits
      (g.stepResult picture bind' e'.tables.size step).edits := by
    intro step hstep
    have hfailure := (of_runSteps_ok hrun hstep).1
    have hfailure' := (of_runSteps_ok hrun' hstep).1
    obtain hle | hle := Nat.le_total e.tables.size e'.tables.size
    · rw [← stepResult_mono hfailure hle]
      exact stepResult_alike h
    · rw [← stepResult_mono hfailure' hle]
      exact stepResult_alike h
  have hrespects : ∀ edit ∈ steps.flatMap fun step =>
      (g.stepResult picture bind e.tables.size step).edits, edit.Respects g bind := by
    intro edit hedit
    obtain ⟨step, -, hedit⟩ := List.mem_flatMap.1 hedit
    exact respects_stepResult g picture bind _ step edit hedit
  rw [runSteps_ok hrun, runSteps_ok hrun']
  exact hstart.applyAll (forall₂_flatMap hedits) hrespects

end Generation

def Strategy.Oblivious {Pic : Type} (strategy : Strategy Pic) : Prop :=
  ∀ (R : Purpose → UInt32 → UInt32 → Prop) (picture : Pic) (bind bind' : Binding)
    (steps : List GenerationStep) (e e' o o' : Emission),
    bind.Alike R bind' → e.Alike R strategy.generation e' →
    Emission.runSteps strategy picture bind steps e = (.ok (), o) →
    Emission.runSteps strategy picture bind' steps e' = (.ok (), o') →
      o.Alike R strategy.generation o'

namespace Generation

@[simp]
theorem generation_avc (g : Generation) : g.avc.generation = g := by
  cases g <;> rfl

@[simp]
theorem generation_hevc (g : Generation) : g.hevc.generation = g := by
  cases g <;> rfl

theorem avc_oblivious (g : Generation) : g.avc.Oblivious := by
  intro R p bind bind' steps e e' o o' h hstart hrun hrun'
  rw [generation_avc] at hstart ⊢
  exact runSteps_alike (.avc p) h hstart hrun hrun'

theorem hevc_oblivious (g : Generation) : g.hevc.Oblivious := by
  intro R p bind bind' steps e e' o o' h hstart hrun hrun'
  rw [generation_hevc] at hstart ⊢
  exact runSteps_alike (.hevc p) h hstart hrun hrun'

/-- After the generation steps, a register for addresses is blank or holds a handle that is bound to
the task. -/
theorem get?_of_runSteps {g : Generation} {picture : CodedPicture} {bind : Binding}
    {steps : List GenerationStep} {e e' : Emission} {reg : Nat} {purpose : Purpose}
    {handle : UInt32} (himage : e.image = g.blankImage)
    (hrun : g.runSteps picture bind steps e = (.ok (), e'))
    (hpurpose : g.purposeOf? reg = some purpose) (hget : e'.image.get? reg = some handle) :
    handle = 0 ∨ handle ∈ bind.handles purpose := by
  have hblank : ∀ reg v, e.image.get? reg = some v → v = 0 := by
    rw [himage]
    exact fun _ _ => get?_blankImage
  cases picture with
  | avc =>
    exact Emission.get?_of_runSteps g.avc_respects hblank hrun (g.generation_avc.symm ▸ hpurpose)
      hget
  | hevc =>
    exact Emission.get?_of_runSteps g.hevc_respects hblank hrun (g.generation_hevc.symm ▸ hpurpose)
      hget

end Generation

end VideoAccel
