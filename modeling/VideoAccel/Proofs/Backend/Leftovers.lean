import VideoAccel.Proofs.Backend.Outcomes
import VideoAccel.Proofs.RegisterSet.Leftovers

namespace VideoAccel

variable {σ Pic : Type}

structure RegisterSet.SameStart (a b : RegisterSet RegisterImage) : Prop where
  valid : b.valid = a.valid
  skip : b.skip = a.skip
  patches : b.patches = a.patches
  tables : b.tables.map DeviceBuffer.identity = a.tables.map DeviceBuffer.identity

theorem RegisterSet.Alike.sameStart {a b : RegisterSet RegisterImage} (h : a.Alike b) :
    RegisterSet.SameStart { a with valid := true, skip := false, patches := [] }
      { b with valid := true, skip := false, patches := [] } :=
  ⟨rfl, rfl, rfl, h.tables⟩

namespace Engine

@[simp]
theorem withSets_backend (e : Engine σ) (s : RegisterSets RegisterImage) :
    (e.withSets s).backend = { e.backend with sets := s } := rfl

@[simp]
theorem withSets_frames (e : Engine σ) (s : RegisterSets RegisterImage) :
    (e.withSets s).frames = e.frames := rfl

@[simp]
theorem withSets_device (e : Engine σ) (s : RegisterSets RegisterImage) :
    (e.withSets s).device = e.device := rfl

@[simp]
theorem withSets_withSets (e : Engine σ) (s s' : RegisterSets RegisterImage) :
    (e.withSets s).withSets s' = e.withSets s' := rfl

/-- Filling set `slot` changes it by `f`, whether the register sets are those of `e` or `s`; when it
succeeds, nothing of what the set held is left. -/
structure SameFill (slot : Nat) (e : Engine σ) (s : RegisterSets RegisterImage)
    (a b : RegisterSet RegisterImage) (f : RegisterSet RegisterImage → RegisterSet RegisterImage)
    (r r' : Except BackendError Unit × Engine σ) : Prop where
  sets : r.2.backend.sets = e.backend.sets.modify slot f
  same : r' = (r.1, r.2.withSets (s.modify slot f))
  tables : ∀ set, set.tables.map DeviceBuffer.identity = a.tables.map DeviceBuffer.identity →
    (f set).tables.map DeviceBuffer.identity = a.tables.map DeviceBuffer.identity
  filled : r.1 = .ok () → f b = f a

section

variable {device : Device σ} {strategy : Strategy Pic} {picture : Pic} {t : Task} {slot : Nat}
  {e : Engine σ} {s : RegisterSets RegisterImage} {a b : RegisterSet RegisterImage}

theorem SameFill.of_error {e' : Engine σ}
    (hsets : e'.backend.sets = e.backend.sets) (error : BackendError) :
    SameFill slot e s a b id (.error error, e') (.error error, e'.withSets s) where
  sets := hsets.trans (RegisterSets.modify_id ..).symm
  same := by rw [RegisterSets.modify_id]
  tables _ hset := hset
  filled hok := by cases hok

theorem hasOthersInFlight_withSets (h : e.backend.sets.SameTaken s) :
    { e.backend with sets := s }.hasOthersInFlight = e.backend.hasOthersInFlight := by
  have hcount : { e.backend with sets := s }.tasksInFlight = e.backend.tasksInFlight :=
    h.validCount
  simp only [Backend.hasOthersInFlight, hcount]

theorem bindAux_withSets (h : e.backend.sets.SameTaken s) (device : Device σ)
    (strategy : Strategy Pic) (p : TaskPlan) (slot : Nat) :
    (e.withSets s).bindAux device strategy p slot =
      ((e.bindAux device strategy p slot).1, (e.bindAux device strategy p slot).2.withSets s) := by
  simp only [bindAux, withSets_backend, withSets_device, hasOthersInFlight_withSets h, h.size]
  split
  · rfl
  split
  · rfl
  split <;> rfl

theorem bindMotion_withSets (h : e.backend.sets.SameTaken s) (device : Device σ)
    (strategy : Strategy Pic) (picture : Pic) (t : Task) (refs : List ResolvedRef) :
    (e.withSets s).bindMotion device strategy picture t refs =
      ((e.bindMotion device strategy picture t refs).1,
        (e.bindMotion device strategy picture t refs).2.withSets s) := by
  simp only [bindMotion, withSets_backend, withSets_frames, withSets_device,
    hasOthersInFlight_withSets h]
  split
  · rfl
  split
  · rfl
  split <;> rfl

theorem emit_withSets (ha : e.backend.sets.get? slot = some a) (hb : s.get? slot = some b)
    (hstart : a.SameStart b) (strategy : Strategy Pic) (picture : Pic)
    {bind : DeviceBuffer → Binding}
    (hbind : ∀ x y : DeviceBuffer, y.handle = x.handle → bind y = bind x) :
    ∃ f, SameFill slot e s a b f (e.emit strategy picture slot bind)
      ((e.withSets s).emit strategy picture slot bind) := by
  have hb' : (e.withSets s).backend.sets.get? slot = some b := hb
  have htables := hstart.tables
  simp only [emit, ha, hb']
  cases hx : a.tables with
  | none =>
    rw [hx, Option.map_none, Option.map_eq_none_iff] at htables
    rw [htables]
    exact ⟨id, .of_error rfl _⟩
  | some x =>
    rw [hx, Option.map_some] at htables
    obtain ⟨y, hy, hsame⟩ := Option.map_eq_some_iff.1 htables
    obtain ⟨hhandle, hrest⟩ := Prod.mk.inj hsame
    obtain ⟨hsize, hpurpose⟩ := Prod.mk.inj hrest
    have hzeroed : y.memory.zeroed = x.memory.zeroed := by
      simp only [Memory.zeroed, Memory.mk.injEq, and_true]
      exact ⟨hhandle, hsize⟩
    have hkept := Emission.runSteps_tables strategy picture (bind x) GenerationStep.all
      { image := strategy.generation.blankImage, tables := x.memory.zeroed, patches := a.patches }
    simp only [hy, hbind x y hhandle, hzeroed, hstart.patches]
    generalize Emission.runSteps strategy picture (bind x) GenerationStep.all _ = r at hkept ⊢
    obtain ⟨result, emission⟩ := r
    let f (set : RegisterSet RegisterImage) : RegisterSet RegisterImage :=
      { set with
        registers := emission.image, tables := some { x with memory := emission.tables }
        patches := emission.patches }
    have hf : ∀ set : RegisterSet RegisterImage, { set with
        registers := emission.image, tables := some { y with memory := emission.tables }
        patches := emission.patches } = f set := by
      intro set
      simp only [f, hpurpose]
    simp only [hf]
    have htables : ∀ set, (f set).tables.map DeviceBuffer.identity =
        a.tables.map DeviceBuffer.identity := by
      intro set
      rw [hx, Option.map_some, Option.map_some]
      exact congrArg some (Prod.ext hkept.1 (Prod.ext hkept.2 rfl))
    cases result with
    | error failure => exact ⟨f, rfl, rfl, fun set _ => htables set, fun hok => by cases hok⟩
    | ok _ =>
      refine ⟨f, rfl, rfl, fun set _ => htables set, fun _ => ?_⟩
      simp only [f, hstart.valid, hstart.skip]

theorem fill_withSets (h : e.backend.sets.SameTaken s) (ha : e.backend.sets.get? slot = some a)
    (hb : s.get? slot = some b) (hstart : a.SameStart b) (device : Device σ)
    (strategy : Strategy Pic) (picture : Pic) (t : Task) :
    ∃ f, SameFill slot e s a b f (e.fill device strategy picture t slot)
      ((e.withSets s).fill device strategy picture t slot) := by
  have hplan : (e.withSets s).plan strategy picture t = e.plan strategy picture t := rfl
  simp only [fill, hplan]
  split
  · exact ⟨id, .of_error rfl _⟩
  rename_i p _
  have haux := bindAux_sets device strategy p slot e
  rw [bindAux_withSets h]
  generalize e.bindAux device strategy p slot = r at haux ⊢
  obtain ⟨_ | aux, e₁⟩ := r
  · exact ⟨id, .of_error haux _⟩
  change e₁.backend.sets = e.backend.sets at haux
  rw [← haux] at h ha
  simp only [withSets_frames]
  have hmotion := bindMotion_sets device strategy picture t
    (resolveReferences (strategy.referenceSlots picture) e₁.frames p.output t.output) e₁
  rw [bindMotion_withSets h]
  generalize e₁.bindMotion device strategy picture t _ = r at hmotion ⊢
  obtain ⟨_ | motion, e₂⟩ := r
  · exact ⟨id, .of_error (hmotion.trans haux) _⟩
  change e₂.backend.sets = e₁.backend.sets at hmotion
  rw [← hmotion] at ha
  have hbind : ∀ x y : DeviceBuffer, y.handle = x.handle →
      ({ output := p.output, outputSlot := t.output, stream := p.stream
         streamLength := t.streamLength
         refs := resolveReferences (strategy.referenceSlots picture) e₁.frames p.output t.output
         tables := y.handle, aux, motion, bitDepth := p.bitDepth } : Binding) =
      { output := p.output, outputSlot := t.output, stream := p.stream
        streamLength := t.streamLength
        refs := resolveReferences (strategy.referenceSlots picture) e₁.frames p.output t.output
        tables := x.handle, aux, motion, bitDepth := p.bitDepth } := by
    intro x y hhandle
    rw [hhandle]
  obtain ⟨f, hemit⟩ := emit_withSets ha hb hstart strategy picture hbind
  refine ⟨f, ?_, hemit.same, hemit.tables, hemit.filled⟩
  rw [hemit.sets, hmotion, haux]

theorem fillPicture_withSets (h : e.backend.sets.SameTaken s)
    (ha : e.backend.sets.get? slot = some a) (hb : s.get? slot = some b) (hstart : a.SameStart b)
    (device : Device σ) (t : Task) :
    ∃ f, SameFill slot e s a b f (e.fillPicture device t slot)
      ((e.withSets s).fillPicture device t slot) := by
  simp only [fillPicture, withSets_backend]
  split
  · exact fill_withSets h ha hb hstart device _ _ t
  · exact fill_withSets h ha hb hstart device _ _ t
  · exact ⟨id, .of_error rfl _⟩

end

/-- Two engines that differ at most in what is left over in their register sets. -/
def Alike (e e' : Engine σ) : Prop := ∃ s, e' = e.withSets s ∧ e.backend.sets.Alike s

end Engine

/-- The same answer and the same task, from engines that are alike. -/
def Outcome.Alike (o o' : Outcome σ) : Prop :=
  ∃ s, o' = { o with engine := o.engine.withSets s } ∧ o.engine.backend.sets.Alike s

namespace Engine

section

variable {device : Device σ} {t : Task} {slot : Nat} {e : Engine σ}
  {s : RegisterSets RegisterImage}

/-- Filling a set that was acquired makes the sets alike again, and so does releasing it when it
could not be filled. -/
theorem fillPicture_acquired (h : e.backend.sets.Alike s) {a : RegisterSet RegisterImage}
    (ha : e.backend.sets.get? slot = some a) (device : Device σ) (t : Task) :
    let acquired : RegisterSet RegisterImage → RegisterSet RegisterImage := fun set =>
      { set with valid := true, skip := false, patches := [] }
    let r := (e.withSets (e.backend.sets.modify slot acquired)).fillPicture device t slot
    ∃ s', (e.withSets (s.modify slot acquired)).fillPicture device t slot =
        (r.1, r.2.withSets s') ∧
      (r.2.backend.sets.release slot).Alike (s'.release slot) ∧
      (r.1 = .ok () → r.2.backend.sets.Alike s') := by
  intro acquired r
  obtain ⟨b, hb, hab⟩ := h.get?_eq_some ha
  have htaken : (e.backend.sets.modify slot acquired).SameTaken (s.modify slot acquired) :=
    h.taken.modify slot fun _ _ _ => rfl
  have hacquired : (e.backend.sets.modify slot acquired).get? slot = some (acquired a) ∧
      (s.modify slot acquired).get? slot = some (acquired b) := by
    rw [RegisterSets.get?_modify_self, RegisterSets.get?_modify_self, ha, hb]
    exact ⟨rfl, rfl⟩
  obtain ⟨f, hfill⟩ := fillPicture_withSets
    (e := e.withSets (e.backend.sets.modify slot acquired)) htaken hacquired.1 hacquired.2
    hab.sameStart device t
  have hsets : r.2.backend.sets = e.backend.sets.modify slot (f ∘ acquired) :=
    hfill.sets.trans (RegisterSets.modify_modify ..)
  have hhere : ∀ {a' b'}, e.backend.sets.get? slot = some a' → s.get? slot = some b' →
      a = a' ∧ b = b' := by
    intro a' b' ha' hb'
    exact ⟨Option.some.inj (ha.symm.trans ha'), Option.some.inj (hb.symm.trans hb')⟩
  refine ⟨_, hfill.same, ?_, fun hok => ?_⟩
  · rw [hsets, RegisterSets.modify_modify]
    refine h.modify_release fun a' b' ha' hb' _ => ?_
    obtain ⟨rfl, rfl⟩ := hhere ha' hb'
    exact (hfill.tables (acquired _) hab.tables).trans (hfill.tables (acquired _) rfl).symm
  · rw [hsets, RegisterSets.modify_modify]
    refine h.modify fun a' b' ha' hb' _ => ?_
    obtain ⟨rfl, rfl⟩ := hhere ha' hb'
    rw [Function.comp_apply, Function.comp_apply, hfill.filled hok]
    exact .refl _

theorem generate_alike (h : e.backend.sets.Alike s) (device : Device σ) (t : Task) :
    (e.generate device t).Alike ((e.withSets s).generate device t) := by
  simp only [generate, withSets_backend, h.acquire?]
  split
  · exact ⟨s, rfl, h⟩
  split
  · exact ⟨s, rfl, h⟩
  cases hacquire : e.backend.sets.acquire? with
  | none => exact ⟨s, rfl, h⟩
  | some r =>
    obtain ⟨slot, sets⟩ := r
    obtain ⟨⟨a, ha, _⟩, rfl⟩ := RegisterSets.acquire?_eq_some hacquire
    simp only [Option.map_some]
    by_cases hskip : t.mustSkip e.backend.config = true
    · simp only [hskip, if_true]
      refine ⟨_, rfl, ?_⟩
      simp only [RegisterSets.modify_modify, withSets_backend]
      exact h.modify fun _ _ _ _ hab => .of_skip rfl rfl rfl hab.tables
    · simp only [hskip, Bool.false_eq_true, if_false]
      obtain ⟨s', hsame, hreleased, hfilled⟩ := fillPicture_acquired h ha device t
      rw [withSets_withSets, hsame]
      generalize fillPicture device t slot _ = r at hreleased hfilled ⊢
      obtain ⟨_ | _, e'⟩ := r
      · exact ⟨_, rfl, hreleased⟩
      · exact ⟨_, rfl, hfilled rfl⟩

theorem start_alike (h : e.backend.sets.Alike s) (device : Device σ)
    (ht : ∀ slot, t.slot = some slot → e.backend.sets.isValid slot = true) :
    (e.start device t).Alike ((e.withSets s).start device t) := by
  simp only [start, withSets_backend]
  split
  · exact ⟨s, rfl, h⟩
  cases hslot : t.slot with
  | none => exact ⟨s, rfl, h⟩
  | some slot =>
    obtain ⟨a, ha, hvalid⟩ := (RegisterSets.isValid_iff ..).1 (ht slot hslot)
    obtain ⟨b, hb, hab⟩ := h.get?_eq_some ha
    simp only [ha, hb, hab.skip hvalid]
    cases hskip : a.skip with
    | true => exact ⟨s, rfl, h⟩
    | false =>
      obtain rfl := hab.inUse hvalid hskip
      simp only [Bool.false_eq_true, if_false, submit, withSets_backend, withSets_device]
      split
      · exact ⟨_, rfl, h.release slot⟩
      · exact ⟨s, rfl, h⟩

theorem complete_alike {e' : Engine σ} (h : e.Alike e') (t : Task) (slot : Nat) (skipped : Bool)
    (p : PollOutcome) : (complete t slot skipped p e).Alike (complete t slot skipped p e') := by
  obtain ⟨s, rfl, hsets⟩ := h
  exact ⟨_, rfl, hsets.modify_release fun _ _ _ _ hab => hab.tables⟩

theorem wait_alike (h : e.backend.sets.Alike s) (device : Device σ)
    (ht : ∀ slot, t.slot = some slot → e.backend.sets.isValid slot = true) :
    (e.wait device t).Alike ((e.withSets s).wait device t) := by
  simp only [wait, withSets_backend, withSets_device]
  split
  · exact ⟨s, rfl, h⟩
  cases hslot : t.slot with
  | none => exact ⟨s, rfl, h⟩
  | some slot =>
    obtain ⟨a, ha, hvalid⟩ := (RegisterSets.isValid_iff ..).1 (ht slot hslot)
    obtain ⟨b, hb, hab⟩ := h.get?_eq_some ha
    simp only [ha, hb, Option.any_some, hab.skip hvalid]
    split
    · exact ⟨s, rfl, h⟩
    split <;> apply complete_alike <;> exact ⟨s, rfl, h⟩

theorem control_alike (h : e.backend.sets.Alike s) (c : Control) :
    (e.control c).2.Alike ((e.withSets s).control c).2 := by
  cases c with
  | frameInfo width height depth layout =>
    by_cases hlayout : e.backend.generation.supportsLayout layout = true
    all_goals
      simp only [control, withSets_backend, hlayout, if_true, Bool.false_eq_true, if_false]
      exact ⟨s, rfl, h⟩
  | errorTolerance enabled => exact ⟨s, rfl, h⟩

end

end Engine

end VideoAccel
