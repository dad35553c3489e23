import VideoAccel.Backend.Operations
import VideoAccel.Proofs.Emission.Steps
import VideoAccel.Proofs.Memory.Transfer
import VideoAccel.Proofs.RegisterSet.Occupancy

namespace VideoAccel

variable {σ Pic : Type}

namespace Engine

/-- The buffers of a backend with their group and their source. -/
def holding (e : Engine σ) : Holding σ := ⟨e.backend.owned, e.backend.buffers, e.device⟩

structure Refill (device : Device σ) (slot : Nat) (e e' : Engine σ) : Prop where
  frames : e'.frames = e.frames
  backend : e'.backend =
    { e.backend with
      sets := e'.backend.sets, aux := e'.backend.aux, motion := e'.backend.motion
      buffers := e'.backend.buffers }
  sets : ∃ f, (∀ set, (f set).valid = set.valid ∧ (f set).skip = set.skip) ∧
    e'.backend.sets = e.backend.sets.modify slot f
  busy : e.backend.hasOthersInFlight = true →
    e'.backend.aux = e.backend.aux ∧ e'.backend.motion = e.backend.motion ∧
      e'.backend.buffers = e.backend.buffers ∧ e'.device = e.device
  transfer : Transfer device.memory e.holding e'.holding

namespace Refill

variable {device : Device σ} {slot : Nat} {e e' e'' : Engine σ}

theorem refl (device : Device σ) (slot : Nat) (e : Engine σ) : Refill device slot e e where
  frames := rfl
  backend := rfl
  sets := ⟨id, fun _ => ⟨rfl, rfl⟩, by simp [RegisterSets.modify]⟩
  busy _ := ⟨rfl, rfl, rfl, rfl⟩
  transfer := .refl

theorem isValid (h : Refill device slot e e') (j : Nat) :
    e'.backend.sets.isValid j = e.backend.sets.isValid j := by
  obtain ⟨f, hf, hsets⟩ := h.sets
  rw [hsets]
  exact RegisterSets.isValid_modify _ _ _ f fun set => (hf set).1

theorem size (h : Refill device slot e e') : e'.backend.sets.size = e.backend.sets.size := by
  obtain ⟨f, _, hsets⟩ := h.sets
  rw [hsets, RegisterSets.size_modify]

theorem other (h : Refill device slot e e') {j : Nat} (hj : slot ≠ j) :
    e'.backend.sets.get? j = e.backend.sets.get? j := by
  obtain ⟨f, _, hsets⟩ := h.sets
  rw [hsets, RegisterSets.get?_modify_of_ne _ hj]

theorem skip (h : Refill device slot e e') (j : Nat) :
    (e'.backend.sets.get? j).map (·.skip) = (e.backend.sets.get? j).map (·.skip) := by
  obtain ⟨f, hf, hsets⟩ := h.sets
  rw [hsets, RegisterSets.get?_modify]
  split
  · simp [Function.comp_def, fun set => (hf set).2]
  · rfl

theorem mark (h : Refill device slot e e') : e'.backend.sets.mark = e.backend.sets.mark := by
  obtain ⟨f, hf, hsets⟩ := h.sets
  rw [hsets]
  exact RegisterSets.mark_modify _ _ f hf

theorem submitted (h : Refill device slot e e') : e'.backend.submitted = e.backend.submitted := by
  rw [h.backend]

theorem config (h : Refill device slot e e') : e'.backend.config = e.backend.config := by
  rw [h.backend]

theorem generation (h : Refill device slot e e') :
    e'.backend.generation = e.backend.generation := by
  rw [h.backend]

theorem scratch (h : Refill device slot e e') : e'.backend.scratch = e.backend.scratch := by
  rw [h.backend]

theorem hasOthersInFlight (h : Refill device slot e e') :
    e'.backend.hasOthersInFlight = e.backend.hasOthersInFlight := by
  have hcount : e'.backend.sets.validCount = e.backend.sets.validCount :=
    RegisterSets.validCount_congr h.size h.isValid
  rw [Backend.hasOthersInFlight, Backend.hasOthersInFlight, Backend.tasksInFlight, hcount]
  rfl

theorem trans (h : Refill device slot e e') (h' : Refill device slot e' e'') :
    Refill device slot e e'' where
  frames := h'.frames.trans h.frames
  backend := by rw [h'.backend, h.backend]
  sets := by
    obtain ⟨f, hf, hsets⟩ := h.sets
    obtain ⟨f', hf', hsets'⟩ := h'.sets
    refine ⟨f' ∘ f, fun set => ?_, ?_⟩
    · exact ⟨((hf' _).1).trans (hf set).1, ((hf' _).2).trans (hf set).2⟩
    · rw [hsets', hsets]
      simp [RegisterSets.modify, List.modify_modify_eq]
  busy hbusy := by
    obtain ⟨haux, hmotion, hgroup, hdevice⟩ := h.busy hbusy
    obtain ⟨haux', hmotion', hgroup', hdevice'⟩ := h'.busy (h.hasOthersInFlight.trans hbusy)
    exact ⟨haux'.trans haux, hmotion'.trans hmotion, hgroup'.trans hgroup, hdevice'.trans hdevice⟩
  transfer := h.transfer.trans h'.transfer

end Refill

theorem transfer_aux {device : Device σ} {b : Backend} {s s' : σ} {aux : AuxBuffers}
    {buffers : BufferGroup}
    (h : ∀ held, Transfer device.memory ⟨b.aux.buffers ++ held, b.buffers, s⟩
      ⟨aux.buffers ++ held, buffers, s'⟩) :
    Transfer device.memory ⟨b.owned, b.buffers, s⟩
      ⟨{ b with aux, buffers }.owned, buffers, s'⟩ := by
  have hsort : ∀ (tables aux stores : List DeviceBuffer),
      (tables ++ aux ++ stores).Perm (aux ++ (tables ++ stores)) := by
    intro tables aux stores
    rw [← List.append_assoc]
    exact List.perm_append_comm.append_right stores
  exact ((Transfer.perm (hsort ..)).trans (h _)).trans (Transfer.perm (hsort ..).symm)

theorem transfer_motion {device : Device σ} {b : Backend} {s s' : σ} {motion : MotionPool}
    {buffers : BufferGroup}
    (h : ∀ held, Transfer device.memory ⟨b.motion.stores ++ held, b.buffers, s⟩
      ⟨motion.stores ++ held, buffers, s'⟩) :
    Transfer device.memory ⟨b.owned, b.buffers, s⟩
      ⟨{ b with motion, buffers }.owned, buffers, s'⟩ :=
  ((Transfer.perm List.perm_append_comm).trans (h _)).trans (Transfer.perm List.perm_append_comm)

def refreshAux (device : Device σ) (strategy : Strategy Pic) (p : TaskPlan) (e : Engine σ) :
    Engine σ :=
  let r := e.backend.aux.refresh device.memory strategy.regions
    (p.layoutKey e.backend.sets.size) e.backend.buffers e.device
  { e with
    backend := { e.backend with aux := r.buffers, buffers := r.group }
    device := r.state }

def ensureMotion (device : Device σ) (count size : Nat) (e : Engine σ) : Engine σ :=
  let r := e.backend.motion.ensure device.memory count size e.backend.buffers e.device
  { e with
    backend := { e.backend with motion := r.2.1, buffers := r.2.2.1 }
    device := r.2.2.2 }

/-- Binding auxiliary memory comes to a refresh, or to nothing. While another task is in flight,
only buffers that fit are refreshed. -/
theorem bindAux_eq (device : Device σ) (strategy : Strategy Pic) (p : TaskPlan) (slot : Nat)
    (e : Engine σ) :
    (e.bindAux device strategy p slot).2 = e ∨
      (e.backend.hasOthersInFlight = true →
        e.backend.aux.needsRefresh (p.layoutKey e.backend.sets.size) = false) ∧
        (e.bindAux device strategy p slot).2 = e.refreshAux device strategy p := by
  simp only [bindAux]
  split
  · exact .inl rfl
  split
  · exact .inl rfl
  rename_i hbusy
  refine .inr ⟨fun hothers => ?_, ?_⟩
  · simpa [hothers] using hbusy
  · split <;> rfl

theorem bindMotion_eq (device : Device σ) (strategy : Strategy Pic) (picture : Pic) (t : Task)
    (refs : List ResolvedRef) (e : Engine σ) :
    (e.bindMotion device strategy picture t refs).2 = e ∨
      ∃ size, (e.backend.hasOthersInFlight = true →
        e.backend.motion.needsGrowth (storesNeeded t refs e.frames) size = false) ∧
        (e.bindMotion device strategy picture t refs).2 =
          e.ensureMotion device (storesNeeded t refs e.frames) size := by
  simp only [bindMotion]
  split
  · exact .inl rfl
  rename_i size _
  split
  · exact .inl rfl
  rename_i hbusy
  refine .inr ⟨size, fun hothers => ?_, ?_⟩
  · simpa [hothers] using hbusy
  · split <;> rfl

theorem bindAux_refill (device : Device σ) (strategy : Strategy Pic) (p : TaskPlan) (slot : Nat)
    (e : Engine σ) : Refill device slot e (e.bindAux device strategy p slot).2 := by
  obtain hbind | ⟨hfits, hbind⟩ := e.bindAux_eq device strategy p slot <;> rw [hbind]
  · exact .refl ..
  refine ⟨rfl, rfl, ⟨id, fun _ => ⟨rfl, rfl⟩, by simp [refreshAux, RegisterSets.modify]⟩, ?_, ?_⟩
  · intro hothers
    simp [refreshAux, AuxBuffers.refresh, hfits hothers]
  · exact transfer_aux fun held => AuxBuffers.refresh_transfer ..

theorem bindMotion_refill (device : Device σ) (strategy : Strategy Pic) (picture : Pic) (t : Task)
    (refs : List ResolvedRef) (slot : Nat) (e : Engine σ) :
    Refill device slot e (e.bindMotion device strategy picture t refs).2 := by
  obtain hbind | ⟨size, hfits, hbind⟩ := e.bindMotion_eq device strategy picture t refs <;>
    rw [hbind]
  · exact .refl ..
  refine ⟨rfl, rfl, ⟨id, fun _ => ⟨rfl, rfl⟩, by simp [ensureMotion, RegisterSets.modify]⟩, ?_, ?_⟩
  · intro hothers
    simp [ensureMotion, MotionPool.ensure, hfits hothers]
  · exact transfer_motion fun held => MotionPool.ensure_transfer ..

theorem bindAux_sets (device : Device σ) (strategy : Strategy Pic) (p : TaskPlan) (slot : Nat)
    (e : Engine σ) : (e.bindAux device strategy p slot).2.backend.sets = e.backend.sets := by
  obtain hbind | ⟨_, hbind⟩ := e.bindAux_eq device strategy p slot <;> rw [hbind]
  rfl

theorem bindMotion_sets (device : Device σ) (strategy : Strategy Pic) (picture : Pic) (t : Task)
    (refs : List ResolvedRef) (e : Engine σ) :
    (e.bindMotion device strategy picture t refs).2.backend.sets = e.backend.sets := by
  obtain hbind | ⟨_, _, hbind⟩ := e.bindMotion_eq device strategy picture t refs <;> rw [hbind]
  rfl

theorem transfer_modify {device : Device σ} {e : Engine σ} {slot : Nat}
    {f : RegisterSet RegisterImage → RegisterSet RegisterImage}
    (h : ∀ set, e.backend.sets.get? slot = some set →
      (f set).tables.map DeviceBuffer.identity = set.tables.map DeviceBuffer.identity) :
    Transfer device.memory e.holding (e.withSets (e.backend.sets.modify slot f)).holding := by
  have hmodify : ∀ (sets : List (RegisterSet RegisterImage)) (i : Nat),
      (∀ set, sets[i]? = some set →
        (f set).tables.map DeviceBuffer.identity = set.tables.map DeviceBuffer.identity) →
      (sets.modify i f).filterMap (fun set => set.tables.map DeviceBuffer.identity) =
        sets.filterMap fun set => set.tables.map DeviceBuffer.identity := by
    intro sets
    induction sets with
    | nil => intros; simp
    | cons set sets ih =>
      intro i hi
      cases i with
      | zero => simp [List.filterMap_cons, hi set rfl]
      | succ i => simp [List.filterMap_cons, ih i (by simpa using hi)]
  apply Transfer.sort
  simp only [Backend.owned, withSets, RegisterSets.modify, List.map_append, List.map_filterMap]
  rw [hmodify _ _ h]

theorem modify_refill {device : Device σ} {e : Engine σ} {slot : Nat}
    (f : RegisterSet RegisterImage → RegisterSet RegisterImage)
    (hmarks : ∀ set, (f set).valid = set.valid ∧ (f set).skip = set.skip)
    (h : ∀ set, e.backend.sets.get? slot = some set →
      (f set).tables.map DeviceBuffer.identity = set.tables.map DeviceBuffer.identity) :
    Refill device slot e (e.withSets (e.backend.sets.modify slot f)) where
  frames := rfl
  backend := rfl
  sets := ⟨f, hmarks, rfl⟩
  busy _ := ⟨rfl, rfl, rfl, rfl⟩
  transfer := transfer_modify h

/-- The generation steps change nothing but the contents of the one set, which keeps its table
buffer. -/
theorem emit_eq (strategy : Strategy Pic) (picture : Pic) (slot : Nat)
    (bind : DeviceBuffer → Binding) (e : Engine σ) :
    ∃ f, (∀ set, (f set).valid = set.valid ∧ (f set).skip = set.skip) ∧
      (∀ set, e.backend.sets.get? slot = some set →
        (f set).tables.map DeviceBuffer.identity = set.tables.map DeviceBuffer.identity) ∧
      (e.emit strategy picture slot bind).2 = e.withSets (e.backend.sets.modify slot f) := by
  have hnothing : e = e.withSets (e.backend.sets.modify slot id) := by
    simp [withSets, RegisterSets.modify]
  simp only [emit]
  split
  · exact ⟨id, fun _ => ⟨rfl, rfl⟩, fun _ _ => rfl, hnothing⟩
  rename_i set hset
  split
  · exact ⟨id, fun _ => ⟨rfl, rfl⟩, fun _ _ => rfl, hnothing⟩
  rename_i tables htables
  have hkept := Emission.runSteps_tables strategy picture (bind tables) GenerationStep.all
    { image := strategy.generation.blankImage, tables := tables.memory.zeroed
      patches := set.patches }
  have hsame : ∀ emission : Emission, emission.tables.handle = tables.handle ∧
      emission.tables.size = tables.size → ∀ set', e.backend.sets.get? slot = some set' →
      some (DeviceBuffer.identity { tables with memory := emission.tables }) =
        set'.tables.map DeviceBuffer.identity := by
    intro emission hemission set' hset'
    obtain rfl := Option.some.inj (hset.symm.trans hset')
    simp only [htables, Option.map_some, Option.some.injEq, DeviceBuffer.identity]
    exact Prod.ext hemission.1 (Prod.ext hemission.2 rfl)
  split <;> refine ⟨_, ?_, ?_, rfl⟩
  · exact fun _ => ⟨rfl, rfl⟩
  · exact hsame _ hkept
  · exact fun _ => ⟨rfl, rfl⟩
  · exact hsame _ hkept

theorem emit_refill (device : Device σ) (strategy : Strategy Pic) (picture : Pic) (slot : Nat)
    (bind : DeviceBuffer → Binding) (e : Engine σ) :
    Refill device slot e (e.emit strategy picture slot bind).2 := by
  obtain ⟨f, hmarks, htables, hemit⟩ := emit_eq strategy picture slot bind e
  rw [hemit]
  exact modify_refill f hmarks htables

theorem fill_refill (device : Device σ) (strategy : Strategy Pic) (picture : Pic) (t : Task)
    (slot : Nat) (e : Engine σ) :
    Refill device slot e (e.fill device strategy picture t slot).2 := by
  simp only [fill]
  split
  · exact .refl ..
  rename_i p _
  have haux := e.bindAux_refill device strategy p slot
  split <;> rename_i e₁ hr <;> rw [hr] at haux
  · exact haux
  have hmotion := e₁.bindMotion_refill device strategy picture t
    (resolveReferences (strategy.referenceSlots picture) e₁.frames p.output t.output) slot
  split <;> rename_i e₂ hr <;> rw [hr] at hmotion
  · exact haux.trans hmotion
  · exact (haux.trans hmotion).trans (emit_refill ..)

theorem fillPicture_refill (device : Device σ) (t : Task) (slot : Nat) (e : Engine σ) :
    Refill device slot e (e.fillPicture device t slot).2 := by
  simp only [fillPicture]
  split
  · exact fill_refill ..
  · exact fill_refill ..
  · exact .refl ..

theorem refill_of_fillPicture {device : Device σ} {t : Task} {slot : Nat} {e e' : Engine σ}
    {result : Except BackendError Unit} (h : e.fillPicture device t slot = (result, e')) :
    Refill device slot e e' := by
  have hrefill := fillPicture_refill device t slot e
  rwa [h] at hrefill

section

variable {device : Device σ} {strategy : Strategy Pic} {picture : Pic} {t : Task} {slot : Nat}
  {e e' : Engine σ}

/-- The parts of filling a register set, when none of them fails. -/
theorem fill_ok (h : e.fill device strategy picture t slot = (.ok (), e')) :
    ∃ p aux e₁ motion e₂, e.plan strategy picture t = .ok p ∧
      e.bindAux device strategy p slot = (.ok aux, e₁) ∧
      e₁.bindMotion device strategy picture t
        (resolveReferences (strategy.referenceSlots picture) e₁.frames p.output t.output) =
          (.ok motion, e₂) ∧
      e₂.emit strategy picture slot (fun tables =>
        { output := p.output, outputSlot := t.output, stream := p.stream
          streamLength := t.streamLength
          refs := resolveReferences (strategy.referenceSlots picture) e₁.frames p.output t.output
          tables := tables.handle, aux, motion, bitDepth := p.bitDepth }) = (.ok (), e') := by
  simp only [fill] at h
  split at h
  · cases h
  rename_i p hplan
  split at h
  · cases h
  rename_i aux e₁ haux
  split at h
  · cases h
  rename_i motion e₂ hmotion
  exact ⟨p, aux, e₁, motion, e₂, hplan, haux, hmotion, h⟩

/-- What the generation steps leave in a register set, when none of them fails. -/
theorem emit_ok {bind : DeviceBuffer → Binding}
    (h : e.emit strategy picture slot bind = (.ok (), e')) :
    ∃ set tables emission, e.backend.sets.get? slot = some set ∧ set.tables = some tables ∧
      Emission.runSteps strategy picture (bind tables) GenerationStep.all
          { image := strategy.generation.blankImage, tables := tables.memory.zeroed
            patches := set.patches } = (.ok (), emission) ∧
      e' = e.withSets (e.backend.sets.modify slot fun set =>
        { set with
          registers := emission.image
          tables := some { tables with memory := emission.tables }
          patches := emission.patches }) := by
  simp only [emit] at h
  split at h
  · cases h
  rename_i set hset
  split at h
  · cases h
  rename_i tables htables
  generalize hrun : Emission.runSteps strategy picture (bind tables) GenerationStep.all
    { image := strategy.generation.blankImage, tables := tables.memory.zeroed
      patches := set.patches } = r at h
  obtain ⟨_ | _, emission⟩ := r
  · cases h
  · cases h
    exact ⟨set, tables, emission, hset, htables, hrun, rfl⟩

theorem plan_ok {p : TaskPlan} (h : e.plan strategy picture t = .ok p) :
    ∃ format, strategy.format picture = .ok format ∧ p.resolution = format.resolution ∧
      p.bitDepth = e.backend.config.bitDepthOverride.getD format.bitDepth ∧
      p.chroma = format.chroma := by
  simp only [plan] at h
  split at h
  · cases h
  split at h
  · cases h
  split at h
  · cases h
  split at h
  · cases h
  · rename_i format hformat
    cases h
    exact ⟨format, hformat, rfl, rfl, rfl⟩

theorem plan_output {p : TaskPlan} (h : e.plan strategy picture t = .ok p) :
    e.frames.frame? t.output = some p.output := by
  simp only [plan] at h
  split at h
  · cases h
  rename_i houtput
  split at h
  · cases h
  split at h
  · cases h
  split at h <;> cases h
  exact houtput

end

end Engine

end VideoAccel
