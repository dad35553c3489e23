import VideoAccel.Proofs.Auxiliary.Cache
import VideoAccel.Proofs.Backend.Outcomes
import VideoAccel.Proofs.Memory.Stores

namespace VideoAccel

variable {σ Pic : Type}

/-- The auxiliary regions for the pictures of a backend. -/
def Backend.regions (b : Backend) : List RegionFormula :=
  match b.standard with
  | .avc => b.generation.avc.regions
  | .hevc => b.generation.hevc.regions

def RegisterSet.filledWith (set : RegisterSet RegisterImage) (tables : DeviceBuffer)
    (emission : Emission) : RegisterSet RegisterImage :=
  { set with
    registers := emission.image
    tables := some { tables with memory := emission.tables }
    patches := emission.patches }

theorem le_foldl_max {l : List Nat} {x a : Nat} (h : x ∈ l ∨ x ≤ a) : x ≤ l.foldl max a := by
  induction l generalizing a with
  | nil => exact h.resolve_left List.not_mem_nil
  | cons y l ih =>
    refine ih ?_
    obtain h | h := h
    · obtain rfl | h := List.mem_cons.1 h
      · exact .inr (Nat.le_max_right _ _)
      · exact .inl h
    · exact .inr (Nat.le_trans h (Nat.le_max_left _ _))

namespace Engine

theorem lt_storesNeeded {t : Task} {refs : List ResolvedRef} {frame : Nat}
    (h : frame = t.output ∨ ∃ r ∈ refs, r.slot = frame) (frames : FrameTable) :
    frame < storesNeeded t refs frames := by
  have hle : frame ≤ (refs.map (·.slot)).foldl max t.output := by
    apply le_foldl_max
    obtain rfl | ⟨r, hr, rfl⟩ := h
    · exact .inr (Nat.le_refl _)
    · exact .inl (List.mem_map_of_mem hr)
  exact Nat.lt_of_lt_of_le (Nat.lt_succ_of_le hle) (Nat.le_max_right _ _)

section

variable {device : Device σ} {strategy : Strategy Pic} {picture : Pic} {t : Task} {slot : Nat}
  {e e' : Engine σ}

/-- A strategy without regions binds no auxiliary memory; else the layout in use is the one for the
picture of the task. -/
theorem bindAux_ok {p : TaskPlan} {aux : Option AuxBinding}
    (h : e.bindAux device strategy p slot = (.ok aux, e')) :
    strategy.regions.isEmpty = true ∧ aux = none ∨
      strategy.regions.isEmpty = false ∧ aux = auxBinding? strategy slot e'.backend ∧
        e'.backend.aux.key = some (p.layoutKey e.backend.sets.size) := by
  simp only [bindAux] at h
  split at h
  · rename_i hempty
    cases h
    exact .inl ⟨hempty, rfl⟩
  rename_i hregions
  split at h
  · cases h
  split at h
  · cases h
  · rename_i hok
    cases h
    exact .inr ⟨Bool.eq_false_iff.2 hregions, rfl, AuxBuffers.key_of_refresh hok⟩

/-- Hardware that uses motion vector stores has one for each of the slots that are needed. -/
theorem bindMotion_ok {refs : List ResolvedRef} {motion : Option MotionBinding}
    (h : e.bindMotion device strategy picture t refs = (.ok motion, e')) :
    strategy.motionStoreSize picture = none ∧ motion = none ∨
      (strategy.motionStoreSize picture).isSome = true ∧
        motion = some (motionBinding t refs e'.backend.motion) ∧
        storesNeeded t refs e.frames ≤ e'.backend.motion.stores.length := by
  simp only [bindMotion] at h
  split at h
  · rename_i hnone
    cases h
    exact .inl ⟨hnone, rfl⟩
  rename_i hsize
  split at h
  · cases h
  split at h
  · cases h
  · rename_i hresult
    cases h
    refine .inr ⟨?_, rfl, (MotionPool.ensure_ok (Prod.ext hresult rfl)).1⟩
    rw [hsize]
    rfl

end

theorem bindAux_aux (device : Device σ) (strategy : Strategy Pic) (p : TaskPlan) (slot : Nat)
    (e : Engine σ) :
    AuxBuffers.Refreshes device.memory strategy.regions e.backend.sets.size e.backend.aux
      (e.bindAux device strategy p slot).2.backend.aux := by
  obtain hbind | ⟨_, hbind⟩ := e.bindAux_eq device strategy p slot <;> rw [hbind]
  · exact .inl rfl
  · exact .inr ⟨_, _, _, rfl, rfl⟩

theorem bindMotion_aux (device : Device σ) (strategy : Strategy Pic) (picture : Pic) (t : Task)
    (refs : List ResolvedRef) (e : Engine σ) :
    (e.bindMotion device strategy picture t refs).2.backend.aux = e.backend.aux := by
  obtain hbind | ⟨_, _, hbind⟩ := e.bindMotion_eq device strategy picture t refs <;> rw [hbind]
  rfl

theorem emit_aux (strategy : Strategy Pic) (picture : Pic) (slot : Nat)
    (bind : DeviceBuffer → Binding) (e : Engine σ) :
    (e.emit strategy picture slot bind).2.backend.aux = e.backend.aux := by
  obtain ⟨f, _, _, hemit⟩ := emit_eq strategy picture slot bind e
  rw [hemit]
  rfl

/-- All that a task finds and leaves when register set `slot` is filled for it without a failure:
`bind` is what it is bound to, in terms of the buffers that the backend has afterwards. -/
structure Filled (strategy : Strategy Pic) (picture : Pic) (t : Task) (slot : Nat)
    (e e' : Engine σ) (p : TaskPlan) (set : RegisterSet RegisterImage) (tables : DeviceBuffer)
    (bind : Binding) (emission : Emission) : Prop where
  plan : e.plan strategy picture t = .ok p
  found : e.backend.sets.get? slot = some set
  stored : set.tables = some tables
  bound : bind =
    { output := p.output, outputSlot := t.output, stream := p.stream, streamLength := t.streamLength
      refs := resolveReferences (strategy.referenceSlots picture) e.frames p.output t.output
      tables := tables.handle, aux := bind.aux, motion := bind.motion, bitDepth := p.bitDepth }
  aux : strategy.regions.isEmpty = true ∧ bind.aux = none ∨
    strategy.regions.isEmpty = false ∧ bind.aux = auxBinding? strategy slot e'.backend ∧
      e'.backend.aux.key = some (p.layoutKey e.backend.sets.size)
  motion : strategy.motionStoreSize picture = none ∧ bind.motion = none ∨
    (strategy.motionStoreSize picture).isSome = true ∧
      bind.motion = some (motionBinding t bind.refs e'.backend.motion) ∧
      storesNeeded t bind.refs e.frames ≤ e'.backend.motion.stores.length
  run : Emission.runSteps strategy picture bind GenerationStep.all
    { image := strategy.generation.blankImage, tables := tables.memory.zeroed
      patches := set.patches } = (.ok (), emission)
  filled : e'.backend.sets.get? slot = some (set.filledWith tables emission)

theorem exists_filled {device : Device σ} {strategy : Strategy Pic} {picture : Pic} {t : Task}
    {slot : Nat} {e e' : Engine σ}
    (h : e.fill device strategy picture t slot = (.ok (), e')) :
    ∃ p set tables bind emission,
      Filled strategy picture t slot e e' p set tables bind emission := by
  obtain ⟨p, aux, e₁, motion, e₂, hplan, haux, hmotion, hemit⟩ := fill_ok h
  obtain ⟨set, tables, emission, hset, htables, hrun, rfl⟩ := emit_ok hemit
  have hbefore := bindAux_refill device strategy p slot e
  have hbetween := bindMotion_refill device strategy picture t
    (resolveReferences (strategy.referenceSlots picture) e₁.frames p.output t.output) slot e₁
  have hsets := bindAux_sets device strategy p slot e
  have hsets' := bindMotion_sets device strategy picture t
    (resolveReferences (strategy.referenceSlots picture) e₁.frames p.output t.output) e₁
  have hlayout := bindMotion_aux device strategy picture t
    (resolveReferences (strategy.referenceSlots picture) e₁.frames p.output t.output) e₁
  rw [haux] at hbefore hsets
  rw [hmotion] at hbetween hsets' hlayout
  change e₂.backend.aux = e₁.backend.aux at hlayout
  have hframes : e₁.frames = e.frames := hbefore.frames
  rw [hframes] at hmotion hrun
  have hfound : e.backend.sets.get? slot = some set := by
    rw [← hset, hsets', hsets]
  refine ⟨p, set, tables, _, emission, hplan, hfound, htables, rfl, ?_, ?_, hrun, ?_⟩
  · obtain hnone | ⟨hregions, hbound, hkey⟩ := bindAux_ok haux
    · exact .inl hnone
    -- the auxiliary memory was bound before the motion vector stores were exchanged
    · have hscratch : e₂.backend.scratch = e₁.backend.scratch := hbetween.scratch
      refine .inr ⟨hregions, ?_, ?_⟩
      · simp only [auxBinding?, hlayout, hscratch, withSets] at hbound ⊢
        exact hbound
      · rw [← hkey, ← hlayout]
        rfl
  · obtain hnone | ⟨hsize, hbound, hstores⟩ := bindMotion_ok hmotion
    · exact .inl hnone
    · rw [hframes] at hstores
      exact .inr ⟨hsize, hbound, hstores⟩
  · exact (RegisterSets.get?_modify_self ..).trans (congrArg _ hset)

/-- The generation steps write to the table buffer and put no other one in its place. -/
theorem Filled.handle {strategy : Strategy Pic} {picture : Pic} {t : Task} {slot : Nat}
    {e e' : Engine σ} {p : TaskPlan} {set : RegisterSet RegisterImage} {tables : DeviceBuffer}
    {bind : Binding} {emission : Emission}
    (h : Filled strategy picture t slot e e' p set tables bind emission) :
    emission.tables.handle = tables.handle := by
  have hkept := Emission.runSteps_tables strategy picture bind GenerationStep.all
    { image := strategy.generation.blankImage, tables := tables.memory.zeroed
      patches := set.patches }
  rw [h.run] at hkept
  exact hkept.1

theorem fill_aux (device : Device σ) (strategy : Strategy Pic) (picture : Pic) (t : Task)
    (slot : Nat) (e : Engine σ) :
    AuxBuffers.Refreshes device.memory strategy.regions e.backend.sets.size e.backend.aux
      (e.fill device strategy picture t slot).2.backend.aux := by
  simp only [fill]
  split
  · exact .inl rfl
  rename_i p _
  have haux := bindAux_aux device strategy p slot e
  split <;> rename_i e₁ hr <;> rw [hr] at haux
  · exact haux
  have hmotion := e₁.bindMotion_aux device strategy picture t
    (resolveReferences (strategy.referenceSlots picture) e₁.frames p.output t.output)
  split <;> rename_i e₂ hr <;> rw [hr] at hmotion
  · rw [hmotion]
    exact haux
  · rw [emit_aux]
    exact hmotion ▸ haux

theorem fillPicture_aux (device : Device σ) (t : Task) (slot : Nat) (e : Engine σ) :
    AuxBuffers.Refreshes device.memory e.backend.regions e.backend.sets.size e.backend.aux
      (e.fillPicture device t slot).2.backend.aux := by
  simp only [fillPicture]
  split
  · rename_i hstandard _
    simp only [Backend.regions, hstandard]
    exact fill_aux ..
  · rename_i hstandard _
    simp only [Backend.regions, hstandard]
    exact fill_aux ..
  · exact .inl rfl

theorem generate_aux (device : Device σ) (t : Task) (e : Engine σ) :
    AuxBuffers.Refreshes device.memory e.backend.regions e.backend.sets.size e.backend.aux
      (e.generate device t).engine.backend.aux := by
  have hgen := generated device t e
  generalize e.generate device t = o at hgen
  cases hgen with
  | refused | bypassed => exact .inl rfl
  | @failed slot sets _ _ _ _ hacquire hfill _ | @filled slot sets _ _ _ hacquire hfill =>
    have haux := fillPicture_aux device t slot (e.withSets sets)
    have hsize : (e.withSets sets).backend.sets.size = e.backend.sets.size :=
      RegisterSets.size_acquire? hacquire
    rw [hfill, hsize] at haux
    exact haux

theorem start_aux (device : Device σ) (t : Task) (e : Engine σ) :
    (e.start device t).engine.backend.aux = e.backend.aux := by
  have hstart := started device t e
  generalize e.start device t = o at hstart
  cases hstart <;> rfl

theorem wait_aux (device : Device σ) (t : Task) (e : Engine σ) :
    (e.wait device t).engine.backend.aux = e.backend.aux := by
  have hwait := waited device t e
  generalize e.wait device t = o at hwait
  cases hwait <;> rfl

theorem control_aux (c : Control) (e : Engine σ) :
    (e.control c).2.backend.aux = e.backend.aux := by
  obtain ⟨config, frames, hsame, -⟩ := control_eq c e
  rw [hsame]

end Engine

end VideoAccel
