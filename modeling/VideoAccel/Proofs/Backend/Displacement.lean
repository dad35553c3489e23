import VideoAccel.Proofs.Backend.Motion
import VideoAccel.Proofs.Strategy.Handles

namespace VideoAccel

variable {σ Pic : Type}

namespace RegisterSets

variable {α : Type} {s s' : RegisterSets α} {slot : Nat}

theorem one_lt_validCount_acquire? (h : s.acquire? = some (slot, s')) :
    1 < s'.validCount ↔ ∃ other, s.isValid other = true := by
  have htaken := (isValid_acquire? h slot).2 (.inr rfl)
  constructor
  · intro hlt
    by_contra hnone
    have hfree : ∀ i, s.isValid i = false := fun i =>
      Bool.eq_false_iff.2 fun hi => hnone ⟨i, hi⟩
    have hone : s'.validCount = s.validCount + 1 := by
      refine validCount_of_taken slot (hfree slot) htaken fun i hi => ?_
      rw [isValid_eq_of_get? (get?_acquire?_of_ne h (Ne.symm hi))]
    rw [hone, validCount_eq_zero hfree] at hlt
    exact Nat.lt_irrefl _ hlt
  · rintro ⟨other, hother⟩
    refine one_lt_validCount ((isValid_acquire? h other).2 (.inl hother)) htaken ?_
    rintro rfl
    rw [not_isValid_of_acquire? h] at hother
    cases hother

end RegisterSets

namespace BackendError

theorem ofAlloc_ne_layoutBusy (e : AllocError) : ofAlloc e ≠ .layoutBusy := by
  cases e <;> simp [ofAlloc]

theorem ofStep_ne_layoutBusy (e : StepError) : ofStep e ≠ .layoutBusy := by
  cases e <;> simp [ofStep]

end BackendError

theorem Backend.regions_isEmpty_iff {b : Backend} :
    b.regions.isEmpty = true ↔ b.generation = .rkv := by
  rw [regions]
  cases b.generation <;> cases b.standard <;> decide

namespace Engine

def changesLayout (strategy : Strategy Pic) (p : TaskPlan) (e : Engine σ) : Bool :=
  !strategy.regions.isEmpty && e.backend.aux.needsRefresh (p.layoutKey e.backend.sets.size)

def changesStores (strategy : Strategy Pic) (picture : Pic) (t : Task) (refs : List ResolvedRef)
    (e : Engine σ) : Bool :=
  (strategy.motionStoreSize picture).any fun size =>
    e.backend.motion.needsGrowth (storesNeeded t refs e.frames) size

section

variable {device : Device σ} {strategy : Strategy Pic} {picture : Pic} {t : Task} {slot : Nat}
  {e e' : Engine σ}

theorem plan_ne_layoutBusy : e.plan strategy picture t ≠ .error .layoutBusy := by
  intro h
  simp only [plan] at h
  split at h
  · cases h
  split at h
  · cases h
  split at h
  · cases h
  split at h <;> cases h

/-- The auxiliary buffers refuse a task exactly if they would have to be exchanged while others are
in flight. -/
theorem bindAux_busy_iff (device : Device σ) (strategy : Strategy Pic) (p : TaskPlan) (slot : Nat)
    (e : Engine σ) :
    (e.bindAux device strategy p slot).1 = .error .layoutBusy ↔
      e.backend.hasOthersInFlight = true ∧ e.changesLayout strategy p = true := by
  simp only [bindAux, changesLayout]
  split
  · rename_i hempty
    simp [hempty]
  rename_i hregions
  simp only [hregions, Bool.not_false, Bool.true_and]
  split
  · rename_i hbusy
    simpa using hbusy
  rename_i hbusy
  simp only [Bool.and_eq_true] at hbusy
  split
  · simp only [hbusy, iff_false]
    exact fun h => BackendError.ofAlloc_ne_layoutBusy _ (Except.error.inj h)
  · simp [hbusy]

theorem bindMotion_busy_iff (device : Device σ) (strategy : Strategy Pic) (picture : Pic) (t : Task)
    (refs : List ResolvedRef) (e : Engine σ) :
    (e.bindMotion device strategy picture t refs).1 = .error .layoutBusy ↔
      e.backend.hasOthersInFlight = true ∧ e.changesStores strategy picture t refs = true := by
  simp only [bindMotion, changesStores]
  split
  · rename_i hnone
    simp [hnone]
  rename_i size hsize
  simp only [hsize, Option.any_some]
  split
  · rename_i hbusy
    simpa using hbusy
  rename_i hbusy
  simp only [Bool.and_eq_true] at hbusy
  split
  · simp only [hbusy, iff_false]
    exact fun h => BackendError.ofAlloc_ne_layoutBusy _ (Except.error.inj h)
  · simp [hbusy]

theorem emit_ne_layoutBusy (strategy : Strategy Pic) (picture : Pic) (slot : Nat)
    (bind : DeviceBuffer → Binding) (e : Engine σ) :
    (e.emit strategy picture slot bind).1 ≠ .error .layoutBusy := by
  intro h
  simp only [emit] at h
  split at h
  · cases h
  split at h
  · cases h
  split at h
  · exact BackendError.ofStep_ne_layoutBusy _ (Except.error.inj h)
  · cases h

theorem bindAux_of_same (device : Device σ) (slot : Nat) {p : TaskPlan}
    (hothers : e.backend.hasOthersInFlight = true) (hsame : e.changesLayout strategy p = false) :
    ∃ aux, e.bindAux device strategy p slot = (.ok aux, e) := by
  simp only [bindAux]
  split
  · exact ⟨_, rfl⟩
  rename_i hregions
  simp only [changesLayout, hregions, Bool.not_false, Bool.true_and] at hsame
  simp only [hothers, hsame, AuxBuffers.refresh, Bool.and_false, Bool.false_eq_true, if_false]
  exact ⟨_, rfl⟩

/-- With no other task in flight, filling never waits for one: binding the auxiliary buffers takes
no register set, so there is no other one for the stores either. -/
theorem fill_ne_layoutBusy (device : Device σ) (strategy : Strategy Pic) (picture : Pic) (t : Task)
    (slot : Nat) (halone : ¬ e.backend.hasOthersInFlight = true) :
    (e.fill device strategy picture t slot).1 ≠ .error .layoutBusy := by
  intro h
  simp only [fill] at h
  rcases hplan : e.plan strategy picture t with error | p <;> simp only [hplan] at h
  · exact plan_ne_layoutBusy (hplan.trans (congrArg _ (Except.error.inj h)))
  have haux := e.bindAux_busy_iff device strategy p slot
  have hsets := e.bindAux_sets device strategy p slot
  split at h <;> rename_i e₁ hbind <;> rw [hbind] at haux hsets
  · exact halone (haux.1 (congrArg _ (Except.error.inj h))).1
  have halone₁ : ¬ e₁.backend.hasOthersInFlight = true := by
    rwa [Backend.hasOthersInFlight, Backend.tasksInFlight, hsets]
  have hmotion := e₁.bindMotion_busy_iff device strategy picture t
    (resolveReferences (strategy.referenceSlots picture) e₁.frames p.output t.output)
  split at h <;> rename_i hend <;> rw [hend] at hmotion
  · exact halone₁ (hmotion.1 (congrArg _ (Except.error.inj h))).1
  · exact emit_ne_layoutBusy _ _ _ _ _ h

/-- With others in flight, a planned task is refused exactly if it would give buffers back. The
auxiliary buffers refuse or stay as they are, so the stores are judged in the same state. -/
theorem fill_busy_iff_of_others (device : Device σ) (slot : Nat) {p : TaskPlan}
    (hothers : e.backend.hasOthersInFlight = true) (hplan : e.plan strategy picture t = .ok p) :
    (e.fill device strategy picture t slot).1 = .error .layoutBusy ↔
      e.changesLayout strategy p = true ∨
        e.changesStores strategy picture t (resolveReferences (strategy.referenceSlots picture)
          e.frames p.output t.output) = true := by
  simp only [fill, hplan]
  cases hlayout : e.changesLayout strategy p with
  | true =>
    have hrefused := (e.bindAux_busy_iff device strategy p slot).2 ⟨hothers, hlayout⟩
    split <;> rename_i hbind <;> rw [hbind] at hrefused
    · simpa using hrefused
    · cases hrefused
  | false =>
    obtain ⟨aux, hbind⟩ := bindAux_of_same device slot hothers hlayout
    have hmotion := e.bindMotion_busy_iff device strategy picture t
      (resolveReferences (strategy.referenceSlots picture) e.frames p.output t.output)
    simp only [hothers, true_and] at hmotion
    simp only [hbind, Bool.false_eq_true, false_or, ← hmotion]
    split <;> rename_i hend <;> rw [hend]
    · simp only [Except.error.injEq]
    · simpa only [reduceCtorEq, iff_false] using emit_ne_layoutBusy _ _ _ _ _

/-- Filling is refused exactly if it would give buffers back while other tasks are in flight. -/
theorem fill_busy_iff (device : Device σ) (strategy : Strategy Pic) (picture : Pic) (t : Task)
    (slot : Nat) (e : Engine σ) :
    (e.fill device strategy picture t slot).1 = .error .layoutBusy ↔
      e.backend.hasOthersInFlight = true ∧ ∃ p, e.plan strategy picture t = .ok p ∧
        (e.changesLayout strategy p = true ∨
          e.changesStores strategy picture t (resolveReferences (strategy.referenceSlots picture)
            e.frames p.output t.output) = true) := by
  constructor
  · intro hbusy
    have hothers : e.backend.hasOthersInFlight = true :=
      of_not_not fun halone => fill_ne_layoutBusy device strategy picture t slot halone hbusy
    rcases hplan : e.plan strategy picture t with error | p
    · simp only [fill, hplan] at hbusy
      exact absurd (hplan.trans (congrArg _ (Except.error.inj hbusy))) plan_ne_layoutBusy
    · exact ⟨hothers, p, rfl, (fill_busy_iff_of_others device slot hothers hplan).1 hbusy⟩
  · rintro ⟨hothers, p, hplan, hchanges⟩
    exact (fill_busy_iff_of_others device slot hothers hplan).2 hchanges

end

def taskPlan (t : Task) (e : Engine σ) : Except BackendError TaskPlan :=
  match e.backend.standard, t.picture with
  | .avc, .avc picture => e.plan e.backend.generation.avc picture t
  | .hevc, .hevc picture => e.plan e.backend.generation.hevc picture t
  | _, picture => .error (.wrongStandard picture.standard)

/-- The task cannot use the auxiliary layout in use, so the auxiliary buffers would go back. -/
def displacesAux (t : Task) (e : Engine σ) : Bool :=
  match e.taskPlan t with
  | .error _ => false
  | .ok p =>
    !e.backend.regions.isEmpty && e.backend.aux.needsRefresh (p.layoutKey e.backend.sets.size)

/-- The task cannot use the motion vector stores as they are, so these would go back. -/
def displacesStores (t : Task) (e : Engine σ) : Bool :=
  match e.taskPlan t with
  | .error _ => false
  | .ok p =>
    let slots := e.backend.generation.referenceSlots t.picture
    let refs := resolveReferences slots e.frames p.output t.output
    (e.backend.generation.motionStoreSize? t.picture).any fun size =>
      e.backend.motion.needsGrowth (storesNeeded t refs e.frames) size

section

variable {device : Device σ} {t : Task} {slot : Nat} {e : Engine σ}

theorem displaces_of_foreign (h : t.picture.standard ≠ e.backend.standard) :
    e.displacesAux t = false ∧ e.displacesStores t = false := by
  rw [displacesAux, displacesStores, taskPlan]
  cases hpicture : t.picture <;> cases hstandard : e.backend.standard <;>
    rw [hpicture, hstandard] at h
  · exact absurd rfl h
  · exact ⟨rfl, rfl⟩
  · exact ⟨rfl, rfl⟩
  · exact absurd rfl h

theorem fillPicture_busy_iff (device : Device σ) (t : Task) (slot : Nat) (e : Engine σ) :
    (e.fillPicture device t slot).1 = .error .layoutBusy ↔
      e.backend.hasOthersInFlight = true ∧
        (e.displacesAux t = true ∨ e.displacesStores t = true) := by
  have hfill : ∀ {Pic : Type} (strategy : Strategy Pic) (picture : Pic),
      e.taskPlan t = e.plan strategy picture t → strategy.regions = e.backend.regions →
      strategy.ActsAs picture e.backend.generation t.picture →
        ((e.fill device strategy picture t slot).1 = .error .layoutBusy ↔
          e.backend.hasOthersInFlight = true ∧
            (e.displacesAux t = true ∨ e.displacesStores t = true)) := by
    intro Pic strategy picture hplan hregions hacts
    rw [fill_busy_iff, displacesAux, displacesStores, hplan]
    cases e.plan strategy picture t with
    | error error => simp
    | ok p =>
      simp only [Except.ok.injEq, exists_eq_left', changesLayout, changesStores, hregions,
        hacts.referenceSlots, hacts.motionStoreSize]
  unfold fillPicture
  cases hstandard : e.backend.standard <;> cases hpicture : t.picture <;> simp only
  · refine hfill _ _ ?_ ?_ (hpicture ▸ e.backend.generation.avc_actsAs _)
    · simp only [taskPlan, hstandard, hpicture]
    · simp only [Backend.regions, hstandard]
  · simp [displacesAux, displacesStores, taskPlan, hstandard, hpicture]
  · simp [displacesAux, displacesStores, taskPlan, hstandard, hpicture]
  · refine hfill _ _ ?_ ?_ (hpicture ▸ e.backend.generation.hevc_actsAs _)
    · simp only [taskPlan, hstandard, hpicture]
    · simp only [Backend.regions, hstandard]

theorem displaces_withSets {sets : RegisterSets RegisterImage}
    (hsize : sets.size = e.backend.sets.size) :
    (e.withSets sets).displacesAux t = e.displacesAux t ∧
      (e.withSets sets).displacesStores t = e.displacesStores t := by
  refine ⟨?_, rfl⟩
  change (match e.taskPlan t with
    | .error _ => false
    | .ok p => !e.backend.regions.isEmpty && e.backend.aux.needsRefresh (p.layoutKey sets.size)) = _
  rw [hsize]
  rfl

/-- A task for which buffers have to go is refused exactly if any register set is taken, whatever
for, and no other task is refused for that reason. -/
theorem generate_busy_iff (device : Device σ) (t : Task) (e : Engine σ) :
    (e.generate device t).result = .error .layoutBusy ↔
      t.state = .idle ∧ t.mustSkip e.backend.config = false ∧
        e.backend.sets.acquire?.isSome = true ∧ (∃ other, e.backend.sets.isValid other = true) ∧
        (e.displacesAux t = true ∨ e.displacesStores t = true) := by
  unfold generate
  by_cases hidle : t.state = .idle
  case neg => simp [hidle]
  by_cases hstandard : t.picture.standard = e.backend.standard
  case neg => simp [hidle, hstandard, displaces_of_foreign hstandard]
  cases hacquire : e.backend.sets.acquire? with
  | none => simp [hidle, hstandard]
  | some acquired =>
    obtain ⟨slot, sets⟩ := acquired
    cases hskip : t.mustSkip e.backend.config with
    | true => simp [hidle, hstandard]
    | false =>
      have hbusy := fillPicture_busy_iff device t slot (e.withSets sets)
      obtain ⟨hlayout, hstores⟩ :=
        displaces_withSets (t := t) (RegisterSets.size_acquire? hacquire)
      have hothers : (e.withSets sets).backend.hasOthersInFlight = true ↔
          ∃ other, e.backend.sets.isValid other = true :=
        decide_eq_true_iff.trans (RegisterSets.one_lt_validCount_acquire? hacquire)
      rw [hlayout, hstores, hothers] at hbusy
      simp only [hidle, hstandard, ne_eq, not_true_eq_false, if_false, Bool.false_eq_true,
        Option.isSome_some, true_and, ← hbusy]
      split <;> rename_i hfill <;> rw [hfill]

theorem generation_of_displaces (h : e.displacesAux t = true ∨ e.displacesStores t = true) :
    e.backend.generation = .vdpu34x := by
  cases hgeneration : e.backend.generation with
  | vdpu34x => rfl
  | rkv =>
    have hregions := Backend.regions_isEmpty_iff.2 hgeneration
    have hsize : e.backend.generation.motionStoreSize? t.picture = none := by
      rw [hgeneration]
      cases t.picture <;> rfl
    have hnone : e.displacesAux t = false ∧ e.displacesStores t = false := by
      rw [displacesAux, displacesStores, hregions, hsize]
      cases e.taskPlan t <;> exact ⟨rfl, rfl⟩
    rw [hnone.1, hnone.2] at h
    cases h <;> contradiction

end

end Engine

/-- The auxiliary memory of a set, bound for pictures of the backend's standard. -/
def Backend.auxBinding? (b : Backend) (slot : Nat) : Option AuxBinding :=
  match b.standard with
  | .avc => Engine.auxBinding? b.generation.avc slot b
  | .hevc => Engine.auxBinding? b.generation.hevc slot b

/-- The registers of a set hold the handle of a motion vector store and, for each region, that of
the memory in which the region is located; a register for auxiliary memory holds no other one. -/
structure Backend.Carries (b : Backend) (slot : Nat) (set : RegisterSet RegisterImage) :
    Prop where
  store : ∃ store ∈ b.motion.stores,
    set.registers.get? Vdpu34x.Reg.motionCurrentBase = some store.handle
  regions : ∀ aux, b.auxBinding? slot = some aux → ∀ x ∈ aux.layout.regions, ∀ handle offset,
    aux.locate x.1 = some (handle, offset) →
      set.registers.get? (Vdpu34x.Reg.regionBase + x.1.index) = some handle
  auxiliary : ∀ reg handle, Generation.vdpu34x.purposeOf? reg = some .auxiliary →
    set.registers.get? reg = some handle → handle = 0 ∨
      ∃ aux, b.auxBinding? slot = some aux ∧
        ∃ x ∈ aux.layout.regions, ∃ offset, aux.locate x.1 = some (handle, offset)

section

variable {b : Backend} {slot : Nat} {aux : AuxBinding}

theorem CodedPicture.auxBinding?_of_standard {picture : CodedPicture}
    (h : picture.standard = b.standard) :
    picture.auxBinding? b.generation slot b = b.auxBinding? slot := by
  rw [Backend.auxBinding?, ← h]
  cases picture <;> rfl

theorem Backend.auxBinding?_eq_some (h : b.auxBinding? slot = some aux) :
    b.aux.layout = some aux.layout ∧
      (∃ buffer, b.aux.bound? slot = some buffer ∧ aux.handle = buffer.handle) ∧
      (aux.scratch = [] ∧ aux.scratchHandle = 0 ∨
        ∃ memory, b.scratch = some memory ∧ aux.scratchHandle = memory.handle) := by
  unfold auxBinding? at h
  split at h <;> exact Engine.auxBinding?_eq_some h

theorem Backend.auxBinding?_separate {key : LayoutKey} (h : b.auxBinding? slot = some aux)
    (hkey : b.aux.key = some key) (hfollows : b.aux.Follows b.regions) : aux.layout.Separate := by
  obtain ⟨hlayout, -⟩ := auxBinding?_eq_some h
  rw [Option.some.inj (hlayout.symm.trans (hfollows key hkey))]
  exact AuxLayout.compute_separate _ _

end

namespace Engine

variable {device : Device σ} {t : Task} {slot : Nat} {e e' : Engine σ}

theorem carries_of_fillPicture (hgeneration : e'.backend.generation = .vdpu34x)
    (hfollows : e'.backend.aux.Follows e'.backend.regions)
    (h : e.fillPicture device t slot = (.ok (), e')) :
    ∃ set, e'.backend.sets.get? slot = some set ∧ e'.backend.Carries slot set := by
  obtain ⟨bind, set, hprogrammed⟩ := programmed_of_fillPicture h
  have hrefill := refill_of_fillPicture h
  have hbefore : e.backend.generation = .vdpu34x := hrefill.generation.symm.trans hgeneration
  have hstandard : t.picture.standard = e'.backend.standard :=
    hprogrammed.standard.trans hrefill.settings.1.symm
  have hregions : e.backend.regions.isEmpty = false := by
    rw [Bool.eq_false_iff, ne_eq, Backend.regions_isEmpty_iff, hbefore]
    exact nofun
  obtain ⟨haux, format, key, -, -, hkey⟩ := hprogrammed.aux hregions
  rw [← hrefill.generation, CodedPicture.auxBinding?_of_standard hstandard] at haux
  obtain ⟨start, emission, himage, hrun, hregisters⟩ := hprogrammed.run
  rw [hbefore] at himage hrun
  have hsep : ∀ aux, e'.backend.auxBinding? slot = some aux → aux.layout.Separate :=
    fun _ hbinding => Backend.auxBinding?_separate hbinding hkey hfollows
  refine ⟨set, hprogrammed.found, ?_, ?_, ?_⟩
  · have hentry : (Vdpu34x.Reg.motionCurrentBase, t.output) ∈ e.motionRegisters t := by
      simp only [motionRegisters, hprogrammed.output, List.mem_cons_self]
    obtain ⟨store, hstore, hget⟩ := hprogrammed.holdsStore hbefore hentry
    exact ⟨store, List.mem_of_getElem? hstore, hget⟩
  · intro aux hbinding x hx handle offset hlocate
    rw [hregisters]
    exact Vdpu34x.get?_regionBase (haux.trans hbinding) (hsep aux hbinding) hx hlocate himage
      (by decide) hrun
  · intro reg handle hpurpose hget
    rw [hregisters] at hget
    cases hbinding : e'.backend.auxBinding? slot with
    | none =>
      have hbound := Generation.get?_of_runSteps himage hrun hpurpose hget
      rw [Binding.handles, haux, hbinding] at hbound
      exact .inl (hbound.resolve_right List.not_mem_nil)
    | some aux =>
      obtain hzero | hlocated := Vdpu34x.eq_zero_or_located (haux.trans hbinding)
        (hsep aux hbinding) himage hrun hpurpose hget
      · exact .inl hzero
      · exact .inr ⟨aux, rfl, hlocated⟩

end Engine

end VideoAccel
