import VideoAccel.Proofs.Backend.Ownership
import VideoAccel.Proofs.Backend.Programming
import VideoAccel.Proofs.Strategy.References

namespace VideoAccel

variable {σ Pic : Type}

def Engine.motionRegisters (t : Task) (e : Engine σ) : List (Nat × Nat) :=
  match e.frames.frame? t.output with
  | none => []
  | some output =>
    let slots := e.backend.generation.referenceSlots t.picture
    (Vdpu34x.Reg.motionCurrentBase, t.output) ::
      (resolveReferences slots e.frames output t.output).mapIdx fun i r =>
        (Vdpu34x.Reg.motionRefBase + i, r.slot)

namespace Task

/-- For every frame slot of the task there is a store in the pool, as large as the picture needs,
and the register for it holds the handle of that store. -/
def HoldsStores (t : Task) (e : Engine σ) (pool : MotionPool) (image : RegisterImage) : Prop :=
  ∃ size, e.backend.generation.motionStoreSize? t.picture = some size ∧
    ∀ reg frame, (reg, frame) ∈ e.motionRegisters t →
      ∃ store, pool.stores[frame]? = some store ∧ store.size = size ∧
        image.get? reg = some store.handle

/-- The registers for two tasks hold the same handle exactly where they stand for the same frame
slot. -/
def AgreesOnStores (t : Task) (e : Engine σ) (image : RegisterImage) (t' : Task)
    (e' : Engine σ) (image' : RegisterImage) : Prop :=
  ∀ reg frame reg' frame', (reg, frame) ∈ e.motionRegisters t →
    (reg', frame') ∈ e'.motionRegisters t' →
      (image.get? reg = image'.get? reg' ↔ frame = frame')

end Task

namespace Engine

section

variable {t : Task} {slot : Nat} {e e' : Engine σ} {bind : Binding}
  {set : RegisterSet RegisterImage}

theorem Programmed.exists_store {size : Nat} (h : Programmed t slot e e' bind set)
    (hsize : e.backend.generation.motionStoreSize? t.picture = some size) {frame : Nat}
    (hframe : frame = t.output ∨ ∃ r ∈ bind.refs, r.slot = frame) :
    ∃ store, e'.backend.motion.stores[frame]? = some store ∧
      (e'.backend.motion.handle? frame).getD 0 = store.handle := by
  obtain ⟨-, -, hcount⟩ := h.motion size hsize
  have hlt := Nat.lt_of_lt_of_le (lt_storesNeeded hframe e.frames) hcount
  have hstore := List.getElem?_eq_getElem hlt
  refine ⟨_, hstore, ?_⟩
  rw [MotionPool.handle?, hstore]
  rfl

theorem exists_motionStoreSize (hgeneration : e.backend.generation = .vdpu34x) (t : Task) :
    ∃ size, e.backend.generation.motionStoreSize? t.picture = some size := by
  rw [hgeneration]
  cases t.picture <;> exact ⟨_, rfl⟩

theorem Programmed.exists_motionEdit (h : Programmed t slot e e' bind set) {reg frame : Nat}
    (hentry : (reg, frame) ∈ e.motionRegisters t) :
    (frame = t.output ∨ ∃ r ∈ bind.refs, r.slot = frame) ∧
      Edit.register (.word reg ((e'.backend.motion.handle? frame).getD 0)) ∈
        Vdpu34x.motionEdits (motionBinding t bind.refs e'.backend.motion) := by
  have hlength : bind.refs.length ≤ 16 := by
    rw [h.refs, length_resolveReferences, Generation.length_referenceSlots]
    exact t.picture.length_references
  simp only [motionRegisters, h.output, ← h.refs] at hentry
  obtain hentry | hentry := List.mem_cons.1 hentry
  · cases hentry
    exact ⟨.inl rfl, List.mem_cons_self ..⟩
  · obtain ⟨i, hi, hentry⟩ := List.mem_mapIdx.1 hentry
    cases hentry
    refine ⟨.inr ⟨_, List.getElem_mem hi, rfl⟩, List.mem_cons_of_mem _ ?_⟩
    refine mem_mapIdx_take.2 ⟨i, _, Nat.lt_of_lt_of_le hi hlength, ?_, rfl⟩
    simp [motionBinding, hi]

theorem Programmed.holdsStore (h : Programmed t slot e e' bind set)
    (hgeneration : e.backend.generation = .vdpu34x) {reg frame : Nat}
    (hentry : (reg, frame) ∈ e.motionRegisters t) :
    ∃ store, e'.backend.motion.stores[frame]? = some store ∧
      set.registers.get? reg = some store.handle := by
  obtain ⟨size, hsize⟩ := exists_motionStoreSize hgeneration t
  obtain ⟨hmotion, -, -⟩ := h.motion size hsize
  obtain ⟨start, emission, himage, hrun, hregisters⟩ := h.run
  rw [hgeneration] at himage hrun
  obtain ⟨hframe, hedit⟩ := h.exists_motionEdit hentry
  obtain ⟨store, hstore, hhandle⟩ := h.exists_store hsize hframe
  refine ⟨store, hstore, ?_⟩
  rw [hregisters, ← hhandle]
  exact Generation.get?_of_motionEdits himage hrun (by decide) hmotion hedit

theorem Programmed.holdsStores (h : Programmed t slot e e' bind set)
    (hgeneration : e.backend.generation = .vdpu34x) (hsized : e'.backend.motion.Sized) :
    t.HoldsStores e e'.backend.motion set.registers := by
  obtain ⟨size, hsize⟩ := exists_motionStoreSize hgeneration t
  obtain ⟨-, hpool, -⟩ := h.motion size hsize
  refine ⟨size, hsize, fun reg frame hentry => ?_⟩
  obtain ⟨store, hstore, hget⟩ := h.holdsStore hgeneration hentry
  exact ⟨store, hstore, (hsized store (List.mem_of_getElem? hstore)).trans hpool, hget⟩

end

def motionAnswer? (device : Device σ) (strategy : Strategy Pic) (picture : Pic) (t : Task)
    (refs : List ResolvedRef) (e : Engine σ) : Option (Except AllocError Bool) :=
  match strategy.motionStoreSize picture with
  | none => none
  | some size =>
    let count := storesNeeded t refs e.frames
    if e.backend.hasOthersInFlight && e.backend.motion.needsGrowth count size then none
    else some (e.backend.motion.ensure device.memory count size e.backend.buffers e.device).1

def fillAnswer? (device : Device σ) (strategy : Strategy Pic) (picture : Pic) (t : Task)
    (slot : Nat) (e : Engine σ) : Option (Except AllocError Bool) :=
  match e.plan strategy picture t with
  | .error _ => none
  | .ok p =>
    match e.bindAux device strategy p slot with
    | (.error _, _) => none
    | (.ok _, e) =>
      let refs := resolveReferences (strategy.referenceSlots picture) e.frames p.output t.output
      e.motionAnswer? device strategy picture t refs

def fillPictureAnswer? (device : Device σ) (t : Task) (slot : Nat) (e : Engine σ) :
    Option (Except AllocError Bool) :=
  match e.backend.standard, t.picture with
  | .avc, .avc picture => e.fillAnswer? device e.backend.generation.avc picture t slot
  | .hevc, .hevc picture => e.fillAnswer? device e.backend.generation.hevc picture t slot
  | _, _ => none

def poolAnswer? (device : Device σ) (t : Task) (e : Engine σ) : Option (Except AllocError Bool) :=
  if t.state = .idle ∧ t.mustSkip e.backend.config = false then
    match e.backend.sets.acquire? with
    | none => none
    | some (slot, sets) => (e.withSets sets).fillPictureAnswer? device t slot
  else none

def Unmoved (answer : Option (Except AllocError Bool)) : Prop :=
  answer = none ∨ answer = some (.ok false)

instance (answer : Option (Except AllocError Bool)) : Decidable (Unmoved answer) :=
  inferInstanceAs (Decidable (_ ∨ _))

section

variable {device : Device σ} {strategy : Strategy Pic} {picture : Pic} {t : Task} {slot : Nat}
  {e : Engine σ}

theorem bindMotion_unmoved {refs : List ResolvedRef}
    (h : Unmoved (e.motionAnswer? device strategy picture t refs)) :
    (e.bindMotion device strategy picture t refs).2.backend.motion = e.backend.motion := by
  simp only [motionAnswer?] at h
  simp only [bindMotion]
  split
  · rfl
  rename_i size hsize
  rw [hsize] at h
  split
  · rfl
  rename_i hbusy
  simp only [if_neg hbusy] at h
  have hend := e.backend.motion.ensure_end device.memory (storesNeeded t refs e.frames) size
    e.backend.buffers e.device
  generalize e.backend.motion.ensure device.memory (storesNeeded t refs e.frames) size
    e.backend.buffers e.device = r at h hend
  cases hend with
  | kept => rfl
  | renewed | emptied => obtain h | h := h <;> cases h

theorem bindAux_motion (device : Device σ) (strategy : Strategy Pic) (p : TaskPlan) (slot : Nat)
    (e : Engine σ) : (e.bindAux device strategy p slot).2.backend.motion = e.backend.motion := by
  obtain hbind | ⟨_, hbind⟩ := e.bindAux_eq device strategy p slot <;> rw [hbind]
  rfl

theorem emit_motion (strategy : Strategy Pic) (picture : Pic) (slot : Nat)
    (bind : DeviceBuffer → Binding) (e : Engine σ) :
    (e.emit strategy picture slot bind).2.backend.motion = e.backend.motion := by
  obtain ⟨f, _, _, hemit⟩ := emit_eq strategy picture slot bind e
  rw [hemit]
  rfl

theorem fill_unmoved (h : Unmoved (e.fillAnswer? device strategy picture t slot)) :
    (e.fill device strategy picture t slot).2.backend.motion = e.backend.motion := by
  simp only [fillAnswer?] at h
  simp only [fill]
  split
  · rfl
  rename_i p hplan
  rw [hplan] at h
  have haux := bindAux_motion device strategy p slot e
  split <;> rename_i e₁ hr <;> rw [hr] at haux
  · exact haux
  simp only [hr] at h
  have hmotion := bindMotion_unmoved h
  split <;> rename_i e₂ hr <;> rw [hr] at hmotion
  · exact hmotion.trans haux
  · exact ((emit_motion ..).trans hmotion).trans haux

theorem fillPicture_unmoved (h : Unmoved (e.fillPictureAnswer? device t slot)) :
    (e.fillPicture device t slot).2.backend.motion = e.backend.motion := by
  unfold fillPictureAnswer? at h
  unfold fillPicture
  cases hstandard : e.backend.standard <;> cases hpicture : t.picture <;>
    simp only [hstandard, hpicture] at h ⊢
  · exact fill_unmoved h
  · exact fill_unmoved h

/-- Generating the registers of a task leaves a pool alone that has the stores, or is not asked. -/
theorem generate_unmoved (h : Unmoved (e.poolAnswer? device t)) :
    (e.generate device t).engine.backend.motion = e.backend.motion := by
  have hgen := generated device t e
  generalize e.generate device t = o at hgen
  cases hgen with
  | refused | bypassed => rfl
  | failed hidle hskip hacquire hfill | filled hidle hskip hacquire hfill =>
    simp only [poolAnswer?, hidle, hskip, and_self, if_true, hacquire] at h
    have hmotion := fillPicture_unmoved h
    rw [hfill] at hmotion
    exact hmotion

end

theorem start_motion (device : Device σ) (t : Task) (e : Engine σ) :
    (e.start device t).engine.backend.motion = e.backend.motion := by
  have hstart := started device t e
  generalize e.start device t = o at hstart
  cases hstart <;> rfl

theorem wait_motion (device : Device σ) (t : Task) (e : Engine σ) :
    (e.wait device t).engine.backend.motion = e.backend.motion := by
  have hwait := waited device t e
  generalize e.wait device t = o at hwait
  cases hwait <;> rfl

theorem handle_eq_iff {e : Engine σ} {inUse : σ → Set UInt32} (h : e.holding.Distinct inUse)
    {i j : Nat} {x y : DeviceBuffer} (hx : e.backend.motion.stores[i]? = some x)
    (hy : e.backend.motion.stores[j]? = some y) : x.handle = y.handle ↔ i = j := by
  constructor
  · intro hhandle
    by_contra hne
    have hsub : [x, y].Subperm e.backend.owned :=
      (subperm_of_getElem? hx hy hne).trans (List.sublist_append_right ..).subperm
    have hnodup := h.nodup_of_subperm hsub
    simp [hhandle] at hnodup
  · rintro rfl
    rw [Option.some.inj (hx.symm.trans hy)]

end Engine

theorem Task.agreesOnStores_of_holds {t t' : Task} {e e' e'' : Engine σ}
    {image image' : RegisterImage} {inUse : σ → Set UInt32}
    (hdistinct : e''.holding.Distinct inUse) (h : t.HoldsStores e e''.backend.motion image)
    (h' : t'.HoldsStores e' e''.backend.motion image') :
    t.AgreesOnStores e image t' e' image' := by
  obtain ⟨size, -, hholds⟩ := h
  obtain ⟨size', -, hholds'⟩ := h'
  intro reg frame reg' frame' hentry hentry'
  obtain ⟨store, hstore, -, hget⟩ := hholds reg frame hentry
  obtain ⟨store', hstore', -, hget'⟩ := hholds' reg' frame' hentry'
  rw [hget, hget', Option.some.injEq]
  exact Engine.handle_eq_iff hdistinct hstore hstore'

namespace MotionPool

/-- A pool that anyone has made to fit answers that it is unchanged only if it has the stores that
are asked for, all of their size, and is empty after an error. -/
theorem ensure_answers {source : MemorySource σ} (hexact : source.IsExact) {pool : MotionPool}
    (hreached : Relation.ReflTransGen (Renews source) {} pool) (count size : Nat)
    (group : BufferGroup) (s : σ) :
    let r := pool.ensure source count size group s
    (r.1 = .ok false →
        count ≤ pool.stores.length ∧ (∀ b ∈ pool.stores, b.size = size) ∧ r.2 = (pool, group, s)) ∧
      ∀ error, r.1 = .error error → r.2.1 = {} := by
  have hempty : ({} : MotionPool).Sized := nofun
  have hsized := keeps_of_reflTransGen (fun _ _ hr h => h.renews hexact hr) hreached hempty
  intro r
  have hend : EnsureEnd source count size pool group s r := pool.ensure_end ..
  generalize r = r at hend
  cases hend with
  | kept hfits =>
    obtain ⟨hcount, hsize⟩ := needsGrowth_eq_false.1 hfits
    exact ⟨fun _ => ⟨hcount, fun b hb => (hsized b hb).trans hsize, rfl⟩, nofun⟩
  | renewed => exact ⟨nofun, nofun⟩
  | emptied => exact ⟨nofun, fun _ _ => rfl⟩

end MotionPool

end VideoAccel
