import VideoAccel.Proofs.Backend.Reuse
import VideoAccel.Proofs.Pipeline.Announcement

namespace VideoAccel

variable {σ τ : Type}

namespace Backend

variable {b b' b'' : Backend}

theorem SameKind.refl (b : Backend) : b.SameKind b := ⟨rfl, rfl, rfl⟩

theorem SameKind.symm (h : b.SameKind b') : b'.SameKind b :=
  ⟨h.standard.symm, h.generation.symm, h.size.symm⟩

theorem SameKind.trans (h : b.SameKind b') (h' : b'.SameKind b'') : b.SameKind b'' :=
  ⟨h'.standard.trans h.standard, h'.generation.trans h.generation, h'.size.trans h.size⟩

theorem SameKind.regions (h : b.SameKind b') : b'.regions = b.regions := by
  rw [Backend.regions, Backend.regions, h.standard, h.generation]

theorem UpToDate.refreshes {source : MemorySource σ} (h : b.UpToDate) (hkind : b.SameKind b')
    (haux : AuxBuffers.Refreshes source b.regions b.sets.size b.aux b'.aux) : b'.UpToDate where
  follows := by
    rw [hkind.regions]
    exact h.follows.refreshes haux
  stocked := by
    rw [hkind.size]
    exact h.stocked.refreshes haux

theorem UpToDate.of_ready {device : Device σ} {e : Engine σ} (h : e.Ready device) :
    e.backend.UpToDate where
  follows key hkey := by
    rw [h.aux] at hkey
    cases hkey
  stocked layout hlayout := by
    rw [h.aux] at hlayout
    cases hlayout

end Backend

namespace Pipeline

variable {device : Device σ} {p : Pipeline σ}

theorem kind_step (device : Device σ) (p : Pipeline σ) (a : Action) :
    p.engine.backend.SameKind (p.step device a).engine.backend := by
  cases a with
  | generate i =>
    obtain ⟨hstandard, hgeneration, -⟩ := Engine.generate_settings device (p.tasks i) p.engine
    exact ⟨hstandard, hgeneration, (Engine.generate_shape ..).2⟩
  | start i =>
    obtain ⟨hstandard, hgeneration, -⟩ := Engine.start_settings device (p.tasks i) p.engine
    exact ⟨hstandard, hgeneration, (Engine.start_shape ..).2⟩
  | wait i =>
    obtain ⟨hstandard, hgeneration, -⟩ := Engine.wait_settings device (p.tasks i) p.engine
    exact ⟨hstandard, hgeneration, (Engine.wait_shape ..).2⟩
  | control c =>
    obtain ⟨config, frames, hsame, -⟩ := Engine.control_eq c p.engine
    simp only [step, hsame]
    exact ⟨rfl, rfl, rfl⟩
  | recycle | edit | frames | flush | reset => exact ⟨rfl, rfl, rfl⟩

theorem aux_step (device : Device σ) (p : Pipeline σ) (a : Action) :
    AuxBuffers.Refreshes device.memory p.engine.backend.regions p.engine.backend.sets.size
      p.engine.backend.aux (p.step device a).engine.backend.aux := by
  cases a with
  | generate i => exact Engine.generate_aux ..
  | start i => exact .inl (Engine.start_aux ..)
  | wait i => exact .inl (Engine.wait_aux ..)
  | control c => exact .inl (Engine.control_aux ..)
  | recycle | edit | frames | flush | reset => exact .inl rfl

/-- A backend stays of its kind, and its auxiliary buffers are up to date at all times. -/
theorem upToDate_run (hp : p.IsInitial device) (actions : List Action) :
    p.engine.backend.SameKind (p.run device actions).engine.backend ∧
      (p.run device actions).engine.backend.UpToDate := by
  refine run_induction
    (P := fun q => p.engine.backend.SameKind q.engine.backend ∧ q.engine.backend.UpToDate)
    (fun q a hq => ?_) ⟨.refl _, .of_ready hp.engine.ready⟩ actions
  obtain ⟨hkind, hupToDate⟩ := hq
  have hstep := kind_step device q a
  exact ⟨hkind.trans hstep, hupToDate.refreshes hstep (aux_step device q a)⟩

/-- What filling a set establishes and nothing disturbs while the set is taken holds, after every
run, of each set that is taken for the hardware. -/
theorem taken_of_run {P : Backend → Nat → RegisterSet RegisterImage → Prop}
    (hp : p.IsInitial device)
    (hfill : ∀ (e e' : Engine σ) t slot, p.engine.backend.SameKind e'.backend →
      e'.backend.UpToDate → e.fillPicture device t slot = (.ok (), e') →
        ∃ set, e'.backend.sets.get? slot = some set ∧ P e'.backend slot set)
    (hkept : ∀ b b' slot set, Undisturbed slot b b' → b.SameKind b' → P b slot set →
      P b' slot set)
    (actions : List Action) :
    let b := (p.run device actions).engine.backend
    ∀ slot, b.sets.mark slot = some false →
      ∃ set, b.sets.get? slot = some set ∧ P b slot set := by
  refine (run_induction
    (P := fun q => p.engine.backend.SameKind q.engine.backend ∧ q.engine.backend.UpToDate ∧
      ∀ slot, q.engine.backend.sets.mark slot = some false →
        ∃ set, q.engine.backend.sets.get? slot = some set ∧ P q.engine.backend slot set)
    (fun q a hq => ?_) ⟨.refl _, .of_ready hp.engine.ready, fun slot hmark => ?_⟩ actions).2.2
  · obtain ⟨hkind, hupToDate, htaken⟩ := hq
    have hstep := kind_step device q a
    have hupToDate' := hupToDate.refreshes hstep (aux_step device q a)
    refine ⟨hkind.trans hstep, hupToDate', fun slot hmark => ?_⟩
    -- the set was taken before and is left alone, or it is the one that has just been filled
    obtain hsame | ⟨t, sets, hfilled⟩ := taken_step hmark
    · obtain ⟨set, hset, hP⟩ := htaken slot (hsame.mark.symm.trans hmark)
      exact ⟨set, hsame.set.trans hset, hkept _ _ slot set hsame hstep hP⟩
    · exact hfill _ _ t slot (hkind.trans hstep) hupToDate' hfilled
  · have hvalid := RegisterSets.isValid_of_mark hmark
    rw [hp.engine.ready.isValid slot] at hvalid
    cases hvalid

/-- Two backends of the same kind, each after any run of its own, generate the same for a task:
equal address offsets, equal table bytes, and equal registers except for those that hold the handles
of buffers, each of its own backend, for the same purpose at the same place. A task that bypasses
the hardware does so in both, and then nothing is generated. -/
theorem same_product_of_run {device' : Device τ} {p' : Pipeline τ} (hp : p.IsInitial device)
    (hp' : p'.IsInitial device')
    (hstandard : p'.engine.backend.standard = p.engine.backend.standard)
    (hgeneration : p'.engine.backend.generation = p.engine.backend.generation)
    (hdepth : p'.engine.backend.config.pipelineDepth = p.engine.backend.config.pipelineDepth)
    (actions actions' : List Action) (frames : FrameTable) (config : Config)
    (scratch : Option ScratchMemory) (t : Task) :
    let q := (p.run device actions).engine
    let q' := (p'.run device' actions').engine
    let o := (q.withSetting frames config scratch).generate device t
    let o' := (q'.withSetting frames config scratch).generate device' t
    o.result = .ok () → o'.result = .ok () →
      ∃ slot slot' set set', o.task.slot = some slot ∧ o'.task.slot = some slot' ∧
        o.engine.backend.sets.get? slot = some set ∧
        o'.engine.backend.sets.get? slot' = some set' ∧
        if t.mustSkip config then q.backend.Spares slot set ∧ q'.backend.Spares slot' set'
        else o.engine.backend.SameProduct o'.engine.backend slot slot' set set' := by
  intro q q' o o' hok hok'
  obtain ⟨hkind, hupToDate⟩ := upToDate_run hp actions
  obtain ⟨hkind', hupToDate'⟩ := upToDate_run hp' actions'
  have hinitial : p.engine.backend.SameKind p'.engine.backend := by
    refine ⟨hstandard, hgeneration, ?_⟩
    rw [hp.engine.ready.size, hp'.engine.ready.size, hdepth]
  obtain ⟨hstandard, hgeneration, hsize⟩ := hkind.symm.trans (hinitial.trans hkind')
  have hsame : Engine.SameSetting (q.withSetting frames config scratch)
      (q'.withSetting frames config scratch) :=
    ⟨⟨hstandard, hgeneration, hsize⟩, rfl, rfl, rfl⟩
  exact Engine.generate_sameProduct hsame ⟨hupToDate.follows, hupToDate.stocked⟩
    ⟨hupToDate'.follows, hupToDate'.stocked⟩ hok hok'

/-- A set of a fresh backend, and one that a failed task has written to while another one is in
flight. -/
theorem same_product_of_run_hevc :
    let start := Engine.init Bench.device
      ⟨{ standard := .hevc, generation := .vdpu34x, config := { fastMode := true } },
        Bench.frames, {}⟩
    let params : Hevc.Params := { picWidthInLumaSamples := 16, picHeightInLumaSamples := 16 }
    let t : Task := { picture := .hevc { params }, streamLength := 100 }
    let p : Pipeline Bench := ⟨start.2, fun _ => t⟩
    let lists : Hevc.RefList := Vector.replicate Hevc.maxListEntries (some 16)
    let broken : Task :=
      { t with picture := .hevc { params := { params with stCurrBefore := lists } } }
    let actions : List Action := [.generate 0, .start 0, .edit 1 broken, .generate 1]
    let q := (p.run Bench.device actions).engine
    let o := (p.engine.withSetting Bench.frames {} none).generate Bench.device t
    let o' := (q.withSetting Bench.frames {} none).generate Bench.device t
    p.IsInitial Bench.device ∧ o.task.slot = some 0 ∧ o'.task.slot = some 1 ∧
      (q.backend.sets.get? 1).map (·.registers) ≠ (p.engine.backend.sets.get? 1).map (·.registers) ∧
      ∃ set set', o.engine.backend.sets.get? 0 = some set ∧
        o'.engine.backend.sets.get? 1 = some set' ∧ set'.registers ≠ set.registers ∧
        o.engine.backend.SameProduct o'.engine.backend 0 1 set set' := by
  intro start params t p lists broken actions
  have hok : start.1 = .ok () := by decide +kernel
  have hp : p.IsInitial Bench.device :=
    ⟨⟨_, _, _, _, _, _, Prod.ext hok rfl⟩, fun _ => ⟨rfl, rfl⟩⟩
  have hskip : t.mustSkip {} = false := by decide
  have hresult : ((p.engine.withSetting Bench.frames {} none).generate Bench.device t).result =
      .ok () := by decide +kernel
  have hresult' : (((p.run Bench.device actions).engine.withSetting Bench.frames {}
      none).generate Bench.device t).result = .ok () := by decide +kernel
  have hslot : ((p.engine.withSetting Bench.frames {} none).generate Bench.device t).task.slot =
      some 0 := by decide +kernel
  have hslot' : (((p.run Bench.device actions).engine.withSetting Bench.frames {}
      none).generate Bench.device t).task.slot = some 1 := by decide +kernel
  have hdiffer : ((((p.run Bench.device actions).engine.withSetting Bench.frames {}
        none).generate Bench.device t).engine.backend.sets.get? 1).map (·.registers) ≠
      (((p.engine.withSetting Bench.frames {} none).generate Bench.device
        t).engine.backend.sets.get? 0).map (·.registers) := by decide +kernel
  have hwritten : ((p.run Bench.device actions).engine.backend.sets.get? 1).map (·.registers) ≠
      (p.engine.backend.sets.get? 1).map (·.registers) := by decide +kernel
  obtain ⟨slot, slot', set, set', h, h', hset, hset', hproduct⟩ :=
    same_product_of_run hp hp rfl rfl rfl [] actions Bench.frames {} none t hresult hresult'
  obtain rfl := Option.some.inj (hslot.symm.trans h)
  obtain rfl := Option.some.inj (hslot'.symm.trans h')
  rw [if_neg (by rw [hskip]; decide)] at hproduct
  refine ⟨hp, hslot, hslot', hwritten, set, set', hset, hset', fun hsame => hdiffer ?_, hproduct⟩
  have hregisters : some set'.registers = some set.registers := congrArg some hsame
  have hmap := congrArg (Option.map (·.registers)) hset
  have hmap' := congrArg (Option.map (·.registers)) hset'
  exact hmap'.trans (hregisters.trans hmap.symm)

end Pipeline

end VideoAccel
