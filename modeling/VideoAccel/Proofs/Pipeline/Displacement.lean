import VideoAccel.Proofs.Backend.Displacement
import VideoAccel.Proofs.Pipeline.Reuse

namespace VideoAccel

variable {σ : Type} {device : Device σ} {p : Pipeline σ}

namespace Backend

variable {b b' : Backend} {slot : Nat} {set : RegisterSet RegisterImage}

/-- A register set that is taken for the hardware has the handle of the buffer in a register for the
purpose. -/
def Employs (b : Backend) (slot : Nat) (purpose : Purpose) (buffer : DeviceBuffer) : Prop :=
  b.sets.mark slot = some false ∧ ∃ set reg, b.sets.get? slot = some set ∧
    b.generation.purposeOf? reg = some purpose ∧ set.registers.get? reg = some buffer.handle

/-- The set has a region in its auxiliary buffer, one that is not in scratch memory. -/
def keepsRegion (b : Backend) (slot : Nat) : Bool :=
  (b.auxBinding? slot).any fun aux =>
    aux.layout.regions.any fun x => (aux.scratch.lookup x.1).isNone

theorem keepsRegion_eq_true :
    b.keepsRegion slot = true ↔ ∃ aux, b.auxBinding? slot = some aux ∧
      ∃ x ∈ aux.layout.regions, aux.scratch.lookup x.1 = none := by
  simp only [keepsRegion, Option.any_eq_true, List.any_eq_true, Option.isNone_iff_eq_none]

theorem Carries.of_undisturbed (h : b.Carries slot set) (hsame : Undisturbed slot b b')
    (hkind : b.SameKind b') : b'.Carries slot set := by
  have hbinding : b'.auxBinding? slot = b.auxBinding? slot := by
    simp only [auxBinding?, Engine.auxBinding?, hkind.standard, hkind.generation, hsame.aux,
      hsame.scratch]
  refine ⟨?_, ?_, ?_⟩
  · rw [hsame.motion]
    exact h.store
  · rw [hbinding]
    exact h.regions
  · rw [hbinding]
    exact h.auxiliary

/-- A buffer that is named by a register for auxiliary memory has a region in it. -/
theorem Carries.keepsRegion (h : b.Carries slot set) {buffer : DeviceBuffer} {reg : Nat}
    (hzero : buffer.handle ≠ 0)
    (hapart : ∀ memory, b.scratch = some memory → memory.handle ≠ buffer.handle)
    (hpurpose : Generation.vdpu34x.purposeOf? reg = some .auxiliary)
    (hget : set.registers.get? reg = some buffer.handle) : b.keepsRegion slot = true := by
  obtain hblank | ⟨aux, hbinding, x, hx, offset, hlocate⟩ := h.auxiliary reg _ hpurpose hget
  · exact absurd hblank hzero
  refine keepsRegion_eq_true.2 ⟨aux, hbinding, x, hx, ?_⟩
  obtain ⟨-, -, hscratch⟩ := auxBinding?_eq_some hbinding
  cases hlookup : aux.scratch.lookup x.1 with
  | none => rfl
  | some offset' =>
    obtain ⟨hnil, -⟩ | ⟨memory, hmemory, hhandle⟩ := hscratch
    · rw [hnil] at hlookup
      cases hlookup
    · simp only [AuxBinding.locate, hlookup, Option.some.injEq, Prod.mk.injEq] at hlocate
      exact absurd (hhandle.symm.trans hlocate.1) (hapart memory hmemory)

/-- The register of a region that is not in scratch memory names the buffer of the set. -/
theorem Carries.employs_auxiliary (h : b.Carries slot set) (hgeneration : b.generation = .vdpu34x)
    (hmark : b.sets.mark slot = some false) (hset : b.sets.get? slot = some set)
    (hkeeps : b.keepsRegion slot = true) :
    ∃ buffer ∈ b.aux.buffers, b.Employs slot .auxiliary buffer := by
  obtain ⟨aux, hbinding, x, hx, hlookup⟩ := keepsRegion_eq_true.1 hkeeps
  obtain ⟨-, ⟨buffer, hbound, hhandle⟩, -⟩ := auxBinding?_eq_some hbinding
  have hregion : (aux.layout.region? x.1).isSome = true :=
    List.lookup_isSome_iff.2 ⟨x, hx, beq_self_eq_true _⟩
  obtain ⟨region, hregion⟩ := Option.isSome_iff_exists.1 hregion
  have hlocate : aux.locate x.1 = some (aux.handle, region.offset) := by
    simp only [AuxBinding.locate, hlookup, hregion, Option.map_some]
  have hbuffer := AuxBuffers.mem_of_bound? hbound
  refine ⟨buffer, hbuffer, hmark, set, Vdpu34x.Reg.regionBase + x.1.index, hset, ?_, ?_⟩
  · rw [hgeneration]
    exact Vdpu34x.purposeOf?_region x.1.index_lt
  · rw [← hhandle]
    exact h.regions aux hbinding x hx _ _ hlocate

theorem Carries.employs_store (h : b.Carries slot set) (hgeneration : b.generation = .vdpu34x)
    (hmark : b.sets.mark slot = some false) (hset : b.sets.get? slot = some set) :
    ∃ store ∈ b.motion.stores, b.Employs slot .motionVectors store := by
  obtain ⟨store, hstore, hget⟩ := h.store
  refine ⟨store, hstore, hmark, set, Vdpu34x.Reg.motionCurrentBase, hset, ?_, hget⟩
  rw [hgeneration]
  rfl

end Backend

namespace Engine

/-- To meet the task, a buffer would go back that a register set taken for the hardware names. -/
def Endangers (t : Task) (e : Engine σ) : Prop :=
  ∃ slot,
    e.displacesAux t = true ∧ (∃ buffer ∈ e.backend.aux.buffers,
      e.backend.Employs slot .auxiliary buffer) ∨
    e.displacesStores t = true ∧ ∃ store ∈ e.backend.motion.stores,
      e.backend.Employs slot .motionVectors store

end Engine

namespace Pipeline

theorem carries_of_run (hp : p.IsInitial device)
    (hgeneration : p.engine.backend.generation = .vdpu34x) (actions : List Action) :
    let b := (p.run device actions).engine.backend
    ∀ slot, b.sets.mark slot = some false →
      ∃ set, b.sets.get? slot = some set ∧ b.Carries slot set :=
  taken_of_run hp
    (fun _ _ _ _ hkind hupToDate hfill => Engine.carries_of_fillPicture
      (hkind.generation.trans hgeneration) hupToDate.follows hfill)
    (fun _ _ _ _ hsame hkind h => h.of_undisturbed hsame hkind) actions

/-- A task is refused for buffers that have to go exactly if its picture needs other buffers than
those in use, be it that there are none yet, and any register set is taken, be it for a task that
bypasses the hardware. One of the buffers that have to go is really named by a set that is taken for
the hardware exactly if there is such a set, and either the motion vector stores have to go or the
set has a region in its auxiliary buffer. -/
theorem layoutBusy_iff_of_run (hp : p.IsInitial device) (actions : List Action) (t : Task) :
    let e := (p.run device actions).engine
    ((e.generate device t).result = .error .layoutBusy ↔
      t.state = .idle ∧ t.mustSkip e.backend.config = false ∧
        e.backend.sets.acquire?.isSome = true ∧ (∃ other, e.backend.sets.isValid other = true) ∧
        (e.displacesAux t = true ∨ e.displacesStores t = true)) ∧
      ((∀ buffer ∈ e.backend.aux.buffers, buffer.handle ≠ 0 ∧
          ∀ memory, e.backend.scratch = some memory → memory.handle ≠ buffer.handle) →
        (e.generate device t).result = .error .layoutBusy →
          (e.Endangers t ↔ ∃ slot, e.backend.sets.mark slot = some false ∧
            (e.displacesStores t = true ∨ e.backend.keepsRegion slot = true))) := by
  intro e
  have hiff := Engine.generate_busy_iff device t e
  refine ⟨hiff, fun hhandles hbusy => ?_⟩
  obtain ⟨-, -, -, -, hdisplaces⟩ := hiff.1 hbusy
  have hafter : e.backend.generation = .vdpu34x := Engine.generation_of_displaces hdisplaces
  obtain ⟨hkind, -⟩ := upToDate_run hp actions
  have hcarries := carries_of_run hp (hkind.generation.symm.trans hafter) actions
  constructor
  · rintro ⟨slot, ⟨-, buffer, hbuffer, hmark, set, reg, hset, hpurpose, hget⟩ |
      ⟨hstores, -, -, hmark, -⟩⟩
    · obtain ⟨set', hset', hcarries⟩ := hcarries slot hmark
      obtain rfl := Option.some.inj (hset.symm.trans hset')
      obtain ⟨hzero, hapart⟩ := hhandles buffer hbuffer
      rw [hafter] at hpurpose
      exact ⟨slot, hmark, .inr (hcarries.keepsRegion hzero hapart hpurpose hget)⟩
    · exact ⟨slot, hmark, .inl hstores⟩
  · rintro ⟨slot, hmark, hcase⟩
    obtain ⟨set, hset, hcarries⟩ := hcarries slot hmark
    by_cases hstores : e.displacesStores t = true
    · exact ⟨slot, .inr ⟨hstores, hcarries.employs_store hafter hmark hset⟩⟩
    · have hlayout := hdisplaces.resolve_right hstores
      have hkeeps := hcase.resolve_left hstores
      exact ⟨slot, .inl ⟨hlayout, hcarries.employs_auxiliary hafter hmark hset hkeeps⟩⟩

/-- A wider picture is refused while the first one, with its auxiliary buffer, is in flight. -/
theorem layoutBusy_iff_of_run_bench :
    let p := Bench.pipeline .vdpu34x
    let e := (p.run Bench.device [.generate 0]).engine
    let wide : Task :=
      { Bench.task 2 with picture := .avc { params := { picWidthInMbsMinus1 := 1 } } }
    p.IsInitial Bench.device ∧ (e.generate Bench.device wide).result = .error .layoutBusy ∧
      e.Endangers wide := by
  intro p e wide
  have hp : p.IsInitial Bench.device := Bench.pipeline_isInitial .vdpu34x
  have hbusy : (e.generate Bench.device wide).result = .error .layoutBusy := by decide +kernel
  have hscratch : e.backend.scratch = none := by decide +kernel
  have hzero : ∀ buffer ∈ e.backend.aux.buffers, buffer.handle ≠ 0 := by decide +kernel
  have hmark : e.backend.sets.mark 0 = some false := by decide +kernel
  have hkeeps : e.backend.keepsRegion 0 = true := by decide +kernel
  obtain ⟨-, hendangers⟩ := layoutBusy_iff_of_run hp [.generate 0] wide
  refine ⟨hp, hbusy, (hendangers (fun buffer hbuffer => ?_) hbusy).2 ⟨0, hmark, .inr hkeeps⟩⟩
  refine ⟨hzero buffer hbuffer, fun memory hmemory => ?_⟩
  cases hscratch.symm.trans hmemory

/-- The only task in flight bypasses the hardware, and there are no buffers yet; still a task is
refused because of them. -/
theorem bypassed_task_blocks :
    let p := Bench.pipeline .vdpu34x
    let skipped : Task := { Bench.task 0 with flags := { parseError := true } }
    let e := (p.run Bench.device [.edit 0 skipped, .generate 0]).engine
    p.IsInitial Bench.device ∧ e.backend.config.fastMode = true ∧
      e.backend.sets.mark 0 = some true ∧ e.backend.aux.buffers = [] ∧
      e.backend.motion.stores = [] ∧
      (e.generate Bench.device (Bench.task 1)).result = .error .layoutBusy ∧
      ¬ e.Endangers (Bench.task 1) := by
  intro p skipped e
  have hfast : e.backend.config.fastMode = true := by decide +kernel
  have hmark : e.backend.sets.mark 0 = some true := by decide +kernel
  have haux : e.backend.aux.buffers = [] := by decide +kernel
  have hstores : e.backend.motion.stores = [] := by decide +kernel
  have hbusy : (e.generate Bench.device (Bench.task 1)).result = .error .layoutBusy := by
    decide +kernel
  refine ⟨Bench.pipeline_isInitial .vdpu34x, hfast, hmark, haux, hstores, hbusy, ?_⟩
  rintro ⟨slot, ⟨-, buffer, hbuffer, -⟩ | ⟨-, store, hstore, -⟩⟩
  · rw [haux] at hbuffer
    cases hbuffer
  · rw [hstores] at hstore
    cases hstore

end Pipeline

end VideoAccel
