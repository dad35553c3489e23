import Mathlib.Data.List.Infix
import VideoAccel.Proofs.Backend.Custody
import VideoAccel.Proofs.Pipeline.Basic
import VideoAccel.Proofs.Platform.Bench

namespace VideoAccel

variable {σ : Type}

/-- The addresses of each register set that is taken for the hardware are those of buffers that the
backend has. -/
structure Custody (b : Backend) : Prop where
  shaped : b.aux.Shaped b.sets.size
  anchored : ∀ slot, b.sets.mark slot = some false →
    ∃ set, b.sets.get? slot = some set ∧ b.Anchored slot set

theorem RegisterSets.isValid_of_mark {α : Type} {s : RegisterSets α} {i : Nat} {skip : Bool}
    (h : s.mark i = some skip) : s.isValid i = true := by
  rw [← isSome_mark, h]
  rfl

namespace Custody

variable {e : Engine σ} {b b' : Backend}

theorem anchored_of_undisturbed (h : Custody b) {slot : Nat} (hsame : Undisturbed slot b b')
    (hmark : b'.sets.mark slot = some false) :
    ∃ set, b'.sets.get? slot = some set ∧ b'.Anchored slot set := by
  obtain ⟨set, hset, hanchored⟩ := h.anchored slot (hsame.mark.symm.trans hmark)
  exact ⟨set, hsame.set.trans hset, hsame.anchored hanchored⟩

theorem of_undisturbed (h : Custody b) (hsize : b'.sets.size = b.sets.size) (haux : b'.aux = b.aux)
    (hkept : ∀ slot, b'.sets.mark slot = some false → Undisturbed slot b b') : Custody b' where
  shaped := by
    rw [haux, hsize]
    exact h.shaped
  anchored slot hmark := h.anchored_of_undisturbed (hkept slot hmark) hmark

theorem of_ready {device : Device σ} (h : e.Ready device) : Custody e.backend where
  shaped := by
    rw [h.aux]
    exact nofun
  anchored slot hmark := by
    have hvalid := RegisterSets.isValid_of_mark hmark
    rw [h.isValid slot] at hvalid
    cases hvalid

theorem generate (h : Custody e.backend) (device : Device σ) (t : Task) :
    Custody (e.generate device t).engine.backend := by
  refine ⟨Engine.generate_shaped h.shaped device t, fun slot hmark => ?_⟩
  obtain hbefore | ⟨sets, hfill⟩ := Engine.taken_of_generate hmark
  · have hvalid := RegisterSets.isValid_of_mark hbefore
    exact h.anchored_of_undisturbed (Engine.generate_undisturbed hvalid device t) hmark
  · exact Engine.fillPicture_anchored hfill

theorem start (h : Custody e.backend) (device : Device σ) (t : Task) :
    Custody (e.start device t).engine.backend := by
  refine h.of_undisturbed (Engine.start_shape device t e).2 (Engine.start_aux device t e) ?_
  exact fun slot hmark => Engine.start_undisturbed (RegisterSets.isValid_of_mark hmark)

theorem wait (h : Custody e.backend) (device : Device σ) (t : Task) :
    Custody (e.wait device t).engine.backend := by
  refine h.of_undisturbed (Engine.wait_shape device t e).2 (Engine.wait_aux device t e) ?_
  exact fun slot hmark => Engine.wait_undisturbed (RegisterSets.isValid_of_mark hmark)

theorem control (h : Custody e.backend) (c : Control) : Custody (e.control c).2.backend := by
  obtain ⟨config, frames, hsame, _⟩ := Engine.control_eq c e
  refine h.of_undisturbed ?_ (Engine.control_aux c e) fun slot _ =>
    Engine.control_undisturbed slot c e
  rw [hsame]

end Custody

namespace Pipeline

variable {device : Device σ} {p : Pipeline σ} {slot : Nat}

theorem custody_step (h : Custody p.engine.backend) (device : Device σ) (a : Action) :
    Custody (p.step device a).engine.backend := by
  cases a with
  | generate i => exact h.generate device _
  | start i => exact h.start device _
  | wait i => exact h.wait device _
  | control c => exact h.control c
  | recycle | edit | frames | flush => exact h
  | reset => exact h.of_undisturbed rfl rfl fun _ _ => ⟨rfl, rfl, rfl, rfl, rfl⟩

theorem operations_step (device : Device σ) (p : Pipeline σ) (a : Action) :
    device.Operations p.engine.holding (p.step device a).engine.holding := by
  cases a with
  | generate i => exact Engine.generate_operations ..
  | start i => exact Engine.start_operations ..
  | wait i => exact Engine.wait_operations ..
  | control c =>
    obtain ⟨config, frames, hsame, _⟩ := Engine.control_eq c p.engine
    simp only [step, hsame]
    exact .refl
  | recycle | edit | frames => exact .refl
  | flush => exact .single (.flush rfl)
  | reset => exact .single (.reset rfl)

theorem operations_run (device : Device σ) (p : Pipeline σ) (actions : List Action) :
    device.Operations p.engine.holding (p.run device actions).engine.holding :=
  run_induction (P := fun q => device.Operations p.engine.holding q.engine.holding)
    (fun q a hq => hq.trans (operations_step device q a)) .refl actions

/-- If fresh memory never has a handle that is in use, no two buffers ever have the same one. -/
theorem distinct_run (hp : p.IsInitial device) {inUse : σ → Set UInt32}
    (hfresh : FreshHandles device inUse) (actions : List Action) :
    (p.run device actions).engine.holding.Distinct inUse := by
  obtain ⟨state, htransfer⟩ := hp.engine.ready.transfer
  have hops : device.Operations ⟨[], {}, state⟩ (p.run device actions).engine.holding :=
    htransfer.operations.trans (operations_run device p _)
  exact hops.distinct hfresh ⟨rfl, rfl⟩ ⟨List.nodup_nil, nofun⟩

theorem undisturbed_step (hbefore : p.engine.backend.sets.isValid slot = true) (a : Action)
    (hafter : (p.step device a).engine.backend.sets.isValid slot = true) :
    Undisturbed slot p.engine.backend (p.step device a).engine.backend := by
  cases a with
  | generate i => exact Engine.generate_undisturbed hbefore device _
  | start i => exact Engine.start_undisturbed hafter
  | wait i => exact Engine.wait_undisturbed hafter
  | control c => exact Engine.control_undisturbed slot c _
  | recycle | edit | frames | flush => exact .refl ..
  | reset => exact ⟨rfl, rfl, rfl, rfl, rfl⟩

/-- A set that is taken for the hardware is as it was before, or it has just been filled. -/
theorem taken_step {a : Action}
    (hmark : (p.step device a).engine.backend.sets.mark slot = some false) :
    Undisturbed slot p.engine.backend (p.step device a).engine.backend ∨
      ∃ t sets, (p.engine.withSets sets).fillPicture device t slot =
        (.ok (), (p.step device a).engine) := by
  have hvalid := RegisterSets.isValid_of_mark hmark
  cases a with
  | generate i =>
    obtain hbefore | ⟨sets, hfill⟩ := Engine.taken_of_generate hmark
    · have htaken := RegisterSets.isValid_of_mark hbefore
      exact .inl (Engine.generate_undisturbed htaken device _)
    · exact .inr ⟨p.tasks i, sets, hfill⟩
  | start i => exact .inl (Engine.start_undisturbed hvalid)
  | wait i => exact .inl (Engine.wait_undisturbed hvalid)
  | control c => exact .inl (Engine.control_undisturbed slot c _)
  | recycle | edit | frames | flush => exact .inl (.refl ..)
  | reset => exact .inl ⟨rfl, rfl, rfl, rfl, rfl⟩

/-- A register set that is taken at all times is the same at the end, with the same buffers. -/
theorem undisturbed_run {actions : List Action}
    (hvalid : ∀ actions', actions' <+: actions →
      (p.run device actions').engine.backend.sets.isValid slot = true) :
    Undisturbed slot p.engine.backend (p.run device actions).engine.backend := by
  induction actions generalizing p with
  | nil => exact .refl ..
  | cons a actions ih =>
    have hbefore := hvalid [] List.nil_prefix
    have hafter := hvalid [a] (List.prefix_append [a] actions)
    have hrest := ih fun actions' hprefix =>
      hvalid (a :: actions') ((List.cons_prefix_cons).2 ⟨rfl, hprefix⟩)
    exact (undisturbed_step hbefore a hafter).trans hrest

theorem run_append (device : Device σ) (p : Pipeline σ) (actions actions' : List Action) :
    p.run device (actions ++ actions') = (p.run device actions).run device actions' :=
  List.foldl_append

/-- From the time a register set is filled until it is released, the set and the buffers it may name
stay as they are: every address in its registers is that of a buffer which the backend owns and the
group counts as outstanding. No other set has its table buffer or its auxiliary buffer; and if fresh
memory never has a handle that is in use, no other buffer, held or idle, has the same handle. -/
theorem buffers_kept_of_run (hp : p.IsInitial device) (before after : List Action)
    (hmark : (p.run device before).engine.backend.sets.mark slot = some false)
    (hvalid : ∀ actions, actions <+: after →
      (p.run device (before ++ actions)).engine.backend.sets.isValid slot = true) :
    let e := (p.run device before).engine
    let e' := (p.run device (before ++ after)).engine
    Undisturbed slot e.backend e'.backend ∧
      (∃ set, e'.backend.sets.get? slot = some set ∧ e'.backend.Anchored slot set ∧
        (∀ purpose, e'.backend.buffersOf slot set purpose ⊆ e'.backend.owned) ∧
        ∀ other set' purpose, slot ≠ other → e'.backend.sets.get? other = some set' →
          purpose ≠ .motionVectors →
          let both := e'.backend.buffersOf slot set purpose ++
            e'.backend.buffersOf other set' purpose
          both.Subperm e'.backend.owned ∧
            ∀ inUse, FreshHandles device inUse → (both.map DeviceBuffer.handle).Nodup) ∧
      e'.holding.Counted ∧
      ∀ inUse, FreshHandles device inUse → e'.holding.Distinct inUse := by
  intro e e'
  have hready := hp.engine.ready
  have hcustody : ∀ actions, Custody (p.run device actions).engine.backend := fun actions =>
    run_induction (P := fun q => Custody q.engine.backend)
      (fun _ a hq => custody_step hq device a) (Custody.of_ready hready) actions
  have hsame : Undisturbed slot e.backend e'.backend := by
    simp only [e', run_append]
    refine undisturbed_run fun actions hprefix => ?_
    rw [← run_append]
    exact hvalid actions hprefix
  obtain ⟨set, hset, hanchored⟩ := (hcustody before).anchored slot hmark
  have hset' : e'.backend.sets.get? slot = some set := hsame.set.trans hset
  obtain ⟨state, htransfer⟩ := hready.transfer
  have hops : device.Operations ⟨[], {}, state⟩ e'.holding :=
    htransfer.operations.trans (operations_run device p _)
  have hcounted : Holding.Counted (⟨[], {}, state⟩ : Holding σ) := ⟨rfl, rfl⟩
  have hdistinct : ∀ inUse, FreshHandles device inUse → e'.holding.Distinct inUse :=
    fun _ hfresh => hops.distinct hfresh hcounted ⟨List.nodup_nil, nofun⟩
  refine ⟨hsame, ⟨set, hset', hsame.anchored hanchored, ?_, ?_⟩, hops.counted hcounted, hdistinct⟩
  · exact fun purpose => Backend.buffersOf_subset_owned hset' purpose
  · intro other set' purpose hne hother hpurpose both
    have hboth : both.Subperm e'.backend.owned :=
      Backend.subperm_owned (hcustody _).shaped hset' hother hne hpurpose
    exact ⟨hboth, fun inUse hfresh => (hdistinct inUse hfresh).nodup_of_subperm hboth⟩

/-- A second task is generated, and a third one of another geometry is refused. -/
theorem buffers_kept_of_run_bench :
    let p := Bench.pipeline .vdpu34x
    let wide : Task :=
      { Bench.task 2 with picture := .avc { params := { picWidthInMbsMinus1 := 1 } } }
    let before : List Action := [.generate 0, .start 0]
    let after : List Action := [.generate 1, .edit 2 wide, .generate 2, .start 1, .reset]
    let e := (p.run Bench.device (before ++ after)).engine
    p.IsInitial Bench.device ∧ (e.generate Bench.device wide).result = .error .layoutBusy ∧
      (∃ set, e.backend.sets.get? 0 = some set ∧ e.backend.Anchored 0 set) ∧
      e.holding.Distinct Bench.inUse := by
  intro p wide before after e
  have hp : p.IsInitial Bench.device := Bench.pipeline_isInitial .vdpu34x
  have hmark : (p.run Bench.device before).engine.backend.sets.mark 0 = some false := by
    decide +kernel
  have hvalid : ∀ actions ∈ after.inits,
      (p.run Bench.device (before ++ actions)).engine.backend.sets.isValid 0 = true := by
    decide +kernel
  have hbusy : (e.generate Bench.device wide).result = .error .layoutBusy := by decide +kernel
  obtain ⟨_, ⟨set, hset, hanchored, _⟩, _, hdistinct⟩ :=
    buffers_kept_of_run hp before after hmark fun actions hprefix =>
      hvalid actions ((List.mem_inits ..).2 hprefix)
  exact ⟨hp, hbusy, ⟨set, hset, hanchored⟩, hdistinct Bench.inUse Bench.fresh⟩

end Pipeline

end VideoAccel
