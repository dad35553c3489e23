import VideoAccel.Proofs.Backend.Leftovers
import VideoAccel.Proofs.Pipeline.Custody
import VideoAccel.Proofs.Traffic.Tally

namespace VideoAccel

variable {σ : Type}

namespace Pipeline

/-- The same tasks with engines that differ at most in what is left over in the register sets. -/
def Alike (p p' : Pipeline σ) : Prop := p'.tasks = p.tasks ∧ p.engine.Alike p'.engine

variable {device : Device σ} {p p' : Pipeline σ}

theorem Alike.after {o o' : Outcome σ} (h : o.Alike o') (p : Pipeline σ) (i : Nat) :
    (p.after i o).Alike (p.after i o') := by
  obtain ⟨s, rfl, hsets⟩ := h
  exact ⟨rfl, s, rfl, hsets⟩

theorem alike_step (hb : Bound p.tasks p.engine.backend) (h : p.Alike p') (device : Device σ)
    (a : Action) : (p.step device a).Alike (p'.step device a) := by
  obtain ⟨e', tasks'⟩ := p'
  obtain ⟨htasks, s, hengine, hsets⟩ := h
  obtain rfl : tasks' = p.tasks := htasks
  obtain rfl : e' = p.engine.withSets s := hengine
  have hvalid : ∀ i slot, (p.tasks i).slot = some slot →
      p.engine.backend.sets.isValid slot = true := fun i slot hslot => (hb.valid slot).2 ⟨i, hslot⟩
  cases a with
  | generate i => exact Alike.after (Engine.generate_alike hsets device (p.tasks i)) p i
  | start i => exact Alike.after (Engine.start_alike hsets device (hvalid i)) p i
  | wait i => exact Alike.after (Engine.wait_alike hsets device (hvalid i)) p i
  | control c =>
    have hcontrol := Engine.control_alike hsets c
    exact ⟨rfl, hcontrol⟩
  | recycle | edit | frames | flush | reset => exact ⟨rfl, s, rfl, hsets⟩

theorem alike_run (hb : Bound p.tasks p.engine.backend) (h : p.Alike p') (device : Device σ)
    (actions : List Action) : (p.run device actions).Alike (p'.run device actions) := by
  induction actions generalizing p p' with
  | nil => exact h
  | cons a actions ih => exact ih (bound_step hb device a) (alike_step hb h device a)

end Pipeline

/-- What the backend of `e'` has in flight is what that of `e` has, and the channel was not
spoken to. -/
structure Engine.InFlightKept (e e' : Engine (Recorded σ)) : Prop where
  marks : e'.backend.sets.mark = e.backend.sets.mark
  submitted : e'.backend.submitted = e.backend.submitted
  silent : e'.device.log = e.device.log
  undisturbed : ∀ slot, e.backend.sets.isValid slot = true → Undisturbed slot e.backend e'.backend

namespace Engine

variable {device : Device σ} {t : Task} {error : BackendError}

theorem generate_error {e : Engine (Recorded σ)}
    (herror : (e.generate device.recorded t).result = .error error) :
    (e.generate device.recorded t).task = t ∧ (e.generate device.recorded t).report = none ∧
      e.InFlightKept (e.generate device.recorded t).engine := by
  have hundisturbed : ∀ slot, e.backend.sets.isValid slot = true →
      Undisturbed slot e.backend (e.generate device.recorded t).engine.backend :=
    fun slot hvalid => generate_undisturbed hvalid device.recorded t
  have hgen := generated device.recorded t e
  generalize e.generate device.recorded t = o at herror hundisturbed hgen
  cases hgen with
  | refused _ => exact ⟨rfl, rfl, rfl, rfl, rfl, hundisturbed⟩
  | bypassed | filled => cases herror
  | failed _ _ hacquire hfill _ =>
    have hmarks := mark_of_failed hacquire hfill
    have hsubmitted := (refill_of_fillPicture hfill).submitted
    have hlog := Pipeline.log_of_fillPicture hfill
    exact ⟨rfl, rfl, hmarks, hsubmitted, hlog, hundisturbed⟩

/-- The set that was written to is free again, so it differs at most in leftovers from what it was
before. -/
theorem alike_of_generate_error {e : Engine σ} {device : Device σ}
    (herror : (e.generate device t).result = .error error) :
    (e.generate device t).engine.backend.sets.Alike e.backend.sets := by
  have hgen := generated device t e
  generalize e.generate device t = o at herror hgen
  cases hgen with
  | refused _ => exact .refl _
  | bypassed | filled => cases herror
  | @failed slot sets _ e' _ _ hacquire hfill _ =>
    obtain ⟨⟨a, ha, hfree⟩, rfl⟩ := RegisterSets.acquire?_eq_some hacquire
    have hacquired := (RegisterSets.get?_modify_self e.backend.sets slot fun set =>
      { set with valid := true, skip := false, patches := [] }).trans (congrArg _ ha)
    obtain ⟨f, hsame⟩ := fillPicture_withSets
      (e := e.withSets (e.backend.sets.modify slot fun set =>
        { set with valid := true, skip := false, patches := [] }))
      (RegisterSets.Alike.refl _).taken hacquired hacquired ⟨rfl, rfl, rfl, rfl⟩ device t
    have hsets := hsame.sets
    have htables := hsame.tables
    rw [hfill, withSets_backend, RegisterSets.modify_modify] at hsets
    change (e'.backend.sets.release slot).Alike e.backend.sets
    change e'.backend.sets = _ at hsets
    rw [hsets, RegisterSets.release, RegisterSets.modify_modify]
    apply RegisterSets.Alike.of_modify
    intro a' ha'
    obtain rfl := Option.some.inj (ha.symm.trans ha')
    exact .of_free rfl hfree (htables _ rfl).symm

end Engine

namespace Pipeline

variable {device : Device σ} {p : Pipeline σ}

/-- Whatever a run has led to and whatever the settings, scratch memory and frame table are by then,
a task whose registers cannot be generated stays as it is, and so does everything in flight. All
that is done later goes as if the set that was acquired for it had never been written to. -/
theorem failure_atomic_of_run (hp : p.IsInitial device) (actions : List Action)
    (frames : FrameTable) (config : Config) (scratch : Option ScratchMemory) (t : Task) :
    let q := p.withRecord.run device.recorded actions
    let e : Engine (Recorded σ) :=
      ⟨{ q.engine.backend with config, scratch }, frames, q.engine.device⟩
    let o := e.generate device.recorded t
    q.map Recorded.state = p.run device actions ∧
      ((∃ error, o.result = .error error) →
        o.task = t ∧ o.report = none ∧ e.InFlightKept o.engine ∧
        ∀ later,
          let left := Pipeline.run device.recorded ⟨o.engine, q.tasks⟩ later
          let clean :=
            Pipeline.run device.recorded ⟨o.engine.withSets e.backend.sets, q.tasks⟩ later
          left.Alike clean ∧ ∀ t', (left.engine.generate device.recorded t').Alike
            (clean.engine.generate device.recorded t')) := by
  intro q e o
  have hrun : q.map Recorded.state = p.run device actions := withRecord_run device p actions
  have hbound : Bound q.tasks e.backend := by
    have hplain := bound_run hp actions
    rw [← hrun] at hplain
    exact { hplain with }
  refine ⟨hrun, ?_⟩
  rintro ⟨error, herror⟩
  obtain ⟨htask, hreport, hkept⟩ := Engine.generate_error herror
  have hsets := Engine.alike_of_generate_error herror
  have hleft : Bound q.tasks o.engine.backend := by
    have hqueue : o.engine.backend.submitted.Sublist e.backend.submitted := by
      rw [hkept.submitted]
    exact hbound.keep (fun _ => rfl) (fun _ => rfl) (fun _ => id) hkept.marks hqueue
  refine ⟨htask, hreport, hkept, fun later => ?_⟩
  have hclean : Alike ⟨o.engine, q.tasks⟩ ⟨o.engine.withSets e.backend.sets, q.tasks⟩ :=
    ⟨rfl, _, rfl, hsets⟩
  have halike := alike_run hleft hclean device.recorded later
  refine ⟨halike, fun t' => ?_⟩
  obtain ⟨-, s, hengine, hlater⟩ := halike
  rw [hengine]
  exact Engine.generate_alike hlater device.recorded t'

/-- A picture whose reference set does not fit its fields fails when its header has been written
already, while another picture is in flight. -/
theorem failure_atomic_of_run_hevc :
    let start := Engine.init Bench.device
      ⟨{ standard := .hevc, generation := .vdpu34x, config := { fastMode := true } },
        Bench.frames, {}⟩
    let params : Hevc.Params := { picWidthInLumaSamples := 16, picHeightInLumaSamples := 16 }
    let p : Pipeline Bench :=
      ⟨start.2, fun _ => { picture := .hevc { params }, streamLength := 100 }⟩
    let lists : Hevc.RefList := Vector.replicate Hevc.maxListEntries (some 16)
    let t : Task := { picture := .hevc { params := { params with stCurrBefore := lists } } }
    let actions : List Action := [.generate 0, .start 0]
    let q := p.withRecord.run Bench.device.recorded actions
    let o := q.engine.generate Bench.device.recorded t
    p.IsInitial Bench.device ∧ q.engine.backend.tasksInFlight = 1 ∧
      o.result = .error (.step (.bits (.valueTooWide 16 4))) ∧
      o.engine.backend.sets.get? 1 ≠ q.engine.backend.sets.get? 1 ∧
      o.task = t ∧ q.engine.InFlightKept o.engine ∧
      ∀ later, (Pipeline.run Bench.device.recorded ⟨o.engine, q.tasks⟩ later).Alike
        (Pipeline.run Bench.device.recorded ⟨o.engine.withSets q.engine.backend.sets, q.tasks⟩
          later) := by
  intro start params p lists t actions
  have hok : start.1 = .ok () := by decide +kernel
  have hp : p.IsInitial Bench.device :=
    ⟨⟨_, _, _, _, _, _, Prod.ext hok rfl⟩, fun _ => ⟨rfl, rfl⟩⟩
  have hflight : (p.withRecord.run Bench.device.recorded actions).engine.backend.tasksInFlight =
      1 := by decide +kernel
  have herror : ((p.withRecord.run Bench.device.recorded actions).engine.generate
      Bench.device.recorded t).result = .error (.step (.bits (.valueTooWide 16 4))) := by
    decide +kernel
  have hwritten : ((p.withRecord.run Bench.device.recorded actions).engine.generate
        Bench.device.recorded t).engine.backend.sets.get? 1 ≠
      (p.withRecord.run Bench.device.recorded actions).engine.backend.sets.get? 1 := by
    decide +kernel
  obtain ⟨-, hatomic⟩ := failure_atomic_of_run hp actions
    (p.withRecord.run Bench.device.recorded actions).engine.frames
    (p.withRecord.run Bench.device.recorded actions).engine.backend.config
    (p.withRecord.run Bench.device.recorded actions).engine.backend.scratch t
  generalize p.withRecord.run Bench.device.recorded actions = q at *
  obtain ⟨htask, -, hkept, hlater⟩ := hatomic ⟨_, herror⟩
  exact ⟨hp, hflight, herror, hwritten, htask, hkept, fun later => (hlater later).1⟩

end Pipeline

end VideoAccel
