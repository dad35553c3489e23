import VideoAccel.Platform.Scripted
import VideoAccel.Proofs.Pipeline.Operations
import VideoAccel.Proofs.Platform.Bench
import VideoAccel.Proofs.Session.Opening

namespace VideoAccel

variable {σ : Type}

structure Decoding (σ : Type) where
  session : Session σ
  tasks : Nat → Task

/-- What happens to a session: the caller acts or changes its interest in reports, or the platform
changes by itself. -/
inductive SessionEvent (σ : Type)
  | act (a : Action)
  | observe (on : Bool)
  | elapse (state : σ)

namespace Decoding

variable {platform : Platform σ} {d : Decoding σ}

def after (d : Decoding σ) (i : Nat) (o : Session.Outcome σ) : Decoding σ :=
  ⟨o.session, Function.update d.tasks i o.task⟩

def act (platform : Platform σ) (d : Decoding σ) : Action → Decoding σ
  | .generate i => d.after i (d.session.generate platform (d.tasks i))
  | .start i => d.after i (d.session.start platform (d.tasks i))
  | .wait i => d.after i (d.session.wait platform (d.tasks i))
  | .recycle i => { d with tasks := recycled d.tasks i }
  | .edit i fields => { d with tasks := Function.update d.tasks i ((d.tasks i).withFields fields) }
  | .control c => { d with session := (d.session.control c).2 }
  | .frames frames =>
    { d with session := { d.session with engine := { d.session.engine with frames } } }
  | .flush => { d with session := (d.session.flush platform).2 }
  | .reset => { d with session := (d.session.reset platform).2 }

def step (platform : Platform σ) (d : Decoding σ) : SessionEvent σ → Decoding σ
  | .act a => d.act platform a
  | .observe on => { d with session := { d.session with observed := on } }
  | .elapse state =>
    { d with session := { d.session with engine := { d.session.engine with device := state } } }

def run (platform : Platform σ) (d : Decoding σ) (events : List (SessionEvent σ)) : Decoding σ :=
  events.foldl (step platform) d

/-- The session has just been opened and no task has been handed to it. -/
structure IsInitial (platform : Platform σ) (d : Decoding σ) : Prop where
  session : ∃ (registry : Registry) (standard : CodingStandard) (config : Config)
    (caps : Capabilities) (around around' : Surroundings σ),
    registry.openSession platform standard config caps around = (.ok d.session, around')
  tasks : ∀ i, (d.tasks i).slot = none ∧ (d.tasks i).inFlight = false

structure Sound (depth : Nat) (d : Decoding σ) : Prop where
  bound : Bound d.tasks d.session.engine.backend
  size : d.session.engine.backend.sets.size = depth
  config : d.session.config.pipelineDepth = depth

variable {depth : Nat}

theorem IsInitial.sound (h : d.IsInitial platform) : Sound d.session.config.pipelineDepth d := by
  obtain ⟨registry, standard, config, caps, around, around', hopen⟩ := h.session
  have hready := Registry.openSession_ok hopen
  exact ⟨.of_free h.tasks hready.ready.submitted hready.ready.isValid, hready.ready.size, rfl⟩

theorem Sound.of_shape {tasks : Nat → Task} {s : Session σ} (h : Sound depth d)
    (hshape : Engine.SameShape d.session.engine s.engine) (hbound : Bound tasks s.engine.backend) :
    Sound depth ⟨s, tasks⟩ where
  bound := hbound
  size := hshape.2.trans h.size
  config := (congrArg Config.pipelineDepth hshape.1).trans h.config

theorem Sound.slot_eq_none (h : Sound depth d) (hidle : d.session.tasksInFlight = 0) (i : Nat) :
    (d.tasks i).slot = none ∧ (d.tasks i).inFlight = false := by
  have hnone : (d.tasks i).slot = none := by
    rw [Option.eq_none_iff_forall_ne_some]
    intro slot hslot
    have hmem := (RegisterSets.mem_validIndices _ slot).2 ((h.bound.valid slot).2 ⟨i, hslot⟩)
    have hpos := List.length_pos_of_mem hmem
    rw [RegisterSets.length_validIndices] at hpos
    exact absurd hidle (Nat.ne_of_gt hpos)
  exact ⟨hnone, by rw [← h.bound.slot i, hnone]; rfl⟩

theorem Sound.switchTo (h : Sound depth d) (standard : CodingStandard) {s : Session σ}
    {result : Except BackendError Unit}
    (hswitch : d.session.switchTo platform standard = (result, s)) : Sound depth ⟨s, d.tasks⟩ := by
  obtain ⟨error, _, _, hsame⟩ | ⟨_, hidle, hqueue, hfree, hsize, hdepth⟩ :=
    Session.switchTo_cases platform standard d.session hswitch
  · refine h.of_shape ⟨by rw [hsame], by rw [hsame]⟩ ?_
    rw [hsame]
    exact h.bound
  · exact ⟨.of_free (h.slot_eq_none hidle) hqueue hfree, hsize.trans h.config,
      hdepth.trans h.config⟩

theorem Sound.generate (h : Sound depth d) (platform : Platform σ) (i : Nat) :
    Sound depth (d.after i (d.session.generate platform (d.tasks i))) := by
  have hlift : ∀ s : Session σ, Sound depth ⟨s, d.tasks⟩ →
      Sound depth (d.after i (s.lift (s.engine.generate (s.device platform) (d.tasks i)))) := by
    intro s hs
    exact hs.of_shape (Engine.generate_shape ..) (hs.bound.generate ..)
  simp only [Session.generate]
  split
  · exact hlift d.session h
  split <;> rename_i s hswitch
  · have hs := h.switchTo _ hswitch
    simpa only [after, Function.update_eq_self] using hs
  · exact hlift s (h.switchTo _ hswitch)

theorem Sound.control (h : Sound depth d) (c : Control) :
    Sound depth { d with session := (d.session.control c).2 } := by
  have hengine : (d.session.control c).2.engine = (d.session.engine.control c).2 := by
    simp only [Session.control]
    split
    · rename_i hr
      rw [hr]
    · rename_i hr
      cases c <;> rw [hr]
  obtain ⟨config, frames, hsame, hdepth⟩ := Engine.control_eq c d.session.engine
  refine ⟨?_, ?_, ?_⟩
  · rw [hengine]
    exact h.bound.control c
  · rw [hengine, hsame]
    exact h.size
  · rw [Session.config, hengine, hsame]
    exact hdepth.trans h.config

theorem Sound.step (h : Sound depth d) (platform : Platform σ) (event : SessionEvent σ) :
    Sound depth (d.step platform event) := by
  cases event with
  | act a =>
    cases a with
    | generate i => exact h.generate platform i
    | start i => exact h.of_shape (Engine.start_shape ..) (h.bound.start ..)
    | wait i => exact h.of_shape (Engine.wait_shape ..) (h.bound.wait ..)
    | recycle i => exact { h with bound := h.bound.recycled i }
    | edit i fields => exact { h with bound := h.bound.withFields i fields }
    | control c => exact h.control c
    | frames | flush => exact { h with }
    | reset => exact { h with bound := h.bound.reset _ }
  | observe | elapse => exact { h with }

theorem IsInitial.sound_run (h : d.IsInitial platform) (events : List (SessionEvent σ)) :
    Sound d.session.config.pipelineDepth (d.run platform events) := by
  have hrun : ∀ depth (d : Decoding σ), Sound depth d → Sound depth (d.run platform events) := by
    intro depth
    induction events with
    | nil => exact fun d hd => hd
    | cons event events ih => exact fun d hd => ih _ (hd.step platform event)
  exact hrun _ d h.sound

/-- What a caller is told about an action. -/
def answer (platform : Platform σ) (d : Decoding σ) : Action → Except BackendError Unit
  | .generate i => (d.session.generate platform (d.tasks i)).result
  | .start i => (d.session.start platform (d.tasks i)).result
  | .wait i => (d.session.wait platform (d.tasks i)).result
  | .control c => (d.session.control c).1
  | .flush => (d.session.flush platform).1
  | .reset => (d.session.reset platform).1
  | .recycle _ | .edit .. | .frames _ => .ok ()

theorem isInternal_generate (platform : Platform σ) (t : Task) (s : Session σ)
    {error : BackendError} (h : (s.generate platform t).result = .error error) :
    error.isInternal = false := by
  have hlift : ∀ s : Session σ,
      (s.lift (s.engine.generate (s.device platform) t)).result = .error error →
        error.isInternal = false := by
    intro s hs
    exact Engine.isInternal_generate hs
  simp only [Session.generate] at h
  split at h
  · exact hlift s h
  split at h <;> rename_i s' hswitch
  · obtain ⟨error', herror, hinternal, _⟩ | ⟨hok, _⟩ := Session.switchTo_cases platform _ s hswitch
    · cases herror
      cases h
      exact hinternal
    · cases hok
  · exact hlift s' h

theorem isInternal_control (c : Control) (s : Session σ) {error : BackendError}
    (h : (s.control c).1 = .error error) : error.isInternal = false := by
  have hengine : (s.engine.control c).1 = .error error := by
    simp only [Session.control] at h
    split at h
    · rename_i hr
      rw [hr]
      exact h
    · cases c <;> cases h
  cases c with
  | frameInfo width height depth layout =>
    simp only [Engine.control] at hengine
    split at hengine <;> cases hengine
    rfl
  | errorTolerance enabled => cases hengine

theorem isInternal_channel {result : Except ChannelError Unit} {error : BackendError}
    (h : result.mapError .channel = .error error) : error.isInternal = false := by
  cases result with
  | error e =>
    cases h
    rfl
  | ok _ => cases h

theorem Sound.isInternal_answer (h : Sound depth d) {a : Action} {error : BackendError}
    (herror : d.answer platform a = .error error) : error.isInternal = false := by
  cases a with
  | generate i => exact isInternal_generate platform _ _ herror
  | start i => exact h.bound.isInternal_start _ herror
  | wait i => exact h.bound.isInternal_wait _ herror
  | control c => exact isInternal_control c _ herror
  | flush | reset => exact isInternal_channel herror
  | recycle | edit | frames => cases herror

/-- In every state that a session reaches, the register sets in use belong one to one to the tasks
in flight, the queue holds submitted tasks of the hardware only, and no action runs into a task
without a register set. -/
theorem tasks_bound_of_run (hd : d.IsInitial platform) (events : List (SessionEvent σ)) :
    let d' := d.run platform events
    Bound d'.tasks d'.session.engine.backend ∧
      {i | (d'.tasks i).inFlight = true}.encard = d'.session.tasksInFlight ∧
      d'.session.tasksInFlight ≤ d.session.config.pipelineDepth ∧
      d'.session.config.pipelineDepth = d.session.config.pipelineDepth ∧
      ∀ a error, d'.answer platform a = .error error → error.isInternal = false := by
  intro d'
  have hsound : Sound d.session.config.pipelineDepth d' := hd.sound_run events
  refine ⟨hsound.bound, hsound.bound.encard_inFlight, ?_, hsound.config, fun a error herror => ?_⟩
  · have hle := RegisterSets.validCount_le_size d'.session.engine.backend.sets
    rwa [hsound.size] at hle
  · exact hsound.isInternal_answer herror

def opening : Except OpenError (Session ScriptedPlatform) × Surroundings ScriptedPlatform :=
  (Registry.withBuiltin .rk3399).openSession ScriptedPlatform.platform .avc { fastMode := true }
    Soc.rk3399.caps ⟨Bench.frames, {}⟩

/-- Two tasks are started, the channel is reset, and one of them completes after that; a third task
is generated in between. -/
theorem tasks_bound_of_run_scripted :
    let events : List (SessionEvent ScriptedPlatform) :=
      [.act (.generate 0), .act (.start 0), .act (.generate 1), .act (.start 1), .act .reset,
        .act (.generate 2), .act (.wait 1), .observe false, .act (.recycle 1)]
    ∃ d : Decoding ScriptedPlatform, d.IsInitial ScriptedPlatform.platform ∧
      let d' := d.run ScriptedPlatform.platform events
      d'.session.tasksInFlight = 2 ∧ Bound d'.tasks d'.session.engine.backend ∧
        {i | (d'.tasks i).inFlight = true}.encard = 2 := by
  intro events
  have hcount : (opening.1.toOption.map fun s =>
      (run ScriptedPlatform.platform ⟨s, Bench.task⟩ events).session.tasksInFlight) = some 2 := by
    decide +kernel
  obtain ⟨s, hs, hcount⟩ := Option.map_eq_some_iff.1 hcount
  have hopen : opening = (.ok s, opening.2) := by
    generalize opening = r at hs
    obtain ⟨_ | s', around⟩ := r
    · cases hs
    · cases hs
      rfl
  have hd : IsInitial ScriptedPlatform.platform ⟨s, Bench.task⟩ :=
    ⟨⟨_, _, _, _, _, _, hopen⟩, fun _ => ⟨rfl, rfl⟩⟩
  obtain ⟨hbound, hencard, _⟩ := tasks_bound_of_run hd events
  rw [hcount] at hencard
  exact ⟨_, hd, hcount, hbound, hencard⟩

end Decoding

end VideoAccel
