import VideoAccel.Proofs.Backend.Initial
import VideoAccel.Proofs.Backend.Outcomes
import VideoAccel.Session

namespace VideoAccel

variable {σ : Type}

variable {platform : Platform σ} {config : Config} {opened : Opened σ}
  {around around' : Surroundings σ}

structure Opened.IsReady (platform : Platform σ) (config : Config) (o : Opened σ) : Prop where
  ready : Engine.Ready (platform.device o.link) o.engine
  depth : o.engine.backend.config.pipelineDepth = config.pipelineDepth

theorem Accelerator.instantiate_ok {a : Accelerator}
    (h : a.instantiate platform config around = (.ok opened, around')) :
    opened.IsReady platform config := by
  simp only [instantiate] at h
  split at h
  · cases h
  split at h
  · cases h
  rename_i hinit
  cases h
  obtain ⟨hready, _, _, hconfig, _⟩ := Engine.init_ok hinit
  exact ⟨hready, congrArg Config.pipelineDepth hconfig⟩

theorem firstAccepted_some {info : Option Control} {candidates : List Accelerator} {a : Accelerator}
    (h : firstAccepted platform config info candidates around = (some (a, opened), around')) :
    opened.IsReady platform config := by
  induction candidates generalizing around with
  | nil => cases h
  | cons first rest ih =>
    simp only [firstAccepted] at h
    split at h
    · exact ih h
    rename_i opened' _ hopened
    have hready := Accelerator.instantiate_ok hopened
    split at h
    · cases h
      exact hready
    rename_i info'
    have hcontrol := hready.ready.control info'
    obtain ⟨_, _, hsame, hdepth⟩ := Engine.control_eq info' opened'.engine
    split at h
    · rename_i hr
      cases h
      rw [hr] at hcontrol hsame
      obtain rfl := hsame
      exact ⟨hcontrol, hdepth.trans hready.depth⟩
    · exact ih h

theorem Registry.openSession_ok {registry : Registry} {standard : CodingStandard}
    {caps : Capabilities} {s : Session σ}
    (h : registry.openSession platform standard config caps around = (.ok s, around')) :
    Opened.IsReady platform config ⟨s.link, s.engine⟩ := by
  simp only [openSession] at h
  split at h
  · cases h
  split at h
  · cases h
  · rename_i haccepted
    cases h
    exact firstAccepted_some haccepted

theorem exists_ok_of_toOption_map {ε α β γ : Type} {r : Except ε α × β} {f : α → γ} {x : γ}
    (h : r.1.toOption.map f = some x) : ∃ a, r = (.ok a, r.2) ∧ f a = x := by
  obtain ⟨_ | a, b⟩ := r
  · cases h
  · exact ⟨a, rfl, Option.some.inj h⟩

/-- A session that moves to another accelerator had nothing in flight. -/
theorem Session.switchTo_cases (platform : Platform σ) (standard : CodingStandard)
    (s : Session σ) {result : Except BackendError Unit} {s' : Session σ}
    (h : s.switchTo platform standard = (result, s')) :
    (∃ error, result = .error error ∧ error.isInternal = false ∧
        s'.engine.backend = s.engine.backend) ∨
      result = .ok () ∧ s.tasksInFlight = 0 ∧ s'.engine.backend.submitted = [] ∧
        (∀ i, s'.engine.backend.sets.isValid i = false) ∧
        s'.engine.backend.sets.size = s.config.pipelineDepth ∧
        s'.config.pipelineDepth = s.config.pipelineDepth := by
  simp only [switchTo] at h
  split at h
  · cases h
    exact .inl ⟨_, rfl, rfl, rfl⟩
  rename_i hidle
  split at h
  · cases h
    exact .inl ⟨_, rfl, rfl, rfl⟩
  split at h
  · cases h
    exact .inl ⟨_, rfl, rfl, rfl⟩
  rename_i haccepted
  cases h
  have hready := firstAccepted_some haccepted
  have hidle' := Nat.eq_zero_of_not_pos hidle
  exact .inr ⟨rfl, hidle', hready.ready.submitted, hready.ready.isValid,
    hready.ready.size.trans hready.depth, hready.depth⟩

end VideoAccel
