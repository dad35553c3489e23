import VideoAccel.Proofs.Session.Moving

namespace VideoAccel

variable {σ : Type}

/-- None of the accelerators can be opened, each of them in the surroundings that the one before it
left. -/
inductive NoneOpens (platform : Platform σ) (config : Config) :
    List Accelerator → Surroundings σ → Surroundings σ → Prop
  | nil {around} : NoneOpens platform config [] around around
  | cons {a rest around last} :
    (∀ o, ¬a.Opens platform config around o) →
    NoneOpens platform config rest (a.instantiate platform config around).2 last →
      NoneOpens platform config (a :: rest) around last

section

variable {platform : Platform σ} {config : Config} {a : Accelerator}
  {around around' : Surroundings σ}

theorem Accelerator.attempt_none_eq_none_iff :
    a.attempt platform config none around = (none, around') ↔
      (∀ o, ¬a.Opens platform config around o) ∧
        (a.instantiate platform config around).2 = around' := by
  have hopens : ∀ o, a.Opens platform config around o →
      (a.instantiate platform config around).1 = .ok o := fun o ho =>
    congrArg Prod.fst (Accelerator.instantiate_eq_ok_iff.2 ⟨ho, rfl⟩)
  simp only [attempt]
  split <;> rename_i hr <;> rw [hr]
  · refine ⟨fun h => ⟨fun o ho => ?_, (Prod.mk.inj h).2⟩, fun h => congrArg _ h.2⟩
    have hok := hopens o ho
    rw [hr] at hok
    cases hok
  · refine ⟨fun h => absurd (congrArg Prod.fst h) (Option.some_ne_none _), fun h => ?_⟩
    exact absurd (Accelerator.instantiate_eq_ok_iff.1 hr).1 (h.1 _)

theorem noneOpens_iff {candidates : List Accelerator} :
    NoneOpens platform config candidates around around' ↔
      FailInTurn platform config none candidates around around' := by
  constructor <;> intro h
  · induction h with
    | nil => exact .nil
    | cons hnot _ ih => exact .cons (Accelerator.attempt_none_eq_none_iff.2 ⟨hnot, rfl⟩) ih
  · induction h with
    | nil => exact .nil
    | cons hattempt _ ih =>
      obtain ⟨hnot, rfl⟩ := Accelerator.attempt_none_eq_none_iff.1 hattempt
      exact .cons hnot ih

end

namespace Registry

section

variable {registry : Registry} {platform : Platform σ} {standard : CodingStandard}
  {config : Config} {caps : Capabilities} {around : Surroundings σ}
  {r : Except OpenError (Session σ) × Surroundings σ}

inductive Dispatched (registry : Registry) (platform : Platform σ) (standard : CodingStandard)
    (config : Config) (caps : Capabilities) (around : Surroundings σ) :
    Except OpenError (Session σ) × Surroundings σ → Prop
  | unsupported :
    registry.candidates standard config.forcedGeneration caps = [] →
      Dispatched registry platform standard config caps around
        (.error (.unsupportedCoding standard), around)
  | failed {last} :
    registry.candidates standard config.forcedGeneration caps ≠ [] →
    NoneOpens platform config (registry.candidates standard config.forcedGeneration caps) around
      last →
      Dispatched registry platform standard config caps around
        (.error (.initFailed standard
          ((registry.candidates standard config.forcedGeneration caps).map (·.name))), last)
  | opened {before a after next o} :
    registry.candidates standard config.forcedGeneration caps = before ++ a :: after →
    NoneOpens platform config before around next →
    a.Opens platform config next o →
      Dispatched registry platform standard config caps around
        (.ok { registry, accelerator := a, caps, link := o.link, engine := o.engine },
          ⟨o.engine.frames, o.engine.device⟩)

theorem dispatched_iff :
    registry.Dispatched platform standard config caps around r ↔
      registry.openSession platform standard config caps around = r := by
  constructor <;> intro h
  · cases h with
    | unsupported hnone => simp only [openSession, hnone, List.isEmpty_nil, if_true]
    | failed hsome hfail =>
      have haccepted := firstAccepted_eq_none_iff.2 (noneOpens_iff.1 hfail)
      simp only [openSession, haccepted, if_neg (mt List.isEmpty_iff.1 hsome)]
    | opened hlist hfail hopens =>
      have haccepted := firstAccepted_eq_some_iff.2
        ⟨_, _, _, hlist, noneOpens_iff.1 hfail,
          Accelerator.attempt_none_eq_some_iff.2 ⟨hopens, rfl⟩⟩
      have hsome : registry.candidates standard config.forcedGeneration caps ≠ [] := by
        simp [hlist]
      simp only [openSession, haccepted, if_neg (mt List.isEmpty_iff.1 hsome)]
  · subst h
    simp only [openSession]
    split
    · rename_i hnone
      exact .unsupported (List.isEmpty_iff.1 hnone)
    rename_i hsome
    split <;> rename_i haccepted
    · have hfail := noneOpens_iff.2 (firstAccepted_eq_none_iff.1 haccepted)
      exact .failed (mt List.isEmpty_iff.2 hsome) hfail
    · obtain ⟨before, after, next, hlist, hfail, hattempt⟩ :=
        firstAccepted_eq_some_iff.1 haccepted
      obtain ⟨hopens, rfl⟩ := Accelerator.attempt_none_eq_some_iff.1 hattempt
      exact .opened hlist (noneOpens_iff.2 hfail) hopens

theorem dispatched (registry : Registry) (platform : Platform σ) (standard : CodingStandard)
    (config : Config) (caps : Capabilities) (around : Surroundings σ) :
    registry.Dispatched platform standard config caps around
      (registry.openSession platform standard config caps around) :=
  dispatched_iff.2 rfl

namespace Dispatched

theorem unsupported_iff (h : registry.Dispatched platform standard config caps around r) :
    r.1 = .error (.unsupportedCoding standard) ↔
      registry.candidates standard config.forcedGeneration caps = [] := by
  cases h with
  | unsupported hnone => exact iff_of_true rfl hnone
  | failed hsome => exact iff_of_false nofun hsome
  | opened hlist => exact iff_of_false nofun (by simp [hlist])

theorem initFailed_iff (h : registry.Dispatched platform standard config caps around r) :
    r.1 = .error (.initFailed standard
        ((registry.candidates standard config.forcedGeneration caps).map (·.name))) ↔
      registry.candidates standard config.forcedGeneration caps ≠ [] ∧
        ∃ last, NoneOpens platform config
          (registry.candidates standard config.forcedGeneration caps) around last := by
  constructor
  · intro hfailed
    cases h with
    | unsupported | opened => cases hfailed
    | failed hsome hfail => exact ⟨hsome, _, hfail⟩
  · rintro ⟨hsome, last, hfail⟩
    have hr := (dispatched_iff.1 h).symm.trans (dispatched_iff.1 (.failed hsome hfail))
    exact congrArg Prod.fst hr

theorem ok_iff (h : registry.Dispatched platform standard config caps around r) (s : Session σ) :
    r.1 = .ok s ↔ ∃ before a after next o,
      registry.candidates standard config.forcedGeneration caps = before ++ a :: after ∧
        NoneOpens platform config before around next ∧ a.Opens platform config next o ∧
        s = { registry, accelerator := a, caps, link := o.link, engine := o.engine } := by
  constructor
  · intro hok
    cases h with
    | unsupported | failed => cases hok
    | opened hlist hfail hopens =>
      cases hok
      exact ⟨_, _, _, _, _, hlist, hfail, hopens, rfl⟩
  · rintro ⟨before, a, after, next, o, hlist, hfail, hopens, rfl⟩
    have hr := (dispatched_iff.1 h).symm.trans (dispatched_iff.1 (.opened hlist hfail hopens))
    exact congrArg Prod.fst hr

end Dispatched

end

/-- What the opening of a session leaves open is what the session has, or nothing. -/
theorem openSession_tidy (registry : Registry) (p : Platform σ) (standard : CodingStandard)
    (config : Config) (caps : Capabilities) (frames : FrameTable) (state : σ) :
    match registry.openSession p.logged standard config caps ⟨frames, { state }⟩ with
    | (.error error, around) =>
      (error = .unsupportedCoding standard ∨ error = .initFailed standard
        ((registry.candidates standard config.forcedGeneration caps).map (·.name))) ∧
      openChannels around.state.calls = 0 ∧ liveMemory around.state.calls = 0 ∧
      around.frames = frames
    | (.ok s, _) => s.OnItsOwn := by
  have hdispatched := registry.dispatched p.logged standard config caps ⟨frames, { state }⟩
  split <;> rename_i hr
  · rw [hr] at hdispatched
    cases hdispatched with
    | unsupported => exact ⟨.inl rfl, rfl, rfl, rfl⟩
    | failed _ hfail =>
      obtain ⟨hundone, _, hframes, _⟩ := (noneOpens_iff.1 hfail).undone
      exact ⟨.inr rfl, hundone.acquired.openChannels_eq, hundone.acquired.liveMemory_eq,
        hframes rfl⟩
  · exact (Session.Accounted.of_openSession hr).onItsOwn

/-- A registry holds what was accepted within its limits. A session is opened on the first of its
candidates for which all three steps succeed, and all that was obtained for the ones before is
given up again. The record of the calls makes no difference. -/
theorem openSession_first_working (p : Platform σ) (soc : Soc) (accelerators : List Accelerator)
    (standard : CodingStandard) (config : Config) (caps : Capabilities) (frames : FrameTable)
    (state : σ) :
    let answers := (({ soc } : Registry).registerEach accelerators).1
    let registry := (({ soc } : Registry).registerEach accelerators).2
    let candidates := registry.candidates standard config.forcedGeneration caps
    let start : Surroundings (Logged σ) := ⟨frames, { state }⟩
    let r := registry.openSession p.logged standard config caps start
    registry.soc = soc ∧ Records { soc } accelerators answers registry ∧ registry.Admissible ∧
      registry.InOrder standard config.forcedGeneration caps candidates ∧
      registry.openSession p standard config caps ⟨frames, state⟩ =
        Prod.map (Except.map (Session.map Logged.state)) (Surroundings.map Logged.state) r ∧
      (r.1 = .error (.unsupportedCoding standard) ↔ candidates = []) ∧
      (r.1 = .error (.initFailed standard (candidates.map (·.name))) ↔
        candidates ≠ [] ∧ ∃ last, NoneOpens p.logged config candidates start last) ∧
      (∀ s, r.1 = .ok s ↔ ∃ before a after next o, candidates = before ++ a :: after ∧
        NoneOpens p.logged config before start next ∧ a.Opens p.logged config next o ∧
        s = { registry, accelerator := a, caps, link := o.link, engine := o.engine }) ∧
      match r with
      | (.error error, around) =>
        (error = .unsupportedCoding standard ∨
          error = .initFailed standard (candidates.map (·.name))) ∧
        openChannels around.state.calls = 0 ∧ liveMemory around.state.calls = 0 ∧
        around.frames = frames
      | (.ok s, _) => s.OnItsOwn := by
  intro answers registry candidates start r
  have hdispatched : registry.Dispatched p.logged standard config caps start r :=
    registry.dispatched ..
  have hplain := (logged_platformMap p).openSession registry standard config caps start
  exact ⟨soc_registerEach .., records_registerEach .., (admissible_empty soc).registerEach _,
    candidates_inOrder .., hplain, hdispatched.unsupported_iff, hdispatched.initFailed_iff,
    hdispatched.ok_iff, registry.openSession_tidy p standard config caps frames state⟩

/-- The newer accelerator cannot be reached, so the session is opened on the other one. -/
theorem openSession_first_working_fallback :
    let r := (({ soc := .rk3588 } : Registry).registerEach Accelerator.builtin).2.openSession
      ScriptedPlatform.platform.logged .hevc {} Soc.rk3588.caps
      ⟨{}, { state := { failing := [.rkvDec] } }⟩
    ∃ s, r.1 = .ok s ∧ s.accelerator = .rkvHevc ∧ s.OnItsOwn := by
  intro r
  obtain ⟨-, -, -, -, -, -, -, -, htidy⟩ := openSession_first_working ScriptedPlatform.platform
    .rk3588 Accelerator.builtin .hevc {} Soc.rk3588.caps {} { failing := [.rkvDec] }
  have haccelerator : r.1.toOption.map (·.accelerator) = some .rkvHevc := by decide +kernel
  split at htidy <;> rename_i hr <;> change r = _ at hr <;> rw [hr] at haccelerator
  · cases haccelerator
  · exact ⟨_, congrArg Prod.fst hr, Option.some.inj haccelerator, htidy⟩

end Registry

end VideoAccel
