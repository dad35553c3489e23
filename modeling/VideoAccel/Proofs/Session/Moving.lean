import VideoAccel.Proofs.Registry
import VideoAccel.Proofs.Session.Attempts
import VideoAccel.Proofs.Session.Transparency

namespace VideoAccel

variable {σ : Type}

namespace Session

section

variable {platform : Platform σ} {standard : CodingStandard} {s : Session σ}

theorem mem_siblings {a : Accelerator} (h : a ∈ s.siblings standard) :
    a ∈ s.registry.accelerators ∧ a.standard = standard ∧
      a.generation = s.accelerator.generation ∧ s.caps.supports a.generation = true := by
  obtain ⟨hcandidate, hfamily⟩ := List.mem_filter.1 h
  obtain ⟨hmem, hstandard, hcaps⟩ := Registry.mem_candidates.1 hcandidate
  refine ⟨hmem, hstandard, ?_, hcaps⟩
  rw [beq_iff_eq] at hfamily
  generalize s.accelerator.generation = g at hfamily
  cases g <;> cases hg : a.generation <;> rw [hg] at hfamily <;> first | rfl | cases hfamily

inductive Switched (platform : Platform σ) (standard : CodingStandard) (s : Session σ) :
    Except BackendError Unit × Session σ → Prop
  | busy : 0 < s.tasksInFlight → Switched platform standard s (.error .layoutBusy, s)
  | foreign : s.tasksInFlight = 0 → s.siblings standard = [] →
      Switched platform standard s (.error (.wrongStandard standard), s)
  | stayed {around} :
    s.tasksInFlight = 0 → s.siblings standard ≠ [] →
    FailInTurn platform s.config s.frameInfo (s.siblings standard)
      ⟨s.engine.frames, s.engine.device⟩ around →
      Switched platform standard s
        (.error (.noSibling standard s.accelerator.generation.family),
          { s with engine :=
            { s.engine with
              frames := around.frames.withAlignment s.engine.frames.alignment
              device := around.state } })
  | moved {before a after next o around} :
    s.tasksInFlight = 0 → s.siblings standard = before ++ a :: after →
    FailInTurn platform s.config s.frameInfo before ⟨s.engine.frames, s.engine.device⟩ next →
    a.attempt platform s.config s.frameInfo next = (some o, around) →
      Switched platform standard s
        (.ok (), { s with
          accelerator := a
          link := o.link
          engine :=
            { o.engine with
              device :=
                (Opened.close platform
                  ⟨s.link, { s.engine with device := around.state }⟩).device } })

theorem switched (platform : Platform σ) (standard : CodingStandard) (s : Session σ) :
    Switched platform standard s (s.switchTo platform standard) := by
  simp only [switchTo]
  split
  · rename_i hbusy
    exact .busy hbusy
  rename_i hidle
  have hidle := Nat.eq_zero_of_not_pos hidle
  split
  · rename_i hnone
    exact .foreign hidle (List.isEmpty_iff.1 hnone)
  rename_i hsome
  split <;> rename_i haccepted
  · refine .stayed hidle (fun hnone => hsome (List.isEmpty_iff.2 hnone)) ?_
    exact firstAccepted_eq_none_iff.1 haccepted
  · obtain ⟨before, after, next, hlist, hfail, hattempt⟩ := firstAccepted_eq_some_iff.1 haccepted
    exact .moved hidle hlist hfail hattempt

end

/-- The session's channel is the only one open and its memory the only memory allocated. -/
structure OnItsOwn (s : Session (Logged σ)) : Prop where
  channels : openChannels s.engine.device.calls = {s.link.channel}
  memory : liveMemory s.engine.device.calls = s.engine.holding.memory s.link.memory

/-- The session is as it was. Channels and memory that were obtained meanwhile have been given up
again, and nothing was sent. -/
structure Kept (s s' : Session (Logged σ)) : Prop where
  same : s' = { s with engine := { s.engine with device := s'.engine.device } }
  undone : Obtained s.engine.device.calls s'.engine.device.calls 0 0

/-- The session runs on another accelerator of its family, with the same settings. -/
structure Moved (standard : CodingStandard) (s s' : Session (Logged σ)) : Prop where
  idle : s.tasksInFlight = 0
  registered : s'.accelerator ∈ s.registry.accelerators
  admitted : s.caps.supports s'.accelerator.generation = true
  decodes : s'.accelerator.standard = standard ∧ s'.engine.backend.standard = standard
  family : s'.accelerator.generation.family = s.accelerator.generation.family
  generation : s'.engine.backend.generation = s'.accelerator.generation
  config : s'.config = s.config
  empty : s'.tasksInFlight = 0
  others : s'.registry = s.registry ∧ s'.caps = s.caps ∧ s'.frameInfo = s.frameInfo ∧
    s'.observed = s.observed
  silent : sentMessages s'.engine.device.calls = sentMessages s.engine.device.calls

structure Accounted (s : Session (Logged σ)) : Prop where
  books : s.engine.holding.Accounted s.link.memory [] {s.link.channel} 0
  info : ∀ c, s.frameInfo = some c → c.isFrameInfo = true

section

variable {p : Platform σ} {standard : CodingStandard} {s : Session (Logged σ)}

theorem Accounted.onItsOwn (h : s.Accounted) : s.OnItsOwn where
  channels := h.books.acquired.openChannels_eq
  memory := by
    have hmemory := h.books.acquired.liveMemory_eq
    rwa [add_zero] at hmemory

theorem Accounted.kept {s' : Session (Logged σ)} (h : s.Accounted) (hkept : s.Kept s') :
    s'.Accounted := by
  rw [hkept.same]
  refine ⟨⟨h.books.sole, ?_⟩, h.info⟩
  have hacquired := h.books.acquired.trans hkept.undone.acquired
  rwa [zero_add, zero_add] at hacquired

/-- The old accelerator is closed when the new one is open, and the new one keeps what it has. -/
theorem Accounted.replace {next : Surroundings (Logged σ)} {o : Opened (Logged σ)}
    (h : s.Accounted) (hnext : Obtained s.engine.device.calls next.state.calls 0 0)
    (ho : o.Accounted next.state.calls) :
    let old := Opened.close p.logged ⟨s.link, { s.engine with device := o.engine.device }⟩
    Holding.Accounted o.link.memory [] {o.link.channel} 0
        { o.engine.holding with state := old.device } ∧
      sentMessages old.device.calls = sentMessages s.engine.device.calls := by
  intro old
  -- for a moment both accelerators are open
  have hall := (h.books.acquired.trans hnext.acquired).trans ho.books.acquired
  simp only [zero_add, add_zero] at hall
  rw [add_comm, Multiset.singleton_add, add_comm] at hall
  have hold : Holding.Accounted s.link.memory [] (s.link.channel ::ₘ {o.link.channel})
      (o.engine.holding.memory o.link.memory)
      { s.engine.holding with state := o.engine.device } := ⟨h.books.sole, hall⟩
  obtain ⟨hacquired, _, hsilent, _⟩ := Opened.close_acquired (p := p)
    (o := ⟨s.link, { s.engine with device := o.engine.device }⟩) hold
  refine ⟨⟨ho.books.sole, ?_⟩, ?_⟩
  · rw [add_zero]
    exact hacquired
  · exact hsilent.trans (ho.silent.trans hnext.silent)

theorem Switched.accounted {r : Except BackendError Unit × Session (Logged σ)} (h : s.Accounted)
    (hswitched : Switched p.logged standard s r) :
    r.2.Accounted ∧ ((∃ error, r.1 = .error error) ∧ s.Kept r.2 ∨
      r.1 = .ok () ∧ s.Moved standard r.2) := by
  cases hswitched with
  | busy | foreign => exact ⟨h, .inl ⟨⟨_, rfl⟩, rfl, .refl _⟩⟩
  | @stayed around _ _ hfail =>
    obtain ⟨hundone, ⟨c, hc⟩, _⟩ := hfail.undone
    have hkept : s.Kept
        { s with engine :=
          { s.engine with
            frames := around.frames.withAlignment s.engine.frames.alignment
            device := around.state } } := by
      refine ⟨?_, hundone⟩
      -- attempts that were refused have changed the alignment, and nothing else of the frame table
      rw [hc]
      rfl
    exact ⟨h.kept hkept, .inl ⟨⟨_, rfl⟩, hkept⟩⟩
  | @moved before a after next o around hidle hlist hfail hattempt =>
    have ho := Accelerator.attempt_accounted hattempt
    have hready := Accelerator.attempt_ready hattempt
    obtain ⟨hbacks, hsame, hconfig, _⟩ := Accelerator.attempt_backend h.info hattempt
    obtain ⟨_, _, rfl, _⟩ := Accelerator.attempt_eq_some hattempt
    obtain ⟨hbooks, hsilent⟩ := h.replace (p := p) hfail.undone.1 ho
    obtain ⟨hmem, hstandard, hgeneration, hcaps⟩ :=
      mem_siblings (hlist ▸ List.mem_append_right before List.mem_cons_self)
    refine ⟨⟨hbooks, h.info⟩, .inr ⟨rfl, ?_⟩⟩
    exact {
      idle := hidle
      registered := hmem
      admitted := hcaps
      decodes := ⟨hstandard, hbacks.trans hstandard⟩
      family := congrArg _ hgeneration
      generation := hsame
      config := hconfig
      empty := RegisterSets.validCount_eq_zero hready.ready.isValid
      others := ⟨rfl, rfl, rfl, rfl⟩
      silent := hsilent }

theorem Accounted.of_openSession {registry : Registry} {config : Config} {caps : Capabilities}
    {frames : FrameTable} {state : σ} {around' : Surroundings (Logged σ)}
    (h : registry.openSession p.logged standard config caps ⟨frames, { state }⟩ =
      (.ok s, around')) : s.Accounted := by
  obtain ⟨_, _, _, _, _, _, hfail, hattempt, rfl⟩ := Registry.openSession_eq_ok h
  have ho := (Accelerator.attempt_accounted hattempt).since hfail.undone.1
  exact ⟨ho.books, nofun⟩

theorem Accounted.operate (h : s.Accounted) {engine : Engine (Logged σ)}
    (hops : (s.device p.logged).Operations s.engine.holding engine.holding) :
    Accounted { s with engine } :=
  ⟨hops.accounted h.books, h.info⟩

theorem Accounted.generate (h : s.Accounted) (p : Platform σ) (t : Task) :
    (s.generate p.logged t).session.Accounted := by
  have hswitch := ((s.switched p.logged t.picture.standard).accounted h).1
  simp only [Session.generate]
  split
  · exact h.operate (Engine.generate_operations ..)
  split <;> rename_i hr <;> rw [hr] at hswitch
  · exact hswitch
  · exact hswitch.operate (Engine.generate_operations ..)

theorem Accounted.control (h : s.Accounted) (c : Control) : (s.control c).2.Accounted := by
  obtain ⟨config, frames, hsame, _⟩ := Engine.control_eq c s.engine
  simp only [Session.control]
  split <;> rename_i hr <;> obtain rfl := (congrArg Prod.snd hr).symm.trans hsame
  · exact ⟨h.books, h.info⟩
  cases c with
  | frameInfo => exact ⟨h.books, fun c hc => by cases hc; rfl⟩
  | errorTolerance => exact ⟨h.books, h.info⟩

end

end Session

namespace Decoding

/-- The session has just been opened, with all calls on record, and no task has been handed to it. -/
structure IsRecorded (p : Platform σ) (d : Decoding (Logged σ)) : Prop where
  session : ∃ (registry : Registry) (standard : CodingStandard) (config : Config)
    (caps : Capabilities) (frames : FrameTable) (state : σ) (around' : Surroundings (Logged σ)),
    registry.openSession p.logged standard config caps ⟨frames, { state }⟩ = (.ok d.session, around')
  tasks : ∀ i, (d.tasks i).slot = none ∧ (d.tasks i).inFlight = false

variable {p : Platform σ} {d : Decoding (Logged σ)}

theorem IsRecorded.isInitial (h : d.IsRecorded p) : (d.map Logged.state).IsInitial p := by
  obtain ⟨registry, standard, config, caps, frames, state, around', hopen⟩ := h.session
  have hplain := (logged_platformMap p).openSession registry standard config caps
    ⟨frames, { state }⟩
  rw [hopen] at hplain
  exact ⟨⟨registry, standard, config, caps, _, _, hplain⟩, h.tasks⟩

theorem IsRecorded.accounted (h : d.IsRecorded p) : d.session.Accounted := by
  obtain ⟨registry, standard, config, caps, frames, state, around', hopen⟩ := h.session
  exact .of_openSession hopen

theorem accounted_stepLogged (p : Platform σ) (d : Decoding (Logged σ)) (event : SessionEvent σ)
    (h : d.session.Accounted) : (d.stepLogged p event).session.Accounted := by
  cases event with
  | act a =>
    cases a with
    | generate i => exact h.generate p (d.tasks i)
    | start i => exact h.operate (Engine.start_operations ..)
    | wait i => exact h.operate (Engine.wait_operations ..)
    | control c => exact h.control c
    | recycle | edit | frames => exact ⟨h.books, h.info⟩
    | flush => exact h.operate (.single (.flush rfl))
    | reset => exact h.operate (.single (.reset rfl))
  | observe | elapse => exact ⟨⟨h.books.sole, h.books.acquired⟩, h.info⟩

/-- Wherever a run has led to, a move of the session either fails and leaves it as it was, or
succeeds with nothing in flight and replaces its accelerator by a sibling. In both cases nothing is
open and nothing is allocated but what the session has then. The record of the calls makes no
difference to the run. -/
theorem switch_all_or_nothing_of_run (hd : d.IsRecorded p) (events : List (SessionEvent σ))
    (standard : CodingStandard) :
    let q := d.runLogged p events
    let r := q.session.switchTo p.logged standard
    (d.map Logged.state).IsInitial p ∧
      q.map Logged.state = (d.map Logged.state).run p events ∧
      q.session.OnItsOwn ∧ r.2.OnItsOwn ∧
      ((∃ error, r.1 = .error error) ∧ q.session.Kept r.2 ∨
        r.1 = .ok () ∧ q.session.Moved standard r.2) := by
  intro q r
  have hq : q.session.Accounted := runLogged_induction (accounted_stepLogged p) hd.accounted events
  obtain ⟨hr, hresult⟩ := (q.session.switched p.logged standard).accounted hq
  exact ⟨hd.isInitial, runLogged_state p d events, hq.onItsOwn, hr.onItsOwn, hresult⟩

def recordedOpening : Except OpenError (Session (Logged ScriptedPlatform)) ×
    Surroundings (Logged ScriptedPlatform) :=
  (Registry.withBuiltin .rk3568).openSession ScriptedPlatform.platform.logged .avc {}
    Soc.rk3568.caps ⟨Bench.frames, { state := {} }⟩

theorem exists_recordedOpening (tasks : Nat → Task)
    (htasks : ∀ i, (tasks i).slot = none ∧ (tasks i).inFlight = false) {α : Type}
    {f : Decoding (Logged ScriptedPlatform) → α} {x : α}
    (h : (recordedOpening.1.toOption.map fun s => f ⟨s, tasks⟩) = some x) :
    ∃ d, d.IsRecorded ScriptedPlatform.platform ∧ f d = x := by
  obtain ⟨s, hopen, hx⟩ := exists_ok_of_toOption_map h
  exact ⟨⟨s, tasks⟩, ⟨⟨_, _, _, _, _, _, _, hopen⟩, htasks⟩, hx⟩

/-- A session that has learned to tolerate errors takes this along. It stays where it is when there
is no channel to another accelerator. -/
theorem switch_all_or_nothing_of_run_scripted :
    let events : List (SessionEvent ScriptedPlatform) :=
      [.act (.control (.errorTolerance true)), .act (.generate 0), .act (.start 0), .act (.wait 0)]
    let cut : List (SessionEvent ScriptedPlatform) := events ++ [.elapse { failing := [.rkvDec] }]
    ∃ d : Decoding (Logged ScriptedPlatform), d.IsRecorded ScriptedPlatform.platform ∧
      (let q := d.runLogged ScriptedPlatform.platform events
        let r := q.session.switchTo ScriptedPlatform.platform.logged .hevc
        r.1 = .ok () ∧ q.session.Moved .hevc r.2 ∧ q.session.config.errorTolerance = true) ∧
      let q := d.runLogged ScriptedPlatform.platform cut
      let r := q.session.switchTo ScriptedPlatform.platform.logged .hevc
      r.1 = .error (.noSibling .hevc .rkvdec2) ∧ q.session.Kept r.2 := by
  intro events cut
  obtain ⟨d, hd, hresults⟩ := exists_recordedOpening Bench.task (fun _ => ⟨rfl, rfl⟩)
    (f := fun d =>
      let q := d.runLogged ScriptedPlatform.platform events
      let q' := d.runLogged ScriptedPlatform.platform cut
      ((q.session.switchTo ScriptedPlatform.platform.logged .hevc).1,
        q.session.config.errorTolerance,
        (q'.session.switchTo ScriptedPlatform.platform.logged .hevc).1))
    (x := (.ok (), true, .error (.noSibling .hevc .rkvdec2))) (by decide +kernel)
  simp only [Prod.mk.injEq] at hresults
  obtain ⟨hok, htolerant, herror⟩ := hresults
  obtain ⟨_, _, _, _, hmoved⟩ := switch_all_or_nothing_of_run hd events .hevc
  obtain ⟨_, _, _, _, hkept⟩ := switch_all_or_nothing_of_run hd cut .hevc
  rw [hok] at hmoved
  rw [herror] at hkept
  refine ⟨d, hd, ⟨hok, ?_, htolerant⟩, herror, ?_⟩
  · obtain ⟨⟨_, h⟩, _⟩ | ⟨_, h⟩ := hmoved
    · cases h
    · exact h
  · obtain ⟨_, h⟩ | ⟨h, _⟩ := hkept
    · exact h
    · cases h

end Decoding

end VideoAccel
