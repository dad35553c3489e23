import VideoAccel.Proofs.Platform.Accounts
import VideoAccel.Proofs.Session.Opening

namespace VideoAccel

variable {σ : Type}

def Accelerator.attempt (platform : Platform σ) (config : Config) (info : Option Control)
    (a : Accelerator) (around : Surroundings σ) : Option (Opened σ) × Surroundings σ :=
  match a.instantiate platform config around with
  | (.error _, around) => (none, around)
  | (.ok opened, around) =>
    match info with
    | none => (some opened, around)
    | some info =>
      match opened.engine.control info with
      | (.ok (), engine) => (some { opened with engine }, ⟨engine.frames, engine.device⟩)
      | (.error _, engine) =>
        let engine := Opened.close platform { opened with engine }
        (none, ⟨engine.frames, engine.device⟩)

inductive FailInTurn (platform : Platform σ) (config : Config) (info : Option Control) :
    List Accelerator → Surroundings σ → Surroundings σ → Prop
  | nil {around} : FailInTurn platform config info [] around around
  | cons {a rest around next last} :
    a.attempt platform config info around = (none, next) →
    FailInTurn platform config info rest next last →
      FailInTurn platform config info (a :: rest) around last

section

variable {platform : Platform σ} {config : Config} {info : Option Control} {a : Accelerator}
  {around around' : Surroundings σ} {o : Opened σ}

theorem firstAccepted_cons (rest : List Accelerator) :
    firstAccepted platform config info (a :: rest) around =
      match a.attempt platform config info around with
      | (some opened, around) => (some (a, opened), around)
      | (none, around) => firstAccepted platform config info rest around := by
  simp only [firstAccepted, Accelerator.attempt]
  rcases a.instantiate platform config around with ⟨_ | opened, next⟩
  · rfl
  cases info with
  | none => rfl
  | some info =>
    dsimp only
    rcases opened.engine.control info with ⟨_ | _, engine⟩ <;> rfl

theorem firstAccepted_eq_none_iff {candidates : List Accelerator} :
    firstAccepted platform config info candidates around = (none, around') ↔
      FailInTurn platform config info candidates around around' := by
  induction candidates generalizing around with
  | nil =>
    constructor
    · rintro ⟨⟩
      exact .nil
    · rintro ⟨⟩
      rfl
  | cons a rest ih =>
    rw [firstAccepted_cons]
    split <;> rename_i hattempt
    · refine ⟨nofun, ?_⟩
      rintro ⟨⟩
      rename_i hnone _
      cases hattempt.symm.trans hnone
    · rw [ih]
      constructor
      · exact .cons hattempt
      · rintro ⟨⟩
        rename_i hnone hrest
        obtain rfl := (Prod.mk.inj (hattempt.symm.trans hnone)).2
        exact hrest

theorem firstAccepted_eq_some_iff {candidates : List Accelerator} :
    firstAccepted platform config info candidates around = (some (a, o), around') ↔
      ∃ before after next, candidates = before ++ a :: after ∧
        FailInTurn platform config info before around next ∧
        a.attempt platform config info next = (some o, around') := by
  induction candidates generalizing around with
  | nil =>
    refine ⟨nofun, ?_⟩
    rintro ⟨before, after, _, h, _⟩
    cases before <;> cases h
  | cons first rest ih =>
    rw [firstAccepted_cons]
    split <;> rename_i hattempt
    · constructor
      · rintro ⟨⟩
        exact ⟨[], rest, around, rfl, .nil, hattempt⟩
      · rintro ⟨before, after, next, hlist, hfail, hsome⟩
        cases hfail with
        | nil =>
          cases hlist
          cases hattempt.symm.trans hsome
          rfl
        | cons hnone =>
          cases hlist
          cases hattempt.symm.trans hnone
    · rw [ih]
      constructor
      · rintro ⟨before, after, next, rfl, hfail, hsome⟩
        exact ⟨first :: before, after, next, rfl, .cons hattempt hfail, hsome⟩
      · rintro ⟨before, after, next, hlist, hfail, hsome⟩
        cases hfail with
        | nil =>
          cases hlist
          cases hattempt.symm.trans hsome
        | cons hnone hrest =>
          cases hlist
          obtain rfl := (Prod.mk.inj (hattempt.symm.trans hnone)).2
          exact ⟨_, after, next, rfl, hrest, hsome⟩

theorem Accelerator.attempt_ready
    (h : a.attempt platform config info around = (some o, around')) :
    o.IsReady platform config :=
  firstAccepted_some (firstAccepted_eq_some_iff.2 ⟨[], [], around, rfl, .nil, h⟩)

/-- The three steps of opening an accelerator: there is a channel to its client, there is memory,
and its backend initializes. -/
structure Accelerator.Opens (platform : Platform σ) (config : Config) (a : Accelerator)
    (around : Surroundings σ) (o : Opened σ) : Prop where
  channel : (platform.openChannel a.client around.state).1 = .ok o.link.channel
  memory : (platform.openMemory (platform.openChannel a.client around.state).2).1 =
    .ok o.link.memory
  init :
    let state := (platform.openMemory (platform.openChannel a.client around.state).2).2
    Engine.init (platform.device o.link)
      ⟨a.backend config (platform.scratch state), around.frames, state⟩ = (.ok (), o.engine)

/-- An opened backend is the one that was asked for, and it sets the alignment of its generation. -/
theorem Accelerator.Opens.backend (h : a.Opens platform config around o) :
    o.engine.backend.standard = a.standard ∧ o.engine.backend.generation = a.generation ∧
      o.engine.backend.config = config ∧
      o.engine.frames = around.frames.withAlignment a.generation.defaultAlignment := by
  obtain ⟨_, hstandard, hgeneration, hconfig, _⟩ := Engine.init_ok h.init
  let state := (platform.openMemory (platform.openChannel a.client around.state).2).2
  have hframes := Engine.init_frames (platform.device o.link)
    ⟨a.backend config (platform.scratch state), around.frames, state⟩
  rw [h.init] at hframes
  exact ⟨hstandard, hgeneration, hconfig, hframes⟩

theorem Platform.connect_eq_ok {client : Client} {s s' : σ} {link : Link}
    (h : platform.connect client s = (.ok link, s')) :
    (platform.openChannel client s).1 = .ok link.channel ∧
      (platform.openMemory (platform.openChannel client s).2).1 = .ok link.memory ∧
      s' = (platform.openMemory (platform.openChannel client s).2).2 := by
  simp only [connect] at h
  split at h
  · cases h
  rename_i hchannel
  split at h
  · cases h
  rename_i hmemory
  cases h
  simp [hchannel, hmemory]

theorem Accelerator.instantiate_eq_ok_iff :
    a.instantiate platform config around = (.ok o, around') ↔
      a.Opens platform config around o ∧ around' = ⟨o.engine.frames, o.engine.device⟩ := by
  simp only [instantiate]
  constructor
  · intro h
    split at h
    · cases h
    rename_i link state hconnect
    split at h
    · cases h
    rename_i hinit
    cases h
    obtain ⟨hchannel, hmemory, rfl⟩ := Platform.connect_eq_ok hconnect
    exact ⟨⟨hchannel, hmemory, hinit⟩, rfl⟩
  · rintro ⟨⟨hchannel, hmemory, hinit⟩, rfl⟩
    rcases hopen : platform.openChannel a.client around.state with ⟨channel, state⟩
    simp only [hopen] at hchannel hmemory hinit
    rcases hget : platform.openMemory state with ⟨memory, state'⟩
    simp only [hget] at hmemory hinit
    simp only [Platform.connect, hopen, hget, hchannel, hmemory, hinit]

theorem Accelerator.attempt_none_eq_some_iff :
    a.attempt platform config none around = (some o, around') ↔
      a.Opens platform config around o ∧ around' = ⟨o.engine.frames, o.engine.device⟩ := by
  rw [← instantiate_eq_ok_iff]
  simp only [attempt]
  split <;> rename_i h <;> simp [h]

theorem Accelerator.attempt_eq_some
    (h : a.attempt platform config info around = (some o, around')) :
    ∃ engine, a.Opens platform config around ⟨o.link, engine⟩ ∧
      around' = ⟨o.engine.frames, o.engine.device⟩ ∧
      match info with
      | none => o.engine = engine
      | some info => engine.control info = (.ok (), o.engine) := by
  simp only [attempt] at h
  split at h
  · cases h
  rename_i hopened
  obtain ⟨hopens, rfl⟩ := instantiate_eq_ok_iff.1 hopened
  cases info with
  | none =>
    cases h
    exact ⟨_, hopens, rfl, rfl⟩
  | some info =>
    simp only at h
    split at h <;> cases h
    rename_i hcontrol
    exact ⟨_, hopens, rfl, hcontrol⟩

end

/-- A session that could be opened is on the first candidate that could. -/
theorem Registry.openSession_eq_ok {platform : Platform σ} {registry : Registry}
    {standard : CodingStandard} {config : Config} {caps : Capabilities}
    {around around' : Surroundings σ} {s : Session σ}
    (h : registry.openSession platform standard config caps around = (.ok s, around')) :
    ∃ before a after next o,
      registry.candidates standard config.forcedGeneration caps = before ++ a :: after ∧
        FailInTurn platform config none before around next ∧
        a.attempt platform config none next = (some o, around') ∧
        s = { registry, accelerator := a, caps, link := o.link, engine := o.engine } := by
  simp only [openSession] at h
  split at h
  · cases h
  split at h <;> rename_i haccepted <;> cases h
  obtain ⟨before, after, next, hlist, hfail, hattempt⟩ := firstAccepted_eq_some_iff.1 haccepted
  exact ⟨before, _, after, next, _, hlist, hfail, hattempt, rfl⟩

def Control.isFrameInfo : Control → Bool
  | .frameInfo .. => true
  | .errorTolerance _ => false

/-- The alignment that a generation chooses for frame information, by default its own. -/
def Generation.alignmentOf (g : Generation) : Option Control → AlignmentClass
  | some (.frameInfo width _ _ layout) => g.alignmentFor width layout
  | _ => g.defaultAlignment

theorem Engine.control_frameInfo {c : Control} (hc : c.isFrameInfo = true) {e e' : Engine σ}
    (h : e.control c = (.ok (), e')) :
    e' = { e with
      frames := e.frames.withAlignment (e.backend.generation.alignmentOf (some c)) } := by
  cases c with
  | frameInfo width height depth layout =>
    simp only [control] at h
    split at h <;> cases h
    rfl
  | errorTolerance enabled => cases hc

/-- An attempt that succeeds gives a backend that is as it was asked for, and the alignment that
this backend chooses. -/
theorem Accelerator.attempt_backend {platform : Platform σ} {config : Config}
    {info : Option Control} {a : Accelerator} {around around' : Surroundings σ} {o : Opened σ}
    (hinfo : ∀ c, info = some c → c.isFrameInfo = true)
    (h : a.attempt platform config info around = (some o, around')) :
    o.engine.backend.standard = a.standard ∧ o.engine.backend.generation = a.generation ∧
      o.engine.backend.config = config ∧
      o.engine.frames = around.frames.withAlignment (a.generation.alignmentOf info) := by
  obtain ⟨engine, hopens, _, haccept⟩ := attempt_eq_some h
  obtain ⟨hstandard, hgeneration, hconfig, hframes⟩ := hopens.backend
  cases info with
  | none =>
    obtain rfl := haccept
    exact ⟨hstandard, hgeneration, hconfig, hframes⟩
  | some c =>
    have hengine := Engine.control_frameInfo (hinfo c rfl) haccept
    rw [hengine]
    refine ⟨hstandard, hgeneration, hconfig, ?_⟩
    dsimp only at hgeneration hframes ⊢
    rw [hgeneration, hframes]
    rfl

/-- What was acquired since `start` without a message being sent. -/
structure Obtained (start calls : List PlatformCall) (channels : Multiset Nat)
    (memory : Multiset MemoryTag) : Prop where
  acquired : Acquired start calls channels memory
  silent : sentMessages calls = sentMessages start

theorem Obtained.refl (start : List PlatformCall) : Obtained start start 0 0 := ⟨.refl start, rfl⟩

theorem Obtained.trans {start calls calls' : List PlatformCall} (h : Obtained start calls 0 0)
    (h' : Obtained calls calls' 0 0) : Obtained start calls' 0 0 :=
  ⟨h.acquired.trans h'.acquired, h'.silent.trans h.silent⟩

structure Undone (start calls : List PlatformCall) : Prop extends Obtained start calls 0 0 where
  longer : start.length < calls.length

structure Opened.Accounted (start : List PlatformCall) (o : Opened (Logged σ)) : Prop where
  books : o.engine.holding.Accounted o.link.memory start {o.link.channel} 0
  silent : sentMessages o.engine.device.calls = sentMessages start

section

variable {p : Platform σ} {config : Config} {info : Option Control} {a : Accelerator}
  {around around' : Surroundings (Logged σ)} {o : Opened (Logged σ)}

theorem Opened.Accounted.since {start calls : List PlatformCall} (h : o.Accounted calls)
    (hbefore : Obtained start calls 0 0) : o.Accounted start := by
  refine ⟨⟨h.books.sole, ?_⟩, h.silent.trans hbefore.silent⟩
  have hacquired := hbefore.acquired.trans h.books.acquired
  rwa [add_zero, add_zero] at hacquired

theorem Opened.Accounted.close {start : List PlatformCall} (h : o.Accounted start) :
    Undone start (Opened.close p.logged o).device.calls := by
  obtain ⟨hacquired, hlonger, hsilent, _⟩ := Opened.close_acquired (p := p) h.books
  exact ⟨⟨hacquired, hsilent.trans h.silent⟩, hlonger⟩

theorem Platform.connect_obtained {client : Client} {l l' : Logged σ} {link : Link}
    (h : p.logged.connect client l = (.ok link, l')) :
    Obtained l.calls l'.calls {link.channel} 0 := by
  simp only [connect] at h
  split at h
  · cases h
  rename_i hopen
  split at h <;> rename_i hget <;> cases h
  rw [calls_of_call hget, calls_of_call hopen]
  exact ⟨((Acquired.refl _).openChannel ..).idle _ (fun _ => rfl) fun _ => rfl, rfl⟩

theorem Platform.connect_undone {client : Client} {l l' : Logged σ} {error : ConnectError}
    (h : p.logged.connect client l = (.error error, l')) : Undone l.calls l'.calls := by
  simp only [connect] at h
  split at h <;> rename_i hopen
  · cases h
    rw [calls_of_call hopen]
    exact ⟨⟨(Acquired.refl _).idle _ (fun _ => rfl) fun _ => rfl, rfl⟩, Nat.lt_succ_self _⟩
  split at h <;> rename_i hget <;> cases h
  simp only [logged, calls_of_call hget, calls_of_call hopen]
  have hchannel := (Acquired.refl l.calls).openChannel client
  exact ⟨⟨((hchannel _).idle _ (fun _ => rfl) fun _ => rfl).closeChannel, rfl⟩,
    Nat.lt_add_of_pos_right (n := l.calls.length) (k := 3) (by decide)⟩

/-- An initialization leaves all that it obtained with the accelerator, also if it fails. -/
theorem Accelerator.init_accounted (p : Platform σ) (a : Accelerator) (config : Config)
    {start : List PlatformCall} {link : Link} {l : Logged σ}
    (h : Obtained start l.calls {link.channel} 0) (scratch : Option ScratchMemory)
    (frames : FrameTable) :
    Opened.Accounted start
      ⟨link, (Engine.init (p.logged.device link) ⟨a.backend config scratch, frames, l⟩).2⟩ := by
  have htransfer := Engine.init_transfer (p.logged.device link) a.standard a.generation config
    scratch frames l
  have hempty : Holding.Accounted link.memory start {link.channel} 0 ⟨[], {}, l⟩ :=
    ⟨rfl, h.acquired⟩
  exact ⟨Transfer.accounted htransfer hempty, htransfer.sentMessages_eq.trans h.silent⟩

theorem Accelerator.instantiate_accounted
    (h : a.instantiate p.logged config around = (.ok o, around')) :
    o.Accounted around.state.calls := by
  simp only [instantiate] at h
  split at h
  · cases h
  rename_i link l hconnect
  have hinit := init_accounted p a config (Platform.connect_obtained hconnect)
    (p.logged.scratch l) around.frames
  split at h <;> rename_i hr <;> cases h
  rw [hr] at hinit
  exact hinit

theorem Accelerator.instantiate_undone {error : InstantiateError}
    (h : a.instantiate p.logged config around = (.error error, around')) :
    Undone around.state.calls around'.state.calls ∧ around'.frames = around.frames := by
  simp only [instantiate] at h
  split at h <;> rename_i hconnect
  · cases h
    exact ⟨Platform.connect_undone hconnect, rfl⟩
  rename_i link l
  have hinit := init_accounted p a config (Platform.connect_obtained hconnect)
    (p.logged.scratch l) around.frames
  have hframes := Engine.init_frames (p.logged.device link)
    ⟨a.backend config (p.logged.scratch l), around.frames, l⟩
  split at h <;> rename_i hr <;> cases h
  rw [hr] at hinit hframes
  exact ⟨hinit.close, hframes⟩

theorem Opened.Accounted.control {start : List PlatformCall} (h : o.Accounted start)
    (c : Control) : Opened.Accounted start { o with engine := (o.engine.control c).2 } := by
  obtain ⟨_, _, hsame, _⟩ := Engine.control_eq c o.engine
  rw [hsame]
  exact ⟨h.books, h.silent⟩

theorem Accelerator.attempt_accounted
    (h : a.attempt p.logged config info around = (some o, around')) :
    o.Accounted around.state.calls := by
  simp only [attempt] at h
  split at h
  · cases h
  rename_i opened next hopened
  have haccounted := instantiate_accounted hopened
  cases info with
  | none =>
    cases h
    exact haccounted
  | some info =>
    have hcontrol := haccounted.control info
    dsimp only at h
    split at h <;> rename_i hr <;> cases h
    rw [hr] at hcontrol
    exact hcontrol

/-- An attempt that fails gives up all that it obtained. Only the alignment may have changed, by an
initialization whose frame information was refused. -/
theorem Accelerator.attempt_undone
    (h : a.attempt p.logged config info around = (none, around')) :
    Undone around.state.calls around'.state.calls ∧
      (∃ c, around'.frames = around.frames.withAlignment c) ∧
      (info = none → around'.frames = around.frames) := by
  simp only [attempt] at h
  split at h <;> rename_i hinstantiate
  · cases h
    obtain ⟨hobtained, hframes⟩ := instantiate_undone hinstantiate
    exact ⟨hobtained, ⟨_, hframes⟩, fun _ => hframes⟩
  rename_i opened next
  cases info with
  | none => cases h
  | some info =>
    dsimp only at h
    split at h <;> rename_i hr <;> cases h
    obtain rfl := Engine.control_eq_error hr
    obtain ⟨_, _, _, hframes⟩ := (instantiate_eq_ok_iff.1 hinstantiate).1.backend
    exact ⟨(instantiate_accounted hinstantiate).close, ⟨_, hframes⟩, nofun⟩

/-- Attempts that all fail leave nothing behind but an alignment, and a record of calls. -/
theorem FailInTurn.undone {candidates : List Accelerator}
    (h : FailInTurn p.logged config info candidates around around') :
    Obtained around.state.calls around'.state.calls 0 0 ∧
      (∃ c, around'.frames = around.frames.withAlignment c) ∧
      (info = none → around'.frames = around.frames) ∧
      (candidates ≠ [] → around.state.calls.length < around'.state.calls.length) := by
  induction h with
  | nil => exact ⟨.refl _, ⟨_, rfl⟩, fun _ => rfl, fun hnil => absurd rfl hnil⟩
  | cons hattempt _ ih =>
    obtain ⟨hundone, ⟨c, hc⟩, hframes⟩ := Accelerator.attempt_undone hattempt
    obtain ⟨hrest, ⟨c', hc'⟩, hsame, _⟩ := ih
    refine ⟨hundone.trans hrest, ⟨c', ?_⟩, fun hnone => ?_, fun _ => ?_⟩
    · rw [hc', hc]
      rfl
    · rw [hsame hnone, hframes hnone]
    · exact Nat.lt_of_lt_of_le hundone.longer hrest.acquired.length_le

end

end VideoAccel
