import VideoAccel.Proofs.Platform.Calls
import VideoAccel.Proofs.Session.Tasks

namespace VideoAccel

variable {σ τ : Type} {f : σ → τ} {p : Platform σ} {p' : Platform τ}

def Opened.map (f : σ → τ) (o : Opened σ) : Opened τ := ⟨o.link, o.engine.map f⟩

def Surroundings.map (f : σ → τ) (s : Surroundings σ) : Surroundings τ := ⟨s.frames, f s.state⟩

def Session.map (f : σ → τ) (s : Session σ) : Session τ := { s with engine := s.engine.map f }

def Session.Outcome.map (f : σ → τ) (o : Session.Outcome σ) : Session.Outcome τ :=
  ⟨o.result, o.task, o.session.map f, o.report⟩

def Decoding.map (f : σ → τ) (d : Decoding σ) : Decoding τ := ⟨d.session.map f, d.tasks⟩

namespace PlatformMap

theorem init {d : Device σ} {d' : Device τ} (h : DeviceMap f d d') (e : Engine σ) :
    (e.map f).init d' = Prod.map id (Engine.map f) (e.init d) := by
  simp only [Engine.init, Engine.obtainTables, Engine.map, Engine.withSets, h.getMany]
  rcases BufferGroup.getMany d.memory _ _ _ _ _ with ⟨_ | _, _, _, _⟩ <;> rfl

theorem engineClose {d : Device σ} {d' : Device τ} (h : DeviceMap f d d') (e : Engine σ) :
    (e.map f).close d' = (e.close d).map f := by
  -- dropping a group frees its idle buffers one after the other
  have hdrop : ∀ (g : BufferGroup) (s : σ),
      g.drop d'.memory (f s) = Prod.map id f (g.drop d.memory s) := by
    intro g s
    have hfree : g.idle.foldl (fun s b => d'.memory.free b.memory s) (f s) =
        f (g.idle.foldl (fun s b => d.memory.free b.memory s) s) := by
      induction g.idle generalizing s with
      | nil => rfl
      | cons b bs ih => rw [List.foldl_cons, List.foldl_cons, h.free, ih]
    simp only [BufferGroup.drop, BufferGroup.trim, hfree]
    split <;> rfl
  have hbackend : (e.map f).backend = e.backend := rfl
  have hdevice : (e.map f).device = f e.device := rfl
  simp only [Engine.close, hbackend, hdevice, h.giveMany, Prod.map_fst, Prod.map_snd, hdrop]
  rfl

theorem close (h : PlatformMap f p p') (o : Opened σ) :
    Opened.close p' (o.map f) = (Opened.close p o).map f := by
  have hengine : (o.map f).engine.close (p'.device o.link) =
      (o.engine.close (p.device o.link)).map f := engineClose (h.device o.link) o.engine
  have hlink : (o.map f).link = o.link := rfl
  simp only [Opened.close, hlink, hengine]
  simp only [Engine.map, h.closeChannel]

theorem connect (h : PlatformMap f p p') (client : Client) (s : σ) :
    p'.connect client (f s) = Prod.map id f (p.connect client s) := by
  simp only [Platform.connect, h.openChannel]
  rcases p.openChannel client s with ⟨_ | channel, s₁⟩
  · rfl
  simp only [Prod.map_apply, id_eq, h.openMemory]
  rcases p.openMemory s₁ with ⟨_ | memory, s₂⟩
  · simp only [Prod.map_apply, id_eq, h.closeChannel]
  · rfl

theorem instantiate (h : PlatformMap f p p') (a : Accelerator) (config : Config)
    (around : Surroundings σ) :
    a.instantiate p' config (around.map f) =
      Prod.map (Except.map (Opened.map f)) (Surroundings.map f)
        (a.instantiate p config around) := by
  have hstate : (around.map f).state = f around.state := rfl
  simp only [Accelerator.instantiate, hstate, h.connect]
  rcases p.connect a.client around.state with ⟨_ | link, s⟩
  · rfl
  have hinit := init (h.device link) ⟨a.backend config (p.scratch s), around.frames, s⟩
  simp only [Engine.map] at hinit
  have hframes : (around.map f).frames = around.frames := rfl
  simp only [Prod.map_apply, id_eq, h.scratch, hframes, hinit]
  rcases Engine.init (p.device link) ⟨a.backend config (p.scratch s), around.frames, s⟩ with
    ⟨_ | _, engine⟩
  · have hclose := h.close ⟨link, engine⟩
    simp only [Opened.map] at hclose
    simp only [Prod.map_apply, id_eq, hclose]
    rfl
  · rfl

theorem firstAccepted (h : PlatformMap f p p') (config : Config) (info : Option Control)
    (candidates : List Accelerator) (around : Surroundings σ) :
    firstAccepted p' config info candidates (around.map f) =
      Prod.map (Option.map (Prod.map id (Opened.map f))) (Surroundings.map f)
        (firstAccepted p config info candidates around) := by
  induction candidates generalizing around with
  | nil => rfl
  | cons a rest ih =>
    simp only [VideoAccel.firstAccepted, h.instantiate]
    rcases a.instantiate p config around with ⟨_ | opened, next⟩
    · exact ih next
    cases info with
    | none => rfl
    | some info =>
      have hengine : (opened.map f).engine = opened.engine.map f := rfl
      simp only [Prod.map_apply, Except.map, hengine, DeviceMap.control]
      rcases opened.engine.control info with ⟨_ | _, engine⟩
      · have hclose := h.close { opened with engine }
        simp only [Opened.map] at hclose
        simp only [Prod.map_apply, id_eq, Opened.map, hclose]
        exact ih ⟨_, (Opened.close p { opened with engine }).device⟩
      · rfl

theorem openSession (h : PlatformMap f p p') (registry : Registry) (standard : CodingStandard)
    (config : Config) (caps : Capabilities) (around : Surroundings σ) :
    registry.openSession p' standard config caps (around.map f) =
      Prod.map (Except.map (Session.map f)) (Surroundings.map f)
        (registry.openSession p standard config caps around) := by
  simp only [Registry.openSession, h.firstAccepted]
  split
  · rfl
  rcases VideoAccel.firstAccepted p config none _ around with ⟨_ | ⟨a, opened⟩, next⟩ <;> rfl

theorem switchTo (h : PlatformMap f p p') (standard : CodingStandard) (s : Session σ) :
    (s.map f).switchTo p' standard = Prod.map id (Session.map f) (s.switchTo p standard) := by
  have haccepted := h.firstAccepted s.config s.frameInfo (s.siblings standard)
    ⟨s.engine.frames, s.engine.device⟩
  have hconfig : (s.map f).config = s.config := rfl
  have hflight : (s.map f).tasksInFlight = s.tasksInFlight := rfl
  have hsiblings : (s.map f).siblings standard = s.siblings standard := rfl
  simp only [Surroundings.map] at haccepted
  simp only [Session.switchTo, hconfig, hflight, hsiblings]
  split
  · rfl
  split
  · rfl
  simp only [Session.map, Engine.map, haccepted]
  rcases VideoAccel.firstAccepted p s.config s.frameInfo _ _ with ⟨_ | ⟨a, opened⟩, next⟩
  · rfl
  · have hclose := h.close ⟨s.link, { s.engine with device := next.state }⟩
    simp only [Opened.map, Engine.map] at hclose
    simp only [Prod.map_apply, Option.map_some, Surroundings.map, hclose]
    rfl

theorem generate (h : PlatformMap f p p') (t : Task) (s : Session σ) :
    (s.map f).generate p' t = (s.generate p t).map f := by
  have hlift : ∀ s : Session σ,
      (s.map f).lift ((s.map f).engine.generate ((s.map f).device p') t) =
        (s.lift (s.engine.generate (s.device p) t)).map f := by
    intro s
    have hgenerate := (h.device s.link).generate t s.engine
    change (s.map f).lift ((s.engine.map f).generate (p'.device s.link) t) = _
    rw [hgenerate]
    rfl
  have haccelerator : (s.map f).accelerator = s.accelerator := rfl
  simp only [Session.generate, haccelerator, h.switchTo]
  split
  · exact hlift s
  rcases s.switchTo p t.picture.standard with ⟨_ | _, s'⟩
  · rfl
  · exact hlift s'

theorem act (h : PlatformMap f p p') (d : Decoding σ) (a : Action) :
    (d.map f).act p' a = (d.act p a).map f := by
  cases a with
  | generate i =>
    have hgenerate := h.generate (d.tasks i) d.session
    simp only [Decoding.act, Decoding.map, hgenerate]
    rfl
  | start i =>
    have hstart := (h.device d.session.link).start (d.tasks i) d.session.engine
    simp only [Decoding.act, Decoding.map, Session.start, Session.map, Session.device, hstart]
    rfl
  | wait i =>
    have hwait := (h.device d.session.link).wait (d.tasks i) d.session.engine
    simp only [Decoding.act, Decoding.map, Session.wait, Session.map, Session.device, hwait]
    rfl
  | control c =>
    simp only [Decoding.act, Decoding.map, Session.control, Session.map, DeviceMap.control]
    rcases d.session.engine.control c with ⟨_ | _, engine⟩
    · rfl
    · cases c <;> rfl
  | flush =>
    have hflush := (h.device d.session.link).engineFlush d.session.engine
    simp only [Decoding.act, Decoding.map, Session.flush, Session.map, Session.device, hflush]
    rfl
  | reset =>
    have hreset := (h.device d.session.link).engineReset d.session.engine
    simp only [Decoding.act, Decoding.map, Session.reset, Session.map, Session.device, hreset]
    rfl
  | recycle | edit | frames => rfl

end PlatformMap

/-- An event in a session whose calls are on record. When the platform changes by itself, the record
stays. -/
def SessionEvent.logged (calls : List PlatformCall) : SessionEvent σ → SessionEvent (Logged σ)
  | .act a => .act a
  | .observe on => .observe on
  | .elapse state => .elapse ⟨state, calls⟩

namespace Decoding

def stepLogged (p : Platform σ) (d : Decoding (Logged σ)) (event : SessionEvent σ) :
    Decoding (Logged σ) :=
  d.step p.logged (event.logged d.session.engine.device.calls)

def runLogged (p : Platform σ) (d : Decoding (Logged σ)) (events : List (SessionEvent σ)) :
    Decoding (Logged σ) :=
  events.foldl (stepLogged p) d

theorem stepLogged_state (p : Platform σ) (d : Decoding (Logged σ)) (event : SessionEvent σ) :
    (d.stepLogged p event).map Logged.state = (d.map Logged.state).step p event := by
  cases event with
  | act a => exact ((logged_platformMap p).act d a).symm
  | observe | elapse => rfl

theorem runLogged_state (p : Platform σ) (d : Decoding (Logged σ))
    (events : List (SessionEvent σ)) :
    (d.runLogged p events).map Logged.state = (d.map Logged.state).run p events := by
  induction events generalizing d with
  | nil => rfl
  | cons event events ih => exact (ih _).trans (by rw [stepLogged_state]; rfl)

theorem runLogged_induction {p : Platform σ} {P : Decoding (Logged σ) → Prop}
    (hstep : ∀ d event, P d → P (d.stepLogged p event)) {d : Decoding (Logged σ)} (hd : P d)
    (events : List (SessionEvent σ)) : P (d.runLogged p events) := by
  induction events generalizing d with
  | nil => exact hd
  | cons event events ih => exact ih (hstep d event hd)

end Decoding

end VideoAccel
