import VideoAccel.Backend.Operations
import VideoAccel.Platform.Basic
import VideoAccel.Registry

namespace VideoAccel

variable {σ : Type}

structure Session (σ : Type) where
  registry : Registry
  accelerator : Accelerator
  caps : Capabilities
  link : Link
  engine : Engine σ
  /-- The last frame information that was accepted. -/
  frameInfo : Option Control := none
  /-- Someone wants the completion reports. -/
  observed : Bool := true

structure Opened (σ : Type) where
  link : Link
  engine : Engine σ

def Opened.close (platform : Platform σ) (o : Opened σ) : Engine σ :=
  let e := o.engine.close (platform.device o.link)
  { e with device := platform.closeChannel o.link.channel e.device }

inductive InstantiateError
  | connect (e : ConnectError)
  | init (e : BackendError)
  deriving DecidableEq, Repr

/-- What a failed attempt leaves: the frame table and the state of the platform. -/
structure Surroundings (σ : Type) where
  frames : FrameTable
  state : σ

def Accelerator.backend (a : Accelerator) (config : Config) (scratch : Option ScratchMemory) :
    Backend :=
  { standard := a.standard, generation := a.generation, config, scratch }

def Accelerator.instantiate (platform : Platform σ) (a : Accelerator) (config : Config)
    (around : Surroundings σ) : Except InstantiateError (Opened σ) × Surroundings σ :=
  match platform.connect a.client around.state with
  | (.error e, state) => (.error (.connect e), { around with state })
  | (.ok link, state) =>
    let backend := a.backend config (platform.scratch state)
    match Engine.init (platform.device link) ⟨backend, around.frames, state⟩ with
    | (.error e, engine) =>
      let engine := Opened.close platform ⟨link, engine⟩
      (.error (.init e), ⟨engine.frames, engine.device⟩)
    | (.ok (), engine) => (.ok ⟨link, engine⟩, ⟨engine.frames, engine.device⟩)

def firstAccepted (platform : Platform σ) (config : Config) (frameInfo : Option Control) :
    List Accelerator → Surroundings σ → Option (Accelerator × Opened σ) × Surroundings σ
  | [], around => (none, around)
  | a :: rest, around =>
    match a.instantiate platform config around with
    | (.error _, around) => firstAccepted platform config frameInfo rest around
    | (.ok opened, around) =>
      match frameInfo with
      | none => (some (a, opened), around)
      | some info =>
        match opened.engine.control info with
        | (.ok (), engine) =>
          (some (a, { opened with engine }), ⟨engine.frames, engine.device⟩)
        | (.error _, engine) =>
          let engine := Opened.close platform { opened with engine }
          firstAccepted platform config frameInfo rest ⟨engine.frames, engine.device⟩

def Registry.openSession (registry : Registry) (platform : Platform σ) (standard : CodingStandard)
    (config : Config) (caps : Capabilities) (around : Surroundings σ) :
    Except OpenError (Session σ) × Surroundings σ :=
  let candidates := registry.candidates standard config.forcedGeneration caps
  if candidates.isEmpty then (.error (.unsupportedCoding standard), around)
  else
    match firstAccepted platform config none candidates around with
    | (none, around) => (.error (.initFailed standard (candidates.map (·.name))), around)
    | (some (accelerator, opened), around) =>
      (.ok { registry, accelerator, caps, link := opened.link, engine := opened.engine }, around)

namespace Session

structure Outcome (σ : Type) where
  result : Except BackendError Unit
  task : Task
  session : Session σ
  report : Option CompletionReport := none

def device (platform : Platform σ) (s : Session σ) : Device σ := platform.device s.link

def tasksInFlight (s : Session σ) : Nat := s.engine.backend.tasksInFlight

def config (s : Session σ) : Config := s.engine.backend.config

def lift (s : Session σ) (o : VideoAccel.Outcome σ) : Outcome σ :=
  { result := o.result, task := o.task, session := { s with engine := o.engine }
    report := if s.observed then o.report else none }

def siblings (s : Session σ) (standard : CodingStandard) : List Accelerator :=
  (s.registry.candidates standard (some s.accelerator.generation) s.caps).filter fun a =>
    a.generation.family == s.accelerator.generation.family

def switchTo (platform : Platform σ) (standard : CodingStandard) (s : Session σ) :
    Except BackendError Unit × Session σ :=
  if 0 < s.tasksInFlight then (.error .layoutBusy, s)
  else if (s.siblings standard).isEmpty then (.error (.wrongStandard standard), s)
  else
    match firstAccepted platform s.config s.frameInfo (s.siblings standard)
        ⟨s.engine.frames, s.engine.device⟩ with
    | (none, around) =>
      (.error (.noSibling standard s.accelerator.generation.family),
        { s with engine :=
          { s.engine with
            frames := around.frames.withAlignment s.engine.frames.alignment
            device := around.state } })
    | (some (accelerator, opened), around) =>
      let old := Opened.close platform ⟨s.link, { s.engine with device := around.state }⟩
      (.ok (), { s with
        accelerator, link := opened.link, engine := { opened.engine with device := old.device } })

def generate (platform : Platform σ) (t : Task) (s : Session σ) : Outcome σ :=
  if t.picture.standard = s.accelerator.standard then
    s.lift (s.engine.generate (s.device platform) t)
  else
    match s.switchTo platform t.picture.standard with
    | (.error error, s) => ⟨.error error, t, s, none⟩
    | (.ok (), s) => s.lift (s.engine.generate (s.device platform) t)

def start (platform : Platform σ) (t : Task) (s : Session σ) : Outcome σ :=
  s.lift (s.engine.start (s.device platform) t)

def wait (platform : Platform σ) (t : Task) (s : Session σ) : Outcome σ :=
  s.lift (s.engine.wait (s.device platform) t)

def reset (platform : Platform σ) (s : Session σ) : Except BackendError Unit × Session σ :=
  match s.engine.reset (s.device platform) with
  | (result, engine) => (result, { s with engine })

def flush (platform : Platform σ) (s : Session σ) : Except BackendError Unit × Session σ :=
  match s.engine.flush (s.device platform) with
  | (result, engine) => (result, { s with engine })

def control (c : Control) (s : Session σ) : Except BackendError Unit × Session σ :=
  match s.engine.control c with
  | (.error error, engine) => (.error error, { s with engine })
  | (.ok (), engine) =>
    match c with
    | .frameInfo .. => (.ok (), { s with engine, frameInfo := some c })
    | .errorTolerance _ => (.ok (), { s with engine })

def close (platform : Platform σ) (s : Session σ) : Engine σ :=
  Opened.close platform ⟨s.link, s.engine⟩

end Session

end VideoAccel
