import VideoAccel.Backend.Fill

namespace VideoAccel

structure Outcome (σ : Type) where
  result : Except BackendError Unit
  task : Task
  engine : Engine σ
  /-- The report of a task that completed by being waited for. -/
  report : Option CompletionReport := none

namespace Engine

variable {σ : Type}

def fillPicture (device : Device σ) (t : Task) (slot : Nat) (e : Engine σ) :
    Except BackendError Unit × Engine σ :=
  match e.backend.standard, t.picture with
  | .avc, .avc picture => e.fill device e.backend.generation.avc picture t slot
  | .hevc, .hevc picture => e.fill device e.backend.generation.hevc picture t slot
  | _, picture => (.error (.wrongStandard picture.standard), e)

/-- A free register set is acquired and filled; a task to be skipped leaves it as it is. -/
def generate (device : Device σ) (t : Task) (e : Engine σ) : Outcome σ :=
  if t.state ≠ .idle then ⟨.error (.invalidState t.state .idle), t, e, none⟩
  else if t.picture.standard ≠ e.backend.standard then
    ⟨.error (.wrongStandard t.picture.standard), t, e, none⟩
  else
    match e.backend.sets.acquire? with
    | none => ⟨.error .noFreeSlot, t, e, none⟩
    | some (slot, sets) =>
      let bound := { t with slot := some slot, state := .registersGenerated }
      if t.mustSkip e.backend.config then
        ⟨.ok (), bound, e.withSets (sets.modify slot fun set => { set with skip := true }), none⟩
      else
        match fillPicture device t slot (e.withSets sets) with
        | (.error error, e) => ⟨.error error, t, e.releaseSet slot, none⟩
        | (.ok (), e) => ⟨.ok (), bound, e, none⟩

/-- The batch of a register set goes to the channel. A refused task is completed. -/
def submit (device : Device σ) (t : Task) (slot : Nat) (set : RegisterSet RegisterImage)
    (e : Engine σ) : Outcome σ :=
  match device.channel.submit (e.backend.generation.queue set.registers set.patches) e.device with
  | (.error error, state) =>
    ⟨.error (.submitFailed error), { t with slot := none, state := .completed },
      { e.releaseSet slot with device := state }, none⟩
  | (.ok (), state) =>
    ⟨.ok (), { t with state := .submitted },
      { e with
        backend := { e.backend with submitted := e.backend.submitted ++ [slot] }
        device := state }, none⟩

def start (device : Device σ) (t : Task) (e : Engine σ) : Outcome σ :=
  if t.state ≠ .registersGenerated then
    ⟨.error (.invalidState t.state .registersGenerated), t, e, none⟩
  else
    match t.slot with
    | none => ⟨.error .unboundTask, t, e, none⟩
    | some slot =>
      match e.backend.sets.get? slot with
      | none => ⟨.error (.missingSet slot), t, e, none⟩
      | some set =>
        if set.skip then ⟨.ok (), { t with state := .submitted }, e, none⟩
        else submit device t slot set e

def dequeue (slot : Nat) (submitted : List Nat) : Except BackendError (List Nat) :=
  match submitted with
  | [] => .ok []
  | first :: rest =>
    if first = slot then .ok rest
    else if rest.contains slot then .error (.outOfOrder first slot)
    else .ok submitted

structure PollOutcome where
  raw : List UInt32 := []
  status : HardwareStatus := {}
  timedOut : Bool := false
  deriving DecidableEq, Repr

def pollOutcome (g : Generation) : Except ChannelError Readback → PollOutcome
  | .ok readback => { raw := readback.flatten, status := g.decodeStatus readback }
  | .error e => { status := { hardError := true }, timedOut := e == .timeout }

def complete (t : Task) (slot : Nat) (skipped : Bool) (p : PollOutcome) (e : Engine σ) :
    Outcome σ :=
  let done := { t with refUsed := p.status.refUsed, state := .completed }
  let sets := e.backend.sets.modify slot fun set =>
    { set with registers := set.registers.writeAll e.backend.generation.clearStatus }
  { result := .ok ()
    task := { done with slot := none }
    engine := e.withSets (sets.release slot)
    report := some
      { task := done, status := p.raw, hardError := p.status.hardError
        refUsed := p.status.refUsed, skipped, timedOut := p.timedOut } }

def wait (device : Device σ) (t : Task) (e : Engine σ) : Outcome σ :=
  if t.state ≠ .submitted then ⟨.error (.invalidState t.state .submitted), t, e, none⟩
  else
    match t.slot with
    | none => ⟨.error .unboundTask, t, e, none⟩
    | some slot =>
      let skipped := (e.backend.sets.get? slot).any (·.skip)
      match dequeue slot e.backend.submitted with
      | .error error => ⟨.error error, t, e, none⟩
      | .ok submitted =>
        let e : Engine σ := { e with backend := { e.backend with submitted } }
        if skipped then complete t slot true {} e
        else
          match device.channel.poll e.device with
          | (result, state) =>
            complete t slot false (pollOutcome e.backend.generation result)
              { e with device := state }

/-- The order of submission is forgotten, whatever the channel answers. -/
def reset (device : Device σ) (e : Engine σ) : Except BackendError Unit × Engine σ :=
  match device.channel.reset e.device with
  | (result, state) =>
    (result.mapError .channel,
      { e with backend := { e.backend with submitted := [] }, device := state })

def flush (device : Device σ) (e : Engine σ) : Except BackendError Unit × Engine σ :=
  match device.channel.flush e.device with
  | (result, state) => (result.mapError .channel, { e with device := state })

def control (c : Control) (e : Engine σ) : Except BackendError Unit × Engine σ :=
  match c with
  | .frameInfo width _ _ layout =>
    if e.backend.generation.supportsLayout layout then
      (.ok (), { e with
        frames := e.frames.withAlignment (e.backend.generation.alignmentFor width layout) })
    else (.error (.unsupportedLayout layout), e)
  | .errorTolerance enabled =>
    (.ok (), { e with
      backend := { e.backend with
        config := { e.backend.config with errorTolerance := enabled } } })

end Engine

end VideoAccel
