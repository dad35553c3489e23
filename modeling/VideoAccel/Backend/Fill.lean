import VideoAccel.Backend.Basic

namespace VideoAccel

/-- What a task needs of the frame table and of its picture, before any buffer is touched. -/
structure TaskPlan where
  output : Frame
  stream : Packet
  resolution : Resolution
  bitDepth : UInt8
  chroma : ChromaFormat
  deriving DecidableEq, Repr

def TaskPlan.layoutKey (p : TaskPlan) (pipelineDepth : Nat) : LayoutKey :=
  ⟨p.resolution, p.bitDepth, p.chroma, pipelineDepth⟩

namespace Engine

variable {σ Pic : Type}

def plan (strategy : Strategy Pic) (picture : Pic) (t : Task) (e : Engine σ) :
    Except BackendError TaskPlan :=
  match e.frames.frame? t.output with
  | none => .error (.missingFrame t.output)
  | some output =>
    if !strategy.generation.supportsLayout output.layout then
      .error (.unsupportedLayout output.layout)
    else
      match e.frames.packet? t.input with
      | none => .error (.missingPacket t.input)
      | some stream =>
        match strategy.format picture with
        | .error f => .error (.fault f)
        | .ok format =>
          .ok { output, stream
                resolution := format.resolution
                bitDepth := e.backend.config.bitDepthOverride.getD format.bitDepth
                chroma := format.chroma }

/-- The auxiliary memory of a set, with the regions that go into scratch memory. -/
def auxBinding? (strategy : Strategy Pic) (slot : Nat) (b : Backend) : Option AuxBinding :=
  match b.aux.layout, b.aux.buffer? slot with
  | some layout, some buffer =>
    match b.scratch, strategy.scratchPolicy with
    | some memory, some policy =>
      some { handle := buffer.handle, layout
             scratch := policy.select layout memory.size, scratchHandle := memory.handle }
    | _, _ => some { handle := buffer.handle, layout }
  | _, _ => none

def bindAux (device : Device σ) (strategy : Strategy Pic) (p : TaskPlan) (slot : Nat)
    (e : Engine σ) : Except BackendError (Option AuxBinding) × Engine σ :=
  if strategy.regions.isEmpty then (.ok none, e)
  else
    let key := p.layoutKey e.backend.sets.size
    if e.backend.hasOthersInFlight && e.backend.aux.needsRefresh key then
      (.error .layoutBusy, e)
    else
      let r := e.backend.aux.refresh device.memory strategy.regions key e.backend.buffers e.device
      let e : Engine σ :=
        { e with
          backend := { e.backend with aux := r.buffers, buffers := r.group }
          device := r.state }
      match r.result with
      | .error error => (.error (.ofAlloc error), e)
      | .ok _ => (.ok (auxBinding? strategy slot e.backend), e)

def storesNeeded (t : Task) (refs : List ResolvedRef) (frames : FrameTable) : Nat :=
  max frames.frameCount ((refs.map (·.slot)).foldl max t.output + 1)

def motionBinding (t : Task) (refs : List ResolvedRef) (p : MotionPool) : MotionBinding :=
  { current := (p.handle? t.output).getD 0
    refs := refs.map fun r => (p.handle? r.slot).getD 0 }

def bindMotion (device : Device σ) (strategy : Strategy Pic) (picture : Pic) (t : Task)
    (refs : List ResolvedRef) (e : Engine σ) :
    Except BackendError (Option MotionBinding) × Engine σ :=
  match strategy.motionStoreSize picture with
  | none => (.ok none, e)
  | some size =>
    let count := storesNeeded t refs e.frames
    if e.backend.hasOthersInFlight && e.backend.motion.needsGrowth count size then
      (.error .layoutBusy, e)
    else
      match e.backend.motion.ensure device.memory count size e.backend.buffers e.device with
      | (result, motion, buffers, state) =>
        let e : Engine σ :=
          { e with backend := { e.backend with motion, buffers }, device := state }
        match result with
        | .error error => (.error (.ofAlloc error), e)
        | .ok _ => (.ok (some (motionBinding t refs e.backend.motion)), e)

def emit (strategy : Strategy Pic) (picture : Pic) (slot : Nat)
    (bind : DeviceBuffer → Binding) (e : Engine σ) : Except BackendError Unit × Engine σ :=
  match e.backend.sets.get? slot with
  | none => (.error (.missingSet slot), e)
  | some set =>
    match set.tables with
    | none => (.error (.missingTables slot), e)
    | some tables =>
      match Emission.runSteps strategy picture (bind tables) GenerationStep.all
          { image := strategy.generation.blankImage, tables := tables.memory.zeroed
            patches := set.patches } with
      | (result, emission) =>
        let e := e.withSets <| e.backend.sets.modify slot fun set =>
          { set with
            registers := emission.image
            tables := some { tables with memory := emission.tables }
            patches := emission.patches }
        match result with
        | .error failure => (.error (.ofStep failure), e)
        | .ok () => (.ok (), e)

/-- Everything from the lookups to the generation steps, up to the first failure. -/
def fill (device : Device σ) (strategy : Strategy Pic) (picture : Pic) (t : Task) (slot : Nat)
    (e : Engine σ) : Except BackendError Unit × Engine σ :=
  match e.plan strategy picture t with
  | .error error => (.error error, e)
  | .ok p =>
    match e.bindAux device strategy p slot with
    | (.error error, e) => (.error error, e)
    | (.ok aux, e) =>
      let refs := resolveReferences (strategy.referenceSlots picture) e.frames p.output t.output
      match e.bindMotion device strategy picture t refs with
      | (.error error, e) => (.error error, e)
      | (.ok motion, e) =>
        e.emit strategy picture slot fun tables =>
          { output := p.output, outputSlot := t.output, stream := p.stream
            streamLength := t.streamLength, refs, tables := tables.handle, aux, motion
            bitDepth := p.bitDepth }

end Engine

end VideoAccel
