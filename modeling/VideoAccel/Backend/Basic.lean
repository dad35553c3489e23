import VideoAccel.Auxiliary.Cache
import VideoAccel.Frame.Table
import VideoAccel.Motion
import VideoAccel.RegisterSet
import VideoAccel.Strategy.Generation
import VideoAccel.Task

namespace VideoAccel

structure Backend where
  standard : CodingStandard
  generation : Generation
  sets : RegisterSets RegisterImage := {}
  aux : AuxBuffers := {}
  motion : MotionPool := {}
  /-- Register sets whose batches the channel has taken and not yet completed, oldest first. -/
  submitted : List Nat := []
  buffers : BufferGroup := {}
  config : Config := {}
  scratch : Option ScratchMemory := none
  deriving DecidableEq, Repr

def tableBufferSize : Nat := 4096

/-- A backend with its surroundings: the frame table it shares and the state of its device. -/
structure Engine (σ : Type) where
  backend : Backend
  frames : FrameTable
  device : σ

namespace Backend

def tasksInFlight (b : Backend) : Nat := b.sets.validCount

def hasOthersInFlight (b : Backend) : Bool := 1 < b.tasksInFlight

/-- The buffers that the backend owns, in the order in which it gives them back. -/
def owned (b : Backend) : List DeviceBuffer :=
  b.sets.sets.filterMap (·.tables) ++ b.aux.buffers ++ b.motion.stores

end Backend

namespace Engine

variable {σ : Type}

def withSets (e : Engine σ) (sets : RegisterSets RegisterImage) : Engine σ :=
  { e with backend := { e.backend with sets } }

def releaseSet (e : Engine σ) (slot : Nat) : Engine σ :=
  e.withSets (e.backend.sets.release slot)

def obtainTables (device : Device σ) (e : Engine σ) : Except BackendError Unit × Engine σ :=
  match e.backend.buffers.getMany device.memory .tables tableBufferSize e.backend.sets.size
      e.device with
  | (failure, got, buffers, state) =>
    let sets : RegisterSets RegisterImage :=
      ⟨e.backend.sets.sets.mapIdx fun i set => { set with tables := got[i]? }⟩
    let e : Engine σ := { e with backend := { e.backend with sets, buffers }, device := state }
    match failure with
    | some error => (.error (.ofAlloc error), e)
    | none => (.ok (), e)

def init (device : Device σ) (e : Engine σ) : Except BackendError Unit × Engine σ :=
  let blank := RegisterSets.replicate e.backend.config.pipelineDepth e.backend.generation.blankImage
  match obtainTables device (e.withSets blank) with
  | (.error error, e) => (.error error, e)
  | (.ok (), e) =>
    (.ok (), { e with frames := e.frames.withAlignment e.backend.generation.defaultAlignment })

def close (device : Device σ) (e : Engine σ) : Engine σ :=
  match e.backend.buffers.giveMany device.memory e.backend.owned e.device with
  | (buffers, state) =>
    match buffers.drop device.memory state with
    | (buffers, state) =>
      { e with
        backend := { e.backend with sets := {}, aux := {}, motion := {}, buffers }
        device := state }

end Engine

end VideoAccel
