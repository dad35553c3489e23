import VideoAccel.Memory.Heap
import VideoAccel.Platform.Basic

namespace VideoAccel

inductive PollAnswer
  | timeout
  | failure (e : Errno)
  | blocks (readback : Readback)
  /-- The words laid down for each read of the batch. -/
  | regular
  deriving DecidableEq, Repr

structure ScriptedPlatform where
  failing : List Client := []
  /-- The budget of heaps opened from now on. -/
  budget : Option Nat := none
  allocError : Option Errno := none
  scratchMemory : Option ScratchMemory := none
  rejection : Option String := none
  resetError : Option Errno := none
  flushError : Option Errno := none
  /-- The words at an offset of the register file. -/
  reads : List (Nat × List UInt32) := []
  script : List PollAnswer := []
  opened : List Client := []
  closed : Nat := 0
  resets : Nat := 0
  flushes : Nat := 0
  polls : Nat := 0
  submits : Nat := 0
  /-- The batch submitted last. -/
  latest : Option Batch := none
  /-- The pending batches of each channel. -/
  queues : List (List Batch) := []
  heaps : List Heap := []
  deriving DecidableEq, Repr

namespace ScriptedPlatform

def openChannel (client : Client) (s : ScriptedPlatform) :
    Except ChannelError Nat × ScriptedPlatform :=
  if s.failing.contains client then (.error (.io .noSuchDevice), s)
  else (.ok s.queues.length, { s with opened := s.opened ++ [client], queues := s.queues ++ [[]] })

def closeChannel (id : Nat) (s : ScriptedPlatform) : ScriptedPlatform :=
  { s with closed := s.closed + 1, queues := s.queues.set id [] }

def openMemory (s : ScriptedPlatform) : Except AllocError Nat × ScriptedPlatform :=
  match s.allocError with
  | some e => (.error (.io e), s)
  | none => (.ok s.heaps.length, { s with heaps := s.heaps ++ [{ budget := s.budget }] })

def submit (id : Nat) (batch : Batch) (s : ScriptedPlatform) :
    Except ChannelError Unit × ScriptedPlatform :=
  match s.rejection with
  | some reason => (.error (.rejected reason), s)
  | none =>
    (.ok (), { s with
      queues := s.queues.modify id (· ++ [batch])
      submits := s.submits + 1
      latest := some batch })

def regularAnswer (s : ScriptedPlatform) (batch : Batch) : Readback :=
  batch.reads.map fun (offset, count) => fitWords count ((s.reads.lookup offset).getD [])

def answer (s : ScriptedPlatform) (batch : Batch) : PollAnswer → Except ChannelError Readback
  | .timeout => .error .timeout
  | .failure e => .error (.io e)
  | .blocks readback => .ok readback
  | .regular => .ok (s.regularAnswer batch)

def poll (id : Nat) (s : ScriptedPlatform) : Except ChannelError Readback × ScriptedPlatform :=
  match s.queues[id]?.getD [] with
  | [] => (.error .nothingPending, s)
  | batch :: rest =>
    (s.answer batch (s.script.head?.getD .regular),
      { s with queues := s.queues.set id rest, script := s.script.tail, polls := s.polls + 1 })

def resultOf : Option Errno → Except ChannelError Unit
  | none => .ok ()
  | some e => .error (.io e)

def reset (id : Nat) (s : ScriptedPlatform) : Except ChannelError Unit × ScriptedPlatform :=
  (resultOf s.resetError, { s with queues := s.queues.set id [], resets := s.resets + 1 })

def flush (s : ScriptedPlatform) : Except ChannelError Unit × ScriptedPlatform :=
  (resultOf s.flushError, { s with flushes := s.flushes + 1 })

def channel (id : Nat) : Channel ScriptedPlatform where
  submit := submit id
  poll := poll id
  reset := reset id
  flush := flush

/-- The heap of a number as a source of memory. -/
def memory (id : Nat) : MemorySource ScriptedPlatform where
  allocate size s :=
    match s.heaps[id]? with
    | none => (.error (.outOfMemory size), s)
    | some heap =>
      match heap.allocate size with
      | (result, heap) => (result, { s with heaps := s.heaps.set id heap })
  free m s := { s with heaps := s.heaps.modify id (Heap.free m) }

def platform : Platform ScriptedPlatform where
  openChannel := openChannel
  closeChannel := closeChannel
  openMemory := openMemory
  scratch s := s.scratchMemory
  channel := channel
  memory := memory

def memoryUse (s : ScriptedPlatform) : Nat × Nat × Nat :=
  let total := List.foldr (· + ·) 0
  (total (s.heaps.map (·.live)), total (s.heaps.map (·.bytes)), total (s.heaps.map (·.made)))

end ScriptedPlatform

end VideoAccel
