import Mathlib.Data.List.Basic
import VideoAccel.Proofs.Memory.Transfer
import VideoAccel.Device

namespace VideoAccel

variable {σ : Type}

inductive Message
  | submit (batch : Batch) (answer : Except ChannelError Unit)
  | poll (answer : Except ChannelError Readback)
  | reset (answer : Except ChannelError Unit)
  | flush (answer : Except ChannelError Unit)

/-- A state and the messages so far, the latest one first. -/
structure Recorded (σ : Type) where
  state : σ
  log : List Message := []

def record {α : Type} (operation : σ → Except ChannelError α × σ)
    (message : Except ChannelError α → Message) (r : Recorded σ) :
    Except ChannelError α × Recorded σ :=
  match operation r.state with
  | (answer, state) => (answer, ⟨state, message answer :: r.log⟩)

theorem log_of_record {α : Type} {operation : σ → Except ChannelError α × σ}
    {message : Except ChannelError α → Message} {r r' : Recorded σ} {answer : Except ChannelError α}
    (h : record operation message r = (answer, r')) : r'.log = message answer :: r.log := by
  cases h
  rfl

def Device.recorded (device : Device σ) : Device (Recorded σ) where
  channel :=
    { submit := fun batch => record (device.channel.submit batch) (.submit batch)
      poll := record device.channel.poll .poll
      reset := record device.channel.reset .reset
      flush := record device.channel.flush .flush }
  memory :=
    { allocate := fun size r =>
        match device.memory.allocate size r.state with
        | (result, state) => (result, { r with state })
      free := fun m r => { r with state := device.memory.free m r.state } }

/-- A batch that was accepted, numbered by the messages before it. -/
structure Ticket where
  number : Nat
  batch : Batch
  deriving DecidableEq

/-- The accepted batches that no poll has taken, oldest first. -/
def waiting : List Message → List Ticket
  | [] => []
  | .submit batch (.ok ()) :: log => waiting log ++ [⟨log.length, batch⟩]
  | .submit _ (.error _) :: log => waiting log
  | .poll _ :: log => (waiting log).tail
  | .reset _ :: _ => []
  | .flush _ :: log => waiting log

def lastReset : List Message → Nat
  | [] => 0
  | .reset _ :: log => log.length + 1
  | _ :: log => lastReset log

/-- The batches pending in a channel: accepted ones join at the end, and a poll takes the first one
whatever it answers. -/
structure Fifo (device : Device σ) (pending : σ → List Batch) : Prop where
  accept : ∀ batch s, (device.channel.submit batch s).1 = .ok () →
    pending (device.channel.submit batch s).2 = pending s ++ [batch]
  reject : ∀ batch s e, (device.channel.submit batch s).1 = .error e →
    pending (device.channel.submit batch s).2 = pending s
  poll : ∀ s, pending (device.channel.poll s).2 = (pending s).tail
  flush : ∀ s, pending (device.channel.flush s).2 = pending s
  allocate : ∀ size s, pending (device.memory.allocate size s).2 = pending s
  free : ∀ m s, pending (device.memory.free m s) = pending s

/-- A reset that succeeds drops what is pending, and a poll with nothing pending fails. -/
structure Droppable (device : Device σ) (pending : σ → List Batch) : Prop where
  reset : ∀ s, (device.channel.reset s).1 = .ok () → pending (device.channel.reset s).2 = []
  empty : ∀ s, pending s = [] → ∃ e, (device.channel.poll s).1 = .error e

def Recorded.InStep (pending : σ → List Batch) (r : Recorded σ) : Prop :=
  pending r.state = (waiting r.log).map Ticket.batch

namespace Fifo

variable {device : Device σ} {pending : σ → List Batch} {r : Recorded σ}

theorem submit_inStep (h : Fifo device pending) (hr : r.InStep pending) {batch : Batch}
    {answer : Except ChannelError Unit} {r' : Recorded σ}
    (hsubmit : device.recorded.channel.submit batch r = (answer, r')) :
    r'.log = .submit batch answer :: r.log ∧ r'.InStep pending := by
  refine ⟨log_of_record hsubmit, ?_⟩
  have haccept := h.accept batch r.state
  have hreject := h.reject batch r.state
  obtain rfl := (Prod.mk.inj hsubmit).2
  simp only [Recorded.InStep]
  cases hanswer : (device.channel.submit batch r.state).1 with
  | ok _ =>
    rw [haccept hanswer, hr, waiting, List.map_append]
    rfl
  | error e => rw [hreject e hanswer, hr, waiting]

theorem poll_inStep (h : Fifo device pending) (hr : r.InStep pending)
    {answer : Except ChannelError Readback} {r' : Recorded σ}
    (hpoll : device.recorded.channel.poll r = (answer, r')) :
    r'.log = .poll answer :: r.log ∧ r'.InStep pending := by
  refine ⟨log_of_record hpoll, ?_⟩
  obtain rfl := (Prod.mk.inj hpoll).2
  simp only [Recorded.InStep, waiting, List.map_tail]
  rw [h.poll, hr]

theorem flush_inStep (h : Fifo device pending) (hr : r.InStep pending) :
    (device.recorded.channel.flush r).2.InStep pending := by
  simp only [Recorded.InStep, Device.recorded, record, waiting]
  rw [h.flush, hr]

theorem transfer_inStep (h : Fifo device pending) {x y : Holding (Recorded σ)}
    (htransfer : Transfer device.recorded.memory x y) (hr : x.state.InStep pending) :
    y.state.log = x.state.log ∧ y.state.InStep pending := by
  refine htransfer.keeps (P := fun r => r.log = x.state.log ∧ r.InStep pending) ?_ ?_ ⟨rfl, hr⟩
  · rintro size s ⟨hlog, hs⟩
    exact ⟨hlog, (h.allocate size s.state).trans hs⟩
  · rintro m s ⟨hlog, hs⟩
    exact ⟨hlog, (h.free m s.state).trans hs⟩

end Fifo

theorem Droppable.reset_inStep {device : Device σ} {pending : σ → List Batch} {r : Recorded σ}
    (h : Droppable device pending) (hok : (device.recorded.channel.reset r).1 = .ok ()) :
    (device.recorded.channel.reset r).2.InStep pending := by
  simp only [Recorded.InStep, Device.recorded, record, waiting, List.map_nil]
  exact h.reset r.state hok

end VideoAccel
