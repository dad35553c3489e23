import Mathlib.Algebra.Order.Group.Multiset
import VideoAccel.Platform.Basic
import VideoAccel.Proofs.Traffic.Transparency

namespace VideoAccel

variable {σ τ : Type}

/-- A request to a platform, or to something that it opened, with the answer. -/
inductive PlatformCall
  | openChannel (client : Client) (answer : Except ChannelError Nat)
  | closeChannel (id : Nat)
  | openMemory (answer : Except AllocError Nat)
  | message (channel : Nat) (m : Message)
  | allocate (source size : Nat) (answer : Except AllocError Memory)
  | free (source : Nat) (m : Memory)

/-- A state and the calls so far, the latest one first. -/
structure Logged (σ : Type) where
  state : σ
  calls : List PlatformCall := []

/-- An operation with its call put on record. -/
def Logged.call {α : Type} (operation : σ → α × σ) (call : α → PlatformCall) (l : Logged σ) :
    α × Logged σ :=
  match operation l.state with
  | (answer, state) => (answer, ⟨state, call answer :: l.calls⟩)

theorem calls_of_call {α : Type} {operation : σ → α × σ} {call : α → PlatformCall}
    {l l' : Logged σ} {answer : α} (h : Logged.call operation call l = (answer, l')) :
    l'.calls = call answer :: l.calls := by
  cases h
  rfl

theorem of_call {α : Type} {operation : σ → α × σ} {call : α → PlatformCall} {l l' : Logged σ}
    {answer : α} (h : Logged.call operation call l = (answer, l')) :
    operation l.state = (answer, l'.state) := by
  cases h
  rfl

/-- A source of memory with its calls put on record. -/
def MemorySource.logged (source : MemorySource σ) (id : Nat) : MemorySource (Logged σ) where
  allocate size := Logged.call (source.allocate size) (.allocate id size)
  free m l := ⟨source.free m l.state, .free id m :: l.calls⟩

def Platform.logged (p : Platform σ) : Platform (Logged σ) where
  openChannel client := Logged.call (p.openChannel client) (.openChannel client)
  closeChannel id l := ⟨p.closeChannel id l.state, .closeChannel id :: l.calls⟩
  openMemory := Logged.call p.openMemory .openMemory
  scratch l := p.scratch l.state
  channel id :=
    { submit := fun batch =>
        Logged.call ((p.channel id).submit batch) fun answer => .message id (.submit batch answer)
      poll := Logged.call (p.channel id).poll fun answer => .message id (.poll answer)
      reset := Logged.call (p.channel id).reset fun answer => .message id (.reset answer)
      flush := Logged.call (p.channel id).flush fun answer => .message id (.flush answer) }
  memory id :=
    { allocate := fun size => Logged.call ((p.memory id).allocate size) (.allocate id size)
      free := fun m l => ⟨(p.memory id).free m l.state, .free id m :: l.calls⟩ }

/-- One platform does on the image of a state what another does on the state. -/
structure PlatformMap (f : σ → τ) (p : Platform σ) (p' : Platform τ) : Prop where
  openChannel : ∀ client s, p'.openChannel client (f s) = Prod.map id f (p.openChannel client s)
  closeChannel : ∀ id s, p'.closeChannel id (f s) = f (p.closeChannel id s)
  openMemory : ∀ s, p'.openMemory (f s) = Prod.map id f (p.openMemory s)
  scratch : ∀ s, p'.scratch (f s) = p.scratch s
  device : ∀ link, DeviceMap f (p.device link) (p'.device link)

theorem logged_platformMap (p : Platform σ) : PlatformMap Logged.state p.logged p where
  openChannel _ _ := rfl
  closeChannel _ _ := rfl
  openMemory _ := rfl
  scratch _ := rfl
  device _ := ⟨fun _ _ => rfl, fun _ => rfl, fun _ => rfl, fun _ => rfl, fun _ _ => rfl,
    fun _ _ => rfl⟩

/-- The channels that were opened and have not been closed. -/
def openChannels : List PlatformCall → Multiset Nat
  | [] => 0
  | .openChannel _ (.ok id) :: calls => id ::ₘ openChannels calls
  | .closeChannel id :: calls => (openChannels calls).erase id
  | _ :: calls => openChannels calls

abbrev MemoryTag : Type := Nat × UInt32 × Nat

def Memory.tag (source : Nat) (m : Memory) : MemoryTag := (source, m.handle, m.size)

/-- The memory that was allocated and has not been freed. -/
def liveMemory : List PlatformCall → Multiset MemoryTag
  | [] => 0
  | .allocate source _ (.ok m) :: calls => m.tag source ::ₘ liveMemory calls
  | .free source m :: calls => (liveMemory calls).erase (m.tag source)
  | _ :: calls => liveMemory calls

def sentMessages (calls : List PlatformCall) : List (Nat × Message) :=
  calls.filterMap fun
    | .message channel m => some (channel, m)
    | _ => none

/-- From `start` to `calls` exactly these channels were opened and this memory was allocated that
have not been given up again; and nothing was given up that had not been obtained since `start`. -/
def Acquired (start calls : List PlatformCall) (channels : Multiset Nat)
    (memory : Multiset MemoryTag) : Prop :=
  ∃ recent, calls = recent ++ start ∧
    (∀ base, openChannels (recent ++ base) = channels + openChannels base) ∧
    ∀ base, liveMemory (recent ++ base) = memory + liveMemory base

namespace Acquired

variable {start calls calls' : List PlatformCall} {channels channels' : Multiset Nat}
  {memory memory' : Multiset MemoryTag}

theorem refl (start : List PlatformCall) : Acquired start start 0 0 :=
  ⟨[], rfl, fun _ => (zero_add _).symm, fun _ => (zero_add _).symm⟩

theorem trans (h : Acquired start calls channels memory)
    (h' : Acquired calls calls' channels' memory') :
    Acquired start calls' (channels' + channels) (memory' + memory) := by
  obtain ⟨recent, rfl, hchannels, hmemory⟩ := h
  obtain ⟨recent', rfl, hchannels', hmemory'⟩ := h'
  refine ⟨recent' ++ recent, (List.append_assoc ..).symm, fun base => ?_, fun base => ?_⟩
  · rw [List.append_assoc, hchannels', hchannels, add_assoc]
  · rw [List.append_assoc, hmemory', hmemory, add_assoc]

theorem length_le (h : Acquired start calls channels memory) : start.length ≤ calls.length := by
  obtain ⟨recent, rfl, _⟩ := h
  rw [List.length_append]
  exact Nat.le_add_left ..

theorem openChannels_eq (h : Acquired [] calls channels memory) :
    openChannels calls = channels := by
  obtain ⟨recent, rfl, hchannels, _⟩ := h
  rw [hchannels, openChannels, add_zero]

theorem liveMemory_eq (h : Acquired [] calls channels memory) : liveMemory calls = memory := by
  obtain ⟨recent, rfl, _, hmemory⟩ := h
  rw [hmemory, liveMemory, add_zero]

theorem call (h : Acquired start calls channels memory) (c : PlatformCall)
    (hchannels : ∀ log others, openChannels log = channels + others →
      openChannels (c :: log) = channels' + others)
    (hmemory : ∀ log others, liveMemory log = memory + others →
      liveMemory (c :: log) = memory' + others) :
    Acquired start (c :: calls) channels' memory' := by
  obtain ⟨recent, rfl, hrecent, hrecent'⟩ := h
  exact ⟨c :: recent, rfl, fun base => hchannels _ _ (hrecent base),
    fun base => hmemory _ _ (hrecent' base)⟩

theorem idle (h : Acquired start calls channels memory) (c : PlatformCall)
    (hchannels : ∀ log, openChannels (c :: log) = openChannels log)
    (hmemory : ∀ log, liveMemory (c :: log) = liveMemory log) :
    Acquired start (c :: calls) channels memory :=
  h.call c (fun log _ hlog => (hchannels log).trans hlog)
    fun log _ hlog => (hmemory log).trans hlog

theorem openChannel (h : Acquired start calls channels memory) (client : Client) (id : Nat) :
    Acquired start (.openChannel client (.ok id) :: calls) (id ::ₘ channels) memory :=
  h.call _ (fun _ _ hlog => by rw [openChannels, hlog, Multiset.cons_add]) fun _ _ hlog => hlog

theorem closeChannel {id : Nat} (h : Acquired start calls (id ::ₘ channels) memory) :
    Acquired start (.closeChannel id :: calls) channels memory :=
  h.call _
    (fun _ _ hlog => by rw [openChannels, hlog, Multiset.cons_add, Multiset.erase_cons_head])
    fun _ _ hlog => hlog

theorem allocate (h : Acquired start calls channels memory) (source size : Nat) (m : Memory) :
    Acquired start (.allocate source size (.ok m) :: calls) channels (m.tag source ::ₘ memory) :=
  h.call _ (fun _ _ hlog => hlog) fun _ _ hlog => by rw [liveMemory, hlog, Multiset.cons_add]

theorem free {source : Nat} {m : Memory}
    (h : Acquired start calls channels (m.tag source ::ₘ memory)) :
    Acquired start (.free source m :: calls) channels memory :=
  h.call _ (fun _ _ hlog => hlog)
    fun _ _ hlog => by rw [liveMemory, hlog, Multiset.cons_add, Multiset.erase_cons_head]

theorem freeEach (source : MemorySource σ) {id : Nat} (bs : List DeviceBuffer) (l : Logged σ)
    (h : Acquired start l.calls channels (↑(bs.map fun b => b.memory.tag id) + memory)) :
    let l' := bs.foldl (fun l b => (source.logged id).free b.memory l) l
    Acquired start l'.calls channels memory ∧ sentMessages l'.calls = sentMessages l.calls := by
  induction bs generalizing l with
  | nil =>
    simp only [List.map_nil, Multiset.coe_nil, zero_add] at h
    exact ⟨h, rfl⟩
  | cons b bs ih =>
    simp only [List.map_cons, ← Multiset.cons_coe, Multiset.cons_add] at h
    exact ih _ h.free

end Acquired

end VideoAccel
