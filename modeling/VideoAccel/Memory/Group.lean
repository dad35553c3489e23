import VideoAccel.Memory.Buffer

namespace VideoAccel

structure BufferGroup where
  references : Nat := 1
  /-- Idle buffers in the order in which they came back. -/
  idle : List DeviceBuffer := []
  /-- Buffers handed out and not yet given back. -/
  outstanding : Nat := 0
  deriving DecidableEq, Repr

def takeIdle? (purpose : Purpose) (size : Nat) :
    List DeviceBuffer → Option (DeviceBuffer × List DeviceBuffer)
  | [] => none
  | b :: rest =>
    if b.purpose = purpose ∧ b.size = size then some (b, rest)
    else (takeIdle? purpose size rest).map fun (found, others) => (found, b :: others)

namespace BufferGroup

variable {σ : Type}

def isAlive (g : BufferGroup) : Bool := 0 < g.references

def get (source : MemorySource σ) (purpose : Purpose) (size : Nat) (g : BufferGroup) (s : σ) :
    Except AllocError DeviceBuffer × BufferGroup × σ :=
  if size = 0 then (.error .zeroSize, g, s)
  else
    match takeIdle? purpose size g.idle with
    | some (b, idle) => (.ok b, { g with idle, outstanding := g.outstanding + 1 }, s)
    | none =>
      match source.allocate size s with
      | (.error e, s) => (.error e, g, s)
      | (.ok memory, s) =>
        (.ok { memory, purpose }, { g with outstanding := g.outstanding + 1 }, s)

def getMany (source : MemorySource σ) (purpose : Purpose) (size : Nat) :
    Nat → BufferGroup → σ → Option AllocError × List DeviceBuffer × BufferGroup × σ
  | 0, g, s => (none, [], g, s)
  | count + 1, g, s =>
    match g.get source purpose size s with
    | (.error e, g, s) => (some e, [], g, s)
    | (.ok b, g, s) =>
      match getMany source purpose size count g s with
      | (e, bs, g, s) => (e, b :: bs, g, s)

def give (source : MemorySource σ) (b : DeviceBuffer) (g : BufferGroup) (s : σ) : BufferGroup × σ :=
  if g.isAlive then
    ({ g with
        idle := g.idle ++ [b.zeroed]
        outstanding := g.outstanding - 1 }, s)
  else (g, source.free b.memory s)

def giveMany (source : MemorySource σ) (bs : List DeviceBuffer) (g : BufferGroup) (s : σ) :
    BufferGroup × σ :=
  if g.isAlive then
    ({ g with
        idle := g.idle ++ bs.map DeviceBuffer.zeroed
        outstanding := g.outstanding - bs.length }, s)
  else (g, bs.foldl (fun s b => source.free b.memory s) s)

theorem giveMany_nil (source : MemorySource σ) (g : BufferGroup) (s : σ) :
    g.giveMany source [] s = (g, s) := by
  simp [giveMany]

theorem giveMany_cons (source : MemorySource σ) (b : DeviceBuffer) (bs : List DeviceBuffer)
    (g : BufferGroup) (s : σ) :
    g.giveMany source (b :: bs) s =
      (g.give source b s).1.giveMany source bs (g.give source b s).2 := by
  by_cases h : g.isAlive
  · have hg : (g.give source b s).1.isAlive := by
      simp only [give, h, if_true]
      exact h
    simp only [giveMany, h, hg, if_true]
    simp only [give, h, if_true, List.map_cons, List.length_cons, List.append_assoc,
      List.singleton_append, Nat.sub_sub, Nat.add_comm 1]
  · simp [giveMany, give, h]

def trim (source : MemorySource σ) (g : BufferGroup) (s : σ) : BufferGroup × σ :=
  ({ g with idle := [] }, g.idle.foldl (fun s b => source.free b.memory s) s)

def share (g : BufferGroup) : BufferGroup := { g with references := g.references + 1 }

def drop (source : MemorySource σ) (g : BufferGroup) (s : σ) : BufferGroup × σ :=
  let g := { g with references := g.references - 1 }
  if g.isAlive then (g, s) else g.trim source s

end BufferGroup

end VideoAccel
