import VideoAccel.Auxiliary.Layout
import VideoAccel.Memory.Group

namespace VideoAccel

structure AuxBuffers where
  key : Option LayoutKey := none
  layout : Option AuxLayout := none
  buffers : List DeviceBuffer := []
  /-- Buffers ever obtained. -/
  allocations : Nat := 0
  deriving DecidableEq, Repr

namespace AuxBuffers

variable {σ : Type}

def needsRefresh (a : AuxBuffers) (key : LayoutKey) : Bool := a.key != some key

/-- What a refresh leaves: whether anything changed, the buffers, and where they come from. -/
structure Refreshed (σ : Type) where
  result : Except AllocError Bool
  buffers : AuxBuffers
  group : BufferGroup
  state : σ

def obtain (source : MemorySource σ) (layout : AuxLayout) (key : LayoutKey) (a : AuxBuffers)
    (group : BufferGroup) (s : σ) : Refreshed σ :=
  let count := if 0 < layout.totalSize then max key.pipelineDepth 1 else 0
  match group.getMany source .auxiliary layout.totalSize count s with
  | (some e, got, group, s) =>
    ⟨.error e,
      { key := none, layout := none, buffers := got, allocations := a.allocations + got.length },
      group, s⟩
  | (none, got, group, s) =>
    ⟨.ok true,
      { key := some key, layout := some layout, buffers := got
        allocations := a.allocations + got.length },
      group, s⟩

/-- The buffers fit the key afterwards, or the error says why they do not. -/
def refresh (source : MemorySource σ) (formulas : List RegionFormula) (key : LayoutKey)
    (a : AuxBuffers) (group : BufferGroup) (s : σ) : Refreshed σ :=
  if a.needsRefresh key then
    match group.giveMany source a.buffers s with
    | (group, s) =>
      match AuxLayout.compute? formulas key with
      | .error f => ⟨.error (.fault f), { allocations := a.allocations }, group, s⟩
      | .ok layout => obtain source layout key a group s
  else ⟨.ok false, a, group, s⟩

/-- The buffer of a register set. A single buffer serves every one. -/
def buffer? (a : AuxBuffers) (slot : Nat) : Option DeviceBuffer :=
  match a.buffers with
  | [b] => some b
  | bs => bs[slot]?

end AuxBuffers

end VideoAccel
