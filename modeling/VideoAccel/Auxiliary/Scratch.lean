import VideoAccel.Auxiliary.Layout

namespace VideoAccel

inductive ScratchPolicy
  /-- The regions of the list in order, up to the first one that does not fit. -/
  | priority (order : List RegionId)
  /-- By decreasing size, leaving out those that do not fit. -/
  | largestFirst
  deriving DecidableEq, Repr

/-- Regions chosen for scratch memory, each with its offset there. -/
abbrev ScratchChoice := List (RegionId × Nat)

namespace ScratchPolicy

def takeInOrder (layout : AuxLayout) (capacity : Nat) : Nat → List RegionId → ScratchChoice
  | _, [] => []
  | used, id :: rest =>
    match layout.region? id with
    | none => takeInOrder layout capacity used rest
    | some region =>
      if capacity < used + region.size then []
      else (id, used) :: takeInOrder layout capacity (used + region.size) rest

def takeFitting (capacity : Nat) : Nat → List (RegionId × Region) → ScratchChoice
  | _, [] => []
  | used, (id, region) :: rest =>
    if used + region.size ≤ capacity then
      (id, used) :: takeFitting capacity (used + region.size) rest
    else takeFitting capacity used rest

def larger (a b : RegionId × Region) : Bool :=
  b.2.size < a.2.size || (a.2.size == b.2.size && a.1.index ≤ b.1.index)

def select (policy : ScratchPolicy) (layout : AuxLayout) (capacity : Nat) : ScratchChoice :=
  match policy with
  | .priority order => takeInOrder layout capacity 0 order
  | .largestFirst => takeFitting capacity 0 (sortBy larger layout.regions)

end ScratchPolicy

end VideoAccel
