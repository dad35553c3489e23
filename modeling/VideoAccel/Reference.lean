import VideoAccel.Frame.Table

namespace VideoAccel

structure ResolvedRef where
  frame : Frame
  slot : Nat
  valid : Bool
  deriving DecidableEq, Repr

def ownReference (table : FrameTable) (slot : Option Nat) : Option ResolvedRef :=
  match slot with
  | none => none
  | some slot => (table.frame? slot).map fun frame => ⟨frame, slot, true⟩

def nearestReference (own : List (Option ResolvedRef)) (i : Nat) : Option ResolvedRef :=
  ((own.take i).reverse ++ own.drop (i + 1)).findSome? id

def resolveReferences (slots : List (Option Nat)) (table : FrameTable) (output : Frame)
    (outputSlot : Nat) : List ResolvedRef :=
  let own := slots.map (ownReference table)
  own.mapIdx fun i entry =>
    match entry with
    | some r => r
    | none => { (nearestReference own i).getD ⟨output, outputSlot, false⟩ with valid := false }

theorem length_resolveReferences (slots : List (Option Nat)) (table : FrameTable) (output : Frame)
    (outputSlot : Nat) :
    (resolveReferences slots table output outputSlot).length = slots.length := by
  simp [resolveReferences]

end VideoAccel
