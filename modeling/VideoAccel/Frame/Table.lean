import VideoAccel.AddressSpace
import VideoAccel.Frame.Basic

namespace VideoAccel

/-- A finite map from slot numbers. Inserting takes an older entry of the slot out. -/
structure SlotMap (α : Type) where
  entries : List (Nat × α) := []
  deriving DecidableEq, Repr

namespace SlotMap

variable {α : Type}

def find? (m : SlotMap α) (slot : Nat) : Option α := m.entries.lookup slot

def erase (m : SlotMap α) (slot : Nat) : SlotMap α :=
  ⟨m.entries.filter fun e => e.1 != slot⟩

def insert (m : SlotMap α) (slot : Nat) (a : α) : SlotMap α :=
  ⟨(slot, a) :: (m.erase slot).entries⟩

def size (m : SlotMap α) : Nat := m.entries.length

end SlotMap

def frameEntryBytes : Nat := 32

def packetEntryBytes : Nat := 24

structure FrameTable where
  frames : SlotMap Frame := {}
  packets : SlotMap Packet := {}
  alignment : AlignmentClass := .align16
  deriving DecidableEq, Repr

namespace FrameTable

def insertFrame (t : FrameTable) (slot : Nat) (f : Frame) : FrameTable :=
  { t with frames := t.frames.insert slot (f.aligned t.alignment) }

def insertFrame? (t : FrameTable) (slot : Nat) (f : Frame) : Option FrameTable :=
  if isAddressable (slot + 1) frameEntryBytes then some (t.insertFrame slot f) else none

def removeFrame (t : FrameTable) (slot : Nat) : FrameTable :=
  { t with frames := t.frames.erase slot }

def insertPacket (t : FrameTable) (slot : Nat) (p : Packet) : FrameTable :=
  { t with packets := t.packets.insert slot p }

def insertPacket? (t : FrameTable) (slot : Nat) (p : Packet) : Option FrameTable :=
  if isAddressable (slot + 1) packetEntryBytes then some (t.insertPacket slot p) else none

def frame? (t : FrameTable) (slot : Nat) : Option Frame := t.frames.find? slot

def packet? (t : FrameTable) (slot : Nat) : Option Packet := t.packets.find? slot

def frameCount (t : FrameTable) : Nat := t.frames.size

def withAlignment (t : FrameTable) (c : AlignmentClass) : FrameTable := { t with alignment := c }

end FrameTable

end VideoAccel
