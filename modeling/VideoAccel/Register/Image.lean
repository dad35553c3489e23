import VideoAccel.Register.Block
import VideoAccel.Register.Checksum

namespace VideoAccel

structure RegisterImage where
  blocks : List RegisterBlock
  deriving DecidableEq, Repr

structure RegisterWrite where
  reg : Nat
  field : RegisterField := .word
  value : UInt32
  deriving DecidableEq, Repr

namespace RegisterWrite

def word (reg : Nat) (value : UInt32) : RegisterWrite := { reg, value }

def flag (reg shift : Nat) (value : Bool) : RegisterWrite :=
  { reg, field := .bit shift, value := if value then 1 else 0 }

end RegisterWrite

namespace RegisterImage

def contains (image : RegisterImage) (reg : Nat) : Bool :=
  image.blocks.any fun b => b.contains reg

def get? (image : RegisterImage) (reg : Nat) : Option UInt32 :=
  image.blocks.findSome? fun b => b.get? reg

def write (image : RegisterImage) (w : RegisterWrite) : RegisterImage :=
  ⟨image.blocks.map fun b => b.write w.reg w.field w.value⟩

def writeAll (image : RegisterImage) (ws : List RegisterWrite) : RegisterImage :=
  ws.foldl write image

def fits (image : RegisterImage) (w : RegisterWrite) : Bool :=
  image.contains w.reg && w.field.shift < 32

def writeAll? (image : RegisterImage) (ws : List RegisterWrite) : Option RegisterImage :=
  if ws.all image.fits then some (image.writeAll ws) else none

def words (image : RegisterImage) : List UInt32 :=
  image.blocks.flatMap fun b => b.words

def checksum (image : RegisterImage) : UInt32 := Checksum.ofWords image.words

end RegisterImage

end VideoAccel
