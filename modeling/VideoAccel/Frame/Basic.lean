import VideoAccel.Format

namespace VideoAccel

inductive FrameLayout
  | raster
  | compressed
  deriving DecidableEq, Repr

def FrameLayout.name : FrameLayout → String
  | .raster => "Raster"
  | .compressed => "Compressed"

inductive Thumbnail
  | none
  | downscale
  deriving DecidableEq, Repr

def Thumbnail.name : Thumbnail → String
  | .none => "None"
  | .downscale => "Downscale"

inductive AlignmentClass
  | align16
  | odd256
  | align64
  deriving DecidableEq, Repr

namespace AlignmentClass

def name : AlignmentClass → String
  | .align16 => "Align16"
  | .odd256 => "Odd256"
  | .align64 => "Align64"

/-- The stride of a row of `width` bytes: a multiple of 16 or 64, or an odd multiple of 256. -/
def stride (c : AlignmentClass) (width : Nat) : Nat :=
  match c with
  | .align16 => alignUp width 16
  | .odd256 => alignUp width 256 ||| 256
  | .align64 => alignUp width 64

end AlignmentClass

structure Frame where
  handle : UInt32 := 0
  resolution : Resolution := {}
  horStride : Nat := 0
  verStride : Nat := 0
  bitDepth : UInt8 := 8
  chroma : ChromaFormat := .yuv420
  layout : FrameLayout := .raster
  thumbnail : Thumbnail := .none
  deriving DecidableEq, Repr

namespace Frame

def lumaSize (f : Frame) : Nat := f.horStride * f.verStride

def pictureSize (f : Frame) : Nat :=
  f.lumaSize * f.chroma.sampleRatio.1 / f.chroma.sampleRatio.2

def bytesPerSample (f : Frame) : Nat := if 8 < f.bitDepth then 2 else 1

/-- The frame with the strides that an alignment class gives it. -/
def aligned (f : Frame) (c : AlignmentClass) : Frame :=
  { f with
    horStride := c.stride (f.resolution.width * f.bytesPerSample)
    verStride := alignUp f.resolution.height 16 }

end Frame

structure Packet where
  handle : UInt32 := 0
  capacity : Nat := 0
  deriving DecidableEq, Repr

end VideoAccel
