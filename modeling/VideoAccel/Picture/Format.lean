import VideoAccel.Format
import VideoAccel.Fault

namespace VideoAccel

structure PictureFormat where
  resolution : Resolution
  bitDepth : UInt8
  chroma : ChromaFormat
  deriving DecidableEq, Repr

def bitDepthOf (lumaMinus8 chromaMinus8 : UInt8) : Except Fault UInt8 :=
  let larger := max lumaMinus8 chromaMinus8
  if larger.toNat + 8 < 256 then .ok (larger + 8) else .error .overflow

def chromaOfCode (code : UInt8) : ChromaFormat := (ChromaFormat.ofCode? code.toNat).getD .yuv420

end VideoAccel
