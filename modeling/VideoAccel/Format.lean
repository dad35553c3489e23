import VideoAccel.Rounding

namespace VideoAccel

structure Resolution where
  width : Nat := 0
  height : Nat := 0
  deriving DecidableEq, Repr, Inhabited

namespace Resolution

def canContain (r other : Resolution) : Bool :=
  other.width ≤ r.width && other.height ≤ r.height

def blocks (r : Resolution) (side : Nat) : Nat × Nat :=
  (ceilDiv r.width side, ceilDiv r.height side)

def blocks? (r : Resolution) (side : Nat) : Option (Nat × Nat) :=
  if side = 0 then none else some (r.blocks side)

def text (r : Resolution) : String :=
  toString r.width ++ "x" ++ toString r.height

end Resolution

inductive ChromaFormat
  | monochrome
  | yuv420
  | yuv422
  | yuv444
  deriving DecidableEq, Repr

namespace ChromaFormat

instance : Inhabited ChromaFormat := ⟨.yuv420⟩

def code : ChromaFormat → Nat
  | .monochrome => 0
  | .yuv420 => 1
  | .yuv422 => 2
  | .yuv444 => 3

def ofCode? : Nat → Option ChromaFormat
  | 0 => some .monochrome
  | 1 => some .yuv420
  | 2 => some .yuv422
  | 3 => some .yuv444
  | _ => none

def sampleRatio : ChromaFormat → Nat × Nat
  | .monochrome => (1, 1)
  | .yuv420 => (3, 2)
  | .yuv422 => (2, 1)
  | .yuv444 => (3, 1)

def name : ChromaFormat → String
  | .monochrome => "Monochrome"
  | .yuv420 => "Yuv420"
  | .yuv422 => "Yuv422"
  | .yuv444 => "Yuv444"

end ChromaFormat

/-- The two coding standards the hardware decodes. -/
inductive CodingStandard
  | avc
  | hevc
  deriving DecidableEq, Repr

namespace CodingStandard

def text : CodingStandard → String
  | .avc => "h264"
  | .hevc => "h265"

def code : CodingStandard → Nat
  | .avc => 7
  | .hevc => 16777220

def ofCode? (n : Nat) : Option CodingStandard :=
  if n = 7 then some .avc else if n = 16777220 then some .hevc else none

def ofText? : String → Option CodingStandard
  | "h264" | "H264" | "avc" => some .avc
  | "h265" | "H265" | "hevc" => some .hevc
  | _ => none

def unrecognized : String := "unrecognized coding standard. Valid values: h264, h265"

end CodingStandard

end VideoAccel
