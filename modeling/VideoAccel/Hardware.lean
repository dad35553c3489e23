import VideoAccel.Format

namespace VideoAccel

inductive Generation
  | rkv
  | vdpu34x
  deriving DecidableEq, Repr

inductive Family
  | rkvdec
  | rkvdec2
  deriving DecidableEq, Repr

def Family.name : Family → String
  | .rkvdec => "Rkvdec"
  | .rkvdec2 => "Rkvdec2"

/-- A set of generations, one bit each. -/
structure Capabilities where
  bits : Nat := 0
  deriving DecidableEq, Repr

namespace Generation

def text : Generation → String
  | .rkv => "rkv"
  | .vdpu34x => "vdpu34x"

def code : Generation → Nat
  | .rkv => 0
  | .vdpu34x => 1

def ofCode? : Nat → Option Generation
  | 0 => some .rkv
  | 1 => some .vdpu34x
  | _ => none

def ofText? : String → Option Generation
  | "rkv" | "rkvdec" => some .rkv
  | "vdpu34x" | "rkvdec2" => some .vdpu34x
  | _ => none

def unrecognized : String := "unrecognized hardware generation. Valid values: rkv, vdpu34x"

def family : Generation → Family
  | .rkv => .rkvdec
  | .vdpu34x => .rkvdec2

def caps (g : Generation) : Capabilities := ⟨Nat.pow 2 g.code⟩

end Generation

namespace Capabilities

def supports (c : Capabilities) (g : Generation) : Bool := c.bits.testBit g.code

def union (a b : Capabilities) : Capabilities := ⟨a.bits ||| b.bits⟩

end Capabilities

inductive Soc
  | rk3288
  | rk3328
  | rk3399
  | rk3568
  | rk3588
  deriving DecidableEq, Repr

namespace Soc

def caps : Soc → Capabilities
  | .rk3288 | .rk3328 | .rk3399 => Generation.rkv.caps
  | .rk3568 => Generation.vdpu34x.caps
  | .rk3588 => Generation.rkv.caps.union Generation.vdpu34x.caps

def name : Soc → String
  | .rk3288 => "Rk3288"
  | .rk3328 => "Rk3328"
  | .rk3399 => "Rk3399"
  | .rk3568 => "Rk3568"
  | .rk3588 => "Rk3588"

end Soc

/-- What a channel attaches to in the decoder service. -/
inductive Client
  | hevcDec
  | rkvDec
  deriving DecidableEq, Repr

namespace Client

def code : Client → Nat
  | .hevcDec => 8
  | .rkvDec => 9

def ofCode? : Nat → Option Client
  | 8 => some .hevcDec
  | 9 => some .rkvDec
  | _ => none

def name : Client → String
  | .hevcDec => "HevcDec"
  | .rkvDec => "RkvDec"

end Client

structure Config where
  bitDepthOverride : Option UInt8 := none
  errorTolerance : Bool := false
  forcedGeneration : Option Generation := none
  fastMode : Bool := false
  deriving DecidableEq, Repr

/-- Register sets of a backend: one task at a time, or three in fast mode. -/
def Config.pipelineDepth (c : Config) : Nat := if c.fastMode then 3 else 1

end VideoAccel
