import VideoAccel.Hardware

namespace VideoAccel

structure Accelerator where
  name : String
  standard : CodingStandard
  generation : Generation
  client : Client
  socs : List Soc
  deriving DecidableEq, Repr

namespace Accelerator

def rkvAvc : Accelerator :=
  { name := "rkv-h264", standard := .avc, generation := .rkv, client := .rkvDec
    socs := [.rk3328, .rk3399, .rk3588] }

def rkvHevc : Accelerator :=
  { name := "rkv-h265", standard := .hevc, generation := .rkv, client := .hevcDec
    socs := [.rk3288, .rk3328, .rk3399, .rk3588] }

def vdpu34xAvc : Accelerator :=
  { name := "vdpu34x-h264", standard := .avc, generation := .vdpu34x, client := .rkvDec
    socs := [.rk3568, .rk3588] }

def vdpu34xHevc : Accelerator :=
  { name := "vdpu34x-h265", standard := .hevc, generation := .vdpu34x, client := .rkvDec
    socs := [.rk3568, .rk3588] }

def builtin : List Accelerator := [vdpu34xAvc, rkvAvc, vdpu34xHevc, rkvHevc]

def ofName? (name : String) : Option Accelerator := builtin.find? fun a => a.name == name

end Accelerator

inductive RegisterError
  | socNotSupported (name : String) (soc : Soc)
  | standardFull (standard : CodingStandard)
  deriving DecidableEq, Repr

def RegisterError.name : RegisterError → String
  | .socNotSupported .. => "SocNotSupported"
  | .standardFull _ => "StandardFull"

def RegisterError.message : RegisterError → String
  | .socNotSupported name soc => name ++ " does not run on " ++ soc.name
  | .standardFull standard => standard.text ++ " already has the maximum number of descriptors"

structure Registry where
  soc : Soc
  /-- In the order of registration. -/
  accelerators : List Accelerator := []
  deriving DecidableEq, Repr

def maxPerStandard : Nat := 2

namespace Registry

def ofStandard (r : Registry) (standard : CodingStandard) : List Accelerator :=
  r.accelerators.filter fun a => a.standard == standard

def register (r : Registry) (a : Accelerator) : Except RegisterError Registry :=
  if !a.socs.contains r.soc then .error (.socNotSupported a.name r.soc)
  else if maxPerStandard ≤ (r.ofStandard a.standard).length then .error (.standardFull a.standard)
  else .ok { r with accelerators := r.accelerators ++ [a] }

/-- Registers each accelerator in turn. Those that are refused are left out. -/
def registerEach (r : Registry) : List Accelerator → List (Except RegisterError Unit) × Registry
  | [] => ([], r)
  | a :: rest =>
    match r.register a with
    | .error e =>
      let (results, final) := r.registerEach rest
      (.error e :: results, final)
    | .ok next =>
      let (results, final) := next.registerEach rest
      (.ok () :: results, final)

def withBuiltin (soc : Soc) : Registry :=
  (({ soc } : Registry).registerEach Accelerator.builtin).2

def priority : List Generation := [.vdpu34x, .rkv]

def generationOrder (forced : Option Generation) : List Generation :=
  forced.toList ++ priority.filter fun g => some g != forced

/-- The accelerators of a standard that the capabilities admit, in the order of trying. -/
def candidates (r : Registry) (standard : CodingStandard) (forced : Option Generation)
    (caps : Capabilities) : List Accelerator :=
  ((generationOrder forced).filter caps.supports).flatMap fun g =>
    (r.ofStandard standard).filter fun a => a.generation == g

end Registry

inductive OpenError
  | unsupportedCoding (standard : CodingStandard)
  | initFailed (standard : CodingStandard) (tried : List String)
  deriving DecidableEq, Repr

def OpenError.name : OpenError → String
  | .unsupportedCoding _ => "UnsupportedCoding"
  | .initFailed .. => "InitFailed"

def quotedList (names : List String) : String :=
  "[" ++ ", ".intercalate (names.map fun n => "\"" ++ n ++ "\"") ++ "]"

def OpenError.message : OpenError → String
  | .unsupportedCoding standard => "no accelerator decodes " ++ standard.text ++ " on this system"
  | .initFailed standard tried =>
    "every " ++ standard.text ++ " accelerator failed to initialize (tried " ++ quotedList tried
      ++ ")"

end VideoAccel
