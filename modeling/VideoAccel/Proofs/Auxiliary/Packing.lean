import VideoAccel.Proofs.Auxiliary.Layout

namespace VideoAccel

/-- The bytes that a formula asks for, by quotients of rational numbers. -/
def RegionFormula.bytes (f : RegionFormula) (key : LayoutKey) : Nat :=
  let base := ⌈(f.dimension key.resolution : ℚ) / f.unit⌉₊ * f.bytesPerUnit
  let deep := ⌈((base * key.bitDepth.toNat : Nat) : ℚ) / (8 : Nat)⌉₊
  if f.scaled then
    ⌈((deep * key.chroma.sampleRatio.1 : Nat) : ℚ) / key.chroma.sampleRatio.2⌉₊
  else base

namespace AuxLayout

variable {key : LayoutKey} {formulas formulas' : List RegionFormula} {start : Nat}

end AuxLayout

end VideoAccel
