import VideoAccel.Format
import VideoAccel.Fault

namespace VideoAccel

inductive RegionId
  | strmdRow
  | transdRow
  | transdCol
  | transdColUp
  | interRow
  | interCol
  | intraRow
  | dblkRow
  | saoRow
  | fbcRow
  | filtCol
  deriving DecidableEq, Repr

namespace RegionId

def index : RegionId → Nat
  | .strmdRow => 0
  | .transdRow => 1
  | .transdCol => 2
  | .transdColUp => 3
  | .interRow => 4
  | .interCol => 5
  | .intraRow => 6
  | .dblkRow => 7
  | .saoRow => 8
  | .fbcRow => 9
  | .filtCol => 10

def all : List RegionId :=
  [.strmdRow, .transdRow, .transdCol, .transdColUp, .interRow, .interCol, .intraRow, .dblkRow,
    .saoRow, .fbcRow, .filtCol]

def ofIndex? (i : Nat) : Option RegionId := all[i]?

theorem ofIndex?_index (id : RegionId) : ofIndex? id.index = some id := by
  cases id <;> rfl

def name : RegionId → String
  | .strmdRow => "StrmdRow"
  | .transdRow => "TransdRow"
  | .transdCol => "TransdCol"
  | .transdColUp => "TransdColUp"
  | .interRow => "InterRow"
  | .interCol => "InterCol"
  | .intraRow => "IntraRow"
  | .dblkRow => "DblkRow"
  | .saoRow => "SaoRow"
  | .fbcRow => "FbcRow"
  | .filtCol => "FiltCol"

end RegionId

inductive Axis
  | row
  | column
  deriving DecidableEq, Repr

structure RegionFormula where
  id : RegionId
  axis : Axis
  /-- Samples that share `bytesPerUnit` bytes. -/
  unit : Nat
  bytesPerUnit : Nat
  /-- The bytes hold samples, so they grow with bit depth and chroma format. -/
  scaled : Bool := false
  /-- The region follows the previous one without starting a page. -/
  packed : Bool := false
  deriving DecidableEq, Repr

/-- What a layout depends on. -/
structure LayoutKey where
  resolution : Resolution
  bitDepth : UInt8 := 8
  chroma : ChromaFormat := .yuv420
  pipelineDepth : Nat := 1
  deriving DecidableEq, Repr

structure Region where
  offset : Nat
  size : Nat
  deriving DecidableEq, Repr

structure AuxLayout where
  /-- In the order of the identifiers, each at most once. -/
  regions : List (RegionId × Region) := []
  totalSize : Nat := 0
  deriving DecidableEq, Repr

def dmaAlignment : Nat := 64

def pageAlignment : Nat := 4096

namespace RegionFormula

def alignment (f : RegionFormula) : Nat := if f.packed then dmaAlignment else pageAlignment

def dimension (f : RegionFormula) (r : Resolution) : Nat :=
  match f.axis with
  | .row => r.width
  | .column => r.height

def baseSize (f : RegionFormula) (r : Resolution) : Nat :=
  ceilDiv (f.dimension r) f.unit * f.bytesPerUnit

def scaledSize (bytes : Nat) (bitDepth : UInt8) (chroma : ChromaFormat) : Nat :=
  ceilDiv (ceilDiv (bytes * bitDepth.toNat) 8 * chroma.sampleRatio.1) chroma.sampleRatio.2

def size (f : RegionFormula) (key : LayoutKey) : Nat :=
  let bytes := f.baseSize key.resolution
  alignUp (if f.scaled then scaledSize bytes key.bitDepth key.chroma else bytes) dmaAlignment

end RegionFormula

def insertSorted {α : Type} (le : α → α → Bool) (a : α) : List α → List α
  | [] => [a]
  | b :: rest => if le a b then a :: b :: rest else b :: insertSorted le a rest

def sortBy {α : Type} (le : α → α → Bool) (l : List α) : List α := l.foldr (insertSorted le) []

namespace AuxLayout

def place (key : LayoutKey) : Nat → List RegionFormula → List (RegionId × Region)
  | _, [] => []
  | start, f :: fs =>
    let region : Region := ⟨alignUp start f.alignment, f.size key⟩
    (f.id, region) :: place key (region.offset + region.size) fs

def lastOfEach : List (RegionId × Region) → List (RegionId × Region)
  | [] => []
  | [a] => [a]
  | a :: b :: rest => if a.1 = b.1 then lastOfEach (b :: rest) else a :: lastOfEach (b :: rest)

def extent (placed : List (RegionId × Region)) : Nat :=
  match placed.getLast? with
  | none => 0
  | some (_, region) => region.offset + region.size

def compute (formulas : List RegionFormula) (key : LayoutKey) : AuxLayout :=
  let placed := place key 0 (sortBy (fun f g => f.id.index ≤ g.id.index) formulas)
  { regions := lastOfEach placed, totalSize := alignUp (extent placed) pageAlignment }

/-- The layout of formulas that may have a zero unit. -/
def compute? (formulas : List RegionFormula) (key : LayoutKey) : Except Fault AuxLayout :=
  if formulas.all fun f => f.unit != 0 then .ok (compute formulas key) else .error .divisionByZero

theorem compute?_of_units {formulas : List RegionFormula} (h : ∀ f ∈ formulas, f.unit ≠ 0)
    (key : LayoutKey) : compute? formulas key = .ok (compute formulas key) :=
  if_pos (List.all_eq_true.2 fun f hf => bne_iff_ne.2 (h f hf))

def region? (layout : AuxLayout) (id : RegionId) : Option Region := layout.regions.lookup id

end AuxLayout

end VideoAccel
