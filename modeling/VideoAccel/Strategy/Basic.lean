import VideoAccel.Emission
import VideoAccel.Hardware

namespace VideoAccel

inductive GenerationStep
  | parameters
  | references
  | tables
  | addresses
  | geometry
  deriving DecidableEq, Repr

/-- The steps in the order in which a task goes through them. -/
def GenerationStep.all : List GenerationStep :=
  [.parameters, .references, .tables, .addresses, .geometry]

def GenerationStep.name : GenerationStep → String
  | .parameters => "parameters"
  | .references => "references"
  | .tables => "tables"
  | .addresses => "addresses"
  | .geometry => "geometry"

structure Strategy (Pic : Type) where
  standard : CodingStandard
  generation : Generation
  format : Pic → Except Fault PictureFormat
  referenceSlots : Pic → List (Option Nat)
  /-- The regions of auxiliary memory. -/
  regions : List RegionFormula := []
  scratchPolicy : Option ScratchPolicy := none
  /-- The size of a motion vector store, if the hardware uses any. -/
  motionStoreSize : Pic → Option Nat := fun _ => none
  /-- What a step does, for a table buffer of the given size. -/
  step : GenerationStep → Pic → Binding → Nat → StepResult

def Emission.runStep {Pic : Type} (e : Emission) (strategy : Strategy Pic) (picture : Pic)
    (bind : Binding) (step : GenerationStep) : Except StepError Unit × Emission :=
  e.run (strategy.step step picture bind e.tables.size)

def Emission.runSteps {Pic : Type} (strategy : Strategy Pic) (picture : Pic) (bind : Binding) :
    List GenerationStep → Emission → Except StepError Unit × Emission
  | [], e => (.ok (), e)
  | step :: rest, e =>
    match e.runStep strategy picture bind step with
    | (.error failure, e) => (.error failure, e)
    | (.ok (), e) => runSteps strategy picture bind rest e

end VideoAccel
