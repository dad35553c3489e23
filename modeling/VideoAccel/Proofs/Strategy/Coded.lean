import VideoAccel.Picture.Coded
import VideoAccel.Proofs.Emission.Steps
import VideoAccel.Strategy.Generation

namespace VideoAccel.Generation

def stepResult (g : Generation) (picture : CodedPicture) (bind : Binding) (size : Nat)
    (step : GenerationStep) : StepResult :=
  match picture with
  | .avc p => g.avc.step step p bind size
  | .hevc p => g.hevc.step step p bind size

def runSteps (g : Generation) (picture : CodedPicture) (bind : Binding)
    (steps : List GenerationStep) (e : Emission) : Except StepError Unit × Emission :=
  match picture with
  | .avc p => Emission.runSteps g.avc p bind steps e
  | .hevc p => Emission.runSteps g.hevc p bind steps e

variable {g : Generation} {picture : CodedPicture} {bind : Binding}

theorem runSteps_cons (g : Generation) (picture : CodedPicture) (bind : Binding)
    (step : GenerationStep) (steps : List GenerationStep) (e : Emission) :
    g.runSteps picture bind (step :: steps) e =
      match e.run (g.stepResult picture bind e.tables.size step) with
      | (.error failure, e) => (.error failure, e)
      | (.ok (), e) => g.runSteps picture bind steps e := by
  cases picture <;> rfl

theorem runSteps_singleton (g : Generation) (picture : CodedPicture) (bind : Binding)
    (step : GenerationStep) (e : Emission) :
    g.runSteps picture bind [step] e = e.run (g.stepResult picture bind e.tables.size step) := by
  rw [runSteps_cons]
  rcases e.run (g.stepResult picture bind e.tables.size step) with ⟨_ | _, e'⟩
  · rfl
  · cases picture <;> rfl

theorem eq_ok_of_isOk {ε α β : Type} {r : Except ε α × β} (h : r.1.isOk = true) :
    ∃ a, r = (.ok a, r.2) := by
  obtain ⟨_ | a, b⟩ := r
  · cases h
  · exact ⟨a, rfl⟩

theorem exists_of_isOk {r : Except StepError Unit × Emission} (h : r.1.isOk = true) :
    ∃ e', r = (.ok (), e') := by
  obtain ⟨_, hok⟩ := eq_ok_of_isOk h
  exact ⟨_, hok⟩

theorem runSteps_ok {steps : List GenerationStep} {e e' : Emission}
    (h : g.runSteps picture bind steps e = (.ok (), e')) :
    e' = e.applyAll (steps.flatMap fun step =>
      (g.stepResult picture bind e.tables.size step).edits) := by
  cases picture <;> exact Emission.runSteps_ok h

theorem of_runSteps_ok {steps : List GenerationStep} {e e' : Emission}
    (h : g.runSteps picture bind steps e = (.ok (), e')) {step : GenerationStep}
    (hstep : step ∈ steps) :
    (g.stepResult picture bind e.tables.size step).failure = none ∧
      ∀ offset bytes, .table offset bytes ∈ (g.stepResult picture bind e.tables.size step).edits →
        offset + bytes.length ≤ e.tables.size := by
  cases picture <;> exact Emission.of_runSteps_ok h hstep

end VideoAccel.Generation
