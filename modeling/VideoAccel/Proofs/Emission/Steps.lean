import VideoAccel.Strategy.Basic

namespace VideoAccel

/-- The register write of an edit, if it is one. -/
def Edit.write? : Edit → Option RegisterWrite
  | .register w => some w
  | _ => none

namespace Emission

variable {Pic : Type}

@[simp]
theorem apply_tables_handle (e : Emission) (edit : Edit) :
    (e.apply edit).tables.handle = e.tables.handle := by
  cases edit <;> rfl

@[simp]
theorem apply_tables_size (e : Emission) (edit : Edit) :
    (e.apply edit).tables.size = e.tables.size := by
  cases edit <;> rfl

@[simp]
theorem applyAll_tables_handle (e : Emission) (edits : List Edit) :
    (e.applyAll edits).tables.handle = e.tables.handle := by
  induction edits generalizing e with
  | nil => rfl
  | cons edit edits ih => exact (ih _).trans (apply_tables_handle e edit)

@[simp]
theorem applyAll_tables_size (e : Emission) (edits : List Edit) :
    (e.applyAll edits).tables.size = e.tables.size := by
  induction edits generalizing e with
  | nil => rfl
  | cons edit edits ih => exact (ih _).trans (apply_tables_size e edit)

theorem applyAll_append (e : Emission) (edits edits' : List Edit) :
    e.applyAll (edits ++ edits') = (e.applyAll edits).applyAll edits' :=
  List.foldl_append

theorem apply_image (e : Emission) (edit : Edit) :
    (e.apply edit).image = e.image.writeAll edit.write?.toList := by
  cases edit <;> rfl

theorem applyAll_image (e : Emission) (edits : List Edit) :
    (e.applyAll edits).image = e.image.writeAll (edits.filterMap Edit.write?) := by
  induction edits generalizing e with
  | nil => rfl
  | cons edit edits ih =>
    have happly := ih (e.apply edit)
    rw [apply_image] at happly
    cases edit <;> exact happly

theorem mem_applyAll_patches (e : Emission) (edits : List Edit) (p : AddressOffset) :
    p ∈ (e.applyAll edits).patches ↔ p ∈ e.patches ∨ .patch p ∈ edits := by
  induction edits generalizing e with
  | nil => simp [applyAll]
  | cons edit edits ih =>
    refine (ih (e.apply edit)).trans ?_
    cases edit <;> simp [apply, or_assoc]

theorem run_cases (e : Emission) (r : StepResult) :
    (e.run r).2 = e.applyAll r.edits ∨ (e.run r).2 = e := by
  simp only [run]
  split
  · split <;> exact .inl rfl
  · exact .inr rfl

theorem run_ok {e e' : Emission} {r : StepResult} (h : e.run r = (.ok (), e')) :
    e' = e.applyAll r.edits := by
  simp only [run] at h
  split at h
  · split at h
    · exact (Prod.mk.inj h).2.symm
    · cases h
  · cases h

theorem runSteps_tables (strategy : Strategy Pic) (picture : Pic) (bind : Binding)
    (steps : List GenerationStep) (e : Emission) :
    (runSteps strategy picture bind steps e).2.tables.handle = e.tables.handle ∧
      (runSteps strategy picture bind steps e).2.tables.size = e.tables.size := by
  induction steps generalizing e with
  | nil => exact ⟨rfl, rfl⟩
  | cons step steps ih =>
    have hstep : (e.runStep strategy picture bind step).2.tables.handle = e.tables.handle ∧
        (e.runStep strategy picture bind step).2.tables.size = e.tables.size := by
      obtain h | h := run_cases e (strategy.step step picture bind e.tables.size) <;>
        simp [runStep, h]
    simp only [runSteps]
    split <;> rename_i hr <;> rw [hr] at hstep
    · exact hstep
    · exact ⟨(ih _).1.trans hstep.1, (ih _).2.trans hstep.2⟩

def stepEdits (strategy : Strategy Pic) (picture : Pic) (bind : Binding) (size : Nat)
    (steps : List GenerationStep) : List Edit :=
  steps.flatMap fun step => (strategy.step step picture bind size).edits

theorem runSteps_ok {strategy : Strategy Pic} {picture : Pic} {bind : Binding}
    {steps : List GenerationStep} {e e' : Emission}
    (h : runSteps strategy picture bind steps e = (.ok (), e')) :
    e' = e.applyAll (stepEdits strategy picture bind e.tables.size steps) := by
  induction steps generalizing e with
  | nil => exact (Prod.mk.inj h).2.symm
  | cons step steps ih =>
    simp only [runSteps] at h
    split at h
    · cases h
    · rename_i e₁ hr
      have hfirst := run_ok hr
      have hrest := ih h
      rw [hfirst, applyAll_tables_size] at hrest
      rw [hrest, ← applyAll_append]
      rfl

/-- In a run without a failure no step fails, and what it stores lies inside the table buffer. -/
theorem of_runSteps_ok {strategy : Strategy Pic} {picture : Pic} {bind : Binding}
    {steps : List GenerationStep} {e e' : Emission}
    (h : runSteps strategy picture bind steps e = (.ok (), e')) {step : GenerationStep}
    (hstep : step ∈ steps) :
    (strategy.step step picture bind e.tables.size).failure = none ∧
      ∀ offset bytes, .table offset bytes ∈ (strategy.step step picture bind e.tables.size).edits →
        offset + bytes.length ≤ e.tables.size := by
  induction steps generalizing e with
  | nil => cases hstep
  | cons first steps ih =>
    simp only [runSteps] at h
    split at h
    · cases h
    · rename_i e₁ hr
      obtain rfl | hstep := List.mem_cons.1 hstep
      · simp only [runStep, run] at hr
        split at hr
        · rename_i hfits
          refine ⟨?_, fun offset bytes hmem => ?_⟩
          · split at hr
            · assumption
            · cases hr
          · simpa [fits] using List.all_eq_true.1 hfits _ hmem
        · cases hr
      · have hrest := ih h hstep
        rwa [run_ok hr, applyAll_tables_size] at hrest

end Emission

end VideoAccel
