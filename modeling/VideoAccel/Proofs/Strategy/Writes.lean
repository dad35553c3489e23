import VideoAccel.Proofs.Emission.Addresses
import VideoAccel.Proofs.Register.Fields
import VideoAccel.Proofs.Strategy.Footprint

namespace VideoAccel.Generation

variable {g : Generation} {picture : CodedPicture} {bind : Binding} {steps : List GenerationStep}
  {e e' : Emission}

def stepWrites (g : Generation) (picture : CodedPicture) (bind : Binding) (size : Nat)
    (steps : List GenerationStep) : List RegisterWrite :=
  (steps.flatMap fun step => (g.stepResult picture bind size step).edits).filterMap Edit.write?

theorem mem_stepWrites {size : Nat} {w : RegisterWrite} :
    w ∈ g.stepWrites picture bind size steps ↔
      ∃ step ∈ steps, .register w ∈ (g.stepResult picture bind size step).edits := by
  simp only [stepWrites, List.mem_filterMap, List.mem_flatMap]
  constructor
  · rintro ⟨edit, ⟨step, hstep, hedit⟩, hwrite⟩
    cases edit with
    | register w' =>
      cases hwrite
      exact ⟨step, hstep, hedit⟩
    | table | patch => cases hwrite
  · rintro ⟨step, hstep, hedit⟩
    exact ⟨_, ⟨step, hstep, hedit⟩, rfl⟩

theorem image_eq_of_runSteps (hrun : g.runSteps picture bind steps e = (.ok (), e')) :
    e'.image = e.image.writeAll (g.stepWrites picture bind e.tables.size steps) := by
  rw [runSteps_ok hrun, Emission.applyAll_image]
  rfl

theorem image_of_runSteps (himage : e.image = g.blankImage)
    (hrun : g.runSteps picture bind steps e = (.ok (), e')) :
    e'.image = g.blankImage.writeAll (g.stepWrites picture bind e.tables.size steps) := by
  rw [image_eq_of_runSteps hrun, himage]

theorem ofZone_of_mem {size : Nat} {w : RegisterWrite} {z : RegisterZone}
    (hw : w ∈ g.stepWrites picture bind size steps) (hzone : g.InZone z w.reg) :
    ∃ step ∈ steps, .register w ∈ (g.stepResult picture bind size step).edits ∧
      (Edit.register w).OfZone g picture bind step z := by
  obtain ⟨step, hstep, hedit⟩ := mem_stepWrites.1 hw
  exact ⟨step, hstep, hedit, (g.made_of_mem picture bind size step _ hedit).ofZone rfl hzone⟩

theorem isSome_get?_blankImage {z : RegisterZone} {reg : Nat} (h : g.InZone z reg) :
    (g.blankImage.get? reg).isSome = true := by
  have hall : ∀ range ∈ g.zone z, ∀ reg < range.2 + 1, range.1 ≤ reg →
      (g.blankImage.get? reg).isSome = true := by
    cases g <;> cases z <;> decide +kernel
  obtain ⟨range, hrange, hfirst, hlast⟩ := h
  exact hall range hrange reg (Nat.lt_succ_of_le hlast) hfirst

/-- A register of a zone holds a word if that is all that is ever written there. -/
theorem get?_of_written {z : RegisterZone} {reg : Nat} {value : UInt32}
    (himage : e.image = g.blankImage) (hrun : g.runSteps picture bind steps e = (.ok (), e'))
    (hzone : g.InZone z reg)
    (h : ∀ w ∈ g.stepWrites picture bind e.tables.size steps, w.reg = reg →
      w = .word reg value)
    (hwritten : .word reg value ∈ g.stepWrites picture bind e.tables.size steps) :
    e'.image.get? reg = some value := by
  have hexists := isSome_get?_blankImage hzone
  rw [image_of_runSteps himage hrun]
  rw [← RegisterImage.isSome_get?_writeAll _ (g.stepWrites picture bind e.tables.size steps)]
    at hexists
  obtain ⟨v, hv⟩ := Option.isSome_iff_exists.1 hexists
  rw [hv, RegisterImage.get?_writeAll_of_written (· = value) _ _ reg (fun w hw hreg => ?_)
    ⟨_, hwritten, rfl⟩ hv]
  rw [h w hw hreg]
  exact ⟨rfl, rfl⟩

theorem get?_of_unwritten {z : RegisterZone} {reg : Nat} (himage : e.image = g.blankImage)
    (hrun : g.runSteps picture bind steps e = (.ok (), e')) (hzone : g.InZone z reg)
    (h : ∀ w ∈ g.stepWrites picture bind e.tables.size steps, w.reg ≠ reg) :
    e'.image.get? reg = some 0 := by
  obtain ⟨v, hv⟩ := Option.isSome_iff_exists.1 (isSome_get?_blankImage hzone)
  rw [image_of_runSteps himage hrun, RegisterImage.get?_writeAll_of_forall_ne _ _ reg h, hv,
    get?_blankImage hv]

/-- On a blank image a bit is set only by a write that sets it. -/
theorem exists_of_bit?_true {reg b : Nat} (himage : e.image = g.blankImage)
    (hrun : g.runSteps picture bind steps e = (.ok (), e')) (hb : b < 32)
    (hshift : ∀ w ∈ g.stepWrites picture bind e.tables.size steps, w.reg = reg →
      w.field.shift < 32) (h : e'.image.bit? reg b = some true) :
    ∃ w ∈ g.stepWrites picture bind e.tables.size steps, w.bit? reg b = some true := by
  rw [image_of_runSteps himage hrun] at h
  obtain hwrite | hblank := RegisterImage.bit?_writeAll_cases _ hb hshift h
  · exact hwrite
  · obtain ⟨v, hv, hbit⟩ := Option.map_eq_some_iff.1 hblank
    rw [get?_blankImage hv, hasBit_eq _ hb] at hbit
    simp at hbit

end VideoAccel.Generation
