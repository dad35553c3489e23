import VideoAccel.Proofs.Emission.Steps
import VideoAccel.Proofs.Register.Image
import VideoAccel.Strategy.Generation

namespace VideoAccel

def Generation.purposeOf? (g : Generation) (reg : Nat) : Option Purpose :=
  match g with
  | .rkv =>
    if reg = Rkv.Reg.parameterBase ∨ reg = Rkv.Reg.refSetBase ∨ reg = Rkv.Reg.scalingBase then
      some .tables
    else none
  | .vdpu34x =>
    if Vdpu34x.Reg.parameterBase ≤ reg ∧ reg ≤ Vdpu34x.Reg.scalingBase then some .tables
    else if Vdpu34x.Reg.regionBase ≤ reg ∧ reg < Vdpu34x.Reg.regionSize then some .auxiliary
    else if reg = Vdpu34x.Reg.motionCurrentBase ∨ Vdpu34x.Reg.motionRefBase ≤ reg ∧
        reg < Vdpu34x.Reg.motionRefBase + Vdpu34x.refRegisters then some .motionVectors
    else none

def Generation.parameterBase : Generation → Nat
  | .rkv => Rkv.Reg.parameterBase
  | .vdpu34x => Vdpu34x.Reg.parameterBase

theorem Generation.purposeOf?_parameterBase (g : Generation) :
    g.purposeOf? g.parameterBase = some .tables := by
  cases g <;> rfl

theorem Generation.get?_blankImage {g : Generation} {reg : Nat} {v : UInt32}
    (hv : g.blankImage.get? reg = some v) : v = 0 := by
  cases g with
  | rkv =>
    refine RegisterImage.get?_of_blank (fun b hb => ?_) hv
    exact ⟨_, _, List.mem_singleton.1 hb⟩
  | vdpu34x =>
    refine RegisterImage.get?_of_blank (fun b hb => ?_) hv
    obtain ⟨range, _, rfl⟩ := List.mem_map.1 hb
    exact ⟨_, _, rfl⟩

theorem Generation.isSome_parameterBase (g : Generation) :
    (g.blankImage.get? g.parameterBase).isSome = true := by
  cases g <;> decide

def Binding.handles (bind : Binding) : Purpose → List UInt32
  | .tables => [bind.tables]
  | .auxiliary => bind.aux.toList.flatMap fun aux => [aux.handle, aux.scratchHandle]
  | .motionVectors => bind.motion.toList.flatMap fun motion => motion.current :: motion.refs

def Edit.Respects (g : Generation) (bind : Binding) (edit : Edit) : Prop :=
  ∀ w purpose, edit.write? = some w → g.purposeOf? w.reg = some purpose →
    w.field = .word ∧ w.value ∈ bind.handles purpose

namespace Edit

variable {g : Generation} {bind : Binding}

theorem respects_table (offset : Nat) (bytes : List UInt8) :
    Respects g bind (.table offset bytes) := nofun

theorem respects_of_none {w : RegisterWrite} (h : g.purposeOf? w.reg = none) :
    Respects g bind (.register w) := by
  intro w' purpose hw hpurpose
  obtain rfl := Option.some.inj hw
  rw [h] at hpurpose
  cases hpurpose

theorem respects_word {reg : Nat} {value : UInt32} {purpose : Purpose}
    (h : g.purposeOf? reg = some purpose) (hvalue : value ∈ bind.handles purpose) :
    Respects g bind (.register (.word reg value)) := by
  intro w purpose' hw hpurpose
  obtain rfl := Option.some.inj hw
  obtain rfl := Option.some.inj (h.symm.trans hpurpose)
  exact ⟨rfl, hvalue⟩

theorem respects_patch {reg offset : Nat} {edit : Edit} (h : edit ∈ patchEdits reg offset) :
    Respects g bind edit := by
  simp only [patchEdits] at h
  split at h
  · cases h
  · obtain rfl := List.mem_singleton.1 h
    exact nofun

theorem respects_packed {w : BitWriter} {size offset : Nat} {edits : List Edit}
    (h : packedTable w size offset = .ok edits) : ∀ edit ∈ edits, Respects g bind edit := by
  simp only [packedTable] at h
  split at h
  · cases h
  split at h
  · cases h
  · cases h
    intro edit hedit
    obtain rfl := List.mem_singleton.1 hedit
    exact respects_table _ _

theorem respects_scaling {bytes : List UInt8} {size : Nat} {edits : List Edit}
    (h : scalingTable bytes size = .ok edits) : ∀ edit ∈ edits, Respects g bind edit := by
  simp only [scalingTable] at h
  split at h
  · cases h
  · cases h
    intro edit hedit
    obtain rfl := List.mem_singleton.1 hedit
    exact respects_table _ _

/-- Edits that are decided on as a whole respect the addresses if they do when there are any. -/
theorem respects_ofExcept {r : Except StepError (List Edit)}
    (h : ∀ edits, r = .ok edits → ∀ edit ∈ edits, Respects g bind edit) :
    ∀ edit ∈ (StepResult.ofExcept r).edits, Respects g bind edit := by
  cases r with
  | ok edits => exact h edits rfl
  | error e => exact fun edit hedit => absurd hedit List.not_mem_nil

theorem respects_after {writes : List RegisterWrite} {r : StepResult}
    (hwrites : ∀ w ∈ writes, g.purposeOf? w.reg = none)
    (hr : ∀ edit ∈ r.edits, Respects g bind edit) :
    ∀ edit ∈ (r.after (writes.map .register)).edits, Respects g bind edit := by
  intro edit hedit
  obtain hedit | hedit := List.mem_append.1 hedit
  · obtain ⟨w, hw, rfl⟩ := List.mem_map.1 hedit
    exact respects_of_none (hwrites w hw)
  · exact hr edit hedit

end Edit

structure Strategy.Respects {Pic : Type} (strategy : Strategy Pic) : Prop where
  edits : ∀ picture bind size step, ∀ edit ∈ (strategy.step step picture bind size).edits,
    edit.Respects strategy.generation bind
  tables : ∀ picture bind size,
    Edit.register (.word strategy.generation.parameterBase bind.tables) ∈
      (strategy.step .addresses picture bind size).edits

namespace Emission

variable {Pic : Type} {strategy : Strategy Pic} {picture : Pic} {bind : Binding}
  {steps : List GenerationStep} {e e' : Emission} {reg : Nat} {purpose : Purpose} {v : UInt32}

theorem respects_stepEdits (hrespects : strategy.Respects)
    (hpurpose : strategy.generation.purposeOf? reg = some purpose) (size : Nat) :
    ∀ w ∈ (stepEdits strategy picture bind size steps).filterMap Edit.write?,
      w.reg = reg → w.field = .word ∧ w.value ∈ bind.handles purpose := by
  rintro w hw rfl
  obtain ⟨edit, hedit, hwrite⟩ := List.mem_filterMap.1 hw
  obtain ⟨step, _, hedit⟩ := List.mem_flatMap.1 hedit
  exact hrespects.edits picture bind size step edit hedit w purpose hwrite hpurpose

/-- After the generation steps on a blank image, a register for addresses is zero or holds a handle
that is bound to the task. -/
theorem get?_of_runSteps (hrespects : strategy.Respects)
    (hblank : ∀ reg v, e.image.get? reg = some v → v = 0)
    (h : runSteps strategy picture bind steps e = (.ok (), e'))
    (hpurpose : strategy.generation.purposeOf? reg = some purpose)
    (hv : e'.image.get? reg = some v) : v = 0 ∨ v ∈ bind.handles purpose := by
  rw [runSteps_ok h, applyAll_image] at hv
  obtain hmem | hfirst := RegisterImage.get?_writeAll_of_words _ e.image _ reg
    (respects_stepEdits hrespects hpurpose e.tables.size) hv
  · exact .inr hmem
  · exact .inl (hblank reg v hfirst)

theorem parameterBase_of_runSteps (hrespects : strategy.Respects)
    (hexists : (e.image.get? strategy.generation.parameterBase).isSome = true)
    (h : runSteps strategy picture bind GenerationStep.all e = (.ok (), e')) :
    e'.image.get? strategy.generation.parameterBase = some bind.tables := by
  have hwritten : ∃ w ∈ (stepEdits strategy picture bind e.tables.size
      GenerationStep.all).filterMap Edit.write?, w.reg = strategy.generation.parameterBase := by
    have hedit := hrespects.tables picture bind e.tables.size
    refine ⟨.word strategy.generation.parameterBase bind.tables, ?_, rfl⟩
    exact List.mem_filterMap.2
      ⟨_, List.mem_flatMap.2 ⟨.addresses, by decide, hedit⟩, rfl⟩
  rw [← RegisterImage.isSome_get?_writeAll, ← applyAll_image, ← runSteps_ok h] at hexists
  obtain ⟨v, hv⟩ := Option.isSome_iff_exists.1 hexists
  have hmem : v ∈ bind.handles .tables := by
    have himage := hv
    rw [runSteps_ok h, applyAll_image] at himage
    exact RegisterImage.get?_writeAll_of_written _ e.image _ _
      (respects_stepEdits hrespects strategy.generation.purposeOf?_parameterBase e.tables.size)
      hwritten himage
  rw [hv, List.mem_singleton.1 hmem]

end Emission

end VideoAccel
