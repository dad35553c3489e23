import VideoAccel.Proofs.Backend.Buffers
import VideoAccel.Proofs.Strategy.ReferenceWrites
import VideoAccel.Proofs.Strategy.Regions

namespace VideoAccel

variable {σ Pic : Type}

def Generation.motionStoreSize? (g : Generation) : CodedPicture → Option Nat
  | .avc p => g.avc.motionStoreSize p
  | .hevc p => g.hevc.motionStoreSize p

structure Strategy.ActsAs (strategy : Strategy Pic) (picture : Pic) (g : Generation)
    (coded : CodedPicture) : Prop where
  blankImage : strategy.generation.blankImage = g.blankImage
  format : strategy.format picture = coded.format
  referenceSlots : strategy.referenceSlots picture = g.referenceSlots coded
  motionStoreSize : strategy.motionStoreSize picture = g.motionStoreSize? coded
  auxBinding? : ∀ slot b, Engine.auxBinding? strategy slot b = coded.auxBinding? g slot b
  runSteps : ∀ bind steps e,
    Emission.runSteps strategy picture bind steps e = g.runSteps coded bind steps e

theorem Generation.avc_actsAs (g : Generation) (picture : Avc.Picture) :
    g.avc.ActsAs picture g (.avc picture) where
  blankImage := by cases g <;> rfl
  format := by cases g <;> rfl
  referenceSlots := rfl
  motionStoreSize := rfl
  auxBinding? _ _ := rfl
  runSteps _ _ _ := rfl

theorem Generation.hevc_actsAs (g : Generation) (picture : Hevc.Picture) :
    g.hevc.ActsAs picture g (.hevc picture) where
  blankImage := by cases g <;> rfl
  format := by cases g <;> rfl
  referenceSlots := rfl
  motionStoreSize := rfl
  auxBinding? _ _ := rfl
  runSteps _ _ _ := rfl

namespace Engine

/-- From `e` to `e'` register set `slot` has been programmed for a task with the buffers that are
there afterwards. -/
structure Programmed (t : Task) (slot : Nat) (e e' : Engine σ) (bind : Binding)
    (set : RegisterSet RegisterImage) : Prop where
  standard : t.picture.standard = e.backend.standard
  found : e'.backend.sets.get? slot = some set
  output : e.frames.frame? t.output = some bind.output
  refs : bind.refs = resolveReferences (e.backend.generation.referenceSlots t.picture) e.frames
    bind.output t.output
  aux : e.backend.regions.isEmpty = false →
    bind.aux = t.picture.auxBinding? e.backend.generation slot e'.backend ∧
      ∃ format key, t.picture.format = .ok format ∧ key.resolution = format.resolution ∧
        e'.backend.aux.key = some key
  motion : ∀ size, e.backend.generation.motionStoreSize? t.picture = some size →
    bind.motion = some (motionBinding t bind.refs e'.backend.motion) ∧
      e'.backend.motion.storeSize = size ∧
      storesNeeded t bind.refs e.frames ≤ e'.backend.motion.stores.length
  run : ∃ start emission, start.image = e.backend.generation.blankImage ∧
    e.backend.generation.runSteps t.picture bind GenerationStep.all start = (.ok (), emission) ∧
    set.registers = emission.image

section

variable {device : Device σ} {strategy : Strategy Pic} {picture : Pic} {t : Task} {slot : Nat}
  {e e' : Engine σ}

theorem storeSize_of_fill (h : e.fill device strategy picture t slot = (.ok (), e')) {size : Nat}
    (hsize : strategy.motionStoreSize picture = some size) :
    e'.backend.motion.storeSize = size := by
  obtain ⟨p, aux, e₁, motion, e₂, -, -, hmotion, hemit⟩ := fill_ok h
  obtain ⟨set, tables, emission, -, -, -, rfl⟩ := emit_ok hemit
  simp only [bindMotion, hsize] at hmotion
  split at hmotion
  · cases hmotion
  split at hmotion
  · cases hmotion
  · rename_i hresult
    cases hmotion
    exact (MotionPool.ensure_ok (Prod.ext hresult rfl)).2

theorem programmed_of_fill (hacts : strategy.ActsAs picture e.backend.generation t.picture)
    (hstandard : t.picture.standard = e.backend.standard)
    (hregions : strategy.regions = e.backend.regions)
    (h : e.fill device strategy picture t slot = (.ok (), e')) :
    ∃ bind set, Programmed t slot e e' bind set := by
  obtain ⟨p, set, tables, bind, emission, hfilled⟩ := exists_filled h
  obtain ⟨format, hformat, hresolution, -⟩ := plan_ok hfilled.plan
  have houtput : bind.output = p.output := by rw [hfilled.bound]
  refine ⟨bind, _, hstandard, hfilled.filled, ?_, ?_, ?_, ?_,
    ⟨{ image := strategy.generation.blankImage, tables := tables.memory.zeroed
       patches := set.patches }, emission, hacts.blankImage, ?_, rfl⟩⟩
  · rw [houtput]
    exact plan_output hfilled.plan
  · rw [← hacts.referenceSlots, houtput, hfilled.bound]
  · intro hsome
    obtain ⟨hnone, -⟩ | ⟨-, haux, hkey⟩ := hfilled.aux
    · rw [hregions, hsome] at hnone
      cases hnone
    · rw [← hacts.auxBinding?]
      exact ⟨haux, format, _, hacts.format ▸ hformat, hresolution, hkey⟩
  · intro size hsize
    rw [← hacts.motionStoreSize] at hsize
    obtain ⟨hnone, -⟩ | ⟨-, hmotion, hstores⟩ := hfilled.motion
    · cases hnone.symm.trans hsize
    · exact ⟨hmotion, storeSize_of_fill h hsize, hstores⟩
  · rw [← hacts.runSteps]
    exact hfilled.run

theorem programmed_of_fillPicture (h : e.fillPicture device t slot = (.ok (), e')) :
    ∃ bind set, Programmed t slot e e' bind set := by
  simp only [fillPicture] at h
  split at h
  · rename_i picture hstandard hpicture
    refine programmed_of_fill (hpicture ▸ e.backend.generation.avc_actsAs picture) ?_ ?_ h
    · rw [hpicture, hstandard]
      rfl
    · rw [Backend.regions, hstandard]
  · rename_i picture hstandard hpicture
    refine programmed_of_fill (hpicture ▸ e.backend.generation.hevc_actsAs picture) ?_ ?_ h
    · rw [hpicture, hstandard]
      rfl
    · rw [Backend.regions, hstandard]
  · cases h

/-- A task that is accepted has its set programmed, unless it bypasses the hardware. -/
theorem programmed_of_generate (hok : (e.generate device t).result = .ok ()) :
    ∃ slot sets, e.backend.sets.acquire? = some (slot, sets) ∧
      (e.generate device t).task.slot = some slot ∧
      if t.mustSkip e.backend.config then
        ∃ set, (e.generate device t).engine.backend.sets.get? slot = some set ∧ set.skip = true
      else
        ∃ bind set, Programmed t slot (e.withSets sets) (e.generate device t).engine bind set := by
  have hgen := generated device t e
  generalize e.generate device t = o at hok hgen
  cases hgen with
  | refused | failed => cases hok
  | bypassed _ hskip hacquire =>
    obtain ⟨before, -, hset⟩ := RegisterSets.get?_acquire?_self hacquire
    refine ⟨_, _, hacquire, rfl, ?_⟩
    rw [if_pos hskip]
    exact ⟨_, (RegisterSets.get?_modify_self ..).trans (congrArg _ hset), rfl⟩
  | filled _ hskip hacquire hfill =>
    refine ⟨_, _, hacquire, rfl, ?_⟩
    rw [hskip]
    exact programmed_of_fillPicture hfill

end

end Engine

end VideoAccel
