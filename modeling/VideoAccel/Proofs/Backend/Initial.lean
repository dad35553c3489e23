import VideoAccel.Proofs.Backend.Outcomes

namespace VideoAccel.Engine

variable {σ : Type}

def IsInitialized (device : Device σ) (e : Engine σ) : Prop :=
  ∃ standard generation config scratch frames state,
    init device ⟨{ standard, generation, config, scratch }, frames, state⟩ = (.ok (), e)

structure Ready (device : Device σ) (e : Engine σ) : Prop where
  submitted : e.backend.submitted = []
  aux : e.backend.aux = {}
  motion : e.backend.motion = {}
  size : e.backend.sets.size = e.backend.config.pipelineDepth
  sets : ∀ i set, e.backend.sets.get? i = some set →
    set.valid = false ∧ set.tables.isSome = true
  transfer : ∃ state, Transfer device.memory ⟨[], {}, state⟩ e.holding

theorem filterMap_tables_mapIdx {α : Type} (sets : List (RegisterSet α)) (got : List DeviceBuffer)
    (h : got.length ≤ sets.length) :
    (sets.mapIdx fun i set => { set with tables := got[i]? }).filterMap (·.tables) = got := by
  induction sets generalizing got with
  | nil => simpa using (List.length_eq_zero_iff.1 (Nat.le_zero.1 h)).symm
  | cons set sets ih =>
    cases got with
    | nil =>
      have hnone := ih [] (Nat.zero_le _)
      simpa [List.mapIdx_cons] using hnone
    | cons b got =>
      have hrest := ih got (Nat.le_of_succ_le_succ h)
      simpa [List.mapIdx_cons] using hrest

section

variable {device : Device σ} {standard : CodingStandard} {generation : Generation}
  {config : Config} {scratch : Option ScratchMemory} {frames : FrameTable} {state : σ}
  {e : Engine σ}

theorem size_replicate :
    (RegisterSets.replicate config.pipelineDepth generation.blankImage).size =
      config.pipelineDepth := List.length_replicate

/-- The buffers that were got belong to the backend, also if one of them could not be had. -/
theorem init_transfer (device : Device σ) (standard : CodingStandard) (generation : Generation)
    (config : Config) (scratch : Option ScratchMemory) (frames : FrameTable) (state : σ) :
    Transfer device.memory ⟨[], {}, state⟩
      (init device ⟨{ standard, generation, config, scratch }, frames, state⟩).2.holding := by
  have hlength := BufferGroup.length_getMany_le device.memory .tables tableBufferSize
    config.pipelineDepth {} state
  have htransfer := BufferGroup.getMany_transfer device.memory .tables tableBufferSize
    config.pipelineDepth [] {} state
  simp only [init, obtainTables, withSets, size_replicate]
  generalize BufferGroup.getMany device.memory .tables tableBufferSize config.pipelineDepth {}
    state = r at hlength htransfer
  obtain ⟨failure, got, group, state'⟩ := r
  have hgot : got.length ≤
      (RegisterSets.replicate config.pipelineDepth generation.blankImage).sets.length :=
    Nat.le_trans hlength (Nat.le_of_eq size_replicate.symm)
  cases failure <;> simpa [holding, Backend.owned, filterMap_tables_mapIdx _ _ hgot] using htransfer

theorem init_frames (device : Device σ) (e : Engine σ) :
    (init device e).2.frames = match (init device e).1 with
      | .ok () => e.frames.withAlignment e.backend.generation.defaultAlignment
      | .error _ => e.frames := by
  simp only [init, obtainTables, withSets]
  rcases e.backend.buffers.getMany device.memory _ _ _ e.device with ⟨_ | _, _, _, _⟩ <;> rfl

theorem init_ok
    (h : init device ⟨{ standard, generation, config, scratch }, frames, state⟩ = (.ok (), e)) :
    Ready device e ∧ e.backend.standard = standard ∧ e.backend.generation = generation ∧
      e.backend.config = config ∧ e.backend.scratch = scratch := by
  have htransfer := init_transfer device standard generation config scratch frames state
  rw [h] at htransfer
  simp only [init, obtainTables, withSets, size_replicate] at h
  have hlength := BufferGroup.length_getMany device.memory .tables tableBufferSize
    config.pipelineDepth {} state
  generalize BufferGroup.getMany device.memory .tables tableBufferSize config.pipelineDepth {}
    state = r at h hlength
  obtain ⟨failure, got, group, state'⟩ := r
  cases failure with
  | some error => cases h
  | none =>
    obtain rfl := (Prod.mk.inj h).2
    have hgot : got.length = config.pipelineDepth := hlength rfl
    refine ⟨⟨rfl, rfl, rfl, ?_, ?_, state, htransfer⟩, rfl, rfl, rfl, rfl⟩
    · simp [RegisterSets.size, RegisterSets.replicate]
    · intro i set hset
      simp only [RegisterSets.get?, RegisterSets.replicate, List.getElem?_mapIdx,
        List.getElem?_replicate] at hset
      split at hset
      · rename_i hi
        obtain rfl := Option.some.inj hset
        exact ⟨rfl, by simp [hgot, hi]⟩
      · cases hset

end

theorem IsInitialized.ready {device : Device σ} {e : Engine σ} (h : e.IsInitialized device) :
    Ready device e := by
  obtain ⟨standard, generation, config, scratch, frames, state, hinit⟩ := h
  exact (init_ok hinit).1

theorem Ready.isValid {device : Device σ} {e : Engine σ} (h : Ready device e) (i : Nat) :
    e.backend.sets.isValid i = false := by
  rw [← Bool.not_eq_true, RegisterSets.isValid_iff]
  rintro ⟨set, hget, hvalid⟩
  rw [(h.sets i set hget).1] at hvalid
  cases hvalid

theorem Ready.control {device : Device σ} {e : Engine σ} (h : Ready device e) (c : Control) :
    Ready device (e.control c).2 := by
  obtain ⟨config, frames, hsame, hdepth⟩ := control_eq c e
  rw [hsame]
  exact { h with size := h.size.trans hdepth.symm }

end VideoAccel.Engine
