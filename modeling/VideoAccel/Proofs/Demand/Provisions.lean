import VideoAccel.Proofs.Backend.Ownership
import VideoAccel.Proofs.Demand.Frames
import VideoAccel.Proofs.Pipeline.Reuse

namespace VideoAccel

variable {σ : Type}

/-- A request for memory is met or refused. -/
def MemorySource.IsTotal (source : MemorySource σ) : Prop :=
  ∀ size s f, (source.allocate size s).1 ≠ .error (.fault f)

variable {source : MemorySource σ}

namespace BufferGroup

theorem get_ne_fault (h : source.IsTotal) (purpose : Purpose) (size : Nat) (g : BufferGroup) (s : σ)
    (f : Fault) : (g.get source purpose size s).1 ≠ .error (.fault f) := by
  have houtcome := g.get_outcome source purpose size s
  generalize g.get source purpose size s = r at houtcome
  cases houtcome with
  | refused e s' _ _ hallocate =>
    have hsource := h size s f
    rw [hallocate] at hsource
    intro herror
    cases herror
    exact hsource rfl
  | zeroSize | recycled | allocated =>
    intro herror
    cases herror

theorem getMany_ne_fault (h : source.IsTotal) (purpose : Purpose) (size count : Nat)
    (g : BufferGroup) (s : σ) (f : Fault) :
    (g.getMany source purpose size count s).1 ≠ some (.fault f) := by
  induction count generalizing g s with
  | zero => exact nofun
  | succ count ih =>
    have hfirst := g.get_ne_fault h purpose size s f
    simp only [getMany]
    rcases hget : g.get source purpose size s with ⟨e | b, g', s'⟩ <;> rw [hget] at hfirst
    · intro herror
      cases herror
      exact hfirst rfl
    · exact ih g' s'

end BufferGroup

namespace AuxBuffers

variable {formulas : List RegionFormula} {count : Nat} {a a' : AuxBuffers}

theorem refresh_ne_fault (h : source.IsTotal) (hunits : ∀ f ∈ formulas, f.unit ≠ 0)
    (key : LayoutKey) (a : AuxBuffers) (group : BufferGroup) (s : σ) (f : Fault) :
    (a.refresh source formulas key group s).result ≠ .error (.fault f) := by
  have hcompute := AuxLayout.compute?_of_units hunits key
  unfold refresh
  by_cases hneeds : a.needsRefresh key = true
  · rw [if_pos hneeds]
    simp only [hcompute, AuxBuffers.obtain]
    have hmany := (group.giveMany source a.buffers s).1.getMany_ne_fault h .auxiliary
      (AuxLayout.compute formulas key).totalSize
      (if 0 < (AuxLayout.compute formulas key).totalSize then max key.pipelineDepth 1 else 0)
      (group.giveMany source a.buffers s).2 f
    split <;> rename_i hget <;> rw [hget] at hmany
    · intro herror
      cases herror
      exact hmany rfl
    · intro herror
      cases herror
  · rw [if_neg hneeds]
    intro herror
    cases herror

theorem Refreshes.length_le (h : Refreshes source formulas count a a')
    (hlength : a.buffers.length ≤ max count 1) : a'.buffers.length ≤ max count 1 := by
  obtain rfl | ⟨key, group, s, rfl, rfl⟩ := h
  · exact hlength
  unfold refresh
  by_cases hneeds : a.needsRefresh key = true
  · rw [if_pos hneeds]
    simp only
    split
    · exact Nat.zero_le _
    · rename_i layout _
      have hmany := BufferGroup.length_getMany_le source .auxiliary layout.totalSize
        (if 0 < layout.totalSize then max key.pipelineDepth 1 else 0)
        (group.giveMany source a.buffers s).1 (group.giveMany source a.buffers s).2
      have hcount : (if 0 < layout.totalSize then max key.pipelineDepth 1 else 0) ≤
          max key.pipelineDepth 1 := by
        split
        · exact Nat.le_refl _
        · exact Nat.zero_le _
      simp only [AuxBuffers.obtain]
      split <;> rename_i hget <;> rw [hget] at hmany <;> exact Nat.le_trans hmany hcount
  · rw [if_neg hneeds]
    exact hlength

end AuxBuffers

namespace MotionPool

variable {p p' : MotionPool}

theorem ensure_ne_fault (h : source.IsTotal) {count : Nat}
    (hcount : isAddressable count storeEntryBytes = true) (size : Nat) (p : MotionPool)
    (group : BufferGroup) (s : σ) (f : Fault) :
    (p.ensure source count size group s).1 ≠ .error (.fault f) := by
  unfold ensure
  by_cases hgrowth : p.needsGrowth count size = true
  · rw [if_pos hgrowth]
    simp only [if_pos hcount]
    have hmany := (group.giveMany source p.stores s).1.getMany_ne_fault h .motionVectors size count
      (group.giveMany source p.stores s).2 f
    split <;> rename_i hget <;> rw [hget] at hmany
    · intro herror
      cases herror
      exact hmany rfl
    · intro herror
      cases herror
  · rw [if_neg hgrowth]
    intro herror
    cases herror

def Known (p : MotionPool) : Prop := isAddressable p.stores.length storeEntryBytes = true

theorem Known.renews (h : p.Known) (hrenews : Renews source p p') : p'.Known := by
  obtain ⟨count, size, group, s, rfl⟩ := hrenews
  unfold Known ensure
  by_cases hgrowth : p.needsGrowth count size = true
  · rw [if_pos hgrowth]
    simp only
    split
    · rename_i hcount
      have hmany := BufferGroup.length_getMany_le source .motionVectors size count
        (group.giveMany source p.stores s).1 (group.giveMany source p.stores s).2
      split <;> rename_i hget <;> rw [hget] at hmany
      · rfl
      · exact isAddressable_of_le hmany hcount
    · rfl
  · rw [if_neg hgrowth]
    exact h

end MotionPool

namespace Engine

/-- The buffers of the backend are accounted for, and there are no more of them than there can be,
for a strategy with these regions. -/
structure Provisioned (source : MemorySource σ) (regions : List RegionFormula) (e : Engine σ) :
    Prop where
  stocked : e.Stocked source
  sets : isAddressable e.backend.sets.size setEntryBytes = true
  follows : e.backend.aux.Follows regions
  aux : e.backend.aux.buffers.length ≤ max e.backend.sets.size 1
  stores : e.backend.motion.Known

variable {device : Device σ} {regions : List RegionFormula} {e e' : Engine σ}

theorem Provisioned.operate (h : e.Provisioned device.memory regions)
    (hops : device.Operations e.holding e'.holding)
    (hrestocks : e.backend.Restocks device.memory e'.backend)
    (hsize : e'.backend.sets.size = e.backend.sets.size)
    (haux : AuxBuffers.Refreshes device.memory regions e.backend.sets.size e.backend.aux
      e'.backend.aux) : e'.Provisioned device.memory regions where
  stocked := h.stocked.operate hops hrestocks
  sets := by
    rw [hsize]
    exact h.sets
  follows := h.follows.refreshes haux
  aux := by
    rw [hsize]
    exact haux.length_le h.aux
  stores :=
    keeps_of_reflTransGen (fun _ _ hr hknown => hknown.renews hr) hrestocks.motion h.stores

theorem Provisioned.withSetting (h : e.Provisioned source regions) (frames : FrameTable)
    (config : Config) (scratch : Option ScratchMemory) :
    (e.withSetting frames config scratch).Provisioned source regions where
  stocked := ⟨⟨h.stocked.counted.alive, h.stocked.counted.outstanding⟩, h.stocked.furnished,
    fun hexact => ⟨(h.stocked.sized hexact).tables, (h.stocked.sized hexact).aux,
      (h.stocked.sized hexact).motion⟩⟩
  sets := h.sets
  follows := h.follows
  aux := h.aux
  stores := h.stores

theorem IsInitialized.provisioned (h : e.IsInitialized device)
    (hsets : isAddressable e.backend.sets.size setEntryBytes = true) :
    e.Provisioned device.memory e.backend.regions := by
  have hready := h.ready
  have hupToDate := Backend.UpToDate.of_ready hready
  obtain ⟨_, _, _, _, _, _, hinit⟩ := h
  refine ⟨Stocked.init hinit, hsets, hupToDate.follows, ?_, ?_⟩
  · rw [hready.aux]
    exact Nat.zero_le _
  · rw [hready.motion]
    rfl

end Engine

namespace Pipeline

variable {device : Device σ} {p : Pipeline σ}

theorem restocks_step (device : Device σ) (p : Pipeline σ) (a : Action) :
    p.engine.backend.Restocks device.memory (p.step device a).engine.backend := by
  cases a with
  | generate i => exact Engine.generate_restocks ..
  | start i => exact Engine.start_restocks ..
  | wait i => exact Engine.wait_restocks ..
  | control c =>
    obtain ⟨config, frames, hsame, _⟩ := Engine.control_eq c p.engine
    simp only [step, hsame]
    exact ⟨rfl, .refl, .refl⟩
  | recycle | edit | frames | flush | reset => exact ⟨rfl, .refl, .refl⟩

theorem provisioned_run (hp : p.IsInitial device)
    (hsets : isAddressable p.engine.backend.sets.size setEntryBytes = true)
    (actions : List Action) :
    (p.run device actions).engine.Provisioned device.memory
      (p.run device actions).engine.backend.regions := by
  apply run_induction (P := fun q => q.engine.Provisioned device.memory q.engine.backend.regions)
  · intro q a hq
    have hkind := kind_step device q a
    rw [hkind.regions]
    exact hq.operate (operations_step device q a) (restocks_step device q a) hkind.size
      (aux_step device q a)
  · exact hp.engine.provisioned hsets

end Pipeline

end VideoAccel
