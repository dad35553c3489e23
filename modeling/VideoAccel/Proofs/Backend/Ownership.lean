import VideoAccel.Proofs.Backend.Custody
import VideoAccel.Proofs.Backend.Initial
import VideoAccel.Proofs.Memory.Recycling
import VideoAccel.Proofs.Memory.Stores

namespace VideoAccel

variable {σ Pic : Type}

theorem keeps_of_reflTransGen {α : Type} {r : α → α → Prop} {P : α → Prop}
    (hstep : ∀ a a', r a a' → P a → P a') {a a' : α} (h : Relation.ReflTransGen r a a')
    (ha : P a) : P a' := by
  induction h with
  | refl => exact ha
  | tail _ hr ih => exact hstep _ _ hr ih

namespace AuxBuffers

/-- The buffers have the size of the layout in use. -/
def Sized (a : AuxBuffers) : Prop :=
  ∀ layout, a.layout = some layout → ∀ b ∈ a.buffers, b.size = layout.totalSize

/-- From `a` to `a'` by a refresh, whatever it is for and however it ends. -/
def Renews (source : MemorySource σ) (a a' : AuxBuffers) : Prop :=
  ∃ formulas key group s, a' = (a.refresh source formulas key group s).buffers

theorem Sized.obtain {source : MemorySource σ} (hexact : source.IsExact) (layout : AuxLayout)
    (key : LayoutKey) (a : AuxBuffers) (group : BufferGroup) (s : σ) :
    (a.obtain source layout key group s).buffers.Sized := by
  intro layout' hlayout
  simp only [AuxBuffers.obtain] at hlayout ⊢
  split at hlayout <;> rename_i hget
  · cases hlayout
  · cases hlayout
    have hserves := BufferGroup.getMany_serves hexact .auxiliary layout.totalSize
      (if 0 < layout.totalSize then max key.pipelineDepth 1 else 0) group s
    simp only [hget] at hserves ⊢
    exact fun b hb => (hserves b hb).2

theorem Sized.renews {source : MemorySource σ} (hexact : source.IsExact) {a a' : AuxBuffers}
    (h : a.Sized) (hrenews : Renews source a a') : a'.Sized := by
  obtain ⟨formulas, key, group, s, rfl⟩ := hrenews
  unfold refresh
  by_cases hneeds : a.needsRefresh key = true
  · rw [if_pos hneeds]
    simp only
    split
    · exact nofun
    · exact Sized.obtain hexact _ key a _ _
  · rw [if_neg hneeds]
    exact h

end AuxBuffers

namespace MotionPool

/-- The stores have the size that the pool was last made to fit with. -/
def Sized (p : MotionPool) : Prop := ∀ b ∈ p.stores, b.size = p.storeSize

/-- From `p` to `p'` by making the pool fit, whatever for and however this ends. -/
def Renews (source : MemorySource σ) (p p' : MotionPool) : Prop :=
  ∃ count size group s, p' = (p.ensure source count size group s).2.1

theorem Sized.renews {source : MemorySource σ} (hexact : source.IsExact) {p p' : MotionPool}
    (h : p.Sized) (hrenews : Renews source p p') : p'.Sized := by
  obtain ⟨count, size, group, s, rfl⟩ := hrenews
  have hend := p.ensure_end source count size group s
  generalize p.ensure source count size group s = r at hend
  cases hend with
  | kept => exact h
  | renewed _ _ _ _ _ hserves => exact fun b hb => (hserves hexact b hb).2
  | emptied => exact nofun

end MotionPool

namespace RegisterSets

variable {α : Type} {s s' : RegisterSets α}

/-- The table buffer of each set, apart from its contents. -/
def tables (s : RegisterSets α) : List (Option (UInt32 × Nat × Purpose)) :=
  s.sets.map fun set => set.tables.map DeviceBuffer.identity

theorem tables_modify (s : RegisterSets α) (i : Nat) {f : RegisterSet α → RegisterSet α}
    (hf : ∀ set, s.get? i = some set →
      (f set).tables.map DeviceBuffer.identity = set.tables.map DeviceBuffer.identity) :
    (s.modify i f).tables = s.tables := by
  apply List.ext_getElem?
  intro j
  have hset := s.get?_modify i j f
  simp only [get?] at hset
  simp only [tables, List.getElem?_map, hset]
  by_cases hij : i = j
  · subst hij
    rw [if_pos rfl]
    cases hi : s.sets[i]? with
    | none => rfl
    | some set => exact congrArg some (hf set hi)
  · rw [if_neg hij]

theorem exists_of_tables_eq (h : s'.tables = s.tables) {set' : RegisterSet α}
    (hset' : set' ∈ s'.sets) :
    ∃ set ∈ s.sets,
      set.tables.map DeviceBuffer.identity = set'.tables.map DeviceBuffer.identity := by
  have hmem : set'.tables.map DeviceBuffer.identity ∈ s'.tables := List.mem_map_of_mem hset'
  rw [h] at hmem
  exact List.mem_map.1 hmem

def Furnished (s : RegisterSets α) : Prop := ∀ set ∈ s.sets, set.tables.isSome = true

theorem Furnished.of_tables_eq (hs : s.Furnished) (h : s'.tables = s.tables) : s'.Furnished := by
  intro set' hset'
  obtain ⟨set, hset, hsame⟩ := exists_of_tables_eq h hset'
  rw [← Option.isSome_map (f := DeviceBuffer.identity), ← hsame, Option.isSome_map]
  exact hs set hset

theorem Furnished.length_filterMap (h : s.Furnished) :
    (s.sets.filterMap (·.tables)).length = s.size :=
  List.filterMap_length_eq_length.2 h

/-- The table buffers have their size. -/
def Sized (s : RegisterSets α) : Prop :=
  ∀ set ∈ s.sets, ∀ b, set.tables = some b → b.size = tableBufferSize

theorem Sized.of_tables_eq (hs : s.Sized) (h : s'.tables = s.tables) : s'.Sized := by
  intro set' hset' b hb
  obtain ⟨set, hset, hsame⟩ := exists_of_tables_eq h hset'
  rw [hb, Option.map_some, Option.map_eq_some_iff] at hsame
  obtain ⟨b', hb', hidentity⟩ := hsame
  have hsize : b'.size = b.size := congrArg (fun i => i.2.1) hidentity
  rw [← hsize]
  exact hs set hset b' hb'

end RegisterSets

namespace Backend

/-- All buffers have the sizes that their owners go by. -/
structure Sized (b : Backend) : Prop where
  tables : b.sets.Sized
  aux : b.aux.Sized
  motion : b.motion.Sized

/-- From `b` to `b'` no register set exchanges its table buffer, and the other buffers are exchanged
by their owners only. -/
structure Restocks (source : MemorySource σ) (b b' : Backend) : Prop where
  tables : b'.sets.tables = b.sets.tables
  aux : Relation.ReflTransGen (AuxBuffers.Renews source) b.aux b'.aux
  motion : Relation.ReflTransGen (MotionPool.Renews source) b.motion b'.motion

variable {source : MemorySource σ} {b b' b'' : Backend}

theorem Restocks.refl (source : MemorySource σ) (b : Backend) : Restocks source b b :=
  ⟨rfl, .refl, .refl⟩

theorem Restocks.trans (h : Restocks source b b') (h' : Restocks source b' b'') :
    Restocks source b b'' :=
  ⟨h'.tables.trans h.tables, h.aux.trans h'.aux, h.motion.trans h'.motion⟩

theorem Sized.restocks (h : b.Sized) (hexact : source.IsExact) (hrestocks : Restocks source b b') :
    b'.Sized where
  tables := h.tables.of_tables_eq hrestocks.tables
  aux := keeps_of_reflTransGen (fun _ _ hr haux => haux.renews hexact hr) hrestocks.aux h.aux
  motion :=
    keeps_of_reflTransGen (fun _ _ hr hmotion => hmotion.renews hexact hr) hrestocks.motion h.motion

end Backend

namespace Engine

open Backend (Restocks)

theorem modify_restocks (source : MemorySource σ) (e : Engine σ) (slot : Nat)
    {f : RegisterSet RegisterImage → RegisterSet RegisterImage}
    (hf : ∀ set, e.backend.sets.get? slot = some set →
      (f set).tables.map DeviceBuffer.identity = set.tables.map DeviceBuffer.identity) :
    Restocks source e.backend (e.withSets (e.backend.sets.modify slot f)).backend :=
  ⟨RegisterSets.tables_modify _ _ hf, .refl, .refl⟩

theorem bindAux_restocks (device : Device σ) (strategy : Strategy Pic) (p : TaskPlan) (slot : Nat)
    (e : Engine σ) :
    Restocks device.memory e.backend (e.bindAux device strategy p slot).2.backend := by
  obtain hbind | ⟨_, hbind⟩ := e.bindAux_eq device strategy p slot <;> rw [hbind]
  · exact .refl ..
  · exact ⟨rfl, .single ⟨_, _, _, _, rfl⟩, .refl⟩

theorem bindMotion_restocks (device : Device σ) (strategy : Strategy Pic) (picture : Pic) (t : Task)
    (refs : List ResolvedRef) (e : Engine σ) :
    Restocks device.memory e.backend (e.bindMotion device strategy picture t refs).2.backend := by
  obtain hbind | ⟨size, _, hbind⟩ := e.bindMotion_eq device strategy picture t refs <;> rw [hbind]
  · exact .refl ..
  · exact ⟨rfl, .refl, .single ⟨_, size, _, _, rfl⟩⟩

theorem emit_restocks (source : MemorySource σ) (strategy : Strategy Pic) (picture : Pic)
    (slot : Nat) (bind : DeviceBuffer → Binding) (e : Engine σ) :
    Restocks source e.backend (e.emit strategy picture slot bind).2.backend := by
  obtain ⟨f, _, htables, hemit⟩ := emit_eq strategy picture slot bind e
  rw [hemit]
  exact modify_restocks source e slot htables

theorem fill_restocks (device : Device σ) (strategy : Strategy Pic) (picture : Pic) (t : Task)
    (slot : Nat) (e : Engine σ) :
    Restocks device.memory e.backend (e.fill device strategy picture t slot).2.backend := by
  simp only [fill]
  split
  · exact .refl ..
  rename_i p _
  have haux := bindAux_restocks device strategy p slot e
  split <;> rename_i e₁ hr <;> rw [hr] at haux
  · exact haux
  have hmotion := bindMotion_restocks device strategy picture t
    (resolveReferences (strategy.referenceSlots picture) e₁.frames p.output t.output) e₁
  split <;> rename_i e₂ hr <;> rw [hr] at hmotion
  · exact haux.trans hmotion
  · exact (haux.trans hmotion).trans (emit_restocks ..)

theorem fillPicture_restocks (device : Device σ) (t : Task) (slot : Nat) (e : Engine σ) :
    Restocks device.memory e.backend (e.fillPicture device t slot).2.backend := by
  simp only [fillPicture]
  split
  · exact fill_restocks ..
  · exact fill_restocks ..
  · exact .refl ..

theorem restocks_of_fillPicture {device : Device σ} {t : Task} {slot : Nat} {e e' : Engine σ}
    {result : Except BackendError Unit} (h : e.fillPicture device t slot = (result, e')) :
    Restocks device.memory e.backend e'.backend := by
  have hrestocks := fillPicture_restocks device t slot e
  rwa [h] at hrestocks

theorem acquire?_restocks (source : MemorySource σ) {e : Engine σ} {slot : Nat}
    {sets : RegisterSets RegisterImage} (h : e.backend.sets.acquire? = some (slot, sets)) :
    Restocks source e.backend (e.withSets sets).backend := by
  obtain ⟨_, rfl⟩ := RegisterSets.acquire?_eq_some h
  exact modify_restocks _ _ _ fun _ _ => rfl

theorem release_restocks (source : MemorySource σ) (e : Engine σ) (slot : Nat) :
    Restocks source e.backend (e.releaseSet slot).backend :=
  modify_restocks _ _ _ fun _ _ => rfl

theorem complete_restocks (source : MemorySource σ) (t : Task) (slot : Nat) (skipped : Bool)
    (p : PollOutcome) (e : Engine σ) :
    Restocks source e.backend (complete t slot skipped p e).engine.backend := by
  have hclear : Restocks source e.backend
      (e.withSets (e.backend.sets.modify slot fun set =>
        { set with
          registers := set.registers.writeAll e.backend.generation.clearStatus })).backend :=
    modify_restocks _ _ _ fun _ _ => rfl
  exact hclear.trans (release_restocks ..)

theorem generate_restocks (device : Device σ) (t : Task) (e : Engine σ) :
    Restocks device.memory e.backend (e.generate device t).engine.backend := by
  have hgen := generated device t e
  generalize e.generate device t = o at hgen
  cases hgen with
  | refused _ => exact .refl ..
  | bypassed _ _ hacquire =>
    refine (acquire?_restocks _ hacquire).trans ?_
    exact modify_restocks _ (e.withSets _) _ fun _ _ => rfl
  | failed _ _ hacquire hfill _ =>
    have hfilled := (acquire?_restocks _ hacquire).trans (restocks_of_fillPicture hfill)
    exact hfilled.trans (release_restocks ..)
  | filled _ _ hacquire hfill =>
    exact (acquire?_restocks _ hacquire).trans (restocks_of_fillPicture hfill)

theorem start_restocks (device : Device σ) (t : Task) (e : Engine σ) :
    Restocks device.memory e.backend (e.start device t).engine.backend := by
  have hstart := started device t e
  generalize e.start device t = o at hstart
  cases hstart with
  | refused | unbound | missing | bypassed => exact .refl ..
  | rejected => exact release_restocks ..
  | accepted => exact ⟨rfl, .refl, .refl⟩

theorem wait_restocks (device : Device σ) (t : Task) (e : Engine σ) :
    Restocks device.memory e.backend (e.wait device t).engine.backend := by
  have hwait := waited device t e
  generalize e.wait device t = o at hwait
  cases hwait with
  | refused | unbound | outOfOrder => exact .refl ..
  | @bypassed slot submitted =>
    have hcomplete := complete_restocks device.memory t slot true {}
      { e with backend := { e.backend with submitted } }
    exact ⟨hcomplete.tables, hcomplete.aux, hcomplete.motion⟩
  | @polled slot submitted result state =>
    have hcomplete := complete_restocks device.memory t slot false
      (pollOutcome e.backend.generation result)
      { e with backend := { e.backend with submitted }, device := state }
    exact ⟨hcomplete.tables, hcomplete.aux, hcomplete.motion⟩

/-- The group of a backend counts the buffers that the backend owns, every register set has its
tables, and if the source allocates what is asked for, all buffers have their sizes. -/
structure Stocked (source : MemorySource σ) (e : Engine σ) : Prop where
  counted : e.holding.Counted
  furnished : e.backend.sets.Furnished
  sized : source.IsExact → e.backend.Sized

namespace Stocked

variable {device : Device σ} {e e' : Engine σ}

theorem outstanding {source : MemorySource σ} (h : e.Stocked source) :
    e.backend.buffers.outstanding =
      e.backend.sets.size + e.backend.aux.buffers.length + e.backend.motion.stores.length := by
  have hcount := h.counted.outstanding
  simp only [holding, Backend.owned, List.length_append, h.furnished.length_filterMap] at hcount
  exact hcount

theorem operate (h : e.Stocked device.memory) (hops : device.Operations e.holding e'.holding)
    (hrestocks : Restocks device.memory e.backend e'.backend) : e'.Stocked device.memory where
  counted := hops.counted h.counted
  furnished := h.furnished.of_tables_eq hrestocks.tables
  sized hexact := (h.sized hexact).restocks hexact hrestocks

theorem of_backend {source : MemorySource σ} (h : e.Stocked source)
    (hbackend : e'.backend = e.backend) : e'.Stocked source := by
  obtain ⟨b, frames, state⟩ := e
  obtain ⟨b', frames', state'⟩ := e'
  obtain rfl : b' = b := hbackend
  exact ⟨⟨h.counted.alive, h.counted.outstanding⟩, h.furnished, h.sized⟩

theorem control (h : e.Stocked device.memory) (c : Control) :
    (e.control c).2.Stocked device.memory := by
  obtain ⟨config, frames, hsame, _⟩ := control_eq c e
  rw [hsame]
  exact h.operate .refl ⟨rfl, .refl, .refl⟩

theorem sized_init {device : Device σ} (hexact : device.memory.IsExact) (e : Engine σ) :
    (Engine.init device e).2.backend.sets.Sized := by
  have hserves := BufferGroup.getMany_serves hexact .tables tableBufferSize
    (RegisterSets.replicate e.backend.config.pipelineDepth e.backend.generation.blankImage).size
    e.backend.buffers e.device
  simp only [Engine.init, obtainTables, withSets]
  generalize e.backend.buffers.getMany device.memory .tables tableBufferSize _ e.device = r
    at hserves
  obtain ⟨failure, got, group, state⟩ := r
  have hsets : ∀ sets : List (RegisterSet RegisterImage),
      RegisterSets.Sized ⟨sets.mapIdx fun i set => { set with tables := got[i]? }⟩ := by
    intro sets set hset b hb
    obtain ⟨i, _, rfl⟩ := List.mem_mapIdx.1 hset
    exact (hserves b (List.mem_of_getElem? hb)).2
  cases failure <;> exact hsets _

theorem init {standard : CodingStandard} {generation : Generation} {config : Config}
    {scratch : Option ScratchMemory} {frames : FrameTable} {state : σ}
    (h : Engine.init device ⟨{ standard, generation, config, scratch }, frames, state⟩ =
      (.ok (), e)) : e.Stocked device.memory := by
  obtain ⟨hready, _⟩ := init_ok h
  have htransfer := init_transfer device standard generation config scratch frames state
  rw [h] at htransfer
  refine ⟨htransfer.operations.counted ⟨rfl, rfl⟩, fun set hset => ?_, fun hexact => ⟨?_, ?_, ?_⟩⟩
  · obtain ⟨i, hi⟩ := List.mem_iff_getElem?.1 hset
    exact (hready.sets i set hi).2
  · have hsets := sized_init hexact ⟨{ standard, generation, config, scratch }, frames, state⟩
    rwa [h] at hsets
  · rw [hready.aux]
    exact nofun
  · rw [hready.motion]
    exact nofun

end Stocked

end Engine

end VideoAccel
