import VideoAccel.Proofs.Backend.Anchoring
import VideoAccel.Proofs.Backend.Leftovers
import VideoAccel.Proofs.Strategy.Handles

namespace VideoAccel

variable {σ τ Pic : Type}

structure Backend.UpToDate (b : Backend) : Prop where
  follows : b.aux.Follows b.regions
  stocked : b.aux.Stocked b.sets.size

structure Backend.SameKind (b b' : Backend) : Prop where
  standard : b'.standard = b.standard
  generation : b'.generation = b.generation
  size : b'.sets.size = b.sets.size

/-- The engine with other frames, settings and scratch memory. -/
def Engine.withSetting (frames : FrameTable) (config : Config) (scratch : Option ScratchMemory)
    (e : Engine σ) : Engine σ :=
  ⟨{ e.backend with config, scratch }, frames, e.device⟩

structure Engine.SameSetting (e : Engine σ) (e' : Engine τ) : Prop where
  kind : e.backend.SameKind e'.backend
  frames : e'.frames = e.frames
  config : e'.backend.config = e.backend.config
  scratch : e'.backend.scratch = e.backend.scratch

namespace Backend

variable (b b' : Backend) (slot slot' : Nat) (set set' : RegisterSet RegisterImage)

/-- Handles of two buffers, each of its own backend, that serve the same purpose at the same
place. -/
def Corresponding (purpose : Purpose) (handle handle' : UInt32) : Prop :=
  ∃ (i : Nat) (buffer buffer' : DeviceBuffer), (b.buffersOf slot set purpose)[i]? = some buffer ∧
    (b'.buffersOf slot' set' purpose)[i]? = some buffer' ∧
    buffer.handle = handle ∧ buffer'.handle = handle'

/-- The set was taken for a task that bypasses the hardware: it holds what it held, no address
offsets, and the mark. -/
def Spares : Prop :=
  ∃ before, b.sets.get? slot = some before ∧
    set = { before with valid := true, skip := true, patches := [] }

/-- Two register sets hold the same registers, address offsets and table bytes, but for the
registers that hold handles of corresponding buffers. -/
structure SameProduct : Prop where
  registers : RegisterImage.Alike (b.Corresponding b' slot slot' set set') b.generation
    set.registers set'.registers
  tables : ∃ tables tables', set.tables = some tables ∧ set'.tables = some tables' ∧
    tables'.memory.contents = tables.memory.contents
  same : set' = { set with registers := set'.registers, tables := set'.tables }

end Backend

namespace Engine

variable {b b' : Backend} {slot slot' : Nat} {set set' : RegisterSet RegisterImage}

theorem corresponding_tables {handle handle' : UInt32}
    (h : set.tables.map DeviceBuffer.handle = some handle)
    (h' : set'.tables.map DeviceBuffer.handle = some handle') :
    b.Corresponding b' slot slot' set set' .tables handle handle' := by
  obtain ⟨tables, htables, rfl⟩ := Option.map_eq_some_iff.1 h
  obtain ⟨tables', htables', rfl⟩ := Option.map_eq_some_iff.1 h'
  refine ⟨0, tables, tables', ?_, ?_, rfl, rfl⟩
  · simp [Backend.buffersOf, htables]
  · simp [Backend.buffersOf, htables']

/-- The auxiliary memory of two sets is laid out in the same way if the layout is the same. -/
theorem auxBinding?_alike {strategy : Strategy Pic} {count : Nat} {layout : AuxLayout}
    (hlayout : b.aux.layout = some layout) (hlayout' : b'.aux.layout = some layout)
    (hstocked : b.aux.Stocked count) (hstocked' : b'.aux.Stocked count)
    (hslot : slot < count) (hslot' : slot' < count) (hscratch : b'.scratch = b.scratch) :
    Option.Rel (AuxBinding.Alike (b.Corresponding b' slot slot' set set'))
      (auxBinding? strategy slot b) (auxBinding? strategy slot' b') := by
  have hsome := (hstocked.buffer?_isSome hlayout hslot).trans
    (hstocked'.buffer?_isSome hlayout' hslot').symm
  simp only [auxBinding?, hlayout, hlayout', hscratch]
  cases hbuffer : b.aux.buffer? slot with
  | none =>
    rw [hbuffer, Option.isSome_none, eq_comm, Option.isSome_eq_false_iff, Option.isNone_iff_eq_none]
      at hsome
    rw [hsome]
    exact .none
  | some buffer =>
    rw [hbuffer, Option.isSome_some, eq_comm, Option.isSome_iff_exists] at hsome
    obtain ⟨buffer', hbuffer'⟩ := hsome
    have hhandles : b.Corresponding b' slot slot' set set' .auxiliary buffer.handle
        buffer'.handle := by
      refine ⟨0, buffer, buffer', ?_, ?_, rfl, rfl⟩
      · simp [Backend.buffersOf, AuxBuffers.bound?, hlayout, hbuffer]
      · simp [Backend.buffersOf, AuxBuffers.bound?, hlayout', hbuffer']
    rw [hbuffer']
    cases b.scratch with
    | none => exact .some ⟨rfl, hhandles⟩
    | some memory =>
      cases strategy.scratchPolicy with
      | none => exact .some ⟨rfl, hhandles⟩
      | some policy => exact .some ⟨rfl, hhandles⟩

theorem motionBinding_alike {t : Task} {refs : List ResolvedRef} {frames : FrameTable}
    (hstores : storesNeeded t refs frames ≤ b.motion.stores.length)
    (hstores' : storesNeeded t refs frames ≤ b'.motion.stores.length) :
    (motionBinding t refs b.motion).Alike (b.Corresponding b' slot slot' set set')
      (motionBinding t refs b'.motion) := by
  have hhandle : ∀ frame, (frame = t.output ∨ ∃ r ∈ refs, r.slot = frame) →
      b.Corresponding b' slot slot' set set' .motionVectors ((b.motion.handle? frame).getD 0)
        ((b'.motion.handle? frame).getD 0) := by
    intro frame hframe
    have hlt : frame < storesNeeded t refs frames := lt_storesNeeded hframe frames
    have hget := List.getElem?_eq_getElem (Nat.lt_of_lt_of_le hlt hstores)
    have hget' := List.getElem?_eq_getElem (Nat.lt_of_lt_of_le hlt hstores')
    refine ⟨frame, _, _, hget, hget', ?_, ?_⟩
    · simp [MotionPool.handle?, hget]
    · simp [MotionPool.handle?, hget']
  refine ⟨hhandle _ (.inl rfl), ?_⟩
  rw [motionBinding, motionBinding, List.forall₂_map_left_iff, List.forall₂_map_right_iff]
  exact List.forall₂_same.2 fun r hr => hhandle r.slot (.inr ⟨r, hr, rfl⟩)

section

variable {strategy : Strategy Pic} {picture : Pic} {t : Task} {e o : Engine σ} {e' o' : Engine τ}

theorem SameSetting.plan (h : e.SameSetting e') (strategy : Strategy Pic) (picture : Pic)
    (t : Task) : e'.plan strategy picture t = e.plan strategy picture t := by
  simp only [Engine.plan, h.frames, h.config]

/-- Two tasks that fill sets for the same picture are bound to the same but for the handles. -/
theorem Filled.bind_alike {p p' : TaskPlan} {tables tables' : DeviceBuffer}
    {bind bind' : Binding} {emission emission' : Emission}
    {start start' : RegisterSet RegisterImage}
    (h : Filled strategy picture t slot e o p start tables bind emission)
    (h' : Filled strategy picture t slot' e' o' p' start' tables' bind' emission')
    (hsame : e.SameSetting e') (hscratch : o'.backend.scratch = o.backend.scratch)
    (haux : o.backend.aux.Follows strategy.regions ∧ o.backend.aux.Stocked e.backend.sets.size)
    (haux' : o'.backend.aux.Follows strategy.regions ∧
      o'.backend.aux.Stocked e'.backend.sets.size)
    (htables : o.backend.Corresponding o'.backend slot slot' set set' .tables tables.handle
      tables'.handle) :
    bind.Alike (o.backend.Corresponding o'.backend slot slot' set set') bind' := by
  obtain rfl : p' = p := by
    have hplan := h'.plan
    rw [hsame.plan, h.plan] at hplan
    exact (Except.ok.inj hplan).symm
  have hbound := h.bound
  have hbound' := h'.bound
  rw [hsame.frames] at hbound'
  have hrefs : bind'.refs = bind.refs := by
    rw [hbound, hbound']
  refine ⟨?_, ?_, ?_, ?_⟩
  · rw [hbound, hbound']
  · rw [hbound, hbound']
    exact htables
  · obtain ⟨hempty, hnone⟩ | ⟨hregions, hbind, hkey⟩ := h.aux <;>
      obtain ⟨hempty', hnone'⟩ | ⟨hregions', hbind', hkey'⟩ := h'.aux
    · rw [hnone, hnone']
      exact .none
    · rw [hempty] at hregions'
      cases hregions'
    · rw [hregions] at hempty'
      cases hempty'
    · rw [hbind, hbind']
      rw [hsame.kind.size] at hkey' haux'
      have hslot : slot < e.backend.sets.size := (List.getElem?_eq_some_iff.1 h.found).1
      have hslot' : slot' < e'.backend.sets.size := (List.getElem?_eq_some_iff.1 h'.found).1
      rw [hsame.kind.size] at hslot'
      exact auxBinding?_alike (haux.1 _ hkey) (haux'.1 _ hkey') haux.2 haux'.2 hslot hslot' hscratch
  · obtain ⟨hsize, hnone⟩ | ⟨hsize, hbind, hstores⟩ := h.motion <;>
      obtain ⟨hsize', hnone'⟩ | ⟨hsize', hbind', hstores'⟩ := h'.motion
    · rw [hnone, hnone']
      exact .none
    · rw [hsize] at hsize'
      cases hsize'
    · rw [hsize'] at hsize
      cases hsize
    · rw [hbind, hbind']
      rw [hrefs, hsame.frames] at hstores'
      rw [hrefs]
      exact .some (motionBinding_alike hstores hstores')

/-- Sets with the same marks and address offsets hold the same after they are filled for the same
picture, whatever registers and table bytes they held. -/
theorem fill_sameProduct {device : Device σ} {device' : Device τ}
    {start start' : RegisterSet RegisterImage} (hoblivious : strategy.Oblivious)
    (hgeneration : strategy.generation = e.backend.generation) (hsame : e.SameSetting e')
    (haux : e.backend.aux.Follows strategy.regions ∧ e.backend.aux.Stocked e.backend.sets.size)
    (haux' : e'.backend.aux.Follows strategy.regions ∧
      e'.backend.aux.Stocked e'.backend.sets.size)
    (hget : e.backend.sets.get? slot = some start)
    (hget' : e'.backend.sets.get? slot' = some start')
    (hstart : start' = { start with registers := start'.registers, tables := start'.tables })
    (h : e.fill device strategy picture t slot = (.ok (), o))
    (h' : e'.fill device' strategy picture t slot' = (.ok (), o')) :
    ∃ set set', o.backend.sets.get? slot = some set ∧ o'.backend.sets.get? slot' = some set' ∧
      o.backend.SameProduct o'.backend slot slot' set set' := by
  obtain ⟨p, _, tables, bind, emission, hfilled⟩ := exists_filled h
  obtain ⟨p', _, tables', bind', emission', hfilled'⟩ := exists_filled h'
  obtain rfl := Option.some.inj (hget.symm.trans hfilled.found)
  obtain rfl := Option.some.inj (hget'.symm.trans hfilled'.found)
  have hrefill := fill_refill device strategy picture t slot e
  have hrefill' := fill_refill device' strategy picture t slot' e'
  have hrefreshes := fill_aux device strategy picture t slot e
  have hrefreshes' := fill_aux device' strategy picture t slot' e'
  rw [h] at hrefill hrefreshes
  rw [h'] at hrefill' hrefreshes'
  let set := start.filledWith tables emission
  let set' := start'.filledWith tables' emission'
  have htables : o.backend.Corresponding o'.backend slot slot' set set' .tables tables.handle
      tables'.handle :=
    corresponding_tables (congrArg some hfilled.handle) (congrArg some hfilled'.handle)
  have hbind : bind.Alike (o.backend.Corresponding o'.backend slot slot' set set') bind' := by
    refine hfilled.bind_alike hfilled' hsame ?_ ?_ ?_ htables
    · rw [hrefill.scratch, hrefill'.scratch, hsame.scratch]
    · exact ⟨haux.1.refreshes hrefreshes, haux.2.refreshes hrefreshes⟩
    · exact ⟨haux'.1.refreshes hrefreshes', haux'.2.refreshes hrefreshes'⟩
  have hblank : Emission.Alike (o.backend.Corresponding o'.backend slot slot' set set')
      strategy.generation
      { image := strategy.generation.blankImage, tables := tables.memory.zeroed
        patches := start.patches }
      { image := strategy.generation.blankImage, tables := tables'.memory.zeroed
        patches := start'.patches } := by
    refine ⟨.refl _, rfl, ?_⟩
    rw [hstart]
  have hrun := hoblivious _ picture bind bind' _ _ _ _ _ hbind hblank hfilled.run hfilled'.run
  rw [hgeneration, ← hrefill.generation] at hrun
  refine ⟨set, set', hfilled.filled, hfilled'.filled, hrun.image, ⟨_, _, rfl, rfl, hrun.tables⟩, ?_⟩
  simp only [set, set', RegisterSet.filledWith, hrun.patches]
  rw [hstart]

end

section

variable {device : Device σ} {device' : Device τ} {t : Task} {e o : Engine σ} {e' o' : Engine τ}

theorem fillPicture_sameProduct {start start' : RegisterSet RegisterImage}
    (hsame : e.SameSetting e') (hupToDate : e.backend.UpToDate) (hupToDate' : e'.backend.UpToDate)
    (hget : e.backend.sets.get? slot = some start)
    (hget' : e'.backend.sets.get? slot' = some start')
    (hstart : start' = { start with registers := start'.registers, tables := start'.tables })
    (h : e.fillPicture device t slot = (.ok (), o))
    (h' : e'.fillPicture device' t slot' = (.ok (), o')) :
    ∃ set set', o.backend.sets.get? slot = some set ∧ o'.backend.sets.get? slot' = some set' ∧
      o.backend.SameProduct o'.backend slot slot' set set' := by
  obtain ⟨hfollows, hstocked⟩ := hupToDate
  obtain ⟨hfollows', hstocked'⟩ := hupToDate'
  simp only [Backend.regions, hsame.kind.standard, hsame.kind.generation] at hfollows'
  simp only [fillPicture, hsame.kind.standard, hsame.kind.generation] at h'
  simp only [fillPicture] at h
  simp only [Backend.regions] at hfollows
  split at h
  · rename_i hstandard hpicture
    simp only [hstandard, hpicture] at h' hfollows hfollows'
    exact fill_sameProduct (Generation.avc_oblivious _) (Generation.generation_avc _) hsame
      ⟨hfollows, hstocked⟩ ⟨hfollows', hstocked'⟩ hget hget' hstart h h'
  · rename_i hstandard hpicture
    simp only [hstandard, hpicture] at h' hfollows hfollows'
    exact fill_sameProduct (Generation.hevc_oblivious _) (Generation.generation_hevc _) hsame
      ⟨hfollows, hstocked⟩ ⟨hfollows', hstocked'⟩ hget hget' hstart h h'
  · cases h

/-- The set that is acquired for a task is filled unless the task bypasses the hardware. -/
theorem generate_ok (h : (e.generate device t).result = .ok ()) :
    ∃ slot sets, e.backend.sets.acquire? = some (slot, sets) ∧
      (e.generate device t).task.slot = some slot ∧
      if t.mustSkip e.backend.config then
        (e.generate device t).engine = e.withSets (sets.modify slot fun set =>
          { set with skip := true })
      else
        fillPicture device t slot (e.withSets sets) = (.ok (), (e.generate device t).engine) := by
  have hgen := generated device t e
  generalize e.generate device t = o at h hgen
  cases hgen with
  | refused | failed => cases h
  | bypassed _ hskip hacquire =>
    refine ⟨_, _, hacquire, rfl, ?_⟩
    rw [if_pos hskip]
  | filled _ hskip hacquire hfill =>
    refine ⟨_, _, hacquire, rfl, ?_⟩
    rw [hskip]
    exact hfill

/-- Whatever the backends did before, the sets that a task is bound to hold the same; or the task
bypasses the hardware in both, and nothing is made for it. -/
theorem generate_sameProduct (hsame : e.SameSetting e') (hupToDate : e.backend.UpToDate)
    (hupToDate' : e'.backend.UpToDate) (h : (e.generate device t).result = .ok ())
    (h' : (e'.generate device' t).result = .ok ()) :
    ∃ slot slot' set set',
      (e.generate device t).task.slot = some slot ∧
      (e'.generate device' t).task.slot = some slot' ∧
      (e.generate device t).engine.backend.sets.get? slot = some set ∧
      (e'.generate device' t).engine.backend.sets.get? slot' = some set' ∧
      if t.mustSkip e.backend.config then
        e.backend.Spares slot set ∧ e'.backend.Spares slot' set'
      else
        (e.generate device t).engine.backend.SameProduct (e'.generate device' t).engine.backend
          slot slot' set set' := by
  obtain ⟨slot, sets, hacquire, hslot, hend⟩ := generate_ok h
  obtain ⟨slot', sets', hacquire', hslot', hend'⟩ := generate_ok h'
  obtain ⟨before, hbefore, hstart⟩ := RegisterSets.get?_acquire?_self hacquire
  obtain ⟨before', hbefore', hstart'⟩ := RegisterSets.get?_acquire?_self hacquire'
  rw [hsame.config] at hend'
  by_cases hskip : t.mustSkip e.backend.config = true
  · simp only [hskip, if_true] at hend hend' ⊢
    refine ⟨slot, slot', _, _, hslot, hslot', ?_, ?_, ⟨before, hbefore, rfl⟩,
      ⟨before', hbefore', rfl⟩⟩
    · rw [hend, withSets_backend, RegisterSets.get?_modify_self, hstart]
      rfl
    · rw [hend', withSets_backend, RegisterSets.get?_modify_self, hstart']
      rfl
  · simp only [hskip, Bool.false_eq_true, if_false] at hend hend' ⊢
    have hsize := RegisterSets.size_acquire? hacquire
    have hsize' := RegisterSets.size_acquire? hacquire'
    have hsets : (e.withSets sets).SameSetting (e'.withSets sets') := by
      refine ⟨⟨hsame.kind.standard, hsame.kind.generation, ?_⟩, hsame.frames, hsame.config,
        hsame.scratch⟩
      exact hsize'.trans (hsame.kind.size.trans hsize.symm)
    obtain ⟨set, set', hset, hset', hproduct⟩ := fillPicture_sameProduct hsets
      ⟨hupToDate.follows, hsize.symm ▸ hupToDate.stocked⟩
      ⟨hupToDate'.follows, hsize'.symm ▸ hupToDate'.stocked⟩ hstart hstart' rfl hend hend'
    exact ⟨slot, slot', set, set', hslot, hslot', hset, hset', hproduct⟩

end

end Engine

end VideoAccel
