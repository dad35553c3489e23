import VideoAccel.Proofs.Auxiliary.Cache
import VideoAccel.Proofs.Auxiliary.Failure
import VideoAccel.Proofs.Memory.Conservation
import VideoAccel.Proofs.Platform.Accounts

namespace VideoAccel

variable {σ : Type}

namespace AuxBuffers

/-- The cache holds this layout, which is the one of the key, and the buffers it takes. -/
structure Fits (formulas : List RegionFormula) (key : LayoutKey) (layout : AuxLayout)
    (a : AuxBuffers) : Prop where
  computed : AuxLayout.compute? formulas key = .ok layout
  cached : a.layout = some layout
  count : a.buffers.length = if 0 < layout.totalSize then max key.pipelineDepth 1 else 0
  served : ∀ b ∈ a.buffers, b.Serves .auxiliary layout.totalSize

/-- No two buffers have one handle, and no two of several register sets share a buffer. -/
structure Apart (key : LayoutKey) (a : AuxBuffers) : Prop where
  nodup : (a.buffers.map DeviceBuffer.handle).Nodup
  injective : 1 < key.pipelineDepth → ∀ i j b c, a.buffer? i = some b → a.buffer? j = some c →
    b.handle = c.handle → i = j

section

variable {source : MemorySource σ} {formulas : List RegionFormula} {key : LayoutKey}
  {layout : AuxLayout} {a : AuxBuffers} {group : BufferGroup} {s : σ}

theorem refresh_of_key (hkey : a.key = some key) :
    a.refresh source formulas key group s = ⟨.ok false, a, group, s⟩ := by
  have hneeds : a.needsRefresh key = false := by simp [needsRefresh, hkey]
  rw [refresh, hneeds]
  rfl

theorem refresh_eq_ok_false :
    (a.refresh source formulas key group s).result = .ok false ↔ a.key = some key := by
  constructor
  · intro hresult
    have hend := refresh_end source formulas key a group s
    generalize a.refresh source formulas key group s = r at hend hresult
    cases hend with
    | kept hkey => exact hkey
    | failed => cases hresult
    | obtained => cases hresult
  · intro hkey
    rw [refresh_of_key hkey]

theorem key_of_refresh_error {e : AllocError}
    (h : (a.refresh source formulas key group s).result = .error e) :
    (a.refresh source formulas key group s).buffers.key = none := by
  have hend := refresh_end source formulas key a group s
  generalize a.refresh source formulas key group s = r at hend h
  cases hend with
  | kept => cases h
  | failed hkey => exact hkey
  | obtained => cases h

/-- After a refresh the key is the one that it was for if it succeeded, and there is none if not. -/
theorem key_refresh_iff {key' : LayoutKey} :
    (a.refresh source formulas key group s).buffers.key = some key' ↔
      key = key' ∧ ∃ changed, (a.refresh source formulas key group s).result = .ok changed := by
  constructor
  · intro hkey'
    cases hresult : (a.refresh source formulas key group s).result with
    | error e => cases (key_of_refresh_error hresult).symm.trans hkey'
    | ok changed =>
      exact ⟨Option.some.inj ((key_of_refresh hresult).symm.trans hkey'), changed, rfl⟩
  · rintro ⟨rfl, changed, hresult⟩
    exact key_of_refresh hresult

theorem fits_of_refresh (hexact : source.IsExact)
    (h : (a.refresh source formulas key group s).result = .ok true) :
    ∃ layout, (a.refresh source formulas key group s).buffers.Fits formulas key layout := by
  simp only [refresh] at h ⊢
  split at h
  · rename_i hneeds
    rw [if_pos hneeds]
    cases hcompute : AuxLayout.compute? formulas key with
    | error f =>
      rw [hcompute] at h
      cases h
    | ok layout =>
      simp only [hcompute, obtain] at h ⊢
      split at h <;> rename_i hget
      · cases h
      · have hlength := BufferGroup.length_getMany _ _ _ _ _ _ (congrArg Prod.fst hget)
        have hserves := BufferGroup.getMany_serves hexact .auxiliary layout.totalSize
          (if 0 < layout.totalSize then max key.pipelineDepth 1 else 0)
          (group.giveMany source a.buffers s).1 (group.giveMany source a.buffers s).2
        rw [hget] at hlength hserves
        exact ⟨layout, hcompute, rfl, hlength, hserves⟩
  · cases h

theorem Fits.buffer?_isSome (h : a.Fits formulas key layout) (hsize : 0 < layout.totalSize)
    {slot : Nat} (hslot : slot < key.pipelineDepth) : (a.buffer? slot).isSome = true := by
  have hstocked : a.Stocked key.pipelineDepth := by
    intro layout' hlayout'
    obtain rfl := Option.some.inj (h.cached.symm.trans hlayout')
    exact h.count
  rw [hstocked.buffer?_isSome h.cached hslot]
  exact decide_eq_true hsize

theorem Fits.apart (h : a.Fits formulas key layout)
    (hnodup : (a.buffers.map DeviceBuffer.handle).Nodup) : a.Apart key := by
  refine ⟨hnodup, fun hdepth i j b c hb hc heq => ?_⟩
  by_cases hsize : 0 < layout.totalSize
  · have hlength := h.count
    rw [if_pos hsize] at hlength
    rw [buffer?_eq_getElem? (by omega)] at hb hc
    have hi : (a.buffers.map DeviceBuffer.handle)[i]? = some b.handle := by
      rw [List.getElem?_map, hb]
      rfl
    have hj : (a.buffers.map DeviceBuffer.handle)[j]? = some b.handle := by
      rw [List.getElem?_map, hc, heq]
      rfl
    have hlt := (List.getElem?_eq_some_iff.1 hi).1
    exact (List.getElem?_inj hlt hnodup).1 (hi.trans hj.symm)
  · -- an empty layout gives a buffer to nobody
    have hlength := h.count
    rw [if_neg hsize, List.length_eq_zero_iff] at hlength
    simp [buffer?, hlength] at hb

end

theorem Fits.layout_eq {formulas : List RegionFormula} {key : LayoutKey}
    {layout layout' : AuxLayout} {a a' : AuxBuffers} (h : a.Fits formulas key layout)
    (h' : a'.Fits formulas key layout') :
    a.layout = a'.layout := by
  have hsame := Except.ok.inj (h.computed.symm.trans h'.computed)
  rw [h.cached, h'.cached, hsame]

end AuxBuffers

/-- A cache, the group it shares with others and the buffers that those have, with the answers to
all refreshes so far, the latest first. -/
structure CacheRun (σ : Type) where
  cache : AuxBuffers := {}
  others : List DeviceBuffer := []
  group : BufferGroup := {}
  state : σ
  answers : List (LayoutKey × Except AllocError Bool) := []

namespace CacheRun

/-- What a refresh for a key does now. -/
def refreshed (source : MemorySource σ) (formulas : List RegionFormula) (key : LayoutKey)
    (r : CacheRun σ) : AuxBuffers.Refreshed σ :=
  r.cache.refresh source formulas key r.group r.state

def refresh (source : MemorySource σ) (formulas : List RegionFormula) (key : LayoutKey)
    (r : CacheRun σ) : CacheRun σ :=
  let answer := r.refreshed source formulas key
  { r with
    cache := answer.buffers
    group := answer.group
    state := answer.state
    answers := (key, answer.result) :: r.answers }

/-- A refresh with any key, or something that others do with the group. -/
inductive Step (source : MemorySource σ) (formulas : List RegionFormula) :
    CacheRun σ → CacheRun σ → Prop
  | refresh (key : LayoutKey) (r : CacheRun σ) :
    Step source formulas r (r.refresh source formulas key)
  | deal {r : CacheRun σ} {others : List DeviceBuffer} {group : BufferGroup} {state : σ} :
    Deal source ⟨r.others, r.group, r.state⟩ ⟨others, group, state⟩ →
      Step source formulas r { r with others, group, state }
  | trim (r : CacheRun σ) :
    Step source formulas r
      { r with
        group := (r.group.trim source r.state).1
        state := (r.group.trim source r.state).2 }
  | refer (references : Nat) (r : CacheRun σ) :
    Step source formulas r { r with group := { r.group with references } }

/-- Any number of steps from an unused cache of a new group, with all memory on record. -/
abbrev Reaches (source : MemorySource σ) (id : Nat) (formulas : List RegionFormula) (s : σ)
    (r : CacheRun (Logged σ)) : Prop :=
  Relation.ReflTransGen (Step (source.logged id) formulas) { state := ⟨s, []⟩ } r

/-- The last refresh was for this key and succeeded. -/
def Current (r : CacheRun σ) (key : LayoutKey) : Prop :=
  ∃ changed, r.answers.head? = some (key, .ok changed)

/-- The memory of everyone's buffers, and of the idle ones. -/
def memory (id : Nat) (r : CacheRun (Logged σ)) : Multiset MemoryTag :=
  Holding.memory id ⟨r.cache.buffers ++ r.others, r.group, r.state⟩

/-- The key of a cache is that of the last refresh if it succeeded, what is cached fits the key, and
all memory is in someone's hands or idle. -/
structure Coherent (id : Nat) (formulas : List RegionFormula) (r : CacheRun (Logged σ)) : Prop where
  key : ∀ key, r.cache.key = some key ↔ r.Current key
  fits : ∀ key, r.cache.key = some key → ∃ layout, r.cache.Fits formulas key layout
  acquired : Acquired [] r.state.calls 0 (r.memory id)

section

variable {source : MemorySource σ} {id : Nat} {formulas : List RegionFormula} {s : σ}
  {r r' : CacheRun (Logged σ)}

theorem memory_eq (r : CacheRun (Logged σ)) :
    r.memory id = Holding.memory id ⟨r.others, r.group, r.state⟩ +
      ↑(r.cache.buffers.map fun b => b.memory.tag id) := by
  rw [memory, Holding.memory, Holding.memory, List.append_assoc, List.map_append, add_comm,
    Multiset.coe_add]

theorem current_refresh_iff {key key' : LayoutKey} :
    (r.refresh (source.logged id) formulas key).Current key' ↔
      key = key' ∧
        ∃ changed, (r.refreshed (source.logged id) formulas key).result = .ok changed := by
  constructor
  · rintro ⟨changed, hhead⟩
    obtain ⟨hkey, hresult⟩ := Prod.mk.inj (Option.some.inj hhead)
    exact ⟨hkey, changed, hresult⟩
  · rintro ⟨rfl, changed, hresult⟩
    exact ⟨changed, congrArg (fun result => some (key, result)) hresult⟩

theorem acquired_refresh (key : LayoutKey) (h : Acquired [] r.state.calls 0 (r.memory id)) :
    Acquired [] (r.refresh (source.logged id) formulas key).state.calls 0
      ((r.refresh (source.logged id) formulas key).memory id) := by
  have htransfer :=
    r.cache.refresh_transfer (source.logged id) formulas key r.others r.group r.state
  rw [← add_zero (r.memory id)] at h
  have hmore := htransfer.acquired h
  rwa [add_zero] at hmore

theorem Coherent.refresh (hexact : (source.logged id).IsExact) (h : r.Coherent id formulas)
    (key : LayoutKey) : (r.refresh (source.logged id) formulas key).Coherent id formulas := by
  refine ⟨fun key' => AuxBuffers.key_refresh_iff.trans current_refresh_iff.symm, ?_,
    acquired_refresh key h.acquired⟩
  intro key' hkey'
  obtain ⟨rfl, changed, hresult⟩ := AuxBuffers.key_refresh_iff.1 hkey'
  cases changed with
  | true => exact AuxBuffers.fits_of_refresh hexact hresult
  | false =>
    -- nothing was done, so what is cached was cached for this key before
    have hsame := AuxBuffers.refresh_eq_ok_false.1 hresult
    have hkept : r.refreshed (source.logged id) formulas key =
        ⟨.ok false, r.cache, r.group, r.state⟩ := AuxBuffers.refresh_of_key hsame
    rw [CacheRun.refresh, hkept]
    exact h.fits key hsame

theorem Coherent.step (hexact : (source.logged id).IsExact) (h : r.Coherent id formulas)
    (hstep : Step (source.logged id) formulas r r') : r'.Coherent id formulas := by
  cases hstep with
  | refresh key => exact h.refresh hexact key
  | deal hdeal =>
    refine ⟨h.key, h.fits, ?_⟩
    have hacquired := h.acquired
    rw [memory_eq] at hacquired ⊢
    exact hdeal.acquired hacquired
  | trim =>
    refine ⟨h.key, h.fits, ?_⟩
    have hacquired := h.acquired
    rw [memory_eq] at hacquired ⊢
    exact BufferGroup.acquired_trim hacquired
  | refer references => exact ⟨h.key, h.fits, h.acquired⟩

theorem coherent_of_reaches (hexact : (source.logged id).IsExact)
    (hreaches : Reaches source id formulas s r) : r.Coherent id formulas := by
  induction hreaches with
  | refl =>
    refine ⟨fun key => ⟨nofun, ?_⟩, nofun, Acquired.refl []⟩
    rintro ⟨_, hhead⟩
    cases hhead
  | tail _ hstep ih => exact ih.step hexact hstep

theorem Coherent.nodup (h : r.Coherent id formulas) (hfresh : FreshAllocations r.state.calls) :
    (r.cache.buffers.map DeviceBuffer.handle).Nodup := by
  have hnodup := hfresh.nodup_handles h.acquired.liveMemory_eq
  rw [List.append_assoc, List.map_append] at hnodup
  exact (List.nodup_append.1 hnodup).1

end

/-- Whatever keys were used before, a refresh that succeeds leaves the layout of its key with a
buffer for every register set, and it changes nothing exactly if the last one succeeded with the
same key. -/
theorem refresh_coherent {source : MemorySource σ} {id : Nat} {formulas : List RegionFormula}
    {s : σ} {r : CacheRun (Logged σ)} (hexact : source.IsExact)
    (hreaches : Reaches source id formulas s r) (key : LayoutKey) :
    let answer := r.refreshed (source.logged id) formulas key
    (answer.result = .ok false ↔ r.Current key) ∧
      (answer.result = .ok false → answer = ⟨.ok false, r.cache, r.group, r.state⟩) ∧
      ∀ changed, answer.result = .ok changed →
        ∃ layout, answer.buffers.Fits formulas key layout ∧
          (0 < layout.totalSize →
            ∀ slot < key.pipelineDepth, (answer.buffers.buffer? slot).isSome = true) ∧
          (FreshAllocations answer.state.calls → answer.buffers.Apart key) ∧
          ∀ (s' : σ) (r' : CacheRun (Logged σ)) (changed' : Bool),
            Reaches source id formulas s' r' →
            (r'.refreshed (source.logged id) formulas key).result = .ok changed' →
            (r'.refreshed (source.logged id) formulas key).buffers.layout =
              answer.buffers.layout := by
  intro answer
  have hlogged : (source.logged id).IsExact := fun size s m hm => hexact size s.state m hm
  have hcoherent := coherent_of_reaches hlogged hreaches
  -- a refresh that succeeds is one more step, and it has the key afterwards
  have hfits : ∀ {s' : σ} {r' : CacheRun (Logged σ)} {changed : Bool},
      Reaches source id formulas s' r' →
      (r'.refreshed (source.logged id) formulas key).result = .ok changed →
      ∃ layout,
        (r'.refreshed (source.logged id) formulas key).buffers.Fits formulas key layout := by
    intro s' r' changed hreaches' hresult
    have hnext := (coherent_of_reaches hlogged hreaches').refresh hlogged key
    exact hnext.fits key (AuxBuffers.key_of_refresh hresult)
  refine ⟨?_, fun hresult => ?_, fun changed hresult => ?_⟩
  · exact AuxBuffers.refresh_eq_ok_false.trans (hcoherent.key key)
  · exact AuxBuffers.refresh_of_key (AuxBuffers.refresh_eq_ok_false.1 hresult)
  · obtain ⟨layout, hlayout⟩ := hfits hreaches hresult
    refine ⟨layout, hlayout, fun hsize slot hslot => hlayout.buffer?_isSome hsize hslot,
      fun hfresh => ?_, fun s' r' changed' hreaches' hresult' => ?_⟩
    · exact hlayout.apart ((hcoherent.refresh hlogged key).nodup hfresh)
    · obtain ⟨layout', hlayout'⟩ := hfits hreaches' hresult'
      exact hlayout'.layout_eq hlayout

def refused : CacheRun (Logged Heap) :=
  CacheRun.refresh (Heap.source.logged 1) AuxBuffers.pageFormulas ⟨⟨16, 16⟩, 8, .yuv420, 4⟩
    { state := ⟨{ budget := some 12288 }, []⟩ }

def recovered : CacheRun (Logged Heap) :=
  refused.refresh (Heap.source.logged 1) AuxBuffers.pageFormulas AuxBuffers.oneMacroblock

theorem refresh_coherent_recovered :
    let answer := recovered.refreshed (Heap.source.logged 1) AuxBuffers.pageFormulas
      AuxBuffers.oneMacroblock
    recovered.answers.map Prod.snd = [.ok true, .error (.outOfMemory 4096)] ∧
      answer.result = .ok false ∧ answer.buffers.buffers.length = 3 ∧
      recovered.Current AuxBuffers.oneMacroblock ∧
      answer.buffers.Apart AuxBuffers.oneMacroblock := by
  have hreaches :
      Reaches Heap.source 1 AuxBuffers.pageFormulas { budget := some 12288 } recovered :=
    (Relation.ReflTransGen.single (.refresh _ _)).tail (.refresh _ _)
  obtain ⟨hiff, -, hok⟩ := refresh_coherent Heap.source_isZeroFilled.isExact hreaches
    AuxBuffers.oneMacroblock
  have hresult : (recovered.refreshed (Heap.source.logged 1) AuxBuffers.pageFormulas
      AuxBuffers.oneMacroblock).result = .ok false := by decide +kernel
  obtain ⟨-, -, -, hapart, -⟩ := hok false hresult
  exact ⟨by decide +kernel, hresult, by decide +kernel, hiff.1 hresult, hapart (by decide +kernel)⟩

end CacheRun

end VideoAccel
