import Mathlib.Data.List.Perm.Subperm
import VideoAccel.Proofs.Memory.Transfer

namespace VideoAccel

variable {σ : Type}

theorem subperm_of_getElem? {α : Type} {l : List α} {i j : Nat} {x y : α} (hi : l[i]? = some x)
    (hj : l[j]? = some y) (hne : i ≠ j) : [x, y].Subperm l := by
  induction l generalizing i j with
  | nil => cases hi
  | cons first l ih =>
    cases i with
    | zero =>
      obtain ⟨j, rfl⟩ := Nat.exists_eq_succ_of_ne_zero (Ne.symm hne)
      obtain rfl := Option.some.inj hi
      have hmem : [y].Subperm l := List.singleton_subperm_iff.2 (List.mem_of_getElem? hj)
      exact (List.subperm_cons _).2 hmem
    | succ i =>
      cases j with
      | zero =>
        obtain rfl := Option.some.inj hj
        have hmem : [x].Subperm l := List.singleton_subperm_iff.2 (List.mem_of_getElem? hi)
        exact (List.Perm.swap ..).subperm.trans ((List.subperm_cons _).2 hmem)
      | succ j =>
        have hrest : [x, y].Subperm l := ih hi hj (fun he => hne (congrArg Nat.succ he))
        exact hrest.trans (List.sublist_cons_self ..).subperm

namespace AuxBuffers

/-- How a refresh for a key ends: what is there fits, or no layout is in use any more, or the layout
of the key has got its buffers. -/
inductive RefreshEnd (formulas : List RegionFormula) (key : LayoutKey) (a : AuxBuffers) :
    Refreshed σ → Prop
  | kept {group s} : a.key = some key → RefreshEnd formulas key a ⟨.ok false, a, group, s⟩
  | failed {error buffers group s} :
    buffers.key = none → buffers.layout = none →
      RefreshEnd formulas key a ⟨.error error, buffers, group, s⟩
  | obtained {got allocations group s} :
    got.length =
        (if 0 < (AuxLayout.compute formulas key).totalSize then max key.pipelineDepth 1 else 0) →
      RefreshEnd formulas key a
        ⟨.ok true,
          { key := some key, layout := some (AuxLayout.compute formulas key), buffers := got
            allocations }, group, s⟩

theorem refresh_end (source : MemorySource σ) (formulas : List RegionFormula) (key : LayoutKey)
    (a : AuxBuffers) (group : BufferGroup) (s : σ) :
    RefreshEnd formulas key a (a.refresh source formulas key group s) := by
  simp only [refresh]
  split
  · split
    · exact .failed rfl rfl
    · rename_i layout hlayout
      simp only [AuxLayout.compute?] at hlayout
      split at hlayout <;> cases hlayout
      simp only [obtain]
      split <;> rename_i hget
      · exact .failed rfl rfl
      · have hlength := BufferGroup.length_getMany _ _ _ _ _ _ (congrArg Prod.fst hget)
        rw [hget] at hlength
        exact .obtained hlength
  · rename_i hneeds
    refine .kept ?_
    simpa only [needsRefresh, bne_iff_ne, ne_eq, Decidable.not_not] using hneeds

def Refreshes (source : MemorySource σ) (formulas : List RegionFormula) (count : Nat)
    (a a' : AuxBuffers) : Prop :=
  a' = a ∨ ∃ key group s, key.pipelineDepth = count ∧
    a' = (a.refresh source formulas key group s).buffers

def bound? (a : AuxBuffers) (slot : Nat) : Option DeviceBuffer :=
  a.layout.bind fun _ => a.buffer? slot

def Shaped (a : AuxBuffers) (count : Nat) : Prop :=
  a.layout.isSome = true → a.buffers = [] ∨ a.buffers.length = max count 1

def Follows (a : AuxBuffers) (formulas : List RegionFormula) : Prop :=
  ∀ key, a.key = some key → a.layout = some (AuxLayout.compute formulas key)

def Stocked (a : AuxBuffers) (count : Nat) : Prop :=
  ∀ layout, a.layout = some layout →
    a.buffers.length = if 0 < layout.totalSize then max count 1 else 0

section

variable {source : MemorySource σ} {formulas : List RegionFormula} {count : Nat}
  {a a' : AuxBuffers}

theorem Shaped.refreshes (h : a.Shaped count) (hrefreshes : Refreshes source formulas count a a') :
    a'.Shaped count := by
  obtain rfl | ⟨key, group, s, rfl, rfl⟩ := hrefreshes
  · exact h
  have hend := refresh_end source formulas key a group s
  generalize a.refresh source formulas key group s = r at hend
  cases hend with
  | kept => exact h
  | failed _ hlayout =>
    intro hsome
    rw [hlayout] at hsome
    cases hsome
  | obtained hlength =>
    intro _
    split at hlength
    · exact .inr hlength
    · exact .inl (List.length_eq_zero_iff.1 hlength)

theorem Follows.refreshes (h : a.Follows formulas)
    (hrefreshes : Refreshes source formulas count a a') : a'.Follows formulas := by
  obtain rfl | ⟨key, group, s, -, rfl⟩ := hrefreshes
  · exact h
  have hend := refresh_end source formulas key a group s
  generalize a.refresh source formulas key group s = r at hend
  cases hend with
  | kept => exact h
  | failed hkey _ =>
    intro key' hkey'
    rw [hkey] at hkey'
    cases hkey'
  | obtained _ =>
    intro key' hkey'
    rw [Option.some.inj hkey']

theorem Stocked.refreshes (h : a.Stocked count)
    (hrefreshes : Refreshes source formulas count a a') : a'.Stocked count := by
  obtain rfl | ⟨key, group, s, rfl, rfl⟩ := hrefreshes
  · exact h
  have hend := refresh_end source formulas key a group s
  generalize a.refresh source formulas key group s = r at hend
  cases hend with
  | kept => exact h
  | failed _ hlayout =>
    intro layout hsome
    rw [hlayout] at hsome
    cases hsome
  | obtained hlength =>
    intro layout hsome
    rw [← Option.some.inj hsome]
    exact hlength

theorem key_of_refresh {key : LayoutKey} {group : BufferGroup} {s : σ} {changed : Bool}
    (h : (a.refresh source formulas key group s).result = .ok changed) :
    (a.refresh source formulas key group s).buffers.key = some key := by
  have hend := refresh_end source formulas key a group s
  generalize a.refresh source formulas key group s = r at h hend
  cases hend with
  | kept hkey => exact hkey
  | failed => cases h
  | obtained => rfl

end

theorem buffer?_eq_getElem? {a : AuxBuffers} (h : 1 < a.buffers.length) (slot : Nat) :
    a.buffer? slot = a.buffers[slot]? := by
  unfold buffer?
  split
  · rename_i hone
    simp [hone] at h
  · rfl

theorem mem_of_bound? {a : AuxBuffers} {slot : Nat} {b : DeviceBuffer}
    (h : a.bound? slot = some b) : b ∈ a.buffers := by
  obtain ⟨_, _, hbuffer⟩ := Option.bind_eq_some_iff.1 h
  unfold buffer? at hbuffer
  split at hbuffer
  · rename_i hone
    obtain rfl := Option.some.inj hbuffer
    simp [hone]
  · exact List.mem_of_getElem? hbuffer

theorem Shaped.subperm {a : AuxBuffers} {count i j : Nat} (h : a.Shaped count) (hcount : 1 < count)
    {x y : DeviceBuffer} (hi : a.bound? i = some x) (hj : a.bound? j = some y) (hne : i ≠ j) :
    [x, y].Subperm a.buffers := by
  obtain ⟨layout, hlayout, hx⟩ := Option.bind_eq_some_iff.1 hi
  obtain ⟨_, _, hy⟩ := Option.bind_eq_some_iff.1 hj
  have hlength : 1 < a.buffers.length := by
    obtain hnil | hfull := h (by simp [hlayout])
    · have hmem := mem_of_bound? hi
      simp [hnil] at hmem
    · omega
  rw [buffer?_eq_getElem? hlength] at hx hy
  exact subperm_of_getElem? hx hy hne

theorem Stocked.buffer?_isSome {a : AuxBuffers} {count slot : Nat} {layout : AuxLayout}
    (h : a.Stocked count) (hlayout : a.layout = some layout) (hslot : slot < count) :
    (a.buffer? slot).isSome = decide (0 < layout.totalSize) := by
  have hlength := h layout hlayout
  by_cases hsize : 0 < layout.totalSize
  · rw [if_pos hsize] at hlength
    rw [decide_eq_true hsize]
    unfold buffer?
    split
    · rfl
    · rw [List.getElem?_eq_getElem (by omega)]
      rfl
  · rw [if_neg hsize, List.length_eq_zero_iff] at hlength
    rw [decide_eq_false hsize]
    simp [buffer?, hlength]

end AuxBuffers

end VideoAccel
