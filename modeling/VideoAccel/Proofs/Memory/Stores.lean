import VideoAccel.Motion
import VideoAccel.Proofs.Memory.Recycling
import VideoAccel.Proofs.Memory.Transfer

namespace VideoAccel.MotionPool

variable {σ : Type} {source : MemorySource σ} {count size : Nat} {p : MotionPool}
  {group : BufferGroup} {s : σ}

inductive EnsureEnd (source : MemorySource σ) (count size : Nat) (p : MotionPool)
    (group : BufferGroup) (s : σ) : Except AllocError Bool × MotionPool × BufferGroup × σ → Prop
  | kept (hfits : p.needsGrowth count size = false) :
      EnsureEnd source count size p group s (.ok false, p, group, s)
  | renewed (stores : List DeviceBuffer) (group' : BufferGroup) (s' : σ)
      (hgrowth : p.needsGrowth count size = true) (hcount : stores.length = count)
      (hserves : source.IsExact → ∀ b ∈ stores, b.Serves .motionVectors size) :
      EnsureEnd source count size p group s (.ok true, ⟨size, stores⟩, group', s')
  | emptied (e : AllocError) (group' : BufferGroup) (s' : σ)
      (hgrowth : p.needsGrowth count size = true) :
      EnsureEnd source count size p group s (.error e, {}, group', s')

theorem ensure_end (source : MemorySource σ) (count size : Nat) (p : MotionPool)
    (group : BufferGroup) (s : σ) :
    EnsureEnd source count size p group s (p.ensure source count size group s) := by
  simp only [ensure]
  split
  · rename_i hgrowth
    split
    · have hlength := BufferGroup.length_getMany source .motionVectors size count
        (group.giveMany source p.stores s).1 (group.giveMany source p.stores s).2
      have hserves := fun hexact : source.IsExact =>
        BufferGroup.getMany_serves hexact .motionVectors size count
          (group.giveMany source p.stores s).1 (group.giveMany source p.stores s).2
      split <;> rename_i hget
      · exact .emptied _ _ _ hgrowth
      · rw [hget] at hlength hserves
        exact .renewed _ _ _ hgrowth (hlength rfl) hserves
    · exact .emptied _ _ _ hgrowth
  · rename_i hfits
    exact .kept (Bool.eq_false_iff.2 hfits)

theorem needsGrowth_eq_false :
    p.needsGrowth count size = false ↔ count ≤ p.stores.length ∧ p.storeSize = size := by
  simp only [needsGrowth, Bool.or_eq_false_iff, decide_eq_false_iff_not, Nat.not_lt,
    bne_eq_false_iff_eq]
  exact and_congr_right fun _ => eq_comm

theorem ensure_ok {p' : MotionPool} {group' : BufferGroup} {s' : σ} {grown : Bool}
    (h : p.ensure source count size group s = (.ok grown, p', group', s')) :
    count ≤ p'.stores.length ∧ p'.storeSize = size := by
  have hend := p.ensure_end source count size group s
  rw [h] at hend
  cases hend with
  | kept hfits => exact needsGrowth_eq_false.1 hfits
  | renewed _ _ _ _ hcount => exact ⟨Nat.le_of_eq hcount.symm, rfl⟩

end VideoAccel.MotionPool
