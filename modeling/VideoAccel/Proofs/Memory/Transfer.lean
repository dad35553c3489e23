import Mathlib.Data.List.Perm.Basic
import Mathlib.Logic.Relation
import VideoAccel.Auxiliary.Cache
import VideoAccel.Motion

namespace VideoAccel

variable {σ : Type}

def DeviceBuffer.identity (b : DeviceBuffer) : UInt32 × Nat × Purpose :=
  (b.handle, b.size, b.purpose)

/-- Buffers in someone's hands, the group they belong to, and the state of the memory source. -/
structure Holding (σ : Type) where
  held : List DeviceBuffer
  group : BufferGroup
  state : σ

inductive Deal (source : MemorySource σ) : Holding σ → Holding σ → Prop
  | get {held g s purpose size b g' s'} :
    g.get source purpose size s = (.ok b, g', s') → Deal source ⟨held, g, s⟩ ⟨b :: held, g', s'⟩
  | refuse {held g s purpose size error g' s'} :
    g.get source purpose size s = (.error error, g', s') → Deal source ⟨held, g, s⟩ ⟨held, g', s'⟩
  | give {b held g s} :
    Deal source ⟨b :: held, g, s⟩ ⟨held, (g.give source b s).1, (g.give source b s).2⟩
  | sort {held held' g s} :
    (held.map DeviceBuffer.identity).Perm (held'.map DeviceBuffer.identity) →
      Deal source ⟨held, g, s⟩ ⟨held', g, s⟩

abbrev Transfer (source : MemorySource σ) : Holding σ → Holding σ → Prop :=
  Relation.ReflTransGen (Deal source)

theorem Deal.keeps {source : MemorySource σ} {P : σ → Prop}
    (hallocate : ∀ size s, P s → P (source.allocate size s).2)
    (hfree : ∀ m s, P s → P (source.free m s))
    {h h' : Holding σ} (hdeal : Deal source h h') (hP : P h.state) : P h'.state := by
  have hget : ∀ {purpose size g s r},
      BufferGroup.get source purpose size g s = r → P s → P r.2.2 := by
    intro purpose size g s r hr hs
    have halloc := hallocate size s hs
    subst hr
    unfold BufferGroup.get
    split
    · exact hs
    · split
      · exact hs
      · split <;> simp_all
  cases hdeal with
  | get hg | refuse hg => exact hget hg hP
  | give =>
    simp only [BufferGroup.give]
    split
    · exact hP
    · exact hfree _ _ hP
  | sort _ => exact hP

theorem Transfer.keeps {source : MemorySource σ} {P : σ → Prop}
    (hallocate : ∀ size s, P s → P (source.allocate size s).2)
    (hfree : ∀ m s, P s → P (source.free m s))
    {h h' : Holding σ} (htransfer : Transfer source h h') (hP : P h.state) : P h'.state := by
  induction htransfer with
  | refl => exact hP
  | tail _ hdeal ih => exact hdeal.keeps hallocate hfree ih

theorem Transfer.sort {source : MemorySource σ} {held held' : List DeviceBuffer} {g : BufferGroup}
    {s : σ} (h : (held.map DeviceBuffer.identity).Perm (held'.map DeviceBuffer.identity)) :
    Transfer source ⟨held, g, s⟩ ⟨held', g, s⟩ :=
  .single (.sort h)

theorem Transfer.perm {source : MemorySource σ} {held held' : List DeviceBuffer} {g : BufferGroup}
    {s : σ} (h : held.Perm held') : Transfer source ⟨held, g, s⟩ ⟨held', g, s⟩ :=
  .sort (h.map _)

namespace BufferGroup

theorem getMany_transfer (source : MemorySource σ) (purpose : Purpose) (size count : Nat)
    (held : List DeviceBuffer) (g : BufferGroup) (s : σ) :
    let r := g.getMany source purpose size count s
    Transfer source ⟨held, g, s⟩ ⟨r.2.1 ++ held, r.2.2.1, r.2.2.2⟩ := by
  induction count generalizing held g s with
  | zero => exact .refl
  | succ count ih =>
    simp only [getMany]
    split
    · rename_i hget
      exact .single (.refuse hget)
    · rename_i b g' s' hget
      have hrest := ih (b :: held) g' s'
      exact .head (.get hget) (hrest.trans (Transfer.perm List.perm_middle))

theorem giveMany_transfer (source : MemorySource σ) (bs held : List DeviceBuffer) (g : BufferGroup)
    (s : σ) :
    Transfer source ⟨bs ++ held, g, s⟩
      ⟨held, (g.giveMany source bs s).1, (g.giveMany source bs s).2⟩ := by
  induction bs generalizing g s with
  | nil => rw [giveMany_nil]; exact .refl
  | cons b bs ih =>
    rw [giveMany_cons]
    exact .head .give (ih _ _)

theorem length_getMany_le (source : MemorySource σ) (purpose : Purpose) (size count : Nat)
    (g : BufferGroup) (s : σ) : (g.getMany source purpose size count s).2.1.length ≤ count := by
  induction count generalizing g s with
  | zero => exact Nat.le_refl 0
  | succ count ih =>
    simp only [getMany]
    split
    · exact Nat.zero_le _
    · exact Nat.succ_le_succ (ih _ _)

theorem length_getMany (source : MemorySource σ) (purpose : Purpose) (size count : Nat)
    (g : BufferGroup) (s : σ) (h : (g.getMany source purpose size count s).1 = none) :
    (g.getMany source purpose size count s).2.1.length = count := by
  induction count generalizing g s with
  | zero => rfl
  | succ count ih =>
    simp only [getMany] at h ⊢
    split at h
    · cases h
    · rename_i hget
      simp [ih _ _ h]

end BufferGroup

theorem AuxBuffers.refresh_transfer (source : MemorySource σ) (formulas : List RegionFormula)
    (key : LayoutKey) (a : AuxBuffers) (held : List DeviceBuffer) (g : BufferGroup) (s : σ) :
    let r := a.refresh source formulas key g s
    Transfer source ⟨a.buffers ++ held, g, s⟩ ⟨r.buffers.buffers ++ held, r.group, r.state⟩ := by
  have hgive := g.giveMany_transfer source a.buffers held s
  simp only [refresh]
  split
  · split
    · exact hgive
    · rename_i layout _
      have hget := BufferGroup.getMany_transfer source .auxiliary layout.totalSize
        (if 0 < layout.totalSize then max key.pipelineDepth 1 else 0) held
        (g.giveMany source a.buffers s).1 (g.giveMany source a.buffers s).2
      simp only [obtain]
      split <;> rename_i hr <;> rw [hr] at hget <;> exact hgive.trans hget
  · exact .refl

theorem MotionPool.ensure_transfer (source : MemorySource σ) (count size : Nat) (p : MotionPool)
    (held : List DeviceBuffer) (g : BufferGroup) (s : σ) :
    let r := p.ensure source count size g s
    Transfer source ⟨p.stores ++ held, g, s⟩ ⟨r.2.1.stores ++ held, r.2.2.1, r.2.2.2⟩ := by
  have hgive := g.giveMany_transfer source p.stores held s
  simp only [ensure]
  split
  · split
    · have hget := BufferGroup.getMany_transfer source .motionVectors size count held
        (g.giveMany source p.stores s).1 (g.giveMany source p.stores s).2
      split <;> rename_i hr <;> rw [hr] at hget
      · exact (hgive.trans hget).trans (BufferGroup.giveMany_transfer ..)
      · exact hgive.trans hget
    · exact hgive
  · exact .refl

end VideoAccel
