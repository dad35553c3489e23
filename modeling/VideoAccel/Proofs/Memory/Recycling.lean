import VideoAccel.Memory.Group

namespace VideoAccel

def Memory.IsZero (m : Memory) : Prop := ∀ i, m.byte i = 0

theorem Memory.isZero_zeroed (m : Memory) : m.zeroed.IsZero := by
  intro i
  rfl

/-- The buffer serves a request for a purpose and a size. -/
def DeviceBuffer.Serves (purpose : Purpose) (size : Nat) (b : DeviceBuffer) : Prop :=
  b.purpose = purpose ∧ b.size = size

instance (purpose : Purpose) (size : Nat) (b : DeviceBuffer) : Decidable (b.Serves purpose size) :=
  inferInstanceAs (Decidable (_ ∧ _))

theorem takeIdle?_eq_some {purpose : Purpose} {size : Nat} {idle rest : List DeviceBuffer}
    {b : DeviceBuffer} (h : takeIdle? purpose size idle = some (b, rest)) :
    ∃ before after, idle = before ++ b :: after ∧ rest = before ++ after ∧
      b.Serves purpose size ∧ ∀ c ∈ before, ¬ c.Serves purpose size := by
  induction idle generalizing rest with
  | nil => cases h
  | cons first idle ih =>
    unfold takeIdle? at h
    by_cases hfirst : first.purpose = purpose ∧ first.size = size
    · rw [if_pos hfirst] at h
      cases h
      exact ⟨[], idle, rfl, rfl, hfirst, nofun⟩
    · rw [if_neg hfirst] at h
      obtain ⟨⟨found, others⟩, hfound, heq⟩ := Option.map_eq_some_iff.1 h
      obtain ⟨rfl, rfl⟩ := Prod.mk.inj heq
      obtain ⟨before, after, rfl, rfl, hb, hbefore⟩ := ih hfound
      exact ⟨first :: before, after, rfl, rfl, hb, List.forall_mem_cons.2 ⟨hfirst, hbefore⟩⟩

theorem takeIdle?_eq_none {purpose : Purpose} {size : Nat} {idle : List DeviceBuffer}
    (h : takeIdle? purpose size idle = none) : ∀ c ∈ idle, ¬ c.Serves purpose size := by
  induction idle with
  | nil => exact nofun
  | cons first idle ih =>
    unfold takeIdle? at h
    by_cases hfirst : first.purpose = purpose ∧ first.size = size
    · rw [if_pos hfirst] at h
      cases h
    · rw [if_neg hfirst, Option.map_eq_none_iff] at h
      exact List.forall_mem_cons.2 ⟨hfirst, ih h⟩

/-- Memory of the requested size, every byte zero. -/
def MemorySource.IsZeroFilled {σ : Type} (source : MemorySource σ) : Prop :=
  ∀ size s m, (source.allocate size s).1 = .ok m → m.size = size ∧ m.IsZero

def MemorySource.IsExact {σ : Type} (source : MemorySource σ) : Prop :=
  ∀ size s m, (source.allocate size s).1 = .ok m → m.size = size

theorem MemorySource.IsZeroFilled.isExact {σ : Type} {source : MemorySource σ}
    (h : source.IsZeroFilled) : source.IsExact :=
  fun size s m hm => (h size s m hm).1

namespace BufferGroup

variable {σ : Type} {source : MemorySource σ} {purpose : Purpose} {size : Nat} {g : BufferGroup}
  {s : σ}

inductive GetOutcome (source : MemorySource σ) (purpose : Purpose) (size : Nat) (g : BufferGroup)
    (s : σ) : Except AllocError DeviceBuffer × BufferGroup × σ → Prop
  | zeroSize (hsize : size = 0) : GetOutcome source purpose size g s (.error .zeroSize, g, s)
  | recycled (before after : List DeviceBuffer) (b : DeviceBuffer) (hsize : size ≠ 0)
      (hidle : g.idle = before ++ b :: after) (hserves : b.Serves purpose size)
      (hbefore : ∀ c ∈ before, ¬ c.Serves purpose size) :
      GetOutcome source purpose size g s
        (.ok b, { g with idle := before ++ after, outstanding := g.outstanding + 1 }, s)
  | refused (e : AllocError) (s' : σ) (hsize : size ≠ 0)
      (hnone : ∀ c ∈ g.idle, ¬ c.Serves purpose size)
      (hallocate : source.allocate size s = (.error e, s')) :
      GetOutcome source purpose size g s (.error e, g, s')
  | allocated (m : Memory) (s' : σ) (hsize : size ≠ 0)
      (hnone : ∀ c ∈ g.idle, ¬ c.Serves purpose size)
      (hallocate : source.allocate size s = (.ok m, s')) :
      GetOutcome source purpose size g s
        (.ok ⟨m, purpose⟩, { g with outstanding := g.outstanding + 1 }, s')

theorem get_outcome (source : MemorySource σ) (purpose : Purpose) (size : Nat) (g : BufferGroup)
    (s : σ) : GetOutcome source purpose size g s (g.get source purpose size s) := by
  unfold get
  by_cases hsize : size = 0
  · rw [if_pos hsize]
    exact .zeroSize hsize
  · rw [if_neg hsize]
    cases htake : takeIdle? purpose size g.idle with
    | some found =>
      obtain ⟨before, after, hidle, hrest, hserves, hbefore⟩ := takeIdle?_eq_some htake
      simp only [hrest]
      exact .recycled before after found.1 hsize hidle hserves hbefore
    | none =>
      have hnone := takeIdle?_eq_none htake
      rcases hallocate : source.allocate size s with ⟨e | m, s'⟩
      · exact .refused e s' hsize hnone hallocate
      · exact .allocated m s' hsize hnone hallocate

theorem get_serves (hexact : source.IsExact) {g' : BufferGroup} {s' : σ} {b : DeviceBuffer}
    (h : g.get source purpose size s = (.ok b, g', s')) : b.Serves purpose size := by
  have houtcome := g.get_outcome source purpose size s
  rw [h] at houtcome
  cases houtcome with
  | recycled _ _ _ _ _ hserves => exact hserves
  | allocated m _ _ _ hallocate =>
    exact ⟨rfl, hexact size s m (congrArg Prod.fst hallocate)⟩

theorem getMany_serves (hexact : source.IsExact) (purpose : Purpose) (size count : Nat)
    (g : BufferGroup) (s : σ) :
    ∀ b ∈ (g.getMany source purpose size count s).2.1, b.Serves purpose size := by
  induction count generalizing g s with
  | zero =>
    intro b hb
    cases hb
  | succ count ih =>
    simp only [getMany]
    rcases hget : g.get source purpose size s with ⟨e | b, g', s'⟩
    · exact nofun
    · exact List.forall_mem_cons.2 ⟨get_serves hexact hget, ih g' s'⟩

end BufferGroup

end VideoAccel
