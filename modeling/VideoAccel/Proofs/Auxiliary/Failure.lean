import VideoAccel.Memory.Heap
import VideoAccel.Proofs.Auxiliary.Cache
import VideoAccel.Proofs.Memory.Accounting

namespace VideoAccel

variable {σ : Type}

namespace BufferGroup

variable {source : MemorySource σ} {purpose : Purpose} {size : Nat}

theorem outstanding_get {g g' : BufferGroup} {s s' : σ} {b : DeviceBuffer}
    (h : g.get source purpose size s = (.ok b, g', s')) : g'.outstanding = g.outstanding + 1 := by
  obtain ⟨idle, _, rfl, _⟩ | ⟨_, _, _, rfl⟩ := get_eq_ok h <;> rfl

theorem outstanding_getMany (source : MemorySource σ) (purpose : Purpose) (size count : Nat)
    (g : BufferGroup) (s : σ) :
    (g.getMany source purpose size count s).2.2.1.outstanding =
      g.outstanding + (g.getMany source purpose size count s).2.1.length := by
  induction count generalizing g s with
  | zero => rfl
  | succ count ih =>
    simp only [getMany]
    rcases hget : g.get source purpose size s with ⟨e | b, g', s'⟩
    · obtain ⟨rfl, _⟩ := get_eq_error hget
      rfl
    · have hrest := ih g' s'
      rw [outstanding_get hget] at hrest
      exact hrest.trans (Nat.add_right_comm ..)

theorem getMany_refused {count : Nat} {g g' : BufferGroup} {s s' : σ} {e : AllocError}
    {got : List DeviceBuffer} (h : g.getMany source purpose size count s = (some e, got, g', s')) :
    got.length < count ∧
      ∃ g₁ s₁, g.getMany source purpose size got.length s = (none, got, g₁, s₁) ∧
        g₁.get source purpose size s₁ = (.error e, g', s') := by
  induction count generalizing g s got with
  | zero => cases h
  | succ count ih =>
    simp only [getMany] at h
    rcases hget : g.get source purpose size s with ⟨e' | b, g₀, s₀⟩ <;> rw [hget] at h
    · cases h
      exact ⟨Nat.succ_pos _, g, s, rfl, hget⟩
    · rcases hmany : g₀.getMany source purpose size count s₀ with ⟨e', bs, g₂, s₂⟩
      simp only [hmany] at h
      cases h
      obtain ⟨hlength, g₁, s₁, hbefore, hrefused⟩ := ih hmany
      refine ⟨Nat.succ_lt_succ hlength, g₁, s₁, ?_, hrefused⟩
      simp only [List.length_cons, getMany, hget, hbefore]

end BufferGroup

namespace AuxBuffers

/-- Nothing is left of the layout that was in use, and nothing has been taken for a new one. -/
structure Emptied (a : AuxBuffers) (group : BufferGroup) (r : Refreshed σ) : Prop where
  layout : r.buffers.layout = none
  buffers : r.buffers.buffers = []
  stale : ∀ key, r.buffers.needsRefresh key = true
  outstanding : r.group.outstanding = group.outstanding - a.buffers.length

/-- The layout cannot be computed, or the first of its buffers cannot be had once the old ones are
given back. -/
def FirstRefused (source : MemorySource σ) (formulas : List RegionFormula) (key : LayoutKey)
    (a : AuxBuffers) (group : BufferGroup) (s : σ) : Prop :=
  match AuxLayout.compute? formulas key, group.giveMany source a.buffers s with
  | .error _, _ => True
  | .ok layout, (group, s) =>
    (group.get source .auxiliary layout.totalSize s).1.isOk = false

/-- Where a refresh failed: before any request, or at one of them. -/
inductive FailedAt (source : MemorySource σ) (formulas : List RegionFormula) (key : LayoutKey)
    (a : AuxBuffers) (group : BufferGroup) (s : σ) (r : Refreshed σ) : Prop
  | layout {f : Fault} (hlayout : AuxLayout.compute? formulas key = .error f)
      (hnone : r.buffers.buffers = [])
      (hgroup : (r.group, r.state) = group.giveMany source a.buffers s)
  | request {layout : AuxLayout} {e : AllocError} {g₀ g₁ : BufferGroup} {s₀ s₁ : σ}
      (hlayout : AuxLayout.compute? formulas key = .ok layout)
      (hgiven : group.giveMany source a.buffers s = (g₀, s₀))
      (hfewer : r.buffers.buffers.length < max key.pipelineDepth 1)
      (hbefore : g₀.getMany source .auxiliary layout.totalSize r.buffers.buffers.length s₀ =
        (none, r.buffers.buffers, g₁, s₁))
      (hrefused : g₁.get source .auxiliary layout.totalSize s₁ = (.error e, r.group, r.state))

variable {source : MemorySource σ} {formulas : List RegionFormula} {key : LayoutKey}
  {a : AuxBuffers} {group : BufferGroup} {s : σ}

theorem failedAt_of_refresh {e : AllocError}
    (h : (a.refresh source formulas key group s).result = .error e) :
    FailedAt source formulas key a group s (a.refresh source formulas key group s) := by
  rcases hgiven : group.giveMany source a.buffers s with ⟨g₀, s₀⟩
  simp only [refresh, hgiven] at h ⊢
  split at h
  · rename_i hneeds
    rw [if_pos hneeds]
    rcases hlayout : AuxLayout.compute? formulas key with f | layout
    · exact .layout hlayout rfl hgiven.symm
    · simp only [hlayout, obtain] at h ⊢
      split at h
      · rename_i e' got g' s' hmany
        obtain ⟨hlength, g₁, s₁, hbefore, hrefused⟩ := BufferGroup.getMany_refused hmany
        refine .request hlayout hgiven ?_ hbefore hrefused
        -- a layout without a byte asks for nothing, so nothing of it is refused
        split at hlength
        · exact hlength
        · exact absurd hlength (Nat.not_lt_zero _)
      · cases h
  · cases h

theorem FailedAt.firstRefused_iff {r : Refreshed σ}
    (h : FailedAt source formulas key a group s r) :
    r.buffers.buffers = [] ↔ FirstRefused source formulas key a group s := by
  cases h with
  | layout hlayout hnone _ => simp [FirstRefused, hlayout, hnone]
  | @request layout e g₀ g₁ s₀ s₁ hlayout hgiven _ hbefore hrefused =>
    simp only [FirstRefused, hlayout, hgiven]
    rcases hbuffers : r.buffers.buffers with _ | ⟨b, rest⟩
    · rw [hbuffers] at hbefore
      obtain ⟨rfl, rfl⟩ : g₀ = g₁ ∧ s₀ = s₁ := by simpa [BufferGroup.getMany] using hbefore
      simp [hrefused, Except.isOk, Except.toBool]
    · -- the first request was met, since the buffer it got is still there
      rw [hbuffers, List.length_cons] at hbefore
      rcases hget : g₀.get source .auxiliary layout.totalSize s₀ with ⟨e' | b', g', s'⟩
      · simp [BufferGroup.getMany, hget] at hbefore
      · simp [Except.isOk, Except.toBool]

theorem FailedAt.outstanding {r : Refreshed σ} (halive : group.isAlive = true)
    (h : FailedAt source formulas key a group s r) :
    r.group.outstanding =
      group.outstanding - a.buffers.length + r.buffers.buffers.length := by
  have hgive : (group.giveMany source a.buffers s).1.outstanding =
      group.outstanding - a.buffers.length := by
    simp only [BufferGroup.giveMany, halive, if_true]
  cases h with
  | layout _ hnone hgroup =>
    rw [← hgroup] at hgive
    rw [hnone]
    exact hgive
  | @request layout e g₀ g₁ s₀ s₁ _ hgiven _ hbefore hrefused =>
    have hmany := BufferGroup.outstanding_getMany source .auxiliary layout.totalSize
      r.buffers.buffers.length g₀ s₀
    rw [hbefore] at hmany
    rw [hgiven] at hgive
    obtain ⟨hkept, _⟩ := BufferGroup.get_eq_error hrefused
    rw [hkept, hmany, hgive]

/-- A failed refresh leaves no layout, and every key asks for another refresh. What it leaves of
buffers are those got before the refused request, fewer than one for each register set, and the
group counts them beside those it had handed out to others. So the cache is empty, with nothing
more outstanding, exactly if no request was met. -/
theorem emptied_iff_of_refresh (halive : group.isAlive = true) {e : AllocError}
    (h : (a.refresh source formulas key group s).result = .error e) :
    let r := a.refresh source formulas key group s
    (Emptied a group r ↔ FirstRefused source formulas key a group s) ∧
      FailedAt source formulas key a group s r ∧
      r.buffers.layout = none ∧ (∀ key', r.buffers.needsRefresh key' = true) ∧
      r.group.outstanding =
        group.outstanding - a.buffers.length + r.buffers.buffers.length := by
  have hfailed := failedAt_of_refresh h
  have hcount := hfailed.outstanding halive
  have hend := refresh_end source formulas key a group s
  have hgone : (a.refresh source formulas key group s).buffers.layout = none ∧
      ∀ key', (a.refresh source formulas key group s).buffers.needsRefresh key' = true := by
    generalize a.refresh source formulas key group s = r at h hend
    cases hend with
    | failed hkey hlayout => exact ⟨hlayout, fun key' => by simp [needsRefresh, hkey]⟩
    | kept | obtained => cases h
  obtain ⟨hlayout, hstale⟩ := hgone
  refine ⟨⟨fun hempty => hfailed.firstRefused_iff.1 hempty.buffers, fun hfirst => ?_⟩, hfailed,
    hlayout, hstale, hcount⟩
  have hnone := hfailed.firstRefused_iff.2 hfirst
  exact ⟨hlayout, hnone, hstale, by rw [hcount, hnone]; rfl⟩

def pageFormulas : List RegionFormula := [⟨.intraRow, .row, 16, 24, false, false⟩]

def oneMacroblock : LayoutKey := ⟨⟨16, 16⟩, 8, .yuv420, 3⟩

/-- The layout has a single page and three are asked for, but there is memory for one only. The
second request is refused. -/
theorem emptied_iff_of_refresh_onePage :
    let r := AuxBuffers.refresh Heap.source pageFormulas oneMacroblock {} {}
      { budget := some 4096 }
    r.result = .error (.outOfMemory 4096) ∧
      (Emptied {} {} r ↔ FirstRefused Heap.source pageFormulas oneMacroblock {} {}
        { budget := some 4096 }) ∧
      r.group.outstanding = 0 - 0 + r.buffers.buffers.length ∧ r.buffers.buffers.length = 1 := by
  have hresult : (AuxBuffers.refresh Heap.source pageFormulas oneMacroblock {} {}
      { budget := some 4096 }).result = .error (.outOfMemory 4096) := by decide
  obtain ⟨hiff, _, _, _, hcount⟩ := emptied_iff_of_refresh (by decide) hresult
  exact ⟨hresult, hiff, hcount, by decide⟩

/-- A failed refresh can leave a buffer in the cache, and outstanding. -/
theorem failed_refresh_keeps_buffer :
    ∃ (source : MemorySource Heap) (formulas : List RegionFormula) (key : LayoutKey)
      (a : AuxBuffers) (group : BufferGroup) (s : Heap) (e : AllocError),
      group.isAlive = true ∧ (a.refresh source formulas key group s).result = .error e ∧
        ¬ Emptied a group (a.refresh source formulas key group s) := by
  refine ⟨Heap.source, pageFormulas, oneMacroblock, {}, {}, { budget := some 4096 },
    .outOfMemory 4096, by decide, by decide, fun hempty => ?_⟩
  have hnone := hempty.buffers
  revert hnone
  decide

end AuxBuffers

end VideoAccel
