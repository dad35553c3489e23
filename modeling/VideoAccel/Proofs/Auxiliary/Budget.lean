import VideoAccel.Proofs.Auxiliary.Failure
import VideoAccel.Proofs.Memory.Conservation

namespace VideoAccel

variable {purpose : Purpose} {size budget : Nat}

def bytesOf (bs : List DeviceBuffer) : Nat := (bs.map DeviceBuffer.size).sum

theorem bytesOf_cons (b : DeviceBuffer) (bs : List DeviceBuffer) :
    bytesOf (b :: bs) = b.size + bytesOf bs := List.sum_cons

/-- The buffers that no request for a purpose and a size is met with. -/
def unfit (purpose : Purpose) (size : Nat) (bs : List DeviceBuffer) : List DeviceBuffer :=
  bs.filter fun b => ¬ b.Serves purpose size

theorem bytesOf_eq_unfit (purpose : Purpose) (size : Nat) (bs : List DeviceBuffer) :
    bytesOf bs =
      bytesOf (unfit purpose size bs) + bs.countP (fun b => b.Serves purpose size) * size := by
  induction bs with
  | nil => simp [bytesOf, unfit]
  | cons b bs ih =>
    by_cases hb : b.Serves purpose size
    · have hskip : unfit purpose size (b :: bs) = unfit purpose size bs := by simp [unfit, hb]
      rw [bytesOf_cons, ih, hskip, List.countP_cons_of_pos (by simpa using hb), Nat.succ_mul, hb.2]
      omega
    · have hkeep : unfit purpose size (b :: bs) = b :: unfit purpose size bs := by simp [unfit, hb]
      rw [bytesOf_cons, ih, hkeep, bytesOf_cons, List.countP_cons_of_neg (by simpa using hb)]
      omega

namespace Heap

inductive AllocateOutcome (size : Nat) (h : Heap) : Except AllocError Memory × Heap → Prop
  | zeroSize (hsize : size = 0) : AllocateOutcome size h (.error .zeroSize, h)
  | overflow (hbytes : 2 ^ 64 ≤ h.bytes + size) :
      AllocateOutcome size h (.error (.fault .overflow), h)
  | outOfMemory (hroom : h.hasRoom size = false) :
      AllocateOutcome size h (.error (.outOfMemory size), h)
  | outOfRange (hrange : 2 ^ 63 ≤ size) : AllocateOutcome size h (.error (.fault .outOfRange), h)
  | allocated (hroom : h.hasRoom size = true) :
      AllocateOutcome size h
        (.ok { handle := h.next, size },
          { h with
            next := h.next + 1
            live := h.live + 1
            bytes := h.bytes + size
            made := h.made + 1 })

theorem allocate_outcome (size : Nat) (h : Heap) : AllocateOutcome size h (h.allocate size) := by
  unfold allocate
  split
  · rename_i hsize
    exact .zeroSize hsize
  split
  · rename_i hbytes
    exact .overflow hbytes
  split
  · rename_i hroom
    exact .outOfMemory (by simpa using hroom)
  split
  · rename_i hrange
    refine .outOfRange ?_
    simp only [isAddressable, Nat.mul_one, maxArrayBytes, Bool.not_eq_true',
      decide_eq_false_iff_not, Nat.pow_eq] at hrange
    omega
  · rename_i hroom _
    exact .allocated (by simpa using hroom)

theorem hasRoom_iff {h : Heap} (hbudget : h.budget = some budget) :
    h.hasRoom size = true ↔ h.bytes + size ≤ budget := by
  simp [hasRoom, hbudget]

end Heap

namespace Holding

/-- The buffers in hand and the idle ones. -/
def buffers (h : Holding Heap) : List DeviceBuffer := h.held ++ h.group.idle

/-- No memory has gone back to the heap: it counts that of all buffers, held or idle, within its
budget. -/
structure Hoarded (budget : Nat) (h : Holding Heap) : Prop where
  alive : h.group.isAlive = true
  limited : h.state.budget = some budget
  bytes : h.state.bytes = bytesOf h.buffers
  live : h.state.live = h.buffers.length
  made : h.state.made = h.buffers.length
  within : h.state.bytes ≤ budget

theorem Hoarded.of_perm {h h' : Holding Heap} (hhoarded : h.Hoarded budget)
    (halive : h'.group.isAlive = true) (hstate : h'.state = h.state)
    (hperm : (h.buffers.map DeviceBuffer.size).Perm (h'.buffers.map DeviceBuffer.size)) :
    h'.Hoarded budget := by
  have hlength : h'.buffers.length = h.buffers.length := by
    simpa only [List.length_map] using hperm.length_eq.symm
  refine ⟨halive, ?_, ?_, ?_, ?_, ?_⟩ <;> rw [hstate]
  · exact hhoarded.limited
  · exact hhoarded.bytes.trans hperm.sum_nat
  · exact hhoarded.live.trans hlength.symm
  · exact hhoarded.made.trans hlength.symm
  · exact hhoarded.within

end Holding

theorem Deal.hoarded {h h' : Holding Heap} (hdeal : Deal Heap.source h h')
    (hhoarded : h.Hoarded budget) : h'.Hoarded budget := by
  have halive := hhoarded.alive
  cases hdeal with
  | @get held g s purpose size b g' s' hget =>
    obtain ⟨idle, hperm, rfl, rfl⟩ | ⟨memory, hallocate, rfl, rfl⟩ := BufferGroup.get_eq_ok hget
    · refine hhoarded.of_perm halive rfl (List.Perm.map _ ?_)
      exact (hperm.append_left held).trans List.perm_middle
    · have houtcome := s.allocate_outcome size
      change s.allocate size = _ at hallocate
      rw [hallocate] at houtcome
      obtain ⟨-, hbudget, hbytes, hlive, hmade, -⟩ := hhoarded
      rcases b with ⟨memory, purpose⟩
      cases houtcome with
      | allocated hroom =>
        refine ⟨halive, hbudget, ?_, congrArg Nat.succ hlive, congrArg Nat.succ hmade,
          (Heap.hasRoom_iff hbudget).1 hroom⟩
        exact (congrArg (· + size) hbytes).trans (Nat.add_comm ..)
  | @refuse held g s purpose size error g' s' hget =>
    obtain ⟨rfl, rfl | hallocate⟩ := BufferGroup.get_eq_error hget
    · exact hhoarded
    · rw [Heap.allocate_eq_error hallocate]
      exact hhoarded
  | @give b held g s =>
    change g.isAlive = true at halive
    simp only [BufferGroup.give, halive, if_true]
    refine hhoarded.of_perm halive rfl ?_
    simp only [Holding.buffers, List.map_append, List.map_cons, List.map_nil, ← List.append_assoc]
    exact (List.perm_append_singleton _ _).symm
  | sort hperm =>
    refine hhoarded.of_perm halive rfl ?_
    have hsizes := hperm.map fun identity => identity.2.1
    simp only [List.map_map] at hsizes
    simp only [Holding.buffers, List.map_append]
    exact hsizes.append_right _

theorem Transfer.hoarded {h h' : Holding Heap} (htransfer : Transfer Heap.source h h')
    (hhoarded : h.Hoarded budget) : h'.Hoarded budget := by
  induction htransfer with
  | refl => exact hhoarded
  | tail _ hdeal ih => exact hdeal.hoarded ih

/-- What requests for buffers of one size come to if `total` bytes would be in use by the end. -/
inductive Granted (budget size total : Nat) : Option AllocError → Prop
  | met (hfits : total ≤ budget) : Granted budget size total none
  | refused (hover : budget < total) : Granted budget size total (some (.outOfMemory size))
  | fault {f : Fault} (hrange : 2 ^ 63 ≤ size ∨ 2 ^ 64 ≤ total) :
      Granted budget size total (some (.fault f))

namespace BufferGroup

/-- The idle buffers that serve the request are handed out first, so they make up for as many new
ones. All other memory is kept beside. -/
theorem granted_of_getMany (purpose : Purpose) (hsize : size ≠ 0) (count : Nat) {kept : Nat}
    {g : BufferGroup} {h : Heap} (hbudget : h.budget = some budget) (hwithin : h.bytes ≤ budget)
    (hbytes : h.bytes = kept + (g.idle.countP fun b => b.Serves purpose size) * size) :
    Granted budget size (kept + count * size) (g.getMany Heap.source purpose size count h).1 := by
  induction count generalizing kept g h with
  | zero => exact .met (by omega)
  | succ count ih =>
    have htotal : kept + (count + 1) * size = kept + size + count * size := by
      rw [Nat.succ_mul]
      omega
    -- a request goes to the heap only if no idle buffer serves it, so all bytes are kept
    have hnew : ∀ {answer h'}, (∀ c ∈ g.idle, ¬ c.Serves purpose size) →
        Heap.source.allocate size h = (answer, h') →
        Heap.AllocateOutcome size h (answer, h') ∧ h.bytes = kept ∧
          g.idle.countP (fun b => b.Serves purpose size) = 0 := by
      intro answer h' hnone hallocate
      have hzero : g.idle.countP (fun b => b.Serves purpose size) = 0 := by
        simpa [List.countP_eq_zero] using hnone
      rw [hzero, Nat.zero_mul] at hbytes
      exact ⟨hallocate ▸ h.allocate_outcome size, hbytes, hzero⟩
    have houtcome := g.get_outcome Heap.source purpose size h
    simp only [getMany, htotal]
    generalize g.get Heap.source purpose size h = r at houtcome
    cases houtcome with
    | zeroSize hzero => exact absurd hzero hsize
    | recycled before after b _ hidle hserves =>
      have hone : g.idle.countP (fun b => b.Serves purpose size) =
          (before ++ after).countP (fun b => b.Serves purpose size) + 1 := by
        rw [hidle, List.perm_middle.countP_eq, List.countP_cons_of_pos (by simpa using hserves)]
      rw [hone, Nat.succ_mul] at hbytes
      refine ih hbudget hwithin (hbytes.trans ?_)
      dsimp only
      omega
    | refused e h' _ hnone hallocate =>
      obtain ⟨hanswer, hkept, -⟩ := hnew hnone hallocate
      cases hanswer with
      | zeroSize hzero => exact absurd hzero hsize
      | overflow hover => exact .fault (.inr (by omega))
      | outOfMemory hroom =>
        have hover : ¬ h.bytes + size ≤ budget := by
          rw [← Heap.hasRoom_iff hbudget, hroom]
          exact Bool.false_ne_true
        exact .refused (by omega)
      | outOfRange hrange => exact .fault (.inl hrange)
    | allocated m h' _ hnone hallocate =>
      obtain ⟨hanswer, hkept, hzero⟩ := hnew hnone hallocate
      cases hanswer with
      | allocated hroom =>
        refine ih hbudget ((Heap.hasRoom_iff hbudget).1 hroom) ?_
        simp only [hzero, hkept, Nat.zero_mul, Nat.add_zero]

end BufferGroup

theorem AuxBuffers.result_obtain {σ : Type} (source : MemorySource σ) (layout : AuxLayout)
    (key : LayoutKey) (a : AuxBuffers) (g : BufferGroup) (s : σ) :
    (a.obtain source layout key g s).result =
      (g.getMany source .auxiliary layout.totalSize
        (if 0 < layout.totalSize then max key.pipelineDepth 1 else 0) s).1.elim
          (.ok true) .error := by
  simp only [obtain]
  split <;> rename_i hmany <;> rw [hmany] <;> rfl

/-- A cache with its group and the heap behind it, which nothing else uses. -/
structure HeapCache where
  cache : AuxBuffers := {}
  group : BufferGroup := {}
  heap : Heap
  deriving DecidableEq, Repr

namespace HeapCache

def holding (c : HeapCache) : Holding Heap := ⟨c.cache.buffers, c.group, c.heap⟩

def refreshed (formulas : List RegionFormula) (c : HeapCache) (key : LayoutKey) :
    AuxBuffers.Refreshed Heap :=
  c.cache.refresh Heap.source formulas key c.group c.heap

def step (formulas : List RegionFormula) (c : HeapCache) (key : LayoutKey) : HeapCache :=
  let r := c.refreshed formulas key
  ⟨r.buffers, r.group, r.state⟩

def run (formulas : List RegionFormula) (keys : List LayoutKey) (c : HeapCache) : HeapCache :=
  keys.foldl (step formulas) c

theorem hoarded_step (formulas : List RegionFormula) {c : HeapCache} (key : LayoutKey)
    (hhoarded : c.holding.Hoarded budget) : (c.step formulas key).holding.Hoarded budget := by
  have htransfer := c.cache.refresh_transfer Heap.source formulas key [] c.group c.heap
  simp only [List.append_nil] at htransfer
  exact Transfer.hoarded htransfer hhoarded

theorem hoarded_run (formulas : List RegionFormula) (keys : List LayoutKey) {c : HeapCache}
    (hhoarded : c.holding.Hoarded budget) : (c.run formulas keys).holding.Hoarded budget := by
  induction keys generalizing c with
  | nil => exact hhoarded
  | cons key keys ih => exact ih (hoarded_step formulas key hhoarded)

theorem hoarded_start (budget : Nat) :
    (holding { heap := { budget := some budget } }).Hoarded budget :=
  ⟨rfl, rfl, rfl, rfl, rfl, Nat.zero_le _⟩

/-- A changed key is granted its buffers beside the bytes of all unfit ones. -/
theorem granted_of_refreshed {formulas : List RegionFormula} (hunits : ∀ f ∈ formulas, f.unit ≠ 0)
    {c : HeapCache} (hhoarded : c.holding.Hoarded budget) {key : LayoutKey}
    (hchanged : c.cache.needsRefresh key = true) :
    let size := (AuxLayout.compute formulas key).totalSize
    let kept := bytesOf (unfit .auxiliary size c.holding.buffers)
    ∃ answer, Granted budget size (kept + max key.pipelineDepth 1 * size) answer ∧
      (c.refreshed formulas key).result = answer.elim (.ok true) .error := by
  intro size kept
  have hlayout := AuxLayout.compute?_of_units hunits key
  obtain ⟨halive, hbudget, hbytes, -, -, hwithin⟩ := hhoarded
  change c.group.isAlive = true at halive
  have hsplit := bytesOf_eq_unfit .auxiliary size c.holding.buffers
  change _ = kept + _ at hsplit
  simp only [refreshed, AuxBuffers.refresh, hchanged, if_true, BufferGroup.giveMany, halive,
    hlayout, AuxBuffers.result_obtain]
  refine ⟨_, ?_, rfl⟩
  by_cases hsize : size = 0
  · -- an empty layout asks for nothing
    have hnone : ¬ 0 < (AuxLayout.compute formulas key).totalSize := Nat.not_lt.2 hsize.le
    rw [if_neg hnone]
    refine .met ?_
    rw [hsize, Nat.mul_zero] at hsplit ⊢
    exact (hbytes.trans hsplit) ▸ hwithin
  · have hsome : 0 < (AuxLayout.compute formulas key).totalSize := Nat.pos_of_ne_zero hsize
    rw [if_pos hsome]
    refine BufferGroup.granted_of_getMany .auxiliary hsize _ hbudget hwithin ?_
    refine hbytes.trans (hsplit.trans ?_)
    -- zeroing a buffer on its way back changes neither its purpose nor its size
    have hgiven := List.countP_map (p := fun b => decide (b.Serves .auxiliary size))
      (f := DeviceBuffer.zeroed) (l := c.cache.buffers)
    rw [Holding.buffers, List.countP_append, List.countP_append, hgiven,
      Nat.add_comm (List.countP ..)]
    rfl

/-- Whatever layouts a cache has had, a new one is refused for want of memory exactly if the budget
does not hold its buffers beside all those of other sizes, of which none has gone back to the heap.
So a change that would fit the budget by itself fails exactly if those are in its way. -/
theorem refused_iff_of_run (budget : Nat) (formulas : List RegionFormula) (keys : List LayoutKey)
    (key : LayoutKey) (hunits : ∀ f ∈ formulas, f.unit ≠ 0)
    (hchanged : (run formulas keys { heap := { budget := some budget } }).cache.needsRefresh key =
      true) :
    let c := run formulas keys { heap := { budget := some budget } }
    let size := (AuxLayout.compute formulas key).totalSize
    let need := max key.pipelineDepth 1 * size
    let kept := bytesOf (unfit .auxiliary size c.holding.buffers)
    c.holding.Hoarded budget ∧
      (∃ answer, Granted budget size (kept + need) answer ∧
        (c.refreshed formulas key).result = answer.elim (.ok true) .error) ∧
      (need ≤ budget → budget < 2 ^ 63 →
        ((∃ e, (c.refreshed formulas key).result = .error e) ↔ budget < kept + need)) := by
  have hhoarded := hoarded_run formulas keys (hoarded_start budget)
  generalize run formulas keys { heap := { budget := some budget } } = c at hchanged hhoarded ⊢
  intro c' size need kept
  obtain ⟨answer, hgranted, hresult⟩ := granted_of_refreshed hunits hhoarded hchanged
  refine ⟨hhoarded, ⟨answer, hgranted, hresult⟩, fun hneed hbudget => ?_⟩
  have hkept : kept ≤ budget := by
    have hwithin := hhoarded.within
    rw [hhoarded.bytes, bytesOf_eq_unfit .auxiliary size c.holding.buffers] at hwithin
    exact (Nat.le_add_right ..).trans hwithin
  have hsize : size ≤ need := Nat.le_mul_of_pos_left size (by omega)
  change (∃ e, (c.refreshed formulas key).result = .error e) ↔ _
  rw [hresult]
  cases hgranted with
  | met hfits =>
    refine ⟨fun ⟨_, he⟩ => (nomatch he), fun hover => ?_⟩
    exact absurd hover (Nat.not_lt.2 hfits)
  | refused hover => exact ⟨fun _ => hover, fun _ => ⟨_, rfl⟩⟩
  | fault hrange => change 2 ^ 63 ≤ size ∨ 2 ^ 64 ≤ kept + need at hrange; omega

def narrow : LayoutKey := ⟨⟨16, 16⟩, 8, .yuv420, 1⟩

def wide : LayoutKey := ⟨⟨2752, 16⟩, 8, .yuv420, 1⟩

def narrowed : HeapCache := run AuxBuffers.pageFormulas [narrow] { heap := { budget := some 8192 } }

/-- The page of the narrow pictures decides about the two of the wide ones. -/
theorem refused_iff_of_run_wide :
    narrowed.holding.Hoarded 8192 ∧
      ((∃ e, (narrowed.refreshed AuxBuffers.pageFormulas wide).result = .error e) ↔
        8192 < bytesOf (unfit .auxiliary 8192 narrowed.holding.buffers) + 8192) := by
  have hsize : (AuxLayout.compute AuxBuffers.pageFormulas wide).totalSize = 8192 := by decide
  obtain ⟨hhoarded, -, hiff⟩ :=
    refused_iff_of_run 8192 AuxBuffers.pageFormulas [narrow] wide (by decide) (by decide)
  rw [hsize] at hiff
  exact ⟨hhoarded, hiff (by decide) (by decide)⟩

/-- A change can be refused though the budget holds its buffers. -/
theorem change_within_budget_refused :
    narrowed.cache.needsRefresh wide = true ∧
      max wide.pipelineDepth 1 * (AuxLayout.compute AuxBuffers.pageFormulas wide).totalSize ≤ 8192 ∧
      (narrowed.refreshed AuxBuffers.pageFormulas wide).result = .error (.outOfMemory 8192) := by
  decide

end HeapCache

end VideoAccel
