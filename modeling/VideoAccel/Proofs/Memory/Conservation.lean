import Mathlib.Algebra.Ring.Nat
import VideoAccel.Kernel.DmaHeap
import VideoAccel.Memory.Heap
import VideoAccel.Proofs.Memory.Recycling
import VideoAccel.Proofs.Platform.Freshness

namespace VideoAccel

/-- What can be done with a group and with the buffers in hand, which are named by position. -/
inductive GroupEvent
  | get (purpose : Purpose) (size : Nat)
  | give (i : Nat)
  | write (i offset : Nat) (bytes : List UInt8)
  | share
  | release
  | trim
  deriving DecidableEq, Repr

/-- A group, the buffers in hand and the source of their memory, with what is known of the past: the
purpose each handle was last got for, and when it was last given back. -/
structure GroupRun (σ : Type) where
  group : BufferGroup := {}
  held : List DeviceBuffer := []
  source : Logged σ
  lastUse : UInt32 → Option Purpose := fun _ => none
  clock : Nat := 0
  idleSince : UInt32 → Nat := fun _ => 0

namespace GroupRun

variable {σ : Type}

/-- One event. Nothing happens to a buffer that is not there, outside its memory, or through a
reference to a group that has none. -/
def step (source : MemorySource (Logged σ)) (r : GroupRun σ) : GroupEvent → GroupRun σ
  | .get purpose size =>
    if r.group.isAlive then
      match r.group.get source purpose size r.source with
      | (.ok b, group, state) =>
        { r with
          group
          held := b :: r.held
          source := state
          lastUse := Function.update r.lastUse b.handle (some purpose) }
      | (.error _, group, state) => { r with group, source := state }
    else r
  | .give i =>
    match r.held[i]? with
    | none => r
    | some b =>
      match r.group.give source b r.source with
      | (group, state) =>
        { r with
          group
          held := r.held.eraseIdx i
          source := state
          clock := r.clock + 1
          idleSince := Function.update r.idleSince b.handle r.clock }
  | .write i offset bytes =>
    match r.held[i]? with
    | none => r
    | some b =>
      if offset + bytes.length ≤ b.size then
        { r with held := r.held.set i { b with memory := b.memory.store offset bytes } }
      else r
  | .share => if r.group.isAlive then { r with group := r.group.share } else r
  | .release =>
    if r.group.isAlive then
      match r.group.drop source r.source with
      | (group, state) => { r with group, source := state }
    else r
  | .trim =>
    if r.group.isAlive then
      match r.group.trim source r.source with
      | (group, state) => { r with group, source := state }
    else r

def run (source : MemorySource (Logged σ)) (events : List GroupEvent) (r : GroupRun σ) :
    GroupRun σ :=
  events.foldl (step source) r

inductive Stepped (source : MemorySource (Logged σ)) (r : GroupRun σ) : GroupRun σ → Prop
  | nothing : Stepped source r r
  | recycled (purpose : Purpose) (size : Nat) (before after : List DeviceBuffer) (b : DeviceBuffer)
      (halive : r.group.isAlive = true) (hidle : r.group.idle = before ++ b :: after)
      (hserves : b.Serves purpose size) :
      Stepped source r
        { r with
          group := { r.group with idle := before ++ after, outstanding := r.group.outstanding + 1 }
          held := b :: r.held
          lastUse := Function.update r.lastUse b.handle (some purpose) }
  | refused (size : Nat) (e : AllocError) (state : Logged σ)
      (hallocate : source.allocate size r.source = (.error e, state)) :
      Stepped source r { r with source := state }
  | allocated (purpose : Purpose) (size : Nat) (m : Memory) (state : Logged σ)
      (halive : r.group.isAlive = true)
      (hallocate : source.allocate size r.source = (.ok m, state)) :
      Stepped source r
        { r with
          group := { r.group with outstanding := r.group.outstanding + 1 }
          held := ⟨m, purpose⟩ :: r.held
          source := state
          lastUse := Function.update r.lastUse m.handle (some purpose) }
  | kept (i : Nat) (b : DeviceBuffer) (halive : r.group.isAlive = true) (hb : r.held[i]? = some b) :
      Stepped source r
        { r with
          group := { r.group with
            idle := r.group.idle ++ [b.zeroed], outstanding := r.group.outstanding - 1 }
          held := r.held.eraseIdx i
          clock := r.clock + 1
          idleSince := Function.update r.idleSince b.handle r.clock }
  | freed (i : Nat) (b : DeviceBuffer) (hclosed : r.group.isAlive = false)
      (hb : r.held[i]? = some b) :
      Stepped source r
        { r with
          held := r.held.eraseIdx i
          source := source.free b.memory r.source
          clock := r.clock + 1
          idleSince := Function.update r.idleSince b.handle r.clock }
  | written (i offset : Nat) (bytes : List UInt8) (b : DeviceBuffer) (hb : r.held[i]? = some b) :
      Stepped source r
        { r with held := r.held.set i { b with memory := b.memory.store offset bytes } }
  | referred (references : Nat) (halive : r.group.isAlive = true) (hpos : 0 < references) :
      Stepped source r { r with group := { r.group with references } }
  | trimmed (references : Nat) (halive : r.group.isAlive = true) :
      Stepped source r
        { r with
          group := { r.group with references, idle := [] }
          source := r.group.idle.foldl (fun s b => source.free b.memory s) r.source }

theorem step_trim {source : MemorySource (Logged σ)} {r : GroupRun σ}
    (halive : r.group.isAlive = true) :
    r.step source .trim =
      { r with
        group := { r.group with idle := [] }
        source := r.group.idle.foldl (fun s b => source.free b.memory s) r.source } := by
  simp only [step, if_pos halive, BufferGroup.trim]

theorem step_release_last {source : MemorySource (Logged σ)} {r : GroupRun σ}
    (hlast : r.group.references = 1) :
    r.step source .release =
      { r with
        group := { r.group with references := 0, idle := [] }
        source := r.group.idle.foldl (fun s b => source.free b.memory s) r.source } := by
  have halive : r.group.isAlive = true := decide_eq_true (by omega)
  simp only [step, if_pos halive, BufferGroup.drop, hlast]
  rfl

theorem step_release_other {source : MemorySource (Logged σ)} {r : GroupRun σ}
    (hother : 1 < r.group.references) :
    r.step source .release =
      { r with group := { r.group with references := r.group.references - 1 } } := by
  have halive : r.group.isAlive = true := decide_eq_true (by omega)
  have hstill : BufferGroup.isAlive { r.group with references := r.group.references - 1 } = true :=
    decide_eq_true (Nat.sub_pos_of_lt hother)
  simp only [step, if_pos halive, BufferGroup.drop, if_pos hstill]

theorem stepped_get (source : MemorySource (Logged σ)) (r : GroupRun σ) (purpose : Purpose)
    (size : Nat) : Stepped source r (r.step source (.get purpose size)) := by
  simp only [step]
  by_cases halive : r.group.isAlive = true
  · rw [if_pos halive]
    have houtcome := r.group.get_outcome source purpose size r.source
    generalize r.group.get source purpose size r.source = answer at houtcome
    cases houtcome with
    | zeroSize => exact .nothing
    | recycled before after b _ hidle hserves =>
      exact .recycled purpose size before after b halive hidle hserves
    | refused e state _ _ hallocate => exact .refused size e state hallocate
    | allocated m state _ _ hallocate => exact .allocated purpose size m state halive hallocate
  · rw [if_neg halive]
    exact .nothing

theorem stepped_release (source : MemorySource (Logged σ)) (r : GroupRun σ) :
    Stepped source r (r.step source .release) := by
  obtain hnone | hlast | hother :
      r.group.references = 0 ∨ r.group.references = 1 ∨ 1 < r.group.references := by omega
  · have hclosed : ¬ r.group.isAlive = true := by simp [BufferGroup.isAlive, hnone]
    simp only [step, if_neg hclosed]
    exact .nothing
  · rw [step_release_last hlast]
    exact .trimmed 0 (decide_eq_true (by omega))
  · rw [step_release_other hother]
    exact .referred (r.group.references - 1) (decide_eq_true (by omega)) (by omega)

theorem stepped_step (source : MemorySource (Logged σ)) (r : GroupRun σ) (e : GroupEvent) :
    Stepped source r (r.step source e) := by
  cases e with
  | get purpose size => exact stepped_get source r purpose size
  | give i =>
    simp only [step]
    cases hb : r.held[i]? with
    | none => exact .nothing
    | some b =>
      simp only [BufferGroup.give]
      cases halive : r.group.isAlive with
      | true => exact .kept i b halive hb
      | false => exact .freed i b halive hb
  | write i offset bytes =>
    simp only [step]
    cases hb : r.held[i]? with
    | none => exact .nothing
    | some b =>
      simp only
      split
      · exact .written i offset bytes b hb
      · exact .nothing
  | share =>
    simp only [step]
    split
    · exact .referred (r.group.references + 1) ‹_› (Nat.succ_pos _)
    · exact .nothing
  | release => exact stepped_release source r
  | trim =>
    by_cases halive : r.group.isAlive = true
    · rw [step_trim halive]
      exact .trimmed r.group.references halive
    · simp only [step, if_neg halive]
      exact .nothing

theorem run_induction {source : MemorySource (Logged σ)} {P : GroupRun σ → Prop}
    (hstep : ∀ r r', Stepped source r r' → P r → P r') (events : List GroupEvent) {r : GroupRun σ}
    (h : P r) : P (r.run source events) := by
  induction events generalizing r with
  | nil => exact h
  | cons e events ih => exact ih (hstep r _ (stepped_step source r e) h)

def Settled (r : GroupRun σ) : Prop := r.group.isAlive = false → r.group.idle = []

theorem Settled.step {source : MemorySource (Logged σ)} {r r' : GroupRun σ} (h : r.Settled)
    (hstep : Stepped source r r') : r'.Settled := by
  cases hstep with
  | nothing | refused | freed | written => exact h
  | recycled _ _ _ _ _ halive | allocated _ _ _ _ halive | kept _ _ halive =>
    exact fun hclosed => absurd (halive.symm.trans hclosed) nofun
  | referred _ _ hpos => exact fun hclosed => absurd hclosed (by simp [BufferGroup.isAlive, hpos])
  | trimmed => exact fun _ => rfl

/-- The buffers in hand, and the idle ones. -/
def buffers (r : GroupRun σ) : List DeviceBuffer := r.held ++ r.group.idle

structure Sound (id : Nat) (r : GroupRun σ) : Prop where
  counted : r.group.isAlive = true → r.group.outstanding = r.held.length
  conserved : Acquired [] r.source.calls 0 ↑(r.buffers.map fun b => b.memory.tag id)
  zero : ∀ b ∈ r.group.idle, b.memory.IsZero
  used : ∀ b ∈ r.buffers, r.lastUse b.handle = some b.purpose
  ordered : r.group.idle.Pairwise fun a b => r.idleSince a.handle < r.idleSince b.handle
  past : ∀ b ∈ r.group.idle, r.idleSince b.handle < r.clock

section

variable {source : MemorySource σ} {id : Nat} {r r' : GroupRun σ}

theorem getElem_cons_perm {l : List DeviceBuffer} {i : Nat} {b : DeviceBuffer}
    (hb : l[i]? = some b) : (b :: l.eraseIdx i).Perm l := by
  obtain ⟨hi, rfl⟩ := List.getElem?_eq_some_iff.1 hb
  exact List.getElem_cons_eraseIdx_perm hi

theorem perm_recycle {idle before after : List DeviceBuffer} {b : DeviceBuffer}
    (hidle : idle = before ++ b :: after) (held : List DeviceBuffer) :
    (b :: held ++ (before ++ after)).Perm (held ++ idle) := by
  rw [hidle]
  exact List.perm_middle.symm.trans (List.perm_middle.symm.append_left held)

theorem map_set_eq {α : Type} {f : DeviceBuffer → α} {l : List DeviceBuffer} {i : Nat}
    {b b' : DeviceBuffer} (hb : l[i]? = some b) (hf : f b' = f b) :
    (l.set i b').map f = l.map f := by
  obtain ⟨hi, rfl⟩ := List.getElem?_eq_some_iff.1 hb
  have hi' : i < (l.map f).length := by rwa [List.length_map]
  have hget : (l.map f)[i] = f l[i] := List.getElem_map f
  rw [List.map_set, hf, ← hget, List.set_getElem_self hi']

theorem suffix_foldl_free (bs : List DeviceBuffer) (l : Logged σ) :
    l.calls <:+ (bs.foldl (fun s b => (source.logged id).free b.memory s) l).calls := by
  induction bs generalizing l with
  | nil => exact List.suffix_rfl
  | cons b bs ih =>
    have hfree : l.calls <:+ ((source.logged id).free b.memory l).calls := List.suffix_cons _ _
    exact hfree.trans (ih _)

theorem Stepped.suffix (h : Stepped (source.logged id) r r') :
    r.source.calls <:+ r'.source.calls := by
  cases h with
  | nothing | recycled | kept | written | referred => exact List.suffix_rfl
  | refused size e state hallocate | allocated purpose size m state _ hallocate =>
    rw [calls_of_call hallocate]
    exact List.suffix_cons _ _
  | freed => exact List.suffix_cons _ _
  | trimmed => exact suffix_foldl_free _ _

theorem Sound.nodup (h : r.Sound id) (hfresh : FreshAllocations r.source.calls) :
    (r.buffers.map DeviceBuffer.handle).Nodup :=
  hfresh.nodup_handles h.conserved.liveMemory_eq

theorem Sound.handle_ne (h : r.Sound id) (hfresh : FreshAllocations r.source.calls)
    {a b : DeviceBuffer} (ha : a ∈ r.group.idle) (hb : b ∈ r.held) : a.handle ≠ b.handle := by
  have hnodup := h.nodup hfresh
  rw [buffers, List.map_append] at hnodup
  exact fun heq => (List.nodup_append.1 hnodup).2.2 _ (List.mem_map_of_mem hb) _
    (List.mem_map_of_mem ha) heq.symm

theorem Sound.handle_ne_of_allocate (h : r.Sound id) {size : Nat} {m : Memory}
    (hfresh : FreshAllocations (.allocate id size (.ok m) :: r.source.calls)) {b : DeviceBuffer}
    (hb : b ∈ r.buffers) : b.handle ≠ m.handle := by
  intro heq
  refine hfresh.1 (b.memory.tag id) ?_ (Prod.ext rfl heq)
  rw [h.conserved.liveMemory_eq]
  exact Multiset.mem_coe.2 (List.mem_map_of_mem hb)

theorem Sound.recycle (h : r.Sound id) {purpose : Purpose} {size : Nat}
    {before after : List DeviceBuffer} {b : DeviceBuffer} (halive : r.group.isAlive = true)
    (hidle : r.group.idle = before ++ b :: after) (hserves : b.Serves purpose size) :
    Sound id
      { r with
        group := { r.group with idle := before ++ after, outstanding := r.group.outstanding + 1 }
        held := b :: r.held
        lastUse := Function.update r.lastUse b.handle (some purpose) } := by
  have hperm : (b :: r.held ++ (before ++ after)).Perm r.buffers := perm_recycle hidle r.held
  have hsub : (before ++ after).Sublist r.group.idle := by
    rw [hidle]
    exact (List.Sublist.refl _).middle b
  refine ⟨fun _ => congrArg (· + 1) (h.counted halive), ?_, fun c hc => h.zero c (hsub.mem hc), ?_,
    h.ordered.sublist hsub, fun c hc => h.past c (hsub.mem hc)⟩
  · have htags := Multiset.coe_eq_coe.2 (hperm.map fun b => b.memory.tag id)
    exact htags ▸ h.conserved
  · intro c hc
    have hold := h.used c (hperm.mem_iff.1 hc)
    by_cases heq : c.handle = b.handle
    · -- one handle had one last use
      have hb := h.used b (hperm.mem_iff.1 List.mem_cons_self)
      rw [← heq, hold, hserves.1] at hb
      rw [heq]
      exact (Function.update_self ..).trans hb.symm
    · exact (Function.update_of_ne heq ..).trans hold

theorem Sound.allocate (h : r.Sound id) (purpose : Purpose) {size : Nat} {m : Memory}
    {state : Logged σ} (halive : r.group.isAlive = true)
    (hallocate : (source.logged id).allocate size r.source = (.ok m, state))
    (hfresh : FreshAllocations state.calls) :
    Sound id
      { r with
        group := { r.group with outstanding := r.group.outstanding + 1 }
        held := ⟨m, purpose⟩ :: r.held
        source := state
        lastUse := Function.update r.lastUse m.handle (some purpose) } := by
  have hcalls := calls_of_call hallocate
  rw [hcalls] at hfresh
  refine ⟨fun _ => congrArg (· + 1) (h.counted halive), ?_, h.zero, ?_, h.ordered, h.past⟩
  · rw [hcalls]
    exact h.conserved.allocate id size m
  · refine List.forall_mem_cons.2 ⟨Function.update_self .., fun c hc => ?_⟩
    exact (Function.update_of_ne (h.handle_ne_of_allocate hfresh hc) ..).trans (h.used c hc)

theorem Sound.keep (h : r.Sound id) (hfresh : FreshAllocations r.source.calls) {i : Nat}
    {b : DeviceBuffer} (halive : r.group.isAlive = true) (hb : r.held[i]? = some b) :
    Sound id
      { r with
        group := { r.group with
          idle := r.group.idle ++ [b.zeroed], outstanding := r.group.outstanding - 1 }
        held := r.held.eraseIdx i
        clock := r.clock + 1
        idleSince := Function.update r.idleSince b.handle r.clock } := by
  have hheld : b ∈ r.held := List.mem_of_getElem? hb
  have hsame : ∀ c ∈ r.group.idle,
      Function.update r.idleSince b.handle r.clock c.handle = r.idleSince c.handle :=
    fun c hc => Function.update_of_ne (h.handle_ne hfresh hc hheld) ..
  have hnow : Function.update r.idleSince b.handle r.clock b.zeroed.handle = r.clock :=
    Function.update_self ..
  refine ⟨fun _ => ?_, ?_, ?_, ?_, ?_, ?_⟩
  · obtain ⟨hi, -⟩ := List.getElem?_eq_some_iff.1 hb
    rw [List.length_eraseIdx_of_lt hi, h.counted halive]
  · -- zeroing a buffer leaves its tag
    have hperm : ((r.held.eraseIdx i ++ (r.group.idle ++ [b.zeroed])).map fun b =>
        b.memory.tag id).Perm (r.buffers.map fun b => b.memory.tag id) := by
      refine List.Perm.trans ?_ (((getElem_cons_perm hb).append_right r.group.idle).map _)
      rw [← List.append_assoc, List.map_append]
      exact List.perm_append_singleton _ _
    exact Multiset.coe_eq_coe.2 hperm ▸ h.conserved
  · exact List.forall_mem_append.2
      ⟨h.zero, List.forall_mem_singleton.2 b.memory.isZero_zeroed⟩
  · intro c hc
    obtain hc | hc := List.mem_append.1 hc
    · exact h.used c (List.mem_append_left _ (List.mem_of_mem_eraseIdx hc))
    · obtain hc | hc := List.mem_append.1 hc
      · exact h.used c (List.mem_append_right _ hc)
      · obtain rfl := List.mem_singleton.1 hc
        exact h.used b (List.mem_append_left _ hheld)
  · refine List.pairwise_append.2 ⟨?_, List.pairwise_singleton _ _, fun c hc d hd => ?_⟩
    · apply h.ordered.imp_of_mem
      intro c d hc hd hlt
      exact (hsame c hc).trans_lt (hlt.trans_eq (hsame d hd).symm)
    · obtain rfl := List.mem_singleton.1 hd
      exact (hsame c hc).trans_lt ((h.past c hc).trans_eq hnow.symm)
  · refine List.forall_mem_append.2 ⟨fun c hc => ?_, List.forall_mem_singleton.2 ?_⟩
    · exact (hsame c hc).trans_lt (Nat.lt_succ_of_lt (h.past c hc))
    · exact hnow.trans_lt (Nat.lt_succ_self _)

theorem Sound.free (h : r.Sound id) (hsettled : r.Settled) {i : Nat} {b : DeviceBuffer}
    (hclosed : r.group.isAlive = false) (hb : r.held[i]? = some b) :
    Sound id
      { r with
        held := r.held.eraseIdx i
        source := (source.logged id).free b.memory r.source
        clock := r.clock + 1
        idleSince := Function.update r.idleSince b.handle r.clock } := by
  have hidle := hsettled hclosed
  refine ⟨fun halive => absurd (halive.symm.trans hclosed) nofun, ?_, h.zero, ?_, ?_, ?_⟩
  · have hperm := ((getElem_cons_perm hb).append_right r.group.idle).map fun b =>
      b.memory.tag id
    have hconserved := h.conserved
    rw [buffers, ← Multiset.coe_eq_coe.2 hperm, List.cons_append, List.map_cons,
      ← Multiset.cons_coe] at hconserved
    exact hconserved.free
  · intro c hc
    obtain hc | hc := List.mem_append.1 hc
    · exact h.used c (List.mem_append_left _ (List.mem_of_mem_eraseIdx hc))
    · exact h.used c (List.mem_append_right _ hc)
  · rw [hidle]
    exact .nil
  · rw [hidle]
    exact nofun

theorem Sound.write (h : r.Sound id) {i : Nat} {b : DeviceBuffer} (hb : r.held[i]? = some b)
    (offset : Nat) (bytes : List UInt8) :
    Sound id
      { r with held := r.held.set i { b with memory := b.memory.store offset bytes } } := by
  refine ⟨fun halive => (h.counted halive).trans (List.length_set ..).symm, ?_, h.zero, ?_,
    h.ordered, h.past⟩
  · have htags : (r.held.set i { b with memory := b.memory.store offset bytes }).map
        (fun b => b.memory.tag id) = r.held.map fun b => b.memory.tag id := map_set_eq hb rfl
    have hconserved := h.conserved
    rw [buffers, List.map_append, ← htags, ← List.map_append] at hconserved
    exact hconserved
  · intro c hc
    obtain hc | hc := List.mem_append.1 hc
    · obtain hc | rfl := List.mem_or_eq_of_mem_set hc
      · exact h.used c (List.mem_append_left _ hc)
      · exact h.used b (List.mem_append_left _ (List.mem_of_getElem? hb))
    · exact h.used c (List.mem_append_right _ hc)

theorem Sound.refer (h : r.Sound id) (halive : r.group.isAlive = true) (references : Nat) :
    Sound id { r with group := { r.group with references } } :=
  ⟨fun _ => h.counted halive, h.conserved, h.zero, h.used, h.ordered, h.past⟩

theorem Sound.trim (source : MemorySource σ) (h : r.Sound id)
    (halive : r.group.isAlive = true) (references : Nat) :
    Sound id
      { r with
        group := { r.group with references, idle := [] }
        source := r.group.idle.foldl (fun s b => (source.logged id).free b.memory s)
          r.source } := by
  refine ⟨fun _ => h.counted halive, ?_, nofun, ?_, .nil, nofun⟩
  · have hconserved := h.conserved
    have hperm : (r.held ++ r.group.idle).Perm (r.group.idle ++ r.held) := List.perm_append_comm
    have htags := hperm.map fun b => b.memory.tag id
    rw [buffers, Multiset.coe_eq_coe.2 htags, List.map_append, ← Multiset.coe_add] at hconserved
    simp only [buffers, List.append_nil]
    exact (Acquired.freeEach source r.group.idle r.source hconserved).1
  · intro c hc
    refine h.used c (List.mem_append_left _ ?_)
    exact (List.mem_append.1 hc).resolve_right nofun

theorem Sound.step (hfresh : FreshAllocations r'.source.calls) (hsettled : r.Settled)
    (h : r.Sound id) (hstep : Stepped (source.logged id) r r') : r'.Sound id := by
  have hbefore := hfresh.of_suffix hstep.suffix
  cases hstep with
  | nothing => exact h
  | recycled _ _ before after b halive hidle hserves => exact h.recycle halive hidle hserves
  | refused size e state hallocate =>
    refine ⟨h.counted, ?_, h.zero, h.used, h.ordered, h.past⟩
    rw [calls_of_call hallocate]
    exact h.conserved.idle _ (fun _ => rfl) fun _ => rfl
  | allocated purpose _ m state halive hallocate => exact h.allocate purpose halive hallocate hfresh
  | kept i b halive hb => exact h.keep hbefore halive hb
  | freed i b hclosed hb => exact h.free hsettled hclosed hb
  | written i offset bytes b hb => exact h.write hb offset bytes
  | referred references halive _ => exact h.refer halive references
  | trimmed references halive => exact h.trim _ halive references

theorem sound_run (source : MemorySource σ) (id : Nat) (s : σ) (events : List GroupEvent)
    (hfresh : FreshAllocations (run (source.logged id) events { source := ⟨s, []⟩ }).source.calls) :
    (run (source.logged id) events { source := ⟨s, []⟩ }).Settled ∧
      (run (source.logged id) events { source := ⟨s, []⟩ }).Sound id := by
  have hstart : Sound id { source := ⟨s, []⟩ } :=
    ⟨fun _ => rfl, Acquired.refl [], nofun, nofun, .nil, nofun⟩
  -- a record that stays fresh was fresh all the time
  obtain ⟨hsettled, hsound⟩ := run_induction
    (P := fun r => r.Settled ∧ (FreshAllocations r.source.calls → r.Sound id))
    (fun _ _ hstep ⟨hsettled, ih⟩ => ⟨hsettled.step hstep, fun hfresh =>
      (ih (hfresh.of_suffix hstep.suffix)).step hfresh hsettled hstep⟩) events
    ⟨fun _ => rfl, fun _ => hstart⟩
  exact ⟨hsettled, hsound hfresh⟩

end

def memoryOf (id : Nat) (bs : List DeviceBuffer) : Multiset MemoryTag :=
  ↑(bs.map fun b => b.memory.tag id)

/-- The books as anyone can read them: the group counts the buffers in hand, all memory that is
there is in one hand or idle, and what is idle is zero and kept for its last purpose. Once the group
is closed nothing is idle, and the memory that is there is that of the buffers in hand. -/
structure Conserved (id : Nat) (r : GroupRun σ) : Prop where
  outstanding : r.group.isAlive = true → r.group.outstanding = r.held.length
  live : liveMemory r.source.calls = memoryOf id r.buffers
  closed : r.group.isAlive = false →
    r.group.idle = [] ∧ liveMemory r.source.calls = memoryOf id r.held
  distinct : (r.buffers.map DeviceBuffer.handle).Nodup
  idle : ∀ b ∈ r.group.idle, b.memory.IsZero ∧ r.lastUse b.handle = some b.purpose

/-- What an event leaves that frees all idle memory and no other. -/
structure Emptied (id : Nat) (r r' : GroupRun σ) : Prop where
  idle : r'.group.idle = []
  held : r'.held = r.held
  live : liveMemory r'.source.calls = memoryOf id r.held

/-- Trimming a group frees what is idle, and so does the drop of its last reference, which closes
it. The drop of any other reference frees nothing. -/
structure Frees (source : MemorySource (Logged σ)) (id : Nat) (r : GroupRun σ) : Prop where
  trim : r.group.isAlive = true →
    (r.step source .trim).group.references = r.group.references ∧
      r.Emptied id (r.step source .trim)
  last : r.group.references = 1 →
    (r.step source .release).group.isAlive = false ∧ r.Emptied id (r.step source .release)
  other : 1 < r.group.references →
    (r.step source .release).group.idle = r.group.idle ∧
      (r.step source .release).source = r.source

/-- What a request for a buffer gets, and what a failed one leaves. -/
structure Answers (source : MemorySource (Logged σ)) (id : Nat) (r : GroupRun σ) : Prop where
  got : ∀ purpose size b group state,
    r.group.get source purpose size r.source = (.ok b, group, state) →
      b.Serves purpose size ∧ b.memory.IsZero ∧
        (b ∈ r.group.idle ∧ state = r.source ∧
            (∀ c ∈ r.group.idle, c.Serves purpose size →
              c = b ∨ r.idleSince b.handle < r.idleSince c.handle) ∨
          (∀ c ∈ r.group.idle, ¬ c.Serves purpose size) ∧
            state.calls = .allocate id size (.ok b.memory) :: r.source.calls)
  failed : ∀ purpose size e group state,
    r.group.get source purpose size r.source = (.error e, group, state) →
      group = r.group ∧ liveMemory state.calls = liveMemory r.source.calls ∧
        (size = 0 ∧ e = .zeroSize ∧ state = r.source ∨
          size ≠ 0 ∧ (∀ c ∈ r.group.idle, ¬ c.Serves purpose size) ∧
            state.calls = .allocate id size (.error e) :: r.source.calls)

section

variable {source : MemorySource σ} {id : Nat} {r : GroupRun σ}

theorem Sound.conserves (h : r.Sound id) (hsettled : r.Settled)
    (hfresh : FreshAllocations r.source.calls) : r.Conserved id where
  outstanding := h.counted
  live := h.conserved.liveMemory_eq
  closed hclosed := by
    have hidle := hsettled hclosed
    have hlive := h.conserved.liveMemory_eq
    rw [buffers, hidle, List.append_nil] at hlive
    exact ⟨hidle, hlive⟩
  distinct := h.nodup hfresh
  idle b hb := ⟨h.zero b hb, h.used b (List.mem_append_right _ hb)⟩

theorem Sound.emptied (h : r.Sound id) (halive : r.group.isAlive = true) (references : Nat) :
    r.Emptied id
      { r with
        group := { r.group with references, idle := [] }
        source := r.group.idle.foldl (fun s b => (source.logged id).free b.memory s)
          r.source } := by
  have hlive := (h.trim source halive references).conserved.liveMemory_eq
  rw [buffers, List.append_nil] at hlive
  exact ⟨rfl, rfl, hlive⟩

theorem Sound.frees (h : r.Sound id) : r.Frees (source.logged id) id := by
  refine ⟨fun halive => ?_, fun hlast => ?_, fun hother => ?_⟩
  · rw [step_trim halive]
    exact ⟨rfl, h.emptied halive _⟩
  · have halive : r.group.isAlive = true := decide_eq_true (by omega)
    rw [step_release_last hlast]
    exact ⟨rfl, h.emptied halive 0⟩
  · rw [step_release_other hother]
    exact ⟨rfl, rfl⟩

theorem Sound.answers (hzero : source.IsZeroFilled) (h : r.Sound id) :
    r.Answers (source.logged id) id := by
  refine ⟨fun purpose size b group state hget => ?_, fun purpose size e group state hget => ?_⟩
  · have houtcome := r.group.get_outcome (source.logged id) purpose size r.source
    rw [hget] at houtcome
    cases houtcome with
    | recycled before after _ _ hidle hserves hbefore =>
      have hb : b ∈ r.group.idle := by simp [hidle]
      refine ⟨hserves, h.zero b hb, .inl ⟨hb, rfl, fun c hc hc' => ?_⟩⟩
      rw [hidle] at hc
      obtain hc | hc := List.mem_append.1 hc
      · exact absurd hc' (hbefore c hc)
      · obtain rfl | hc := List.mem_cons.1 hc
        · exact .inl rfl
        · have hordered := h.ordered
          rw [hidle] at hordered
          exact .inr (List.rel_of_pairwise_cons (List.pairwise_append.1 hordered).2.1 hc)
    | allocated m _ _ hnone hallocate =>
      obtain ⟨hsize, hm⟩ := hzero size r.source.state m (congrArg Prod.fst (of_call hallocate))
      exact ⟨⟨rfl, hsize⟩, hm, .inr ⟨hnone, calls_of_call hallocate⟩⟩
  · have houtcome := r.group.get_outcome (source.logged id) purpose size r.source
    rw [hget] at houtcome
    cases houtcome with
    | zeroSize hsize => exact ⟨rfl, rfl, .inl ⟨hsize, rfl, rfl⟩⟩
    | refused _ _ hsize hnone hallocate =>
      have hcalls := calls_of_call hallocate
      refine ⟨rfl, ?_, .inr ⟨hsize, hnone, hcalls⟩⟩
      rw [hcalls]
      rfl

end

end GroupRun

namespace Heap

theorem allocate_eq_ok {size : Nat} {h h' : Heap} {m : Memory}
    (hallocate : h.allocate size = (.ok m, h')) :
    m.size = size ∧ m.IsZero ∧ h'.bytes = h.bytes + size := by
  unfold allocate at hallocate
  split at hallocate
  · cases hallocate
  split at hallocate
  · cases hallocate
  split at hallocate
  · cases hallocate
  split at hallocate
  · cases hallocate
  · cases hallocate
    exact ⟨rfl, fun _ => rfl, rfl⟩

theorem allocate_eq_error {size : Nat} {h h' : Heap} {e : AllocError}
    (hallocate : h.allocate size = (.error e, h')) : h' = h := by
  unfold allocate at hallocate
  split at hallocate
  · cases hallocate
    rfl
  split at hallocate
  · cases hallocate
    rfl
  split at hallocate
  · cases hallocate
    rfl
  split at hallocate
  · cases hallocate
    rfl
  · cases hallocate

theorem source_isZeroFilled : source.IsZeroFilled := by
  intro size s m hm
  rcases hallocate : s.allocate size with ⟨answer, s'⟩
  have hanswer : answer = .ok m := by
    rw [← hm]
    exact congrArg Prod.fst hallocate.symm
  subst hanswer
  obtain ⟨hsize, hzero, -⟩ := allocate_eq_ok hallocate
  exact ⟨hsize, hzero⟩

end Heap

namespace Kernel.DmaHeap

theorem call_eq_ok {size : Nat} {outcomes : List Nat} {h h' : DmaHeap} {m : Memory}
    (hcall : call size outcomes h = (.ok m, h')) : m.size = size ∧ m.IsZero := by
  induction outcomes generalizing h with
  | nil =>
    cases hcall
    exact ⟨rfl, fun _ => rfl⟩
  | cons errno rest ih =>
    simp only [call] at hcall
    split at hcall
    · cases hcall
      exact ⟨rfl, fun _ => rfl⟩
    split at hcall
    · exact ih hcall
    split at hcall <;> cases hcall

theorem source_isZeroFilled : source.IsZeroFilled := by
  intro size s m hm
  change (s.allocate size).1 = .ok m at hm
  unfold allocate at hm
  by_cases hsize : size = 0
  · rw [if_pos hsize] at hm
    cases hm
  · rw [if_neg hsize] at hm
    exact call_eq_ok (Prod.ext hm rfl)

end Kernel.DmaHeap

namespace Heap

variable {id : Nat}

theorem bytes_foldl_free (bs : List DeviceBuffer) (l : Logged Heap) :
    (bs.foldl (fun s b => (source.logged id).free b.memory s) l).state.bytes =
      l.state.bytes - (bs.map DeviceBuffer.size).sum := by
  induction bs generalizing l with
  | nil => rfl
  | cons b bs ih =>
    refine (ih _).trans ?_
    rw [List.map_cons, List.sum_cons, ← Nat.sub_sub]
    rfl

end Heap

namespace GroupRun

def Balanced (r : GroupRun Heap) : Prop :=
  r.source.state.bytes = (r.buffers.map DeviceBuffer.size).sum

theorem Balanced.step {id : Nat} {r r' : GroupRun Heap} (h : r.Balanced)
    (hstep : Stepped (Heap.source.logged id) r r') : r'.Balanced := by
  have hperm : ∀ {bs : List DeviceBuffer}, bs.Perm r.buffers →
      r.source.state.bytes = (bs.map DeviceBuffer.size).sum := by
    intro bs hbs
    rw [h, (hbs.map DeviceBuffer.size).sum_nat]
  cases hstep with
  | nothing => exact h
  | recycled _ _ before after b _ hidle =>
    exact hperm (perm_recycle hidle r.held)
  | refused size e state hallocate =>
    have hsame := Heap.allocate_eq_error (of_call hallocate)
    rw [Balanced, hsame]
    exact h
  | allocated purpose size m state _ hallocate =>
    obtain ⟨hsize, -, hbytes⟩ := Heap.allocate_eq_ok (of_call hallocate)
    rw [Balanced, hbytes, h, Nat.add_comm, ← hsize]
    rfl
  | kept i b _ hb =>
    -- zeroing a buffer leaves its size
    rw [Balanced, hperm ((getElem_cons_perm hb).append_right r.group.idle)]
    simp only [buffers, List.map_append, List.map_cons, List.map_nil, List.cons_append,
      List.sum_cons, List.sum_append, List.sum_nil]
    have hsize : b.zeroed.size = b.size := rfl
    omega
  | freed i b _ hb =>
    have hbytes := hperm ((getElem_cons_perm hb).append_right r.group.idle)
    have hfree : ((Heap.source.logged id).free b.memory r.source).state.bytes =
        r.source.state.bytes - b.size := rfl
    rw [Balanced, hfree, hbytes, List.cons_append, List.map_cons, List.sum_cons,
      Nat.add_sub_cancel_left]
    rfl
  | written i offset bytes b hb =>
    have hsizes : (r.held.set i { b with memory := b.memory.store offset bytes }).map
        DeviceBuffer.size = r.held.map DeviceBuffer.size := map_set_eq hb rfl
    rw [Balanced, buffers, List.map_append] at h ⊢
    rw [h, ← hsizes]
  | referred => exact h
  | trimmed =>
    rw [Balanced, Heap.bytes_foldl_free, h]
    simp only [buffers, List.map_append, List.append_nil, List.sum_append]
    omega

/-- A heap counts the bytes of the buffers in hand and of the idle ones. Once the group is closed or
trimmed these are the bytes of the buffers in hand, and a request that fails takes none. -/
structure HeapBooks (id : Nat) (r : GroupRun Heap) : Prop where
  bytes : r.source.state.bytes = (r.buffers.map DeviceBuffer.size).sum
  closed : r.group.isAlive = false →
    r.group.idle = [] ∧ r.source.state.bytes = (r.held.map DeviceBuffer.size).sum
  trim : r.group.isAlive = true →
    (r.step (Heap.source.logged id) .trim).source.state.bytes =
      (r.held.map DeviceBuffer.size).sum
  failed : ∀ purpose size e group state,
    r.group.get (Heap.source.logged id) purpose size r.source = (.error e, group, state) →
      state.state = r.source.state

theorem Balanced.books {id : Nat} {r : GroupRun Heap} (h : r.Balanced) (hsettled : r.Settled) :
    r.HeapBooks id where
  bytes := h
  closed hclosed := by
    have hidle := hsettled hclosed
    rw [Balanced, buffers, hidle, List.append_nil] at h
    exact ⟨hidle, h⟩
  trim halive := by
    have hstep : Stepped (Heap.source.logged id) r (r.step (Heap.source.logged id) .trim) :=
      stepped_step _ r .trim
    have htrimmed := h.step hstep
    rw [Balanced, step_trim halive, buffers, List.append_nil] at htrimmed
    rw [step_trim halive]
    exact htrimmed
  failed purpose size e group state hget := by
    have houtcome := r.group.get_outcome (Heap.source.logged id) purpose size r.source
    rw [hget] at houtcome
    cases houtcome with
    | zeroSize => rfl
    | refused _ _ _ _ hallocate => exact Heap.allocate_eq_error (of_call hallocate)

/-- A group that was just made from a source in some state. -/
def start (s : σ) : GroupRun σ := { source := ⟨s, []⟩ }

/-- Over zero-filled memory with fresh handles every run keeps the books, answers all requests as
they ask and frees what it should; over a heap the bytes in use are always those of the buffers,
also when the group is closed. -/
theorem buffers_conserved :
    (∀ (σ : Type) (source : MemorySource σ) (id : Nat) (s : σ) (events : List GroupEvent),
        source.IsZeroFilled →
        FreshAllocations (run (source.logged id) events (start s)).source.calls →
          (run (source.logged id) events (start s)).Conserved id ∧
            (run (source.logged id) events (start s)).Answers (source.logged id) id ∧
            (run (source.logged id) events (start s)).Frees (source.logged id) id) ∧
      ∀ (budget : Option Nat) (id : Nat) (events : List GroupEvent),
        (run (Heap.source.logged id) events (start { budget })).HeapBooks id := by
  refine ⟨fun σ source id s events hzero hfresh => ?_, fun budget id events => ?_⟩
  · obtain ⟨hsettled, hsound⟩ := sound_run source id s events hfresh
    exact ⟨hsound.conserves hsettled hfresh, hsound.answers hzero, hsound.frees⟩
  · have hstep : ∀ r r' : GroupRun Heap, Stepped (Heap.source.logged id) r r' →
        r.Settled ∧ r.Balanced → r'.Settled ∧ r'.Balanced :=
      fun _ _ hstep h => ⟨h.1.step hstep, h.2.step hstep⟩
    have hstart : Settled (start ({ budget } : Heap)) ∧ Balanced (start { budget }) :=
      ⟨fun _ => rfl, rfl⟩
    obtain ⟨hsettled, hbalanced⟩ := run_induction hstep events hstart
    exact hbalanced.books hsettled

def sampleEvents : List GroupEvent :=
  [.get .tables 64, .write 0 8 [0xaa], .share, .give 0, .get .tables 64, .get .auxiliary 32,
    .give 0, .release, .release]

def limited : GroupRun Heap :=
  run (Heap.source.logged 1) [.get .tables 64] (start { budget := some 100 })

theorem buffers_conserved_sample :
    (run (Heap.source.logged 1) sampleEvents (start {})).Conserved 1 ∧
      (run (Heap.source.logged 1) sampleEvents (start {})).Answers (Heap.source.logged 1) 1 ∧
      (run (Heap.source.logged 1) sampleEvents (start {})).Frees (Heap.source.logged 1) 1 ∧
      liveMemory (run (Heap.source.logged 1) sampleEvents (start {})).source.calls =
        memoryOf 1 (run (Heap.source.logged 1) sampleEvents (start {})).held ∧
      ∃ group state,
        limited.group.get (Heap.source.logged 1) .auxiliary 64 limited.source =
          (.error (.outOfMemory 64), group, state) ∧
        state.state = limited.source.state := by
  obtain ⟨hbooks, hanswers, hfrees⟩ := buffers_conserved.1 Heap Heap.source 1 {} sampleEvents
    Heap.source_isZeroFilled (by decide +kernel)
  refine ⟨hbooks, hanswers, hfrees, (hbooks.closed (by decide +kernel)).2, _, _, rfl, ?_⟩
  exact (buffers_conserved.2 (some 100) 1 [.get .tables 64]).failed .auxiliary 64 (.outOfMemory 64)
    _ _ rfl

example :
    ((run (Heap.source.logged 1) sampleEvents (start {})).held.map DeviceBuffer.size,
      (run (Heap.source.logged 1) sampleEvents (start {})).source.state.bytes) = ([64], 64) := by
  decide +kernel

end GroupRun

end VideoAccel
