import Mathlib.Data.Multiset.Basic
import VideoAccel.Proofs.Platform.Calls

namespace VideoAccel

/-- No memory was allocated with the handle of memory that was still there. -/
def FreshAllocations : List PlatformCall → Prop
  | [] => True
  | .allocate source _ (.ok m) :: calls =>
    (∀ tag ∈ liveMemory calls, (tag.1, tag.2.1) ≠ (source, m.handle)) ∧ FreshAllocations calls
  | _ :: calls => FreshAllocations calls

instance FreshAllocations.decidable : (calls : List PlatformCall) →
    Decidable (FreshAllocations calls)
  | [] => isTrue trivial
  | .allocate source _ (.ok m) :: calls =>
    have := decidable calls
    inferInstanceAs (Decidable
      ((∀ tag ∈ liveMemory calls, (tag.1, tag.2.1) ≠ (source, m.handle)) ∧ FreshAllocations calls))
  | .allocate _ _ (.error _) :: calls | .openChannel .. :: calls | .closeChannel _ :: calls
  | .openMemory _ :: calls | .message .. :: calls | .free .. :: calls => decidable calls

namespace FreshAllocations

variable {calls calls' : List PlatformCall}

theorem of_cons {c : PlatformCall} (h : FreshAllocations (c :: calls)) :
    FreshAllocations calls := by
  cases c with
  | allocate source size answer =>
    cases answer with
    | ok m => exact h.2
    | error => exact h
  | openChannel | closeChannel | openMemory | message | free => exact h

theorem of_suffix (h : FreshAllocations calls') (hsuffix : calls <:+ calls') :
    FreshAllocations calls := by
  obtain ⟨recent, rfl⟩ := hsuffix
  induction recent with
  | nil => exact h
  | cons c recent ih => exact ih h.of_cons

theorem nodup_liveMemory (h : FreshAllocations calls) :
    ((liveMemory calls).map fun tag => (tag.1, tag.2.1)).Nodup := by
  induction calls with
  | nil => exact Multiset.nodup_zero
  | cons c calls ih =>
    have hrest := ih h.of_cons
    cases c with
    | allocate source size answer =>
      cases answer with
      | error => exact hrest
      | ok m =>
        rw [liveMemory, Multiset.map_cons]
        refine Multiset.nodup_cons.2 ⟨fun hmem => ?_, hrest⟩
        obtain ⟨tag, htag, heq⟩ := Multiset.mem_map.1 hmem
        exact h.1 tag htag heq
    | free source m =>
      rw [liveMemory]
      exact Multiset.nodup_of_le (Multiset.map_le_map (Multiset.erase_le _ _)) hrest
    | openChannel _ answer => cases answer <;> exact hrest
    | closeChannel | openMemory | message => exact hrest

theorem nodup_handles (h : FreshAllocations calls) {source : Nat} {bs : List DeviceBuffer}
    (hmemory : liveMemory calls = ↑(bs.map fun b => b.memory.tag source)) :
    (bs.map DeviceBuffer.handle).Nodup := by
  have hnodup := h.nodup_liveMemory
  rw [hmemory, Multiset.map_coe, Multiset.coe_nodup, List.map_map] at hnodup
  refine List.Nodup.of_map (fun handle => (source, handle)) ?_
  rwa [List.map_map]

end FreshAllocations

end VideoAccel
