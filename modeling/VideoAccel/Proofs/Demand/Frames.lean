import Mathlib.Data.List.Perm.Subperm
import VideoAccel.Proofs.Backend.Buffers
import VideoAccel.Proofs.Demand.Steps
import VideoAccel.Proofs.Reference.Resolution

namespace VideoAccel

theorem isAddressable_max {m n width : Nat} (hm : isAddressable m width = true)
    (hn : isAddressable n width = true) : isAddressable (max m n) width = true := by
  rw [Nat.max_def]
  split
  · exact hn
  · exact hm

namespace FrameTable

/-- The table was filled by insertions, of frames that can be measured with the strides they get. -/
inductive Filled : FrameTable → Prop
  | empty : Filled {}
  | insertFrame {t t' : FrameTable} {slot : Nat} {f : Frame} :
    Filled t → (f.aligned t.alignment).Sized → t.insertFrame? slot f = some t' → Filled t'
  | removeFrame {t : FrameTable} (slot : Nat) : Filled t → Filled (t.removeFrame slot)
  | insertPacket {t t' : FrameTable} {slot : Nat} {p : Packet} :
    Filled t → t.insertPacket? slot p = some t' → Filled t'
  | withAlignment {t : FrameTable} (c : AlignmentClass) : Filled t → Filled (t.withAlignment c)

/-- What the entries of a table are: no slot has two frames. -/
structure Sized (t : FrameTable) : Prop where
  frames : ∀ entry ∈ t.frames.entries,
    entry.2.Sized ∧ isAddressable (entry.1 + 1) frameEntryBytes = true
  slots : (t.frames.entries.map Prod.fst).Nodup

variable {t : FrameTable}

theorem Sized.removeFrame (h : t.Sized) (slot : Nat) : (t.removeFrame slot).Sized where
  frames entry hentry := h.frames entry (List.mem_of_mem_filter hentry)
  slots := h.slots.sublist (List.filter_sublist.map Prod.fst)

theorem Sized.insertFrame {slot : Nat} {f : Frame} (h : t.Sized)
    (hf : (f.aligned t.alignment).Sized) (hslot : isAddressable (slot + 1) frameEntryBytes = true) :
    (t.insertFrame slot f).Sized := by
  have hrest := h.removeFrame slot
  refine ⟨List.forall_mem_cons.2 ⟨⟨hf, hslot⟩, hrest.frames⟩, List.nodup_cons.2 ⟨?_, hrest.slots⟩⟩
  intro hmem
  obtain ⟨entry, hentry, hsame⟩ := List.mem_map.1 hmem
  have hother := (List.mem_filter.1 hentry).2
  exact bne_iff_ne.1 hother hsame

theorem Filled.sized (h : t.Filled) : t.Sized := by
  induction h with
  | empty => exact ⟨nofun, List.nodup_nil⟩
  | insertFrame _ hf hinsert ih =>
    obtain ⟨hslot, ⟨⟩⟩ := Option.ite_none_right_eq_some.1 hinsert
    exact ih.insertFrame hf hslot
  | removeFrame slot _ ih => exact ih.removeFrame slot
  | insertPacket _ hinsert ih =>
    obtain ⟨-, ⟨⟩⟩ := Option.ite_none_right_eq_some.1 hinsert
    exact ⟨ih.frames, ih.slots⟩
  | withAlignment c _ ih => exact ⟨ih.frames, ih.slots⟩

theorem Sized.of_frame? {slot : Nat} {f : Frame} (h : t.Sized) (hf : t.frame? slot = some f) :
    f.Sized ∧ isAddressable (slot + 1) frameEntryBytes = true :=
  h.frames (slot, f) (mem_of_lookup hf)

theorem Sized.frameCount (h : t.Sized) : isAddressable t.frameCount frameEntryBytes = true := by
  have hlimit : ∀ n, isAddressable n frameEntryBytes = true ↔ n ≤ maxArrayBytes / 32 := by
    intro n
    rw [isAddressable, decide_eq_true_eq, Nat.le_div_iff_mul_le (by decide)]
    rfl
  rw [hlimit]
  generalize maxArrayBytes / 32 = limit at hlimit
  have hsubset : t.frames.entries.map Prod.fst ⊆ List.range limit := by
    intro slot hslot
    obtain ⟨entry, hentry, rfl⟩ := List.mem_map.1 hslot
    exact List.mem_range.2 ((hlimit _).1 (h.frames entry hentry).2)
  have hle := (h.slots.subperm hsubset).length_le
  rwa [List.length_map, List.length_range] at hle

end FrameTable

theorem mem_resolveReferences {slots : List (Option Nat)} {table : FrameTable} {output : Frame}
    {outputSlot : Nat} {r : ResolvedRef}
    (h : r ∈ resolveReferences slots table output outputSlot) :
    table.frame? r.slot = some r.frame ∨ r.slot = outputSlot := by
  obtain ⟨i, hi, rfl⟩ := List.mem_iff_getElem.1 h
  have hlength := length_resolveReferences slots table output outputSlot
  obtain ⟨r', hr', -, -, hframe⟩ :=
    getElem?_resolveReferences rfl (List.getElem?_eq_getElem (hlength ▸ hi))
  obtain rfl := Option.some.inj ((List.getElem?_eq_getElem hi).symm.trans hr')
  exact hframe.imp_right And.left

namespace Engine

variable {t : Task} {frames : FrameTable} {output : Frame}

theorem isAddressable_highest (h : frames.Sized) (houtput : frames.frame? t.output = some output)
    (slots : List (Option Nat)) :
    isAddressable (((resolveReferences slots frames output t.output).map (·.slot)).foldl max
      t.output + 1) frameEntryBytes = true := by
  apply List.foldlRecOn (motive := fun n => isAddressable (n + 1) frameEntryBytes = true) _ max
    (h.of_frame? houtput).2
  intro n hn slot hslot
  obtain ⟨r, hr, rfl⟩ := List.mem_map.1 hslot
  have hown : isAddressable (r.slot + 1) frameEntryBytes = true := by
    obtain hframe | hsame := mem_resolveReferences hr
    · exact (h.of_frame? hframe).2
    · rw [hsame]
      exact (h.of_frame? houtput).2
  rw [← Nat.add_max_add_right]
  exact isAddressable_max hn hown

theorem isAddressable_storesNeeded (h : frames.Sized)
    (houtput : frames.frame? t.output = some output) (slots : List (Option Nat)) :
    isAddressable (storesNeeded t (resolveReferences slots frames output t.output) frames)
      frameEntryBytes = true :=
  isAddressable_max h.frameCount (isAddressable_highest h houtput slots)

end Engine

end VideoAccel
