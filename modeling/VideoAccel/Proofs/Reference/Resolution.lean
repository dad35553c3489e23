import VideoAccel.Reference

namespace VideoAccel

variable {table : FrameTable} {slots : List (Option Nat)} {output : Frame} {outputSlot : Nat}

theorem ownReference_eq_some {slot : Option Nat} {r : ResolvedRef} :
    ownReference table slot = some r ↔
      slot = some r.slot ∧ table.frame? r.slot = some r.frame ∧ r.valid = true := by
  obtain ⟨frame, own, valid⟩ := r
  cases slot with
  | none => simp [ownReference]
  | some slot =>
    simp only [ownReference, Option.map_eq_some_iff, ResolvedRef.mk.injEq, Option.some.injEq]
    refine ⟨?_, ?_⟩
    · rintro ⟨frame', hframe, rfl, rfl, rfl⟩
      exact ⟨rfl, hframe, rfl⟩
    · rintro ⟨rfl, hframe, rfl⟩
      exact ⟨frame, hframe, rfl, rfl, rfl⟩

theorem frame?_nearestReference {i : Nat} {r : ResolvedRef}
    (h : nearestReference (slots.map (ownReference table)) i = some r) :
    table.frame? r.slot = some r.frame := by
  obtain ⟨entry, hmem, hentry⟩ := List.exists_of_findSome?_eq_some h
  obtain rfl : entry = some r := hentry
  have hown : some r ∈ slots.map (ownReference table) := by
    obtain hmem | hmem := List.mem_append.1 hmem
    · exact List.mem_of_mem_take (List.mem_reverse.1 hmem)
    · exact List.mem_of_mem_drop hmem
  obtain ⟨slot, _, hslot⟩ := List.mem_map.1 hown
  exact (ownReference_eq_some.1 hslot).2.1

/-- Every entry is resolved. It is valid exactly if the slot that it names holds a frame, and then
it keeps its slot; its frame is in any case the one in its resolved slot. -/
theorem getElem?_resolveReferences {refs : List ResolvedRef}
    (hrefs : refs = resolveReferences slots table output outputSlot) {i : Nat} {slot : Option Nat}
    (h : slots[i]? = some slot) :
    ∃ r, refs[i]? = some r ∧
      (r.valid = true ↔ ∃ own frame, slot = some own ∧ table.frame? own = some frame) ∧
      (r.valid = true → slot = some r.slot) ∧
      (table.frame? r.slot = some r.frame ∨ r.slot = outputSlot ∧ r.frame = output) := by
  simp only [hrefs, resolveReferences, List.getElem?_mapIdx, List.getElem?_map, h, Option.map_some]
  cases hown : ownReference table slot with
  | some r =>
    obtain ⟨hslot, hframe, hvalid⟩ := ownReference_eq_some.1 hown
    exact ⟨r, rfl, ⟨fun _ => ⟨r.slot, r.frame, hslot, hframe⟩, fun _ => hvalid⟩, fun _ => hslot,
      .inl hframe⟩
  | none =>
    have hmissing : ¬ ∃ own frame, slot = some own ∧ table.frame? own = some frame := by
      rintro ⟨own, frame, rfl, hframe⟩
      have hsome := (ownReference_eq_some (r := ⟨frame, own, true⟩)).2 ⟨rfl, hframe, rfl⟩
      rw [hown] at hsome
      cases hsome
    cases hnearest : nearestReference (slots.map (ownReference table)) i with
    | some r =>
      have hframe : table.frame? r.slot = some r.frame := frame?_nearestReference hnearest
      exact ⟨_, rfl, ⟨(absurd · Bool.false_ne_true), (absurd · hmissing)⟩,
        (absurd · Bool.false_ne_true), .inl hframe⟩
    | none =>
      exact ⟨_, rfl, ⟨(absurd · Bool.false_ne_true), (absurd · hmissing)⟩,
        (absurd · Bool.false_ne_true), .inr ⟨rfl, rfl⟩⟩

end VideoAccel
