import VideoAccel.Proofs.Reference.Resolution

namespace VideoAccel

variable {slots : List (Option Nat)} {table : FrameTable} {output : Frame} {outputSlot i j : Nat}
  {r r' : ResolvedRef}

def ShowsFrame (slots : List (Option Nat)) (table : FrameTable) (i slot : Nat) (frame : Frame) :
    Prop :=
  slots[i]? = some (some slot) ∧ table.frame? slot = some frame

def HasFrame (slots : List (Option Nat)) (table : FrameTable) (i : Nat) : Prop :=
  ∃ slot frame, ShowsFrame slots table i slot frame

/-- What an entry is resolved to. -/
inductive ResolvesTo (slots : List (Option Nat)) (table : FrameTable) (output : Frame)
    (outputSlot i : Nat) : ResolvedRef → Prop
  | own {slot : Nat} {frame : Frame} (shows : ShowsFrame slots table i slot frame) :
    ResolvesTo slots table output outputSlot i ⟨frame, slot, true⟩
  | earlier {j slot : Nat} {frame : Frame} (missing : ¬ HasFrame slots table i) (before : j < i)
    (shows : ShowsFrame slots table j slot frame)
    (nearest : ∀ k, j < k → k < i → ¬ HasFrame slots table k) :
    ResolvesTo slots table output outputSlot i ⟨frame, slot, false⟩
  | later {j slot : Nat} {frame : Frame} (missing : ¬ HasFrame slots table i)
    (alone : ∀ k, k < i → ¬ HasFrame slots table k) (behind : i < j)
    (shows : ShowsFrame slots table j slot frame)
    (nearest : ∀ k, i < k → k < j → ¬ HasFrame slots table k) :
    ResolvesTo slots table output outputSlot i ⟨frame, slot, false⟩
  | output (none : ∀ k, ¬ HasFrame slots table k) :
    ResolvesTo slots table output outputSlot i ⟨output, outputSlot, false⟩

theorem findSome?_id_eq_some {α : Type} {l : List (Option α)} {a : α}
    (h : l.findSome? id = some a) :
    ∃ j : Nat, l[j]? = some (some a) ∧ ∀ k, k < j → l[k]? = some none := by
  induction l with
  | nil => cases h
  | cons x l ih =>
    cases x with
    | some b =>
      obtain rfl : b = a := Option.some.inj h
      exact ⟨0, rfl, fun k hk => absurd hk (Nat.not_lt_zero k)⟩
    | none =>
      obtain ⟨j, hj, hbefore⟩ := ih h
      refine ⟨j + 1, hj, fun k hk => ?_⟩
      cases k with
      | zero => rfl
      | succ k => exact hbefore k (Nat.lt_of_succ_lt_succ hk)

theorem not_mem_of_findSome?_id {α : Type} {l : List (Option α)} (h : l.findSome? id = none)
    (a : α) : some a ∉ l := by
  intro ha
  have hnone := List.findSome?_eq_none_iff.1 h (some a) ha
  cases hnone

/-- The entry that is found first on the way from entry `i` to the start is the nearest one. -/
theorem findSome?_before {α : Type} {l : List (Option α)} (hi : i ≤ l.length) {a : α}
    (h : (l.take i).reverse.findSome? id = some a) :
    ∃ j, j < i ∧ l[j]? = some (some a) ∧ ∀ k, j < k → k < i → l[k]? = some none := by
  have hentry : ∀ k, k < i → (l.take i).reverse[k]? = l[i - 1 - k]? := by
    intro k hk
    rw [List.getElem?_reverse (by rw [List.length_take]; omega), List.length_take,
      Nat.min_eq_left hi, List.getElem?_take, if_pos (by omega)]
  obtain ⟨j, hj, hbefore⟩ := findSome?_id_eq_some h
  have hlt : j < i := by
    have hlength := (List.getElem?_eq_some_iff.1 hj).1
    rw [List.length_reverse, List.length_take] at hlength
    omega
  rw [hentry j hlt] at hj
  refine ⟨i - 1 - j, by omega, hj, fun k hjk hki => ?_⟩
  have hk := hbefore (i - 1 - k) (by omega)
  rwa [hentry (i - 1 - k) (by omega), show i - 1 - (i - 1 - k) = k by omega] at hk

theorem findSome?_behind {α : Type} {l : List (Option α)} {a : α}
    (h : (l.drop (i + 1)).findSome? id = some a) :
    ∃ j, i < j ∧ l[j]? = some (some a) ∧ ∀ k, i < k → k < j → l[k]? = some none := by
  obtain ⟨j, hj, hbefore⟩ := findSome?_id_eq_some h
  rw [List.getElem?_drop] at hj
  refine ⟨i + 1 + j, by omega, hj, fun k hik hkj => ?_⟩
  have hk := hbefore (k - (i + 1)) (by omega)
  rwa [List.getElem?_drop, Nat.add_sub_cancel' hik] at hk

theorem showsFrame_iff :
    (slots.map (ownReference table))[i]? = some (some r) ↔
      ShowsFrame slots table i r.slot r.frame ∧ r.valid = true := by
  rw [List.getElem?_map, Option.map_eq_some_iff, ShowsFrame]
  constructor
  · rintro ⟨slot, hslot, hown⟩
    obtain ⟨rfl, hframe, hvalid⟩ := ownReference_eq_some.1 hown
    exact ⟨⟨hslot, hframe⟩, hvalid⟩
  · rintro ⟨⟨hslot, hframe⟩, hvalid⟩
    exact ⟨some r.slot, hslot, ownReference_eq_some.2 ⟨rfl, hframe, hvalid⟩⟩

theorem not_hasFrame_iff :
    ¬ HasFrame slots table i ↔ ∀ r, (slots.map (ownReference table))[i]? ≠ some (some r) := by
  constructor
  · intro h r hr
    exact h ⟨r.slot, r.frame, (showsFrame_iff.1 hr).1⟩
  · rintro h ⟨slot, frame, hshows⟩
    exact h ⟨frame, slot, true⟩ (showsFrame_iff.2 ⟨hshows, rfl⟩)

theorem resolvesTo_nearest (hi : i < slots.length) (hmissing : ¬ HasFrame slots table i) :
    ResolvesTo slots table output outputSlot i
      { (nearestReference (slots.map (ownReference table)) i).getD ⟨output, outputSlot, false⟩ with
        valid := false } := by
  have hnone : ∀ {k}, (slots.map (ownReference table))[k]? = some none →
      ¬ HasFrame slots table k := by
    intro k hk
    apply not_hasFrame_iff.2
    intro r hr
    rw [hk] at hr
    cases hr
  have hlength : i ≤ (slots.map (ownReference table)).length := by
    rw [List.length_map]
    exact Nat.le_of_lt hi
  rw [nearestReference, List.findSome?_append]
  cases hbefore : ((slots.map (ownReference table)).take i).reverse.findSome? id with
  | some r =>
    obtain ⟨j, hj, hr, hnearest⟩ := findSome?_before hlength hbefore
    exact .earlier hmissing hj (showsFrame_iff.1 hr).1 fun k hjk hki => hnone (hnearest k hjk hki)
  | none =>
    have halone : ∀ k, k < i → ¬ HasFrame slots table k := by
      intro k hk
      apply not_hasFrame_iff.2
      intro r hr
      refine not_mem_of_findSome?_id hbefore r (List.mem_reverse.2 ?_)
      apply List.mem_of_getElem? (i := k)
      rw [List.getElem?_take, if_pos hk, hr]
    cases hbehind : ((slots.map (ownReference table)).drop (i + 1)).findSome? id with
    | some r =>
      obtain ⟨j, hj, hr, hnearest⟩ := findSome?_behind hbehind
      exact .later hmissing halone hj (showsFrame_iff.1 hr).1 fun k hik hkj =>
        hnone (hnearest k hik hkj)
    | none =>
      refine .output fun k => ?_
      rcases Nat.lt_trichotomy k i with hk | rfl | hk
      · exact halone k hk
      · exact hmissing
      · apply not_hasFrame_iff.2
        intro r hr
        apply not_mem_of_findSome?_id hbehind r
        apply List.mem_of_getElem? (i := k - (i + 1))
        rw [List.getElem?_drop, Nat.add_sub_cancel' hk, hr]

theorem exists_resolvesTo (table : FrameTable) (output : Frame) (outputSlot : Nat)
    (hi : i < slots.length) :
    ∃ r, (resolveReferences slots table output outputSlot)[i]? = some r ∧
      ResolvesTo slots table output outputSlot i r := by
  have hentry : (slots.map (ownReference table))[i]? = some (ownReference table slots[i]) := by
    rw [List.getElem?_map, List.getElem?_eq_getElem hi, Option.map_some]
  rw [resolveReferences, List.getElem?_mapIdx, hentry]
  cases hown : ownReference table slots[i] with
  | some r =>
    obtain ⟨hshows, hvalid⟩ := showsFrame_iff.1 (hown ▸ hentry)
    obtain ⟨frame, slot, valid⟩ := r
    obtain rfl : valid = true := hvalid
    exact ⟨_, rfl, .own hshows⟩
  | none =>
    refine ⟨_, rfl, resolvesTo_nearest hi (not_hasFrame_iff.2 fun r hr => ?_)⟩
    rw [hentry, hown] at hr
    cases hr

theorem ShowsFrame.unique {slot slot' : Nat} {frame frame' : Frame}
    (h : ShowsFrame slots table i slot frame) (h' : ShowsFrame slots table i slot' frame') :
    slot = slot' ∧ frame = frame' := by
  obtain rfl : slot = slot' := Option.some.inj (Option.some.inj (h.1.symm.trans h'.1))
  exact ⟨rfl, Option.some.inj (h.2.symm.trans h'.2)⟩

theorem ShowsFrame.hasFrame {slot : Nat} {frame : Frame}
    (h : ShowsFrame slots table i slot frame) : HasFrame slots table i := ⟨slot, frame, h⟩

theorem ResolvesTo.unique (h : ResolvesTo slots table output outputSlot i r)
    (h' : ResolvesTo slots table output outputSlot i r') : r = r' := by
  cases h with
  | own shows =>
    cases h' with
    | own shows' =>
      obtain ⟨rfl, rfl⟩ := shows.unique shows'
      rfl
    | earlier missing | later missing => exact absurd shows.hasFrame missing
    | output none => exact absurd shows.hasFrame (none i)
  | @earlier j _ _ missing before shows nearest =>
    cases h' with
    | own shows' => exact absurd shows'.hasFrame missing
    | @earlier j' _ _ _ before' shows' nearest' =>
      obtain rfl : j = j' := by
        rcases Nat.lt_trichotomy j j' with hlt | heq | hlt
        · exact absurd shows'.hasFrame (nearest j' hlt before')
        · exact heq
        · exact absurd shows.hasFrame (nearest' j hlt before)
      obtain ⟨rfl, rfl⟩ := shows.unique shows'
      rfl
    | later _ alone => exact absurd shows.hasFrame (alone j before)
    | output none => exact absurd shows.hasFrame (none j)
  | @later j _ _ missing alone behind shows nearest =>
    cases h' with
    | own shows' => exact absurd shows'.hasFrame missing
    | earlier _ before' shows' => exact absurd shows'.hasFrame (alone _ before')
    | @later j' _ _ _ _ behind' shows' nearest' =>
      obtain rfl : j = j' := by
        rcases Nat.lt_trichotomy j j' with hlt | heq | hlt
        · exact absurd shows.hasFrame (nearest' j behind hlt)
        · exact heq
        · exact absurd shows'.hasFrame (nearest j' behind' hlt)
      obtain ⟨rfl, rfl⟩ := shows.unique shows'
      rfl
    | output none => exact absurd shows.hasFrame (none j)
  | output none =>
    cases h' with
    | own shows' | earlier _ _ shows' | later _ _ _ shows' => exact absurd shows'.hasFrame (none _)
    | output => rfl

theorem ResolvesTo.frame? (h : ResolvesTo slots table output outputSlot i r)
    (houtput : table.frame? outputSlot = some output) : table.frame? r.slot = some r.frame := by
  cases h with
  | own shows | earlier _ _ shows | later _ _ _ shows => exact shows.2
  | output => exact houtput

/-- Every entry is resolved to its own frame, or else to the nearest one that the order of
preference allows; what is resolved is in the table if the output is. -/
theorem resolveReferences_nearest (slots : List (Option Nat)) (table : FrameTable) (output : Frame)
    (outputSlot : Nat) :
    (resolveReferences slots table output outputSlot).length = slots.length ∧
      (∀ i r, (resolveReferences slots table output outputSlot)[i]? = some r ↔
        i < slots.length ∧ ResolvesTo slots table output outputSlot i r) ∧
      (table.frame? outputSlot = some output →
        ∀ r ∈ resolveReferences slots table output outputSlot,
          table.frame? r.slot = some r.frame) := by
  have hlength := length_resolveReferences slots table output outputSlot
  have hresolved : ∀ i r, (resolveReferences slots table output outputSlot)[i]? = some r ↔
      i < slots.length ∧ ResolvesTo slots table output outputSlot i r := by
    intro i r
    constructor
    · intro hr
      have hi : i < slots.length := hlength ▸ (List.getElem?_eq_some_iff.1 hr).1
      obtain ⟨r', hr', hresolves⟩ := exists_resolvesTo table output outputSlot hi
      obtain rfl : r' = r := Option.some.inj (hr'.symm.trans hr)
      exact ⟨hi, hresolves⟩
    · rintro ⟨hi, hresolves⟩
      obtain ⟨r', hr', hresolves'⟩ := exists_resolvesTo table output outputSlot hi
      rw [hr', hresolves'.unique hresolves]
  refine ⟨hlength, hresolved, fun houtput r hr => ?_⟩
  obtain ⟨i, hi⟩ := List.mem_iff_getElem?.1 hr
  exact ((hresolved i r).1 hi).2.frame? houtput

/-- The first entry names no slot and the third one an empty slot; both get the frame of the
second. -/
theorem resolveReferences_nearest_gaps :
    let frame : Frame := ({ handle := 101 } : Frame).aligned .align16
    let output : Frame := ({ handle := 109 } : Frame).aligned .align16
    let table := (({} : FrameTable).insertFrame 1 { handle := 101 }).insertFrame 9 { handle := 109 }
    let slots := [none, some 1, some 7]
    table.frame? 9 = some output ∧
      ResolvesTo slots table output 9 0 ⟨frame, 1, false⟩ ∧
      ResolvesTo slots table output 9 2 ⟨frame, 1, false⟩ ∧
      ∀ r ∈ resolveReferences slots table output 9, table.frame? r.slot = some r.frame := by
  intro frame output table slots
  have houtput : table.frame? 9 = some output := rfl
  obtain ⟨-, hresolved, hframes⟩ := resolveReferences_nearest slots table output 9
  exact ⟨houtput, ((hresolved 0 _).1 rfl).2, ((hresolved 2 _).1 rfl).2, hframes houtput⟩

end VideoAccel
