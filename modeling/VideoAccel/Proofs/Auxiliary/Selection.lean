import VideoAccel.Proofs.Auxiliary.Scratch

namespace VideoAccel

abbrev NamedRegion := RegionId × Region

def totalBytes (regions : List NamedRegion) : Nat := (regions.map fun x => x.2.size).sum

@[simp]
theorem totalBytes_nil : totalBytes [] = 0 := rfl

@[simp]
theorem totalBytes_cons (x : NamedRegion) (regions : List NamedRegion) :
    totalBytes (x :: regions) = x.2.size + totalBytes regions := List.sum_cons

theorem totalBytes_le_of_sublist {regions regions' : List NamedRegion}
    (h : regions.Sublist regions') : totalBytes regions ≤ totalBytes regions' := by
  induction h with
  | slnil => exact Nat.le_refl 0
  | cons x _ ih => exact Nat.le_trans ih (totalBytes_cons x _ ▸ Nat.le_add_left _ _)
  | cons_cons x _ ih =>
    rw [totalBytes_cons, totalBytes_cons]
    exact Nat.add_le_add_left ih _

namespace ScratchChoice

/-- Regions from offset zero on: each starts where the sizes of those before it end. -/
def consecutive (regions : List NamedRegion) : ScratchChoice :=
  regions.mapIdx fun i x => (x.1, totalBytes (regions.take i))

def stackedFrom : Nat → List NamedRegion → ScratchChoice
  | _, [] => []
  | start, x :: rest => (x.1, start) :: stackedFrom (start + x.2.size) rest

theorem stackedFrom_eq (start : Nat) (regions : List NamedRegion) :
    stackedFrom start regions =
      regions.mapIdx fun i x => (x.1, start + totalBytes (regions.take i)) := by
  induction regions generalizing start with
  | nil => rfl
  | cons x regions ih =>
    simp only [stackedFrom, ih, List.mapIdx_cons, List.take_zero, totalBytes_nil, Nat.add_zero,
      List.take_succ_cons, totalBytes_cons, Nat.add_assoc]

theorem stackedFrom_zero (regions : List NamedRegion) :
    stackedFrom 0 regions = consecutive regions := by
  simp only [stackedFrom_eq, consecutive, Nat.zero_add]

theorem stackedFrom_append (start : Nat) (regions more : List NamedRegion) :
    stackedFrom start (regions ++ more) =
      stackedFrom start regions ++ stackedFrom (start + totalBytes regions) more := by
  induction regions generalizing start with
  | nil => rfl
  | cons x regions ih =>
    simp only [List.cons_append, stackedFrom, ih, totalBytes_cons, Nat.add_assoc]

theorem consecutive_isPrefix {regions regions' : List NamedRegion} (h : regions <+: regions') :
    consecutive regions <+: consecutive regions' := by
  obtain ⟨more, rfl⟩ := h
  rw [← stackedFrom_zero, ← stackedFrom_zero, stackedFrom_append]
  exact List.prefix_append _ _

end ScratchChoice

/-- The first regions of a list, as many as fit into `room` bytes. -/
structure LongestFit (listed : List NamedRegion) (room : Nat) (chosen : List NamedRegion) :
    Prop where
  isPrefix : chosen <+: listed
  fits : totalBytes chosen ≤ room
  longest : ∀ other, other <+: listed → totalBytes other ≤ room → other <+: chosen

namespace LongestFit

variable {listed chosen chosen' : List NamedRegion} {x : NamedRegion} {room room' : Nat}

theorem nil (room : Nat) : LongestFit [] room [] :=
  ⟨List.nil_prefix, Nat.zero_le room, fun _ hother _ => hother⟩

theorem stop (h : room < x.2.size) : LongestFit (x :: listed) room [] := by
  refine ⟨List.nil_prefix, Nat.zero_le room, fun other hother hfits => ?_⟩
  cases other with
  | nil => exact List.nil_prefix
  | cons y other =>
    obtain ⟨rfl, -⟩ := List.cons_prefix_cons.1 hother
    rw [totalBytes_cons] at hfits
    omega

theorem cons (hx : x.2.size ≤ room) (h : LongestFit listed (room - x.2.size) chosen) :
    LongestFit (x :: listed) room (x :: chosen) := by
  refine ⟨List.cons_prefix_cons.2 ⟨rfl, h.isPrefix⟩, ?_, fun other hother hfits => ?_⟩
  · have hrest := h.fits
    rw [totalBytes_cons]
    omega
  · cases other with
    | nil => exact List.nil_prefix
    | cons y other =>
      obtain ⟨rfl, hrest⟩ := List.cons_prefix_cons.1 hother
      rw [totalBytes_cons] at hfits
      exact List.cons_prefix_cons.2 ⟨rfl, h.longest other hrest (by omega)⟩

theorem isPrefix_of_le (h : LongestFit listed room chosen) (h' : LongestFit listed room' chosen')
    (hroom : room ≤ room') : chosen <+: chosen' :=
  h'.longest chosen h.isPrefix (Nat.le_trans h.fits hroom)

end LongestFit

def Precedes (x y : NamedRegion) : Prop :=
  y.2.size < x.2.size ∨ x.2.size = y.2.size ∧ x.1.index < y.1.index

instance (x y : NamedRegion) : Decidable (Precedes x y) :=
  inferInstanceAs (Decidable (_ ∨ _ ∧ _))

theorem Precedes.asymm {x y : NamedRegion} (h : Precedes x y) : ¬ Precedes y x := by
  simp only [Precedes] at *
  omega

def chosenBefore (chosen : List NamedRegion) (x : NamedRegion) : List NamedRegion :=
  chosen.filter fun y => Precedes y x

/-- The choice from regions that are looked at one by one: each is taken if it fits into what those
taken before it leave of `room` bytes. -/
structure GreedyFit (regions : List NamedRegion) (room : Nat) (chosen : List NamedRegion) :
    Prop where
  sublist : chosen.Sublist regions
  fits : totalBytes chosen ≤ room
  leftOut : ∀ x ∈ regions,
    x ∉ chosen ↔ room < totalBytes (chosenBefore chosen x) + x.2.size

namespace GreedyFit

variable {regions chosen : List NamedRegion} {x y : NamedRegion} {room : Nat}

theorem nil (room : Nat) : GreedyFit [] room [] :=
  ⟨List.Sublist.refl [], Nat.zero_le room, nofun⟩

theorem chosenBefore_eq_nil (hx : ∀ y ∈ regions, Precedes x y) (h : chosen.Sublist regions) :
    chosenBefore chosen x = [] := by
  refine List.filter_eq_nil_iff.2 fun y hy hbefore => ?_
  exact (hx y (h.mem hy)).asymm (of_decide_eq_true hbefore)

theorem take (hx : x.2.size ≤ room) (hfirst : ∀ y ∈ regions, Precedes x y)
    (h : GreedyFit regions (room - x.2.size) chosen) :
    GreedyFit (x :: regions) room (x :: chosen) := by
  refine ⟨h.sublist.cons_cons x, ?_, List.forall_mem_cons.2 ⟨?_, fun y hy => ?_⟩⟩
  · have hrest := h.fits
    rw [totalBytes_cons]
    omega
  · have hself : ¬ Precedes x x := fun hself => hself.asymm hself
    have hnone : chosenBefore (x :: chosen) x = [] := by
      rw [chosenBefore, List.filter_cons_of_neg (by simpa using hself)]
      exact chosenBefore_eq_nil hfirst h.sublist
    rw [hnone, totalBytes_nil, Nat.zero_add]
    exact iff_of_false (fun hnot => hnot List.mem_cons_self) (Nat.not_lt_of_le hx)
  · have hbefore : chosenBefore (x :: chosen) y = x :: chosenBefore chosen y :=
      List.filter_cons_of_pos (decide_eq_true (hfirst y hy))
    have hne : y ≠ x := by
      rintro rfl
      exact (hfirst y hy).asymm (hfirst y hy)
    have hleft := h.leftOut y hy
    rw [hbefore, totalBytes_cons, List.mem_cons, or_iff_right hne, hleft]
    omega

theorem skip (hx : room < x.2.size) (hfirst : ∀ y ∈ regions, Precedes x y)
    (h : GreedyFit regions room chosen) : GreedyFit (x :: regions) room chosen := by
  refine ⟨h.sublist.cons x, h.fits, List.forall_mem_cons.2 ⟨?_, h.leftOut⟩⟩
  have hnot : x ∉ chosen := fun hmem =>
    (hfirst x (h.sublist.mem hmem)).asymm (hfirst x (h.sublist.mem hmem))
  rw [chosenBefore_eq_nil hfirst h.sublist, totalBytes_nil, Nat.zero_add]
  exact iff_of_true hnot hx

theorem full (h : GreedyFit regions room chosen) :
    ∀ x ∈ regions, x ∉ chosen → room < totalBytes chosen + x.2.size := by
  intro x hx hnot
  have hlt := (h.leftOut x hx).1 hnot
  have hle : totalBytes (chosenBefore chosen x) ≤ totalBytes chosen :=
    totalBytes_le_of_sublist List.filter_sublist
  omega

end GreedyFit

namespace ScratchPolicy

variable {layout : AuxLayout} {capacity used room : Nat}

def listedRegions (layout : AuxLayout) (order : List RegionId) : List NamedRegion :=
  order.filterMap fun id => (layout.region? id).map (id, ·)

theorem mem_of_mem_listedRegions {order : List RegionId} {x : NamedRegion}
    (h : x ∈ listedRegions layout order) : x ∈ layout.regions := by
  obtain ⟨id, -, hid⟩ := List.mem_filterMap.1 h
  obtain ⟨region, hregion, rfl⟩ := Option.map_eq_some_iff.1 hid
  exact mem_of_lookup hregion

theorem takeInOrder_longestFit (hroom : used + room = capacity) (order : List RegionId) :
    ∃ chosen, takeInOrder layout capacity used order = ScratchChoice.stackedFrom used chosen ∧
      LongestFit (listedRegions layout order) room chosen := by
  induction order generalizing used room with
  | nil => exact ⟨[], rfl, .nil room⟩
  | cons id order ih =>
    cases hregion : layout.region? id with
    | none =>
      have hlisted : listedRegions layout (id :: order) = listedRegions layout order := by
        simp only [listedRegions, List.filterMap_cons, hregion, Option.map_none]
      simp only [takeInOrder, hregion, hlisted]
      exact ih hroom
    | some region =>
      have hlisted : listedRegions layout (id :: order) =
          (id, region) :: listedRegions layout order := by
        simp only [listedRegions, List.filterMap_cons, hregion, Option.map_some]
      simp only [takeInOrder, hregion, hlisted]
      by_cases hfits : region.size ≤ room
      · have hrest : used + region.size + (room - region.size) = capacity := by omega
        obtain ⟨chosen, hchosen, hlongest⟩ := ih hrest
        rw [if_neg (by omega), hchosen]
        exact ⟨(id, region) :: chosen, rfl, .cons hfits hlongest⟩
      · rw [if_pos (by omega)]
        exact ⟨[], rfl, .stop (Nat.lt_of_not_le hfits)⟩

theorem takeFitting_greedyFit (hroom : used + room = capacity) {regions : List NamedRegion}
    (horder : regions.Pairwise Precedes) :
    ∃ chosen, takeFitting capacity used regions = ScratchChoice.stackedFrom used chosen ∧
      GreedyFit regions room chosen := by
  induction regions generalizing used room with
  | nil => exact ⟨[], rfl, .nil room⟩
  | cons x regions ih =>
    obtain ⟨hfirst, hrest⟩ := List.pairwise_cons.1 horder
    simp only [takeFitting]
    by_cases hfits : x.2.size ≤ room
    · have hleft : used + x.2.size + (room - x.2.size) = capacity := by omega
      obtain ⟨chosen, hchosen, hgreedy⟩ := ih hleft hrest
      rw [if_pos (by omega), hchosen]
      exact ⟨x :: chosen, rfl, hgreedy.take hfits hfirst⟩
    · obtain ⟨chosen, hchosen, hgreedy⟩ := ih hroom hrest
      rw [if_neg (by omega), hchosen]
      exact ⟨chosen, rfl, hgreedy.skip (Nat.lt_of_not_le hfits) hfirst⟩

theorem larger_iff {x y : NamedRegion} :
    larger x y = true ↔ y.2.size < x.2.size ∨ x.2.size = y.2.size ∧ x.1.index ≤ y.1.index := by
  simp [larger]

theorem pairwise_largest {regions : List NamedRegion} (hids : (regions.map Prod.fst).Nodup) :
    (sortBy larger regions).Pairwise Precedes := by
  have hsorted : (sortBy larger regions).Pairwise fun x y => larger x y = true := by
    apply pairwise_sortBy_of_total
    · intro x y
      simp only [larger_iff]
      omega
    · intro x y z
      simp only [larger_iff]
      omega
  have hdistinct : (sortBy larger regions).Pairwise fun x y => x.1 ≠ y.1 := by
    rw [← List.pairwise_map (f := Prod.fst) (R := (· ≠ ·)), ← List.nodup_iff_pairwise_ne]
    exact ((perm_sortBy regions).map Prod.fst).nodup_iff.2 hids
  refine hsorted.imp₂ (fun x y hlarger hne => ?_) hdistinct
  have hindex : x.1.index ≠ y.1.index := fun heq => hne (RegionId.index_injective heq)
  rw [larger_iff] at hlarger
  simp only [Precedes]
  omega

structure TakesLargest (layout : AuxLayout) (capacity : Nat) (chosen : List NamedRegion) :
    Prop where
  once : (chosen.map Prod.fst).Nodup
  order : chosen.Pairwise Precedes
  leftOut : ∀ x ∈ layout.regions,
    x ∉ chosen ↔ capacity < totalBytes (chosenBefore chosen x) + x.2.size
  full : ∀ x ∈ layout.regions, x ∉ chosen → capacity < totalBytes chosen + x.2.size

/-- How a policy chooses regions for `capacity` bytes. -/
def Chooses (policy : ScratchPolicy) (layout : AuxLayout) (capacity : Nat)
    (chosen : List NamedRegion) : Prop :=
  match policy with
  | .priority order => LongestFit (listedRegions layout order) capacity chosen
  | .largestFirst => TakesLargest layout capacity chosen

/-- The chosen regions of a layout lie one behind the other from offset zero on and fit into the
memory. With priorities they are the longest start of the list that fits, which a larger memory only
extends; by size a region is left out exactly if it finds no room when it is its turn, and the
memory ends without room for it. -/
theorem select_chooses (policy : ScratchPolicy) (hids : (layout.regions.map Prod.fst).Nodup)
    (capacity : Nat) :
    (∃ chosen, (∀ x ∈ chosen, x ∈ layout.regions) ∧
        policy.select layout capacity = ScratchChoice.consecutive chosen ∧
        totalBytes chosen ≤ capacity ∧ policy.Chooses layout capacity chosen) ∧
      ∀ order, policy = .priority order → ∀ capacity', capacity ≤ capacity' →
        policy.select layout capacity <+: policy.select layout capacity' := by
  have hpriority : ∀ order capacity, ∃ chosen,
      takeInOrder layout capacity 0 order = ScratchChoice.consecutive chosen ∧
        LongestFit (listedRegions layout order) capacity chosen := fun order capacity => by
    simp only [← ScratchChoice.stackedFrom_zero]
    exact takeInOrder_longestFit (Nat.zero_add capacity) order
  constructor
  · cases policy with
    | priority order =>
      obtain ⟨chosen, hchosen, hlongest⟩ := hpriority order capacity
      exact ⟨chosen, fun x hx => mem_of_mem_listedRegions (hlongest.isPrefix.mem hx), hchosen,
        hlongest.fits, hlongest⟩
    | largestFirst =>
      have horder := pairwise_largest hids
      obtain ⟨chosen, hchosen, hgreedy⟩ := takeFitting_greedyFit (Nat.zero_add capacity) horder
      have hmem : ∀ x, x ∈ sortBy larger layout.regions ↔ x ∈ layout.regions := fun _ => mem_sortBy
      rw [ScratchChoice.stackedFrom_zero] at hchosen
      refine ⟨chosen, fun x hx => (hmem x).1 (hgreedy.sublist.mem hx), hchosen, hgreedy.fits,
        ⟨?_, horder.sublist hgreedy.sublist, fun x hx => hgreedy.leftOut x ((hmem x).2 hx),
          fun x hx => hgreedy.full x ((hmem x).2 hx)⟩⟩
      refine (hgreedy.sublist.map Prod.fst).nodup ?_
      exact ((perm_sortBy layout.regions).map Prod.fst).nodup_iff.2 hids
  · rintro order rfl capacity' hle
    obtain ⟨chosen, hchosen, hlongest⟩ := hpriority order capacity
    obtain ⟨chosen', hchosen', hlongest'⟩ := hpriority order capacity'
    simp only [select, hchosen, hchosen']
    exact ScratchChoice.consecutive_isPrefix (hlongest.isPrefix_of_le hlongest' hle)

/-- Four regions, of which the second and the third largest find no room behind the largest one
although the smallest one does; a list of priorities ends where the second largest one stands. -/
theorem select_chooses_skipping :
    let layout : AuxLayout :=
      { regions := [(.strmdRow, ⟨0, 384⟩), (.interCol, ⟨4096, 1664⟩), (.intraRow, ⟨8192, 2880⟩),
          (.dblkRow, ⟨12288, 5760⟩)]
        totalSize := 20480 }
    let order : List RegionId := [.strmdRow, .saoRow, .dblkRow, .intraRow, .interCol]
    (layout.regions.map Prod.fst).Nodup ∧
      (∃ chosen, (∀ x ∈ chosen, x ∈ layout.regions) ∧
        largestFirst.select layout 6200 = ScratchChoice.consecutive chosen ∧
        totalBytes chosen ≤ 6200 ∧ TakesLargest layout 6200 chosen) ∧
      largestFirst.select layout 6200 = [(.dblkRow, 0), (.strmdRow, 5760)] ∧
      (priority order).select layout 6200 <+: (priority order).select layout 9023 ∧
      (priority order).select layout 6200 = [(.strmdRow, 0), (.dblkRow, 384)] := by
  intro layout order
  have hids : (layout.regions.map Prod.fst).Nodup := by decide
  have hlargest := (select_chooses largestFirst hids 6200).1
  have hextended := (select_chooses (priority order) hids 6200).2 order rfl 9023 (by decide)
  exact ⟨hids, hlargest, by decide, hextended, by decide⟩

end ScratchPolicy

end VideoAccel
