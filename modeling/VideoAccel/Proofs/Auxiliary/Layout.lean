import Mathlib.Data.List.Pairwise
import Mathlib.Data.List.Sort
import VideoAccel.Auxiliary.Layout
import VideoAccel.Proofs.Rounding

namespace VideoAccel

theorem RegionId.index_injective {id id' : RegionId} (h : id.index = id'.index) : id = id' := by
  rw [← Option.some.injEq, ← ofIndex?_index id, ← ofIndex?_index id', h]

def Region.stop (r : Region) : Nat := r.offset + r.size

def Region.Before (a b : Region) : Prop := a.stop ≤ b.offset

section

variable {α : Type} {le : α → α → Bool}

theorem or_of_pairwise {R : α → α → Prop} {l : List α} (h : l.Pairwise R) {a b : α} (ha : a ∈ l)
    (hb : b ∈ l) (hne : a ≠ b) : R a b ∨ R b a := by
  have hsymm : Std.Symm fun a b => R a b ∨ R b a := ⟨fun _ _ => Or.symm⟩
  exact List.Pairwise.forall (R := fun a b => R a b ∨ R b a) (h.imp Or.inl) ha hb hne

theorem insertSorted_eq (a : α) (l : List α) :
    insertSorted le a l = l.orderedInsert (fun a b => le a b = true) a := by
  induction l with
  | nil => rfl
  | cons b l ih => simp only [insertSorted, List.orderedInsert_cons, ih]

theorem sortBy_eq (l : List α) :
    sortBy le l = l.insertionSort fun a b => le a b = true := by
  induction l with
  | nil => rfl
  | cons a l ih =>
    rw [List.insertionSort_cons, ← ih, ← insertSorted_eq]
    rfl

theorem perm_sortBy (l : List α) : (sortBy le l).Perm l := by
  rw [sortBy_eq]
  exact List.perm_insertionSort _ l

theorem mem_sortBy {a : α} {l : List α} : a ∈ sortBy le l ↔ a ∈ l := (perm_sortBy l).mem_iff

theorem length_sortBy (l : List α) : (sortBy le l).length = l.length := (perm_sortBy l).length_eq

theorem pairwise_sortBy_of_total (htotal : ∀ a b, le a b = true ∨ le b a = true)
    (htrans : ∀ a b c, le a b = true → le b c = true → le a c = true) (l : List α) :
    (sortBy le l).Pairwise fun a b => le a b = true := by
  have hall : Std.Total fun a b => le a b = true := ⟨htotal⟩
  have hchain : IsTrans α fun a b => le a b = true := ⟨htrans⟩
  rw [sortBy_eq]
  exact List.pairwise_insertionSort _ l

theorem pairwise_sortBy (key : α → Nat) (l : List α) :
    (sortBy (fun a b => key a ≤ key b) l).Pairwise fun a b => key a ≤ key b := by
  refine (pairwise_sortBy_of_total (fun a b => ?_) (fun a b c hab hbc => ?_) l).imp
    of_decide_eq_true
  · simp only [decide_eq_true_eq]
    exact Nat.le_total _ _
  · simp only [decide_eq_true_eq] at *
    exact Nat.le_trans hab hbc

end

theorem RegionFormula.alignment_pos (f : RegionFormula) : 0 < f.alignment := by
  simp only [RegionFormula.alignment]
  split <;> decide

theorem RegionFormula.dvd_size (f : RegionFormula) (key : LayoutKey) : dmaAlignment ∣ f.size key :=
  dvd_alignUp _ _

namespace AuxLayout

variable {key : LayoutKey} {formulas : List RegionFormula} {start : Nat}

theorem mem_place {x : RegionId × Region} (h : x ∈ place key start formulas) :
    (∃ f ∈ formulas, x.1 = f.id ∧ x.2.size = f.size key) ∧ start ≤ x.2.offset := by
  induction formulas generalizing start with
  | nil => cases h
  | cons f formulas ih =>
    have hstart : start ≤ alignUp start f.alignment := le_alignUp start f.alignment_pos
    obtain rfl | h := List.mem_cons.1 h
    · exact ⟨⟨f, List.mem_cons_self, rfl, rfl⟩, hstart⟩
    · obtain ⟨⟨f', hf', hx⟩, hoffset⟩ := ih h
      refine ⟨⟨f', List.mem_cons_of_mem f hf', hx⟩, ?_⟩
      simp only at hoffset
      omega

theorem map_fst_place (key : LayoutKey) (start : Nat) (formulas : List RegionFormula) :
    (place key start formulas).map Prod.fst = formulas.map (·.id) := by
  induction formulas generalizing start with
  | nil => rfl
  | cons f formulas ih => simp only [place, List.map_cons, ih]

theorem pairwise_place (key : LayoutKey) (start : Nat) (formulas : List RegionFormula) :
    (place key start formulas).Pairwise fun a b => a.2.Before b.2 := by
  induction formulas generalizing start with
  | nil => exact List.Pairwise.nil
  | cons f formulas ih => exact List.pairwise_cons.2 ⟨fun x hx => (mem_place hx).2, ih _⟩

theorem stop_le_extent {placed : List (RegionId × Region)}
    (h : placed.Pairwise fun a b => a.2.Before b.2) {x : RegionId × Region} (hx : x ∈ placed) :
    x.2.stop ≤ extent placed := by
  obtain ⟨init, last, rfl⟩ := (List.eq_nil_or_concat placed).resolve_left (List.ne_nil_of_mem hx)
  rw [List.concat_eq_append] at h hx ⊢
  have hextent : extent (init ++ [last]) = last.2.stop := by
    simp only [extent, List.getLast?_concat]
    rfl
  rw [hextent]
  obtain hx | hx := List.mem_append.1 hx
  · have hbefore : x.2.Before last.2 :=
      (List.pairwise_append.1 h).2.2 x hx last List.mem_cons_self
    exact Nat.le_trans hbefore (Nat.le_add_right _ _)
  · rw [List.mem_singleton.1 hx]

theorem extent_place_le (start : Nat) {bound : Nat} (h : ∀ f ∈ formulas, f.size key ≤ bound) :
    extent (place key start formulas) ≤ start + formulas.length * (bound + pageAlignment) := by
  induction formulas generalizing start with
  | nil => exact Nat.zero_le _
  | cons f formulas ih =>
    have hsize := h f List.mem_cons_self
    have hstart : alignUp start f.alignment ≤ start + pageAlignment := by
      have hle := alignUp_le start f.alignment
      have hpage : f.alignment ≤ pageAlignment := by
        simp only [RegionFormula.alignment]
        split <;> decide
      omega
    cases formulas with
    | nil =>
      simp only [place, extent, List.getLast?_singleton, List.length_singleton, Nat.one_mul]
      omega
    | cons f' formulas =>
      have hrest := ih (alignUp start f.alignment + f.size key) fun f hf =>
        h f (List.mem_cons_of_mem _ hf)
      have hlast : extent (place key start (f :: f' :: formulas)) =
          extent (place key (alignUp start f.alignment + f.size key) (f' :: formulas)) := rfl
      rw [hlast, List.length_cons, Nat.succ_mul]
      omega

theorem lastOfEach_sublist (l : List (RegionId × Region)) : List.Sublist (lastOfEach l) l := by
  fun_induction lastOfEach l with
  | case1 => exact List.Sublist.refl _
  | case2 a => exact List.Sublist.refl _
  | case3 a b rest _ ih => exact ih.cons a
  | case4 a b rest _ ih => exact ih.cons_cons a

/-- In the order of the identifiers, a region of which the last one stays has no other left. -/
theorem pairwise_lastOfEach {l : List (RegionId × Region)}
    (h : l.Pairwise fun a b => a.1.index ≤ b.1.index) :
    (lastOfEach l).Pairwise fun a b => a.1.index < b.1.index := by
  fun_induction lastOfEach l with
  | case1 => exact List.Pairwise.nil
  | case2 a => exact List.pairwise_singleton _ _
  | case3 a b rest _ ih => exact ih (List.pairwise_cons.1 h).2
  | case4 a b rest hne ih =>
    obtain ⟨hfirst, hrest⟩ := List.pairwise_cons.1 h
    refine List.pairwise_cons.2 ⟨fun x hx => ?_, ih hrest⟩
    have hb : a.1.index ≤ b.1.index := hfirst b List.mem_cons_self
    have hlt : a.1.index < b.1.index := Nat.lt_of_le_of_ne hb fun heq =>
      hne (RegionId.index_injective heq)
    obtain rfl | hx := List.mem_cons.1 ((lastOfEach_sublist (b :: rest)).mem hx)
    · exact hlt
    · exact Nat.lt_of_lt_of_le hlt ((List.pairwise_cons.1 hrest).1 x hx)

theorem lookup_of_pairwise {l : List (RegionId × Region)}
    (h : l.Pairwise fun a b => a.1.index < b.1.index) {x : RegionId × Region} (hx : x ∈ l) :
    l.lookup x.1 = some x.2 := by
  induction l with
  | nil => cases hx
  | cons a l ih =>
    obtain ⟨hfirst, hrest⟩ := List.pairwise_cons.1 h
    obtain rfl | hx := List.mem_cons.1 hx
    · exact List.lookup_cons_self
    · have hne : (x.1 == a.1) = false := by
        rw [beq_eq_false_iff_ne]
        intro heq
        exact Nat.lt_irrefl _ (heq ▸ hfirst x hx)
      rw [List.lookup_cons, hne]
      exact ih hrest hx

theorem exists_formula {x : RegionId × Region} (h : x ∈ (compute formulas key).regions) :
    ∃ f ∈ formulas, x.1 = f.id ∧ x.2.size = f.size key := by
  obtain ⟨⟨f, hf, hx⟩, -⟩ := mem_place ((lastOfEach_sublist _).mem h)
  exact ⟨f, mem_sortBy.1 hf, hx⟩

theorem length_regions_le (formulas : List RegionFormula) (key : LayoutKey) :
    (compute formulas key).regions.length ≤ formulas.length := by
  refine Nat.le_trans (lastOfEach_sublist _).length_le (Nat.le_of_eq ?_)
  rw [← List.length_map (f := Prod.fst), map_fst_place, List.length_map, length_sortBy]

/-- What later modules need of a layout: no region overlaps another one or leaves the memory. -/
structure Separate (layout : AuxLayout) : Prop where
  apart : layout.regions.Pairwise fun a b => a.2.Before b.2
  inside : ∀ x ∈ layout.regions, x.2.stop ≤ layout.totalSize
  ascending : layout.regions.Pairwise fun a b => a.1.index < b.1.index

theorem compute_separate (formulas : List RegionFormula) (key : LayoutKey) :
    (compute formulas key).Separate where
  apart := (pairwise_place key 0 _).sublist (lastOfEach_sublist _)
  inside := fun x hx => Nat.le_trans
    (stop_le_extent (pairwise_place key 0 _) ((lastOfEach_sublist _).mem hx))
    (le_alignUp _ (by decide))
  ascending := by
    apply pairwise_lastOfEach
    have hsorted := pairwise_sortBy (fun f : RegionFormula => f.id.index) formulas
    rw [← List.pairwise_map (f := fun f : RegionFormula => f.id)
      (R := fun a b => a.index ≤ b.index), ← map_fst_place key 0] at hsorted
    exact (List.pairwise_map (R := fun a b : RegionId => a.index ≤ b.index)).1 hsorted

theorem totalSize_compute_le {bound : Nat} (h : ∀ f ∈ formulas, f.size key ≤ bound) :
    (compute formulas key).totalSize ≤
      formulas.length * (bound + pageAlignment) + pageAlignment := by
  have hsorted : ∀ f ∈ sortBy (fun f g => f.id.index ≤ g.id.index) formulas,
      f.size key ≤ bound := fun f hf => h f (mem_sortBy.1 hf)
  have hextent := extent_place_le 0 hsorted
  have htotal := alignUp_le
    (extent (place key 0 (sortBy (fun f g => f.id.index ≤ g.id.index) formulas))) pageAlignment
  rw [length_sortBy] at hextent
  simp only [compute]
  omega

namespace Separate

variable {layout : AuxLayout}

theorem region?_of_mem (h : layout.Separate) {x : RegionId × Region} (hx : x ∈ layout.regions) :
    layout.region? x.1 = some x.2 := lookup_of_pairwise h.ascending hx

theorem before_or_before (h : layout.Separate) {x y : RegionId × Region}
    (hx : x ∈ layout.regions) (hy : y ∈ layout.regions) (hne : x.1 ≠ y.1) :
    x.2.Before y.2 ∨ y.2.Before x.2 := by
  refine or_of_pairwise h.apart hx hy fun heq => hne ?_
  rw [heq]

end Separate

end AuxLayout

end VideoAccel
