import VideoAccel.Backend.Basic
import VideoAccel.Proofs.Emission.Steps
import VideoAccel.Proofs.Header.ReferenceSets
import VideoAccel.Proofs.Memory.Contents

namespace VideoAccel

/-- Once there is no entry, there is none any more. -/
def Gapless (list : List (Option UInt8)) : Prop :=
  list.Pairwise fun first second => second.isSome = true → first.isSome = true

namespace Hevc

def entryCode (entry : Option UInt8) : Nat := (entry.map UInt8.toNat).getD 15

section

variable {list list' : List (Option UInt8)}

theorem entryCode_some_inj {a b : UInt8} (h : entryCode (some a) = entryCode (some b)) : a = b :=
  UInt8.toNat_inj.1 h

theorem takeWhile_of_gapless_none (h : Gapless (none :: list)) :
    list.takeWhile (·.isSome) = [] := by
  cases list with
  | nil => rfl
  | cons entry list =>
    have hnone : ¬ entry.isSome = true := fun hsome =>
      Bool.false_ne_true ((List.pairwise_cons.1 h).1 entry List.mem_cons_self hsome)
    exact List.takeWhile_cons_of_neg hnone

/-- A list without a gap is determined by its length before the first gap and what is read. -/
theorem eq_of_gapless (h : Gapless list) (h' : Gapless list')
    (hcount : (list.takeWhile (·.isSome)).length = (list'.takeWhile (·.isSome)).length)
    (hentries : list.map entryCode = list'.map entryCode) : list = list' := by
  induction list generalizing list' with
  | nil => exact (List.map_eq_nil_iff.1 hentries.symm).symm
  | cons entry list ih =>
    cases list' with
    | nil => cases hentries
    | cons entry' list' =>
      obtain ⟨hentry, hrest⟩ := List.cons.inj hentries
      have htail := (List.pairwise_cons.1 h).2
      have htail' := (List.pairwise_cons.1 h').2
      match entry, entry' with
      | none, none =>
        rw [ih htail htail' ?_ hrest]
        rw [takeWhile_of_gapless_none h, takeWhile_of_gapless_none h']
      | some a, some b =>
        obtain rfl := entryCode_some_inj hentry
        rw [ih htail htail' (Nat.succ.inj hcount) hrest]
      | none, some b => cases hcount
      | some a, none => cases hcount

example : [none, some 15].map entryCode = [none, none].map entryCode := by decide

theorem eq_of_flatten_gapless {lists lists' : List (List (Option UInt8))} {length : Nat}
    (hlists : ∀ list ∈ lists, list.length = length ∧ Gapless list)
    (hlists' : ∀ list ∈ lists', list.length = length ∧ Gapless list)
    (hcounts : (lists.map fun list => (list.takeWhile (·.isSome)).length) =
      lists'.map fun list => (list.takeWhile (·.isSome)).length)
    (hentries : lists.flatten.map entryCode = lists'.flatten.map entryCode) : lists = lists' := by
  induction lists generalizing lists' with
  | nil => exact (List.map_eq_nil_iff.1 hcounts.symm).symm
  | cons list lists ih =>
    cases lists' with
    | nil => cases hcounts
    | cons list' lists' =>
      obtain ⟨hcount, hcounts⟩ := List.cons.inj hcounts
      obtain ⟨⟨hlength, hgapless⟩, hlists⟩ := List.forall_mem_cons.1 hlists
      obtain ⟨⟨hlength', hgapless'⟩, hlists'⟩ := List.forall_mem_cons.1 hlists'
      rw [List.flatten_cons, List.flatten_cons, List.map_append, List.map_append] at hentries
      obtain ⟨hfirst, hrest⟩ := List.append_inj hentries (by
        rw [List.length_map, List.length_map, hlength, hlength'])
      rw [eq_of_gapless hgapless hgapless' hcount hfirst, ih hlists hlists' hcounts hrest]

end

/-- An entry of a list is more than the code for none. -/
def Params.NamesTooFar (p : Params) : Prop :=
  ∃ list ∈ p.refLists, ∃ entry, some entry ∈ list ∧ 15 < entry.toNat

def Params.Misses (p : Params) (refs : List ResolvedRef) (i : Nat) : Prop :=
  (∃ list ∈ p.refLists, ∃ entry, some entry ∈ list ∧ entry.toNat = i) ∧
    ∀ r, refs[i]? = some r → r.valid = false

/-- What the hardware reads of a reference picture set in a table buffer. -/
structure ReadsAs (tables : Memory) (p : Params) (refs : List ResolvedRef) : Prop where
  counts : readRefSet tables .counts =
    (p.refLists.map fun list => (list.takeWhile (·.isSome)).length).map Int.ofNat
  entries : readRefSet tables .entries = (p.refLists.flatten.map entryCode).map Int.ofNat
  longTerm : readRefSet tables .longTerm =
    (p.refs.toList.map (·.longTerm)).map fun flag => Int.ofNat flag.toNat
  missing : ∀ i < maxRefs, (readMissing tables).testBit i = true ↔ p.Misses refs i

/-- Two reference picture sets have the same lists, long-term references and missing ones. -/
structure SameRefSet (p : Params) (refs : List ResolvedRef) (p' : Params)
    (refs' : List ResolvedRef) : Prop where
  lists : p.refLists = p'.refLists
  longTerm : p.refs.toList.map (·.longTerm) = p'.refs.toList.map (·.longTerm)
  missing : ∀ i < maxRefs, p.Misses refs i ↔ p'.Misses refs' i

/-- The table buffer is changed in the bytes of the reference picture set alone. -/
structure Written (p : Params) (refs : List ResolvedRef) (e e' : Emission) : Prop where
  run : e.run (refSetTable p refs e.tables.size) = (.ok (), e')
  reads : ReadsAs e'.tables p refs
  elsewhere : ∀ i, i < refSetOffset ∨ refSetOffset + refSetBits / 8 ≤ i →
    e'.tables.byte i = e.tables.byte i
  image : e'.image = e.image
  patches : e'.patches = e.patches

variable {p : Params} {refs : List ResolvedRef}

theorem length_of_mem_refLists {list : List (Option UInt8)} (h : list ∈ p.refLists) :
    list.length = maxListEntries := by
  simp only [Params.refLists, List.mem_cons, List.not_mem_nil, or_false] at h
  obtain rfl | rfl | rfl := h <;> exact Vector.length_toList

theorem misses_iff {i : Nat} : isMissing p refs i = true ↔ p.Misses refs i := by
  rw [isMissing, Bool.and_eq_true, Bool.not_eq_true']
  refine and_congr ?_ ?_
  · simp only [List.any_eq_true, Option.any_eq_true, beq_iff_eq]
    constructor
    · rintro ⟨list, hlist, _, hmem, entry, rfl, rfl⟩
      exact ⟨list, hlist, entry, hmem, rfl⟩
    · rintro ⟨list, hlist, entry, hmem, rfl⟩
      exact ⟨list, hlist, some entry, hmem, entry, rfl, rfl⟩
  · cases refs[i]? <;> simp

theorem missingBits_lt (p : Params) (refs : List ResolvedRef) :
    missingBits p refs < 2 ^ maxRefs := by
  refine Nat.lt_pow_two_of_testBit _ fun i hi => ?_
  have hnone : (List.range maxRefs)[i]? = none := List.getElem?_eq_none (by simpa using hi)
  rw [missingBits, testBit_foldr, hnone]
  rfl

theorem fits_refSetFields (p : Params) (refs : List ResolvedRef) :
    (∀ f ∈ refSetFields p refs, f.Fits) ↔ ¬ p.NamesTooFar := by
  constructor
  · rintro hfits ⟨list, hlist, entry, hentry, hfar⟩
    have hfield : BitField.unsigned 4 entry.toNat ∈ refSetPartFields p refs .entries :=
      List.mem_flatMap.2 ⟨list, hlist, List.mem_map.2 ⟨some entry, hentry, rfl⟩⟩
    have hlt : entry.toNat < 2 ^ 4 := by
      refine hfits (.unsigned 4 entry.toNat) ?_
      rw [refSetFields_eq]
      exact List.mem_flatMap.2 ⟨.entries, by decide, hfield⟩
    omega
  · intro hnear f hf
    rw [refSetFields_eq] at hf
    obtain ⟨part, -, hf⟩ := List.mem_flatMap.1 hf
    cases part with
    | counts =>
      obtain ⟨list, hlist, rfl⟩ := List.mem_map.1 hf
      have hle : (list.takeWhile (·.isSome)).length ≤ maxListEntries := by
        rw [← length_of_mem_refLists hlist]
        exact (List.takeWhile_sublist _).length_le
      exact Nat.lt_of_le_of_lt hle (by decide)
    | entries =>
      obtain ⟨list, hlist, hf⟩ := List.mem_flatMap.1 hf
      obtain ⟨entry, hentry, rfl⟩ := List.mem_map.1 hf
      cases entry with
      | none => exact (by decide : (15 : Nat) < 2 ^ 4)
      | some entry =>
        exact Nat.lt_succ_of_le (Nat.not_lt.1 fun hfar => hnear ⟨list, hlist, entry, hentry, hfar⟩)
    | longTerm =>
      obtain ⟨r, -, rfl⟩ := List.mem_map.1 hf
      trivial
    | missing =>
      obtain rfl := List.mem_singleton.1 hf
      exact missingBits_lt p refs

theorem readsAs_of_stored {size : Nat} {bytes : List UInt8} {tables : Memory}
    (hstored : packRegion refSetBits (refSetFields p refs) size refSetOffset =
      .ok [.table refSetOffset bytes])
    (hread : tables.read refSetOffset bytes.length = bytes) : ReadsAs tables p refs := by
  have hparts := readRefSet_of_stored hstored hread
  refine ⟨?_, ?_, ?_, fun i hi => ?_⟩
  · rw [hparts, refSetPartFields, List.map_map, List.map_map]
    rfl
  · rw [hparts, refSetPartFields, List.map_flatMap, List.map_flatten, List.map_flatten,
      List.flatMap_def, List.map_map]
    refine congrArg List.flatten (List.map_congr_left fun list _ => ?_)
    rw [List.map_map, Function.comp_apply, List.map_map]
    refine List.map_congr_left fun entry _ => ?_
    cases entry <;> rfl
  · rw [hparts, refSetPartFields, List.map_map, List.map_map]
    rfl
  · rw [readMissing_of_stored hstored hread, testBit_missingBits hi, misses_iff]

variable {e : Emission}

theorem refSetTable_eq (p : Params) (refs : List ResolvedRef) (size : Nat) :
    refSetTable p refs size =
      .ofExcept (packRegion refSetBits (refSetFields p refs) size refSetOffset) := rfl

theorem run_of_namesTooFar (refs : List ResolvedRef) (hfar : p.NamesTooFar) (size : Nat) :
    ∃ failure, e.run (refSetTable p refs size) = (.error failure, e) := by
  have hnot : ¬ ∀ f ∈ refSetFields p refs, f.Fits := fun hfits =>
    (fits_refSetFields p refs).1 hfits hfar
  obtain ⟨f, -, -, hrefused⟩ : ∃ f ∈ refSetFields p refs, ¬ f.Fits ∧
      packRegion refSetBits (refSetFields p refs) size refSetOffset =
        .error (.bits (.valueTooWide f.shown f.width)) :=
    packRegion_of_not_fits isChecked_refSetFields totalWidth_refSetFields_le hnot
  rw [refSetTable_eq, hrefused]
  exact ⟨_, rfl⟩

theorem written_of_not_namesTooFar (refs : List ResolvedRef) (hnear : ¬ p.NamesTooFar)
    (hsize : tableBufferSize ≤ e.tables.size) : ∃ e', Written p refs e e' := by
  have hend : refSetOffset + (refSetBits + 63) / 64 * 8 ≤ tableBufferSize := by decide
  obtain ⟨bytes, hstored, hlength, -⟩ := packRegion_of_fits isChecked_refSetFields
    totalWidth_refSetFields_le ((fits_refSetFields p refs).2 hnear) (Nat.le_trans hend hsize)
  have hroom : refSetOffset + bytes.length ≤ e.tables.size := by omega
  refine ⟨e.apply (.table refSetOffset bytes), ?_, ?_, fun i hi => ?_, rfl, rfl⟩
  · rw [refSetTable_eq, hstored]
    simp [StepResult.ofExcept, Emission.run, Emission.fits, hroom, Emission.applyAll]
  · exact readsAs_of_stored hstored (e.tables.read_store_self hroom)
  · refine (e.tables.byte_store refSetOffset bytes i).trans (if_neg ?_)
    have hbytes : bytes.length = refSetBits / 8 := hlength
    omega

theorem readsAs_of_ok (hsize : tableBufferSize ≤ e.tables.size) {e' : Emission}
    (hrun : e.run (refSetTable p refs e.tables.size) = (.ok (), e')) :
    ReadsAs e'.tables p refs := by
  have hnear : ¬ p.NamesTooFar := by
    intro hfar
    obtain ⟨failure, herror⟩ := run_of_namesTooFar (e := e) refs hfar e.tables.size
    cases hrun.symm.trans herror
  obtain ⟨e₁, hwritten⟩ := written_of_not_namesTooFar refs hnear hsize
  obtain ⟨-, rfl⟩ := Prod.mk.inj (hrun.symm.trans hwritten.run)
  exact hwritten.reads

/-- Sets without gaps are the same if they are stored in the same bytes. -/
theorem sameRefSet_of_read_eq {p' : Params} {refs' : List ResolvedRef} {tables tables' : Memory}
    (hreads : ReadsAs tables p refs) (hreads' : ReadsAs tables' p' refs')
    (hgapless : ∀ list ∈ p.refLists, Gapless list)
    (hgapless' : ∀ list ∈ p'.refLists, Gapless list)
    (hbytes : tables.read refSetOffset (refSetBits / 8) =
      tables'.read refSetOffset (refSetBits / 8)) : SameRefSet p refs p' refs' := by
  have hparts : readRefSet tables = readRefSet tables' := by
    funext part
    rw [readRefSet, hbytes, readRefSet]
  have hnat : ∀ a b : Nat, Int.ofNat a = Int.ofNat b → a = b := fun _ _ => Int.ofNat.inj
  refine ⟨?_, ?_, fun i hi => ?_⟩
  · have hcounts := congrFun hparts .counts
    have hentries := congrFun hparts .entries
    rw [hreads.counts, hreads'.counts, List.map_inj_right hnat] at hcounts
    rw [hreads.entries, hreads'.entries, List.map_inj_right hnat] at hentries
    exact eq_of_flatten_gapless
      (fun list hlist => ⟨length_of_mem_refLists hlist, hgapless list hlist⟩)
      (fun list hlist => ⟨length_of_mem_refLists hlist, hgapless' list hlist⟩) hcounts hentries
  · have hflags := congrFun hparts .longTerm
    have hbool : ∀ a b : Bool, Int.ofNat a.toNat = Int.ofNat b.toNat → a = b := by decide
    rwa [hreads.longTerm, hreads'.longTerm, List.map_inj_right hbool] at hflags
  · rw [← hreads.missing i hi, ← hreads'.missing i hi]
    change ((readRefSet tables .missing).getD 0 0).toNat.testBit i = true ↔
      ((readRefSet tables' .missing).getD 0 0).toNat.testBit i = true
    rw [hparts]

/-- A reference picture set is refused only for an entry above the codes of four bits, and then no
byte is changed. One that is written is read back, and tells the lists apart as long as these have
no gaps. -/
theorem refSet_decodes (p : Params) (refs : List ResolvedRef)
    (hsize : tableBufferSize ≤ e.tables.size) :
    ((∃ failure, e.run (refSetTable p refs e.tables.size) = (.error failure, e)) ↔
        p.NamesTooFar) ∧
      (¬ p.NamesTooFar → ∃ e₁, Written p refs e e₁) ∧
      ∀ (p' : Params) (refs' : List ResolvedRef) (e' e₁ e₁' : Emission),
        tableBufferSize ≤ e'.tables.size →
        e.run (refSetTable p refs e.tables.size) = (.ok (), e₁) →
        e'.run (refSetTable p' refs' e'.tables.size) = (.ok (), e₁') →
        (∀ list ∈ p.refLists, Gapless list) → (∀ list ∈ p'.refLists, Gapless list) →
        e₁.tables.read refSetOffset (refSetBits / 8) =
          e₁'.tables.read refSetOffset (refSetBits / 8) →
        SameRefSet p refs p' refs' := by
  refine ⟨⟨?_, fun hfar => run_of_namesTooFar refs hfar _⟩,
    fun hnear => written_of_not_namesTooFar refs hnear hsize, ?_⟩
  · rintro ⟨failure, herror⟩
    by_contra hnear
    obtain ⟨e₁, hwritten⟩ := written_of_not_namesTooFar refs hnear hsize
    cases herror.symm.trans hwritten.run
  · intro p' refs' e' e₁ e₁' hsize' hrun hrun' hgapless hgapless' hbytes
    exact sameRefSet_of_read_eq (readsAs_of_ok hsize hrun) (readsAs_of_ok hsize' hrun') hgapless
      hgapless' hbytes

def referringParams : Params :=
  { stCurrBefore := (Vector.replicate maxListEntries none).set 0 (some 0)
    ltCurr := (Vector.replicate maxListEntries none).set 0 (some 1)
    refs := (Vector.replicate maxRefs {}).set 1 { longTerm := true } }

def untouched : Emission :=
  { image := { blocks := [] }, tables := { handle := 1, size := tableBufferSize } }

def referredFrames : List ResolvedRef := [⟨{}, 1, true⟩, ⟨{}, 0, false⟩]

theorem refSet_decodes_missing :
    ¬ referringParams.NamesTooFar ∧
      ∃ e₁, Written referringParams referredFrames untouched e₁ ∧
        readRefSet e₁.tables .counts = [1, 0, 1] ∧ (readMissing e₁.tables).testBit 0 = false ∧
        (readMissing e₁.tables).testBit 1 = true := by
  have hsize : tableBufferSize ≤ untouched.tables.size := Nat.le_refl _
  obtain ⟨-, hwritten, -⟩ := refSet_decodes referringParams referredFrames hsize
  have hnear : ¬ referringParams.NamesTooFar :=
    (fits_refSetFields referringParams referredFrames).1 (by decide +kernel)
  obtain ⟨e₁, hwritten⟩ := hwritten hnear
  have hmissing := hwritten.reads.missing
  refine ⟨hnear, e₁, hwritten, ?_, ?_, ?_⟩
  · rw [hwritten.reads.counts]
    decide
  · refine Bool.eq_false_iff.2 fun hbit => ?_
    have hmisses := misses_iff.2 ((hmissing 0 (by decide)).1 hbit)
    revert hmisses
    decide
  · exact (hmissing 1 (by decide)).2 (misses_iff.1 (by decide))

end Hevc

end VideoAccel
