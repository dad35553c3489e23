import VideoAccel.Header.Hevc
import VideoAccel.Proofs.Bits.Layout
import VideoAccel.Proofs.Header.Region
import VideoAccel.Vdpu34x.Avc

namespace VideoAccel

open BitField

theorem flatMap_eq_range {α β : Type} (l : List α) (f : α → List β) :
    l.flatMap f = (List.range l.length).flatMap fun i => (l[i]?.map f).getD [] := by
  induction l with
  | nil => rfl
  | cons x l ih =>
    rw [List.flatMap_cons, ih, List.length_cons, List.range_succ_eq_map, List.flatMap_cons,
      List.flatMap_map]
    rfl

theorem testBit_foldr (flag : Nat → Bool) (l : List Nat) (i : Nat) :
    (l.foldr (fun j bits => (flag j).toNat + 2 * bits) 0).testBit i =
      (l[i]?.map flag).getD false := by
  induction l generalizing i with
  | nil => simp
  | cons j l ih =>
    have hflag := Bool.toNat_lt (flag j)
    cases i with
    | zero =>
      simp only [List.foldr_cons, Nat.testBit_zero, Nat.add_mul_mod_self_left,
        List.getElem?_cons_zero, Option.map_some, Option.getD_some]
      cases flag j <;> decide
    | succ i =>
      have hhalf : ∀ n, ((flag j).toNat + 2 * n) / 2 = n := fun n => by omega
      simp only [List.foldr_cons, Nat.testBit_succ, hhalf, List.getElem?_cons_succ, ih]

namespace Hevc

/-- The parts of the reference picture set: the lengths of the lists, their entries, which
references are long-term, and which are missing. -/
inductive RefSetPart
  | counts
  | entries
  | longTerm
  | missing
  deriving DecidableEq, Repr

def refSetLayout : PartLayout RefSetPart where
  order := [.counts, .entries, .longTerm, .missing]
  shapes
    | .counts => List.replicate 3 (.unsigned 4)
    | .entries => List.replicate 24 (.unsigned 4)
    | .longTerm => List.replicate maxRefs .flag
    | .missing => [.unsigned maxRefs]

def readRefSet (tables : Memory) (part : RefSetPart) : List Int :=
  refSetLayout.read (bitString (tables.read refSetOffset (refSetBits / 8))) part

def readMissing (tables : Memory) : Nat :=
  let bits := bitString (tables.read refSetOffset (refSetBits / 8))
  ((refSetLayout.read bits .missing).getD 0 0).toNat

def refSetPartFields (p : Params) (refs : List ResolvedRef) : RefSetPart → List BitField
  | .counts => p.refLists.map fun list => .unsigned 4 (list.takeWhile (·.isSome)).length
  | .entries =>
    p.refLists.flatMap fun list => list.map fun e => .unsigned 4 (e.getD noReference).toNat
  | .longTerm => p.refs.toList.map fun r => .flag r.longTerm
  | .missing => [.unsigned maxRefs (missingBits p refs)]

variable {p : Params} {refs : List ResolvedRef}

theorem refSetFields_eq :
    refSetFields p refs = refSetLayout.order.flatMap (refSetPartFields p refs) := by
  simp [refSetFields, refSetLayout, refSetPartFields]

theorem shapes_refSetPartFields (part : RefSetPart) :
    (refSetPartFields p refs part).map shape = refSetLayout.shapes part := by
  cases part with
  | counts => rfl
  | entries =>
    simp only [refSetPartFields, Params.refLists, List.flatMap_cons, List.flatMap_nil,
      List.map_append, List.map_map, Function.comp_def, shape, List.map_const', List.map_nil,
      Vector.length_toList]
    rfl
  | longTerm =>
    simp only [refSetPartFields, List.map_map, Function.comp_def, shape, List.map_const',
      Vector.length_toList]
    rfl
  | missing => rfl

theorem isChecked_refSetLayout (part : RefSetPart) :
    ∀ s ∈ refSetLayout.shapes part, s.isChecked = true := by
  cases part <;> decide

theorem isChecked_refSetFields : ∀ f ∈ refSetFields p refs, f.shape.isChecked = true := by
  intro f hf
  rw [refSetFields_eq] at hf
  obtain ⟨part, -, hf⟩ := List.mem_flatMap.1 hf
  refine isChecked_refSetLayout part _ ?_
  rw [← @shapes_refSetPartFields p refs]
  exact List.mem_map_of_mem hf

theorem totalWidth_refSetFields : totalWidth (refSetFields p refs) = 138 := by
  have hshapes : (refSetFields p refs).map shape =
      refSetLayout.order.flatMap refSetLayout.shapes := by
    simp only [refSetFields_eq, List.map_flatMap, shapes_refSetPartFields]
  rw [← totalWidth_map_shape, hshapes]
  decide

theorem totalWidth_refSetFields_le :
    totalWidth (refSetFields p refs) ≤ (refSetBits + 63) / 64 * 64 := by
  rw [totalWidth_refSetFields]
  decide

theorem testBit_missingBits {i : Nat} (hi : i < maxRefs) :
    (missingBits p refs).testBit i = isMissing p refs i := by
  rw [missingBits, testBit_foldr, List.getElem?_range hi]
  rfl

theorem readRefSet_of_stored {size : Nat} {bytes : List UInt8} {tables : Memory}
    (hstored : packRegion refSetBits (refSetFields p refs) size refSetOffset =
      .ok [.table refSetOffset bytes])
    (hread : tables.read refSetOffset bytes.length = bytes) (part : RefSetPart) :
    readRefSet tables part = (refSetPartFields p refs part).map value := by
  obtain ⟨hfits, hbits⟩ :=
    bitString_of_packRegion isChecked_refSetFields totalWidth_refSetFields_le hstored
  obtain ⟨_, hedits, hlength⟩ := packRegion_eq_ok hstored
  cases hedits
  rw [hlength] at hread
  have hpart := refSetLayout.read_packed (refSetPartFields p refs)
    (fun part _ => shapes_refSetPartFields part) (fun part _ => isChecked_refSetLayout part)
    (fun part hpart f hf => hfits f (by
      rw [refSetFields_eq]
      exact List.mem_flatMap.2 ⟨part, hpart, hf⟩))
    (show part ∈ refSetLayout.order by cases part <;> decide)
  rw [← refSetFields_eq, ← hbits, ← hread] at hpart
  exact hpart

theorem readMissing_of_stored {size : Nat} {bytes : List UInt8} {tables : Memory}
    (hstored : packRegion refSetBits (refSetFields p refs) size refSetOffset =
      .ok [.table refSetOffset bytes])
    (hread : tables.read refSetOffset bytes.length = bytes) :
    readMissing tables = missingBits p refs := by
  change ((readRefSet tables .missing).getD 0 0).toNat = _
  rw [readRefSet_of_stored hstored hread]
  rfl

end Hevc

namespace Vdpu34x.Avc

open VideoAccel.Avc

def refSetLayout : PartLayout Nat where
  order := List.range maxRefs
  shapes _ := [.unsigned 16, .flag, .flag, .flag, .flag]

def readEntry (tables : Memory) (i : Nat) : List Int :=
  refSetLayout.read (bitString (tables.read refSetOffset (refEntryBits * maxRefs / 8))) i

def readFrameNum (tables : Memory) (i : Nat) : Nat := ((readEntry tables i).getD 0 0).toNat

def readValid (tables : Memory) (i : Nat) : Bool :=
  let bits := bitString (tables.read refSetOffset (refEntryBits * maxRefs / 8))
  (refSetLayout.read bits i).getD 4 0 == 1

variable {entries : List ((RefFrame × ResolvedRef) × Int)}

def refSetFields (entries : List ((RefFrame × ResolvedRef) × Int)) : List BitField :=
  entries.flatMap fun ((r, resolved), wrap) => refEntryFields r resolved.valid wrap

theorem isChecked_refSetLayout : ∀ s ∈ refSetLayout.shapes 0, s.isChecked = true := by decide

theorem isChecked_refSetFields : ∀ f ∈ refSetFields entries, f.shape.isChecked = true := by
  intro f hf
  obtain ⟨⟨⟨r, resolved⟩, wrap⟩, -, hf⟩ := List.mem_flatMap.1 hf
  have hshape : f.shape ∈ (refEntryFields r resolved.valid wrap).map shape :=
    List.mem_map_of_mem hf
  exact isChecked_refSetLayout _ hshape

theorem totalWidth_refSetFields :
    totalWidth (refSetFields entries) = refEntryBits * entries.length := by
  induction entries with
  | nil => rfl
  | cons entry entries ih =>
    obtain ⟨⟨r, resolved⟩, wrap⟩ := entry
    rw [refSetFields, List.flatMap_cons, totalWidth_append]
    change _ + totalWidth (refSetFields entries) = _
    rw [ih, List.length_cons, Nat.mul_add, Nat.add_comm]
    rfl

theorem readEntry_of_stored (hlength : entries.length = maxRefs) {size : Nat} {bytes : List UInt8}
    {tables : Memory}
    (hstored : packRegion (refEntryBits * maxRefs) (refSetFields entries) size refSetOffset =
      .ok [.table refSetOffset bytes])
    (hread : tables.read refSetOffset bytes.length = bytes) {i : Nat} {r : RefFrame}
    {resolved : ResolvedRef} {wrap : Int} (hentry : entries[i]? = some ((r, resolved), wrap)) :
    readEntry tables i = (refEntryFields r resolved.valid wrap).map value := by
  have hroom : totalWidth (refSetFields entries) ≤ (refEntryBits * maxRefs + 63) / 64 * 64 := by
    rw [totalWidth_refSetFields, hlength]
    decide
  obtain ⟨hfits, hbits⟩ := bitString_of_packRegion isChecked_refSetFields hroom hstored
  obtain ⟨_, hedits, hbytes⟩ := packRegion_eq_ok hstored
  cases hedits
  rw [hbytes] at hread
  have hfields : refSetFields entries = refSetLayout.order.flatMap fun i =>
      (entries[i]?.map fun ((r, resolved), wrap) =>
        refEntryFields r resolved.valid wrap).getD [] := by
    rw [refSetFields, flatMap_eq_range, hlength]
    rfl
  have hget : ∀ j ∈ refSetLayout.order, ∃ entry, entries[j]? = some entry := by
    intro j hj
    have hj := List.mem_range.1 hj
    exact ⟨_, List.getElem?_eq_getElem (hlength.symm ▸ hj)⟩
  have hi : i ∈ refSetLayout.order := by
    refine List.mem_range.2 ?_
    rw [← hlength]
    exact (List.getElem?_eq_some_iff.1 hentry).1
  have hpart := refSetLayout.read_packed
    (fun i => (entries[i]?.map fun ((r, resolved), wrap) =>
      refEntryFields r resolved.valid wrap).getD [])
    (fun j hj => by
      obtain ⟨entry, hentry⟩ := hget j hj
      rw [hentry]
      rfl)
    (fun _ _ => isChecked_refSetLayout)
    (fun j hj f hf => hfits f (by
      rw [hfields]
      exact List.mem_flatMap.2 ⟨j, hj, hf⟩))
    hi
  rw [← hfields, ← hbits, ← hread, hentry] at hpart
  exact hpart

theorem readValid_of_entry {tables : Memory} {i : Nat} {r : RefFrame} {valid : Bool} {wrap : Int}
    (h : readEntry tables i = (refEntryFields r valid wrap).map value) :
    readValid tables i = valid := by
  change ((readEntry tables i).getD 4 0 == 1) = valid
  rw [h]
  cases valid <;> rfl

theorem readFrameNum_of_entry {tables : Memory} {i : Nat} {r : RefFrame} {valid : Bool} {wrap : Int}
    (h : readEntry tables i = (refEntryFields r valid wrap).map value) :
    readFrameNum tables i = twosComplement 16 wrap := by
  rw [readFrameNum, h]
  rfl

end Vdpu34x.Avc

end VideoAccel
