import VideoAccel.Proofs.Emission.Steps
import VideoAccel.Proofs.Memory.Contents

namespace VideoAccel.Emission

theorem read_applyAll_of_untouched (e : Emission) {edits : List Edit} {offset length : Nat}
    (h : ∀ offset' bytes, .table offset' bytes ∈ edits →
      offset' + bytes.length ≤ offset ∨ offset + length ≤ offset')
    (hroom : offset + length ≤ e.tables.size) :
    (e.applyAll edits).tables.read offset length = e.tables.read offset length := by
  induction edits generalizing e with
  | nil => rfl
  | cons edit edits ih =>
    have hrest := ih (e.apply edit) (fun o b hmem => h o b (List.mem_cons_of_mem _ hmem))
      (by rwa [apply_tables_size])
    refine hrest.trans ?_
    cases edit with
    | table offset' bytes =>
      exact e.tables.read_store_of_disjoint hroom (h offset' bytes List.mem_cons_self)
    | register w => rfl
    | patch p => rfl

theorem read_applyAll_of_stored (e : Emission) {edits : List Edit} {offset : Nat}
    {bytes : List UInt8} (hmem : .table offset bytes ∈ edits)
    (h : ∀ offset' bytes', .table offset' bytes' ∈ edits →
      offset' = offset ∧ bytes' = bytes ∨
        offset' + bytes'.length ≤ offset ∨ offset + bytes.length ≤ offset')
    (hroom : offset + bytes.length ≤ e.tables.size) :
    (e.applyAll edits).tables.read offset bytes.length = bytes := by
  induction edits generalizing e with
  | nil => cases hmem
  | cons edit edits ih =>
    have hlater : ∀ offset' bytes', .table offset' bytes' ∈ edits →
        offset' = offset ∧ bytes' = bytes ∨
          offset' + bytes'.length ≤ offset ∨ offset + bytes.length ≤ offset' :=
      fun o b hmem => h o b (List.mem_cons_of_mem _ hmem)
    have hsize : offset + bytes.length ≤ (e.apply edit).tables.size := by
      rwa [apply_tables_size]
    -- a later store of the same bytes decides, else nothing after this one reaches the part
    by_cases hagain : .table offset bytes ∈ edits
    · exact ih (e.apply edit) hagain hlater hsize
    · obtain rfl : edit = .table offset bytes :=
        ((List.mem_cons.1 hmem).resolve_right hagain).symm
      refine ((e.apply _).read_applyAll_of_untouched (fun o b hmem' => ?_) hsize).trans
        (e.tables.read_store_self hroom)
      obtain ⟨rfl, rfl⟩ | hdisjoint := hlater o b hmem'
      · exact absurd hmem' hagain
      · exact hdisjoint

end VideoAccel.Emission
