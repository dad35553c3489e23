import VideoAccel.Memory.Buffer

namespace VideoAccel.Memory

theorem byte_store (m : Memory) (offset : Nat) (bytes : List UInt8) (i : Nat) :
    (m.store offset bytes).byte i =
      if offset ≤ i ∧ i < offset + bytes.length then bytes.getD (i - offset) 0 else m.byte i := by
  have hbefore : (m.contents.take offset ++
      List.replicate (offset - m.contents.length) (0 : UInt8)).length = offset := by
    simp only [List.length_append, List.length_take, List.length_replicate]
    omega
  simp only [byte, store, List.getD_eq_getElem?_getD, List.append_assoc]
  rw [← List.append_assoc]
  by_cases hlow : i < offset
  · rw [if_neg (by omega), List.getElem?_append_left (by omega)]
    by_cases hstored : i < m.contents.length
    · rw [List.getElem?_append_left (by simp; omega), List.getElem?_take_of_lt hlow]
    · have hnone : m.contents[i]? = none := List.getElem?_eq_none (Nat.le_of_not_lt hstored)
      rw [List.getElem?_append_right (by simp; omega), hnone, List.getElem?_replicate]
      split <;> rfl
  · rw [List.getElem?_append_right (by omega), hbefore]
    by_cases hin : i < offset + bytes.length
    · rw [if_pos ⟨by omega, hin⟩, List.getElem?_append_left (by omega)]
    · rw [if_neg (by omega), List.getElem?_append_right (by omega), List.getElem?_drop]
      have hindex : offset + bytes.length + (i - offset - bytes.length) = i := by omega
      rw [hindex]

theorem read_eq_map_byte (m : Memory) {offset length : Nat} (h : offset + length ≤ m.size) :
    m.read offset length = (List.range length).map fun i => m.byte (offset + i) := by
  apply List.ext_getElem?
  intro i
  simp only [read, byte, List.getElem?_map, List.getD_eq_getElem?_getD]
  by_cases hi : i < length
  · rw [List.getElem?_range hi, Option.map_some]
    by_cases hstored : offset + i < m.contents.length
    · rw [List.getElem?_append_left (by simp; omega), List.getElem?_take_of_lt hi,
        List.getElem?_drop, List.getElem?_eq_getElem hstored, Option.getD_some]
    · have hnone : m.contents[offset + i]? = none :=
        List.getElem?_eq_none (Nat.le_of_not_lt hstored)
      rw [List.getElem?_append_right (by simp; omega), hnone, List.getElem?_replicate,
        if_pos (by simp; omega), Option.getD_none]
  · have hnone : (List.range length)[i]? = none := List.getElem?_eq_none (by simp; omega)
    rw [hnone, Option.map_none]
    refine List.getElem?_eq_none ?_
    simp only [List.length_append, List.length_take, List.length_drop, List.length_replicate]
    omega

theorem read_store_self (m : Memory) {offset : Nat} {bytes : List UInt8}
    (h : offset + bytes.length ≤ m.size) :
    (m.store offset bytes).read offset bytes.length = bytes := by
  rw [read_eq_map_byte (m.store offset bytes) h]
  apply List.ext_getElem
  · simp
  · intro i hi hi'
    simp only [List.getElem_map, List.getElem_range, byte_store]
    rw [if_pos ⟨Nat.le_add_right .., by omega⟩, Nat.add_sub_cancel_left]
    simp [List.getD_eq_getElem?_getD, hi']

theorem read_store_of_disjoint (m : Memory) {offset length offset' : Nat} {bytes : List UInt8}
    (h : offset + length ≤ m.size)
    (hdisjoint : offset' + bytes.length ≤ offset ∨ offset + length ≤ offset') :
    (m.store offset' bytes).read offset length = m.read offset length := by
  rw [read_eq_map_byte (m.store offset' bytes) h, read_eq_map_byte m h]
  refine List.map_congr_left fun i hi => ?_
  rw [List.mem_range] at hi
  rw [byte_store, if_neg (by omega)]

end VideoAccel.Memory
