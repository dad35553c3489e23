import VideoAccel.Register.Image

namespace VideoAccel

theorem RegisterField.write_word (w v : UInt32) : RegisterField.word.write w v = v := by
  have hmask : RegisterField.word.mask = -1 := by decide
  simp only [RegisterField.write, hmask]
  simp [RegisterField.word]

theorem RegisterBlock.get?_write (b : RegisterBlock) (reg i : Nat) (f : RegisterField)
    (v : UInt32) :
    (b.write reg f v).get? i = if i = reg then (b.get? i).map (f.write · v) else b.get? i := by
  by_cases hreg : b.first ≤ reg
  · simp only [write, hreg, if_true, get?]
    by_cases hi : b.first ≤ i
    · by_cases h : i = reg
      · subst h
        simp [hi]
      · have hne : reg - b.first ≠ i - b.first := by omega
        simp [hi, h, hne]
    · simp [hi]
  · simp only [write, hreg, if_false]
    by_cases h : i = reg
    · subst h
      simp [get?, hreg]
    · simp [h]

namespace RegisterImage

theorem get?_write (image : RegisterImage) (w : RegisterWrite) (i : Nat) :
    (image.write w).get? i =
      if i = w.reg then (image.get? i).map (w.field.write · w.value) else image.get? i := by
  obtain ⟨blocks⟩ := image
  simp only [get?, write, List.findSome?_map]
  induction blocks with
  | nil => simp
  | cons b blocks ih =>
    simp only [List.findSome?_cons, Function.comp_apply, RegisterBlock.get?_write]
    by_cases h : i = w.reg
    · simp only [h, if_true] at ih ⊢
      cases b.get? w.reg with
      | none => exact ih
      | some v => rfl
    · simp only [h, if_false] at ih ⊢
      cases b.get? i with
      | none => exact ih
      | some v => rfl

theorem get?_writeAll_of_forall_ne (image : RegisterImage) (ws : List RegisterWrite) (i : Nat)
    (h : ∀ w ∈ ws, w.reg ≠ i) : (image.writeAll ws).get? i = image.get? i := by
  induction ws generalizing image with
  | nil => rfl
  | cons w ws ih =>
    have hw : i ≠ w.reg := Ne.symm (h w (by simp))
    have hrest := ih (image.write w) fun w' hw' => h w' (by simp [hw'])
    rw [get?_write, if_neg hw] at hrest
    exact hrest

/-- A register that only whole words with property `P` go to holds such a word, or what it held. -/
theorem get?_writeAll_of_words (P : UInt32 → Prop) (image : RegisterImage)
    (ws : List RegisterWrite) (i : Nat)
    (h : ∀ w ∈ ws, w.reg = i → w.field = .word ∧ P w.value) {v : UInt32}
    (hv : (image.writeAll ws).get? i = some v) : P v ∨ image.get? i = some v := by
  induction ws generalizing image with
  | nil => exact .inr hv
  | cons w ws ih =>
    obtain hP | hfirst := ih (image.write w) (fun w' hw' => h w' (by simp [hw'])) hv
    · exact .inl hP
    · rw [get?_write] at hfirst
      by_cases hi : i = w.reg
      · obtain ⟨hword, hP⟩ := h w (by simp) hi.symm
        rw [if_pos hi, hword] at hfirst
        obtain ⟨u, _, hu⟩ := Option.map_eq_some_iff.1 hfirst
        rw [RegisterField.write_word] at hu
        exact .inl (hu ▸ hP)
      · rw [if_neg hi] at hfirst
        exact .inr hfirst

theorem get?_writeAll_of_written (P : UInt32 → Prop) (image : RegisterImage)
    (ws : List RegisterWrite) (i : Nat)
    (h : ∀ w ∈ ws, w.reg = i → w.field = .word ∧ P w.value) (hwritten : ∃ w ∈ ws, w.reg = i)
    {v : UInt32} (hv : (image.writeAll ws).get? i = some v) : P v := by
  induction ws generalizing image with
  | nil => simp at hwritten
  | cons w ws ih =>
    by_cases hlater : ∃ w' ∈ ws, w'.reg = i
    · exact ih (image.write w) (fun w' hw' => h w' (by simp [hw'])) hlater hv
    · have hi : i = w.reg := by
        obtain ⟨w', hw', hreg⟩ := hwritten
        obtain rfl | hw' := List.mem_cons.1 hw'
        · exact hreg.symm
        · exact absurd ⟨w', hw', hreg⟩ hlater
      have hrest : ((image.write w).writeAll ws).get? i = (image.write w).get? i :=
        get?_writeAll_of_forall_ne _ ws i fun w' hw' hreg => hlater ⟨w', hw', hreg⟩
      obtain ⟨hword, hP⟩ := h w (by simp) hi.symm
      have hlast := hrest.symm.trans hv
      rw [get?_write, if_pos hi, hword] at hlast
      obtain ⟨u, _, hu⟩ := Option.map_eq_some_iff.1 hlast
      rw [RegisterField.write_word] at hu
      exact hu ▸ hP

theorem isSome_get?_writeAll (image : RegisterImage) (ws : List RegisterWrite) (i : Nat) :
    ((image.writeAll ws).get? i).isSome = (image.get? i).isSome := by
  induction ws generalizing image with
  | nil => rfl
  | cons w ws ih =>
    have hrest := ih (image.write w)
    rw [get?_write] at hrest
    refine hrest.trans ?_
    split
    · exact Option.isSome_map
    · rfl

theorem get?_of_blank {blocks : List RegisterBlock}
    (hblank : ∀ b ∈ blocks, ∃ first count, b = .blank first count) {reg : Nat} {v : UInt32}
    (hv : get? ⟨blocks⟩ reg = some v) : v = 0 := by
  obtain ⟨b, hb, hget⟩ := List.exists_of_findSome?_eq_some hv
  obtain ⟨first, count, rfl⟩ := hblank b hb
  simp only [RegisterBlock.blank, RegisterBlock.get?, List.getElem?_replicate] at hget
  split at hget
  · split at hget
    · exact (Option.some.inj hget).symm
    · cases hget
  · cases hget

end RegisterImage

end VideoAccel
