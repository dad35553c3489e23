import VideoAccel.Proofs.Batch.Loading
import VideoAccel.Proofs.Register.Fields

namespace VideoAccel

def Overwrites (f : UInt32 → UInt32) : Prop :=
  ∀ b < 32, (∃ x, ∀ w, (f w).toNat.testBit b = x) ∨
    ∀ w, (f w).toNat.testBit b = w.toNat.testBit b

namespace Overwrites

variable {f g : UInt32 → UInt32}

theorem id : Overwrites id := fun _ _ => .inr fun _ => rfl

theorem comp (hg : Overwrites g) (hf : Overwrites f) : Overwrites fun w => g (f w) := by
  intro b hb
  obtain ⟨x, hx⟩ | hkept := hg b hb
  · exact .inl ⟨x, fun w => hx (f w)⟩
  · obtain ⟨x, hx⟩ | hkept' := hf b hb
    · exact .inl ⟨x, fun w => (hkept (f w)).trans (hx w)⟩
    · exact .inr fun w => (hkept (f w)).trans (hkept' w)

theorem idem (h : Overwrites f) (w : UInt32) : f (f w) = f w := by
  refine UInt32.toNat_inj.1 (Nat.eq_of_testBit_eq fun b => ?_)
  by_cases hb : b < 32
  · obtain ⟨x, hx⟩ | hkept := h b hb
    · rw [hx, hx]
    · exact hkept (f w)
  · have hzero : ∀ v : UInt32, v.toNat.testBit b = false := by
      intro v
      refine Nat.testBit_lt_two_pow (Nat.lt_of_lt_of_le v.toNat_lt ?_)
      exact Nat.pow_le_pow_right (by decide) (Nat.le_of_not_lt hb)
    rw [hzero, hzero]

end Overwrites

theorem RegisterField.overwrites_write {f : RegisterField} (hshift : f.shift < 32) (v : UInt32) :
    Overwrites fun w => f.write w v := by
  intro b hb
  by_cases hin : f.shift ≤ b ∧ b < f.shift + f.width
  · exact .inl ⟨_, fun w => by rw [testBit_write hshift w v hb, if_pos hin]⟩
  · exact .inr fun w => by rw [testBit_write hshift w v hb, if_neg hin]

def settle (ws : List RegisterWrite) (reg : Nat) (word : UInt32) : UInt32 :=
  ws.foldl (fun word w => if w.reg = reg then w.field.write word w.value else word) word

section

variable {ws ws' : List RegisterWrite} {reg : Nat}

theorem settle_of_forall_ne (h : ∀ w ∈ ws, w.reg ≠ reg) (word : UInt32) :
    settle ws reg word = word := by
  induction ws with
  | nil => rfl
  | cons w ws ih =>
    obtain ⟨hne, hrest⟩ := List.forall_mem_cons.1 h
    simp only [settle, List.foldl_cons, if_neg hne]
    exact ih hrest

theorem overwrites_settle (h : ∀ w ∈ ws, w.field.shift < 32) : Overwrites (settle ws reg) := by
  induction ws with
  | nil => exact .id
  | cons w ws ih =>
    obtain ⟨hshift, hrest⟩ := List.forall_mem_cons.1 h
    refine (ih hrest).comp (f := fun word => if w.reg = reg then w.field.write word w.value
      else word) ?_
    by_cases hreg : w.reg = reg
    · simp only [if_pos hreg]
      exact RegisterField.overwrites_write hshift w.value
    · simp only [if_neg hreg]
      exact .id

namespace RegisterBlock

def writeAll (b : RegisterBlock) (ws : List RegisterWrite) : RegisterBlock :=
  ws.foldl (fun b w => b.write w.reg w.field w.value) b

theorem get?_writeAll (b : RegisterBlock) (ws : List RegisterWrite) (reg : Nat) :
    (b.writeAll ws).get? reg = (b.get? reg).map (settle ws reg) := by
  induction ws generalizing b with
  | nil => exact Option.map_id'.symm
  | cons w ws ih =>
    refine (ih (b.write w.reg w.field w.value)).trans ?_
    rw [get?_write]
    by_cases hreg : reg = w.reg
    · rw [if_pos hreg, Option.map_map]
      refine congrArg (fun f => (b.get? reg).map f) (funext fun word => ?_)
      simp only [settle, Function.comp_apply, List.foldl_cons, if_pos hreg.symm]
    · rw [if_neg hreg]
      refine congrArg (fun f => (b.get? reg).map f) (funext fun word => ?_)
      simp only [settle, List.foldl_cons, if_neg (Ne.symm hreg)]

theorem first_writeAll (b : RegisterBlock) (ws : List RegisterWrite) :
    (b.writeAll ws).first = b.first := by
  induction ws generalizing b with
  | nil => rfl
  | cons w ws ih =>
    refine (ih (b.write w.reg w.field w.value)).trans ?_
    simp only [write]
    split <;> rfl

theorem eq_of_get? {b b' : RegisterBlock} (hfirst : b.first = b'.first)
    (h : ∀ reg, b.get? reg = b'.get? reg) : b = b' := by
  obtain ⟨first, words⟩ := b
  obtain ⟨first', words'⟩ := b'
  obtain rfl : first = first' := hfirst
  refine congrArg (RegisterBlock.mk first) (List.ext_getElem? fun i => ?_)
  have hreg := h (first + i)
  simpa only [get?, Nat.le_add_right, if_true, Nat.add_sub_cancel_left] using hreg

end RegisterBlock

namespace RegisterImage

theorem blocks_writeAll (image : RegisterImage) (ws : List RegisterWrite) :
    (image.writeAll ws).blocks = image.blocks.map fun b => b.writeAll ws := by
  induction ws generalizing image with
  | nil => exact (List.map_id'' (fun _ => rfl) _).symm
  | cons w ws ih =>
    refine (ih (image.write w)).trans ?_
    simp only [write, List.map_map]
    rfl

theorem writeAll_congr (image : RegisterImage)
    (h : ∀ reg word, settle ws reg word = settle ws' reg word) :
    image.writeAll ws = image.writeAll ws' := by
  have hblocks : (image.writeAll ws).blocks = (image.writeAll ws').blocks := by
    rw [blocks_writeAll, blocks_writeAll]
    refine List.map_congr_left fun b _ => RegisterBlock.eq_of_get? ?_ fun reg => ?_
    · rw [RegisterBlock.first_writeAll, RegisterBlock.first_writeAll]
    · rw [RegisterBlock.get?_writeAll, RegisterBlock.get?_writeAll, funext (h reg)]
  exact congrArg RegisterImage.mk hblocks

theorem fits_writeAll (image : RegisterImage) (ws : List RegisterWrite) :
    (image.writeAll ws).fits = image.fits := by
  have hshape : ∀ (image : RegisterImage) reg, image.contains reg =
      image.shape.any fun s => s.1 ≤ reg && reg - s.1 < s.2 := by
    intro image reg
    rw [shape, List.any_map]
    rfl
  funext w
  simp only [fits, hshape, shape_writeAll]

end RegisterImage

end

end VideoAccel
