import VideoAccel.Proofs.Batch.Loading
import VideoAccel.Proofs.Register.Fields

namespace VideoAccel

namespace RegisterField

def Covers (f : RegisterField) (b : Nat) : Prop := f.shift ≤ b ∧ b < f.shift + f.width

instance (f : RegisterField) (b : Nat) : Decidable (f.Covers b) :=
  inferInstanceAs (Decidable (_ ∧ _))

def Apart (f g : RegisterField) : Prop := ∀ b, f.Covers b → ¬ g.Covers b

/-- The field lies inside a register of 32 bits. -/
def Inside (f : RegisterField) : Prop := f.shift + f.width ≤ 32

instance (f : RegisterField) : Decidable f.Inside := inferInstanceAs (Decidable (_ ≤ _))

def Starts (f : RegisterField) : Prop := f.shift < 32 ∨ f.width = 0

variable {f g : RegisterField}

theorem apart_of_le (h : f.shift + f.width ≤ g.shift ∨ g.shift + g.width ≤ f.shift) :
    f.Apart g := by
  rintro b ⟨hf, hf'⟩ ⟨hg, hg'⟩
  omega

theorem Inside.starts (h : f.Inside) : f.Starts := by
  unfold Inside at h
  unfold Starts
  omega

theorem mask_eq_zero (h : f.width = 0) : f.mask = 0 := by
  rw [mask, h]
  rfl

theorem testBit_write_of_starts (hf : f.Starts) (w v : UInt32) {b : Nat} (hb : b < 32) :
    (f.write w v).toNat.testBit b =
      if f.Covers b then v.toNat.testBit (b - f.shift) else w.toNat.testBit b := by
  obtain hshift | hwidth := hf
  · exact testBit_write hshift w v hb
  · -- an empty field may start behind the last bit
    have hnone : ¬ f.Covers b := fun hcovers => by
      obtain ⟨hlow, hhigh⟩ := hcovers
      omega
    rw [if_neg hnone, write, mask_eq_zero hwidth]
    simp

theorem testBit_read_of_starts (hf : f.Starts) (w : UInt32) (b : Nat) :
    (f.read w).toNat.testBit b = (decide (b < f.width) && w.toNat.testBit (f.shift + b)) := by
  obtain hshift | hwidth := hf
  · exact testBit_read hshift w b
  · rw [read, mask_eq_zero hwidth, hwidth]
    simp

theorem toNat_read_write (hf : f.Inside) (w v : UInt32) :
    (f.read (f.write w v)).toNat = v.toNat % 2 ^ f.width := by
  refine Nat.eq_of_testBit_eq fun b => ?_
  rw [testBit_read_of_starts hf.starts, Nat.testBit_mod_two_pow]
  by_cases hb : b < f.width
  · have hin : f.shift + b < 32 := Nat.lt_of_lt_of_le (Nat.add_lt_add_left hb _) hf
    have hcovers : f.Covers (f.shift + b) := ⟨Nat.le_add_right .., Nat.add_lt_add_left hb _⟩
    rw [testBit_write_of_starts hf.starts w v hin, if_pos hcovers, Nat.add_sub_cancel_left]
  · rw [decide_eq_false hb, Bool.false_and, Bool.false_and]

theorem read_write_of_apart (hf : f.Starts) (hg : g.Inside) (h : f.Apart g) (w v : UInt32) :
    g.read (f.write w v) = g.read w := by
  refine UInt32.toNat_inj.1 (Nat.eq_of_testBit_eq fun b => ?_)
  rw [testBit_read_of_starts hg.starts, testBit_read_of_starts hg.starts]
  by_cases hb : b < g.width
  · have hin : g.shift + b < 32 := Nat.lt_of_lt_of_le (Nat.add_lt_add_left hb _) hg
    have hcovers : g.Covers (g.shift + b) := ⟨Nat.le_add_right .., Nat.add_lt_add_left hb _⟩
    have hnot : ¬ f.Covers (g.shift + b) := fun hf => h _ hf hcovers
    rw [testBit_write_of_starts hf w v hin, if_neg hnot]
  · rw [decide_eq_false hb, Bool.false_and, Bool.false_and]

end RegisterField

def RegisterWrite.sets? (w : RegisterWrite) (reg : Nat) (f : RegisterField) : Option Nat :=
  if w.reg = reg ∧ w.field = f then some (w.value.toNat % 2 ^ f.width) else none

namespace RegisterImage

def fieldValue? (image : RegisterImage) (reg : Nat) (f : RegisterField) : Option Nat :=
  (image.get? reg).map fun w => (f.read w).toNat

variable {ws : List RegisterWrite} {reg : Nat} {f : RegisterField}

def KeepsTo (w : RegisterWrite) (reg : Nat) (f : RegisterField) : Prop :=
  w.reg = reg → w.field.Starts ∧ (w.field = f ∨ w.field.Apart f)

theorem fieldValue?_write (image : RegisterImage) {w : RegisterWrite} (hf : f.Inside)
    (hw : KeepsTo w reg f) :
    (image.write w).fieldValue? reg f =
      (image.fieldValue? reg f).map fun old => (w.sets? reg f).getD old := by
  simp only [fieldValue?, get?_write, RegisterWrite.sets?]
  by_cases hreg : reg = w.reg
  · obtain ⟨hstarts, hkind⟩ := hw hreg.symm
    rw [if_pos hreg, Option.map_map, Option.map_map]
    refine congrArg (fun g => (image.get? reg).map g) (funext fun old => ?_)
    by_cases hfield : w.field = f
    · rw [Function.comp_apply, Function.comp_apply, if_pos ⟨hreg.symm, hfield⟩, hfield]
      exact RegisterField.toNat_read_write hf old w.value
    · have hapart := hkind.resolve_left hfield
      rw [Function.comp_apply, Function.comp_apply, if_neg fun h => hfield h.2,
        RegisterField.read_write_of_apart hstarts hf hapart]
      rfl
  · have hne : ¬ (w.reg = reg ∧ w.field = f) := fun h => hreg h.1.symm
    rw [if_neg hreg, if_neg hne, Option.map_map]
    rfl

/-- A field holds what the last write to it makes of it, if all others keep off it. -/
theorem fieldValue?_writeAll (image : RegisterImage) (hf : f.Inside)
    (hws : ∀ w ∈ ws, KeepsTo w reg f) :
    (image.writeAll ws).fieldValue? reg f =
      (image.fieldValue? reg f).map fun old =>
        ((ws.filterMap fun w => w.sets? reg f).getLast?).getD old := by
  induction ws generalizing image with
  | nil => exact Option.map_id'.symm
  | cons w ws ih =>
    obtain ⟨hfirst, hrest⟩ := List.forall_mem_cons.1 hws
    refine (ih (image.write w) hrest).trans ?_
    rw [fieldValue?_write image hf hfirst, Option.map_map]
    refine congrArg (fun g => (image.fieldValue? reg f).map g) (funext fun old => ?_)
    exact (getD_getLast?_filterMap_cons _ w ws old).symm

/-- A field that is written holds a value if that is all that is ever written to it. -/
theorem fieldValue?_writeAll_of_written (image : RegisterImage) (hf : f.Inside)
    (hexists : (image.get? reg).isSome = true) (hws : ∀ w ∈ ws, KeepsTo w reg f) {value : Nat}
    (h : ∀ w ∈ ws, ∀ v, w.sets? reg f = some v → v = value)
    (hwritten : ∃ w ∈ ws, (w.sets? reg f).isSome = true) :
    (image.writeAll ws).fieldValue? reg f = some value := by
  obtain ⟨word, hword⟩ := Option.isSome_iff_exists.1 hexists
  rw [fieldValue?_writeAll image hf hws, fieldValue?, hword, getLast?_filterMap_eq_some h hwritten]
  rfl

end RegisterImage

end VideoAccel
