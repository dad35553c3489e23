import VideoAccel.Proofs.Bits.Packing
import VideoAccel.Proofs.Register.Cells
import VideoAccel.Proofs.Strategy.ReferenceWrites
import VideoAccel.Proofs.Strategy.RegionWrites

namespace VideoAccel

/-- A field that the registers have once for every reference. -/
inductive ReferenceCell
  | info
  | wrap
  | valid
  | longTerm
  | same
  deriving DecidableEq, Repr

namespace ReferenceCell

def reg (g : Generation) (i : Nat) : ReferenceCell → Nat
  | .info => g.refInfo + i / 4
  | .wrap => Rkv.Reg.frameNumWrap + i / 2
  | .valid => Vdpu34x.Reg.refValidMask
  | .longTerm => Vdpu34x.Reg.refLongTermMask
  | .same => Vdpu34x.Reg.refSameAsCurrentMask

def field (i : Nat) : ReferenceCell → RegisterField
  | .info => ⟨i % 4 * 8, 8⟩
  | .wrap => ⟨i % 2 * 16, 16⟩
  | .valid | .longTerm | .same => .bit i

/-- The write that sets the cell of reference `i`. -/
def write (g : Generation) (i : Nat) (value : Nat) (c : ReferenceCell) : RegisterWrite :=
  ⟨c.reg g i, c.field i, value.toUInt32⟩

end ReferenceCell

namespace Generation

def cells : Generation → List ReferenceCell
  | .rkv => [.info, .wrap]
  | .vdpu34x => [.info, .valid, .longTerm, .same]

end Generation

/-- What is set for a reference by one call. -/
inductive ReferenceCall : Generation → Type
  | rkvInfo (r : Rkv.RefInfo) : ReferenceCall .rkv
  | wrap (value : Int) : ReferenceCall .rkv
  | info (r : Vdpu34x.RefInfo) : ReferenceCall .vdpu34x
  | same (value : Bool) : ReferenceCall .vdpu34x

namespace ReferenceCall

def writes {g : Generation} (i : Nat) : ReferenceCall g → List RegisterWrite
  | .rkvInfo r => [Rkv.setRefInfo i r]
  | .wrap value => [Rkv.setFrameNumWrap i value]
  | .info r => Vdpu34x.setRefInfo i r
  | .same value => [Vdpu34x.setSameAsCurrent i value]

def settings {g : Generation} : ReferenceCall g → List (ReferenceCell × Nat)
  | .rkvInfo r => [(.info, r.bits)]
  | .wrap value => [(.wrap, twosComplement 16 value)]
  | .info r =>
    [(.info, r.bits), (.valid, (r.used && !r.invalid).toNat), (.longTerm, r.longTerm.toNat)]
  | .same value => [(.same, value.toNat)]

def sets? {g : Generation} (c : ReferenceCell) (i : Nat) (call : Nat × ReferenceCall g) :
    Option Nat :=
  if call.1 = i then call.2.settings.lookup c else none

end ReferenceCall

namespace ReferenceCell

variable {g : Generation} {c d : ReferenceCell} {i j : Nat}

theorem inside_field (hi : i < 16) : (c.field i).Inside := by
  cases c <;> simp only [field, RegisterField.bit, RegisterField.Inside] <;> omega

theorem covers_shift : (c.field i).Covers (c.field i).shift := by
  refine ⟨Nat.le_refl _, Nat.lt_add_of_pos_right ?_⟩
  cases c <;> exact Nat.succ_pos _

theorem apart (hc : c ∈ g.cells) (hd : d ∈ g.cells) (hi : i < 16) (hj : j < 16)
    (hne : (c, i) ≠ (d, j)) (hreg : c.reg g i = d.reg g j) : (c.field i).Apart (d.field j) := by
  apply RegisterField.apart_of_le
  have hplace : c = d → i ≠ j := fun hcd hij => hne (Prod.ext hcd hij)
  cases g <;> cases c <;> cases d <;>
    simp only [Generation.cells, List.mem_cons, List.not_mem_nil, reduceCtorEq, or_false, or_true,
      true_imp_iff, false_imp_iff, reg, field, RegisterField.bit, Generation.refInfo,
      Rkv.Reg.refInfo, Rkv.Reg.frameNumWrap, Vdpu34x.Reg.refInfo, Vdpu34x.Reg.refValidMask,
      Vdpu34x.Reg.refLongTermMask, Vdpu34x.Reg.refSameAsCurrentMask] at hc hd hplace hreg ⊢ <;>
    omega

theorem keepsTo_write (hc : c ∈ g.cells) (hd : d ∈ g.cells) (hi : i < 16) (hj : j < 16)
    (value : Nat) : RegisterImage.KeepsTo (d.write g j value) (c.reg g i) (c.field i) := by
  intro hreg
  refine ⟨(inside_field hj).starts, ?_⟩
  by_cases hsame : (d, j) = (c, i)
  · obtain ⟨rfl, rfl⟩ := Prod.mk.inj hsame
    exact .inl rfl
  · exact .inr (apart hd hc hj hi hsame hreg)

theorem sets?_write (hc : c ∈ g.cells) (hd : d ∈ g.cells) (hi : i < 16) (hj : j < 16)
    {value : Nat} (hvalue : value < 2 ^ (d.field j).width) :
    (d.write g j value).sets? (c.reg g i) (c.field i) =
      if j = i ∧ d = c then some value else none := by
  by_cases hsame : j = i ∧ d = c
  · obtain ⟨rfl, rfl⟩ := hsame
    rw [if_pos ⟨rfl, rfl⟩, RegisterWrite.sets?, if_pos ⟨rfl, rfl⟩]
    have hwidth : (d.field j).width ≤ 16 := by cases d <;> exact Nat.le_of_ble_eq_true rfl
    have hword : value < 2 ^ 32 :=
      Nat.lt_of_lt_of_le hvalue (Nat.pow_le_pow_right (by decide) (Nat.le_trans hwidth (by decide)))
    have hnat : value.toUInt32.toNat = value := Nat.mod_eq_of_lt hword
    rw [write, hnat, Nat.mod_eq_of_lt hvalue]
  · rw [if_neg hsame, RegisterWrite.sets?, if_neg]
    rintro ⟨hreg, hfield⟩
    have hne : (d, j) ≠ (c, i) := fun h => hsame ⟨congrArg Prod.snd h, congrArg Prod.fst h⟩
    have hapart := apart hd hc hj hi hne hreg
    change d.field j = c.field i at hfield
    rw [hfield] at hapart
    exact hapart _ covers_shift covers_shift

end ReferenceCell

theorem Rkv.setFrameNumWrap_eq {i : Nat} (hi : i < 16) (value : Int) :
    setFrameNumWrap i value = ReferenceCell.wrap.write .rkv i (twosComplement 16 value) := by
  have hhalf : narrow (i / 2) = i / 2 := narrow_of_lt_16 (by omega)
  rw [setFrameNumWrap, hhalf]
  rfl

namespace ReferenceCall

variable {g : Generation} {c : ReferenceCell} {i j : Nat}

end ReferenceCall

section

variable {g : Generation} {image : RegisterImage} {calls : List (Nat × ReferenceCall g)}
  {c : ReferenceCell} {i : Nat}

theorem RegisterImage.Suits.isSome_get?_reg (h : image.Suits g) (hc : c ∈ g.cells) (hi : i < 16) :
    (image.get? (c.reg g i)).isSome = true := by
  have hblank : ∀ c ∈ g.cells, ∀ i < 16, (g.blankImage.get? (c.reg g i)).isSome = true := by
    cases g <;> decide
  rw [image.isSome_get?_eq_any, h, ← RegisterImage.isSome_get?_eq_any]
  exact hblank c hc i hi

end

end VideoAccel
