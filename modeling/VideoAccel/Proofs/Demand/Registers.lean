import VideoAccel.Proofs.Demand.Basic
import VideoAccel.Proofs.Strategy.Order
import VideoAccel.Proofs.Strategy.RegionWrites

namespace VideoAccel

def RegisterImage.writeDemands (image : RegisterImage) (w : RegisterWrite) : List Demand :=
  (if w.field.width < 32 then [.shift 32 w.field.width, .difference (2 ^ w.field.width) 1] else [])
  ++ (match image.blocks.find? fun b => b.contains w.reg with
    | none => [.index 0 w.reg]
    | some b => [.difference w.reg b.first, .index b.words.length (w.reg - b.first)])
  ++ [.shift 32 w.field.shift]

theorem RegisterImage.allMet_write {image : RegisterImage} {w : RegisterWrite}
    (h : image.fits w = true) : AllMet (image.writeDemands w) := by
  obtain ⟨hcontains, hshift⟩ := Bool.and_eq_true_iff.1 h
  simp only [writeDemands, allMet_append, allMet_cons, allMet_nil, and_true]
  refine ⟨⟨allMet_ite (fun hwidth => ?_) fun _ => allMet_nil, ?_⟩, of_decide_eq_true hshift⟩
  · simp only [allMet_cons, allMet_nil, and_true]
    exact ⟨hwidth, Nat.one_le_two_pow⟩
  cases hfind : image.blocks.find? fun b => b.contains w.reg with
  | none =>
    obtain ⟨b, hb, hreg⟩ := List.any_eq_true.1 hcontains
    exact absurd hreg (List.find?_eq_none.1 hfind b hb)
  | some b =>
    have hreg := List.find?_some hfind
    obtain ⟨hfirst, hlast⟩ := Bool.and_eq_true_iff.1 hreg
    simp only [allMet_cons, allMet_nil, and_true]
    exact ⟨of_decide_eq_true hfirst, of_decide_eq_true hlast⟩

namespace Emission

def editDemands (e : Emission) : Edit → List Demand
  | .register w => .word 32 w.reg :: e.image.writeDemands w
  | .table offset bytes => [.range e.tables.size offset (offset + bytes.length)]
  | .patch p => [.word 32 p.reg]

theorem allMet_edit {e : Emission} {edit : Edit} (hfits : e.fits edit = true)
    (hreg : ∀ reg, edit.reg? = some reg → reg < 2 ^ 32) : AllMet (e.editDemands edit) := by
  cases edit with
  | register w => exact allMet_cons.2 ⟨hreg w.reg rfl, RegisterImage.allMet_write hfits⟩
  | table offset bytes =>
    refine allMet_cons.2 ⟨⟨Nat.le_add_right _ _, ?_⟩, allMet_nil⟩
    exact of_decide_eq_true hfits
  | patch p => exact allMet_cons.2 ⟨hreg p.reg rfl, allMet_nil⟩

end Emission

/-- The image has the registers of a generation, and the table buffer has its size. -/
structure Emission.Suits (e : Emission) (g : Generation) : Prop where
  image : e.image.Suits g
  tables : e.tables.size = tableBufferSize

theorem Emission.Suits.applyAll {e : Emission} {g : Generation} (h : e.Suits g)
    (edits : List Edit) : (e.applyAll edits).Suits g where
  image := by
    rw [RegisterImage.Suits, applyAll_image, RegisterImage.shape_writeAll]
    exact h.image
  tables := by
    rw [applyAll_tables_size]
    exact h.tables

def Edit.Aimed : Edit → Prop
  | .register w => w.field.shift < 32
  | .table .. | .patch _ => True

section

variable {edit : Edit}

theorem Edit.aimed_word (reg : Nat) (value : UInt32) : (Edit.register (.word reg value)).Aimed :=
  Nat.zero_lt_succ 31

theorem Edit.aimed_patchEdits {reg offset : Nat} (h : edit ∈ patchEdits reg offset) :
    edit.Aimed := by
  obtain ⟨rfl, -⟩ := Edit.mem_patchEdits h
  exact trivial

theorem Edit.aimed_tableEdits {tables : UInt32} {bases : List (Nat × Nat)}
    (h : edit ∈ bases.flatMap fun x => .register (.word x.1 tables) :: patchEdits x.1 x.2) :
    edit.Aimed := by
  obtain ⟨x, -, h⟩ := List.mem_flatMap.1 h
  obtain rfl | h := List.mem_cons.1 h
  · exact aimed_word _ _
  · exact aimed_patchEdits h

theorem Edit.aimed_references {α : Type} {l : List α} {f : Nat → α → List RegisterWrite}
    {ws : List RegisterWrite} {capacity size offset : Nat} {fields : List BitField}
    (hlength : l.length ≤ 16) (hrefs : ∀ i, i < 16 → ∀ x, ∀ w ∈ f i x, w.field.shift < 32)
    (hws : ∀ w ∈ ws, w.field.shift < 32)
    (h : edit ∈ ((StepResult.ofExcept (packRegion capacity fields size offset)).after
      (((l.mapIdx f).flatten ++ ws).map .register)).edits) : edit.Aimed := by
  obtain h | h := List.mem_append.1 h
  · obtain ⟨w, hw, rfl⟩ := List.mem_map.1 h
    obtain hw | hw := List.mem_append.1 hw
    · obtain ⟨_, hmem, hw⟩ := List.mem_flatten.1 hw
      obtain ⟨i, hi, rfl⟩ := List.mem_mapIdx.1 hmem
      exact hrefs i (Nat.lt_of_lt_of_le hi hlength) l[i] w hw
    · exact hws w hw
  · obtain ⟨bytes, rfl, -⟩ := mem_packRegion h
    exact trivial

end

namespace Rkv

theorem Avc.aimed_references (p : VideoAccel.Avc.Picture) (bind : Binding) (size : Nat) :
    ∀ edit ∈ (references p bind size).edits, edit.Aimed := by
  unfold references
  simp only
  split
  · exact fun edit h => by cases h
  intro edit h
  refine Edit.aimed_references ?_ (fun i hi x => ?_) ?_ h
  · rw [List.length_zip]
    exact Nat.le_trans (Nat.min_le_left _ _) (p.params.length_zip_refs bind)
  · simp only [referenceWrites, setRefInfo, setFrameNumWrap, RegisterWrite.word, RegisterField.word,
      List.forall_mem_cons, List.not_mem_nil, false_imp_iff, implies_true, and_true]
    exact ⟨by omega, by omega, by omega, by omega⟩
  · simp only [List.forall_mem_cons, List.not_mem_nil, false_imp_iff, implies_true, and_true]
    exact ⟨Edit.aimed_word _ _, Edit.aimed_word _ _⟩

theorem Hevc.aimed_references (p : VideoAccel.Hevc.Picture) (bind : Binding) (size : Nat) :
    ∀ edit ∈ (references p bind size).edits, edit.Aimed := by
  intro edit h
  refine Edit.aimed_references (p.params.length_zip_refs bind) (fun i hi x => ?_) ?_ h
  · simp only [referenceWrites, setRefInfo, RegisterWrite.word, RegisterField.word,
      List.forall_mem_cons, List.not_mem_nil, false_imp_iff, implies_true, and_true]
    exact ⟨by omega, by omega⟩
  · simp only [List.forall_mem_cons, List.not_mem_nil, false_imp_iff, implies_true, and_true]
    exact Edit.aimed_word _ _

theorem aimed_addresses (bind : Binding) (tables : List (Nat × Nat)) :
    ∀ edit ∈ addressEdits bind tables, edit.Aimed := by
  simp only [addressEdits, List.forall_mem_append, List.forall_mem_cons, List.not_mem_nil,
    false_imp_iff, implies_true, and_true]
  refine ⟨⟨⟨Edit.aimed_word _ _, Edit.aimed_word _ _, Edit.aimed_word _ _⟩, ?_⟩, ?_⟩
  · intro edit h
    obtain ⟨i, r, -, -, rfl⟩ := mem_mapIdx_take.1 h
    exact Edit.aimed_word _ _
  · exact fun edit h => Edit.aimed_tableEdits h

theorem aimed_geometry (output : Frame) (mode : UInt32) :
    ∀ edit ∈ (geometryWrites output mode).map Edit.register, edit.Aimed := by
  simp only [geometryWrites, List.map_cons, List.map_nil, List.forall_mem_cons, List.not_mem_nil,
    false_imp_iff, implies_true, and_true]
  refine ⟨?_, ?_, ?_, ?_, ?_, ?_, ?_⟩ <;> exact Nat.lt_of_sub_eq_succ rfl

end Rkv

namespace Vdpu34x

theorem aimed_masks {i : Nat} (hi : i < 16) (info : RefInfo) (same : Bool) :
    (∀ w ∈ setRefInfo i info, w.field.shift < 32) ∧ (setSameAsCurrent i same).field.shift < 32 := by
  have hbit : narrow i < 32 := by
    rw [narrow_of_lt (Nat.lt_trans hi (by decide))]
    omega
  simp only [setRefInfo, setSameAsCurrent, RegisterWrite.flag, RegisterField.bit,
    List.forall_mem_cons, List.not_mem_nil, false_imp_iff, implies_true, and_true]
  exact ⟨⟨by omega, hbit, hbit⟩, hbit⟩

theorem Avc.aimed_references (p : VideoAccel.Avc.Picture) (bind : Binding) (size : Nat) :
    ∀ edit ∈ (references p bind size).edits, edit.Aimed := by
  unfold references
  simp only
  split
  · exact fun edit h => by cases h
  intro edit h
  refine Edit.aimed_references (p.params.length_zip_refs bind) (fun i hi x => ?_) ?_ h
  · simp only [referenceWrites, List.forall_mem_append, List.forall_mem_cons, List.not_mem_nil,
      false_imp_iff, implies_true, and_true]
    obtain ⟨hinfo, hsame⟩ := aimed_masks hi _ _
    exact ⟨⟨⟨Edit.aimed_word _ _, Edit.aimed_word _ _⟩, hinfo⟩, hsame⟩
  · simp only [List.forall_mem_cons, List.not_mem_nil, false_imp_iff, implies_true, and_true]
    exact ⟨Edit.aimed_word _ _, Edit.aimed_word _ _⟩

theorem Hevc.aimed_references (p : VideoAccel.Hevc.Picture) (bind : Binding) (size : Nat) :
    ∀ edit ∈ (references p bind size).edits, edit.Aimed := by
  intro edit h
  refine Edit.aimed_references (p.params.length_zip_refs bind) (fun i hi x => ?_) ?_ h
  · simp only [referenceWrites, List.forall_mem_append, List.forall_mem_cons, List.not_mem_nil,
      false_imp_iff, implies_true, and_true]
    obtain ⟨hinfo, hsame⟩ := aimed_masks hi _ _
    exact ⟨⟨Edit.aimed_word _ _, hinfo⟩, hsame⟩
  · simp only [List.forall_mem_cons, List.not_mem_nil, false_imp_iff, implies_true, and_true]
    exact Edit.aimed_word _ _

theorem aimed_addresses (bind : Binding) (tables : List (Nat × Nat)) :
    ∀ edit ∈ addressEdits bind tables, edit.Aimed := by
  simp only [addressEdits, List.forall_mem_append, List.forall_mem_cons, List.not_mem_nil,
    false_imp_iff, implies_true, and_true]
  refine ⟨⟨⟨⟨⟨Edit.aimed_word _ _, Edit.aimed_word _ _⟩, ?_⟩, ?_⟩, ?_⟩, ?_⟩
  · intro edit h
    obtain ⟨i, r, -, -, rfl⟩ := mem_mapIdx_take.1 h
    exact Edit.aimed_word _ _
  · split
    · exact List.forall_mem_nil _
    · intro edit h
      obtain rfl | ⟨i, handle, -, -, rfl⟩ := Edit.mem_motionEdits h <;> exact Edit.aimed_word _ _
  · exact fun edit h => Edit.aimed_tableEdits h
  · split
    · exact List.forall_mem_nil _
    · intro edit h
      obtain ⟨x, -, handle, offset, -, rfl | rfl | h⟩ := mem_regionEdits.1 h
      · exact Edit.aimed_word _ _
      · exact Edit.aimed_word _ _
      · exact Edit.aimed_patchEdits h

theorem aimed_geometry (bind : Binding) (mode : UInt32) :
    ∀ edit ∈ geometryEdits bind mode, edit.Aimed := by
  have hflag : ∀ (reg bit : Nat) (value : Bool), bit < 32 →
      (Edit.register (.flag reg bit value)).Aimed := fun _ _ _ hbit => hbit
  simp only [geometryEdits, List.forall_mem_append, List.forall_mem_cons, List.not_mem_nil,
    false_imp_iff, implies_true, and_true]
  refine ⟨⟨⟨⟨Edit.aimed_word _ _, Edit.aimed_word _ _, Edit.aimed_word _ _, Edit.aimed_word _ _,
    Edit.aimed_word _ _, Edit.aimed_word _ _, hflag _ _ _ (by decide), hflag _ _ _ (by decide),
    hflag _ _ _ (by decide)⟩, ?_⟩, ?_⟩, Edit.aimed_word _ _, hflag _ _ _ (by decide)⟩
  · unfold compressedEdits
    split
    · simp only [List.forall_mem_append, List.forall_mem_cons, List.not_mem_nil, false_imp_iff,
        implies_true, and_true]
      exact ⟨⟨hflag _ _ _ (by decide), Edit.aimed_word _ _, Edit.aimed_word _ _⟩,
        fun edit h => Edit.aimed_patchEdits h⟩
    · exact List.forall_mem_nil _
  · unfold thumbnailEdits
    split
    · simp only [List.forall_mem_append, List.forall_mem_cons, List.not_mem_nil, false_imp_iff,
        implies_true, and_true]
      exact ⟨⟨hflag _ _ _ (by decide), Edit.aimed_word _ _⟩,
        fun edit h => Edit.aimed_patchEdits h⟩
    · exact List.forall_mem_nil _

end Vdpu34x

namespace Generation

variable {g : Generation} {picture : CodedPicture} {bind : Binding} {size : Nat}
  {step : GenerationStep} {edit : Edit} {e : Emission}

theorem aimed_of_mem (g : Generation) (picture : CodedPicture) (bind : Binding) (size : Nat)
    (step : GenerationStep) : ∀ edit ∈ (g.stepResult picture bind size step).edits, edit.Aimed := by
  have hstored : step = .parameters ∨ step = .tables →
      ∀ edit ∈ (g.stepResult picture bind size step).edits, edit.Aimed := by
    intro hstep edit h
    cases g.made_of_mem picture bind size step edit h with
    | header | scaling | refTable => exact trivial
    | reference | stream | refBase | motion | tableBase | tablePatch | region | geometry =>
      obtain hstep | hstep := hstep <;> cases hstep
  cases step with
  | parameters => exact hstored (.inl rfl)
  | tables => exact hstored (.inr rfl)
  | references =>
    cases g <;> cases picture
    · exact Rkv.Avc.aimed_references _ bind size
    · exact Rkv.Hevc.aimed_references _ bind size
    · exact Vdpu34x.Avc.aimed_references _ bind size
    · exact Vdpu34x.Hevc.aimed_references _ bind size
  | addresses =>
    cases g <;> cases picture
    · exact Rkv.aimed_addresses bind _
    · exact Rkv.aimed_addresses bind _
    · exact Vdpu34x.aimed_addresses bind _
    · exact Vdpu34x.aimed_addresses bind _
  | geometry =>
    cases g <;> cases picture
    · exact Rkv.aimed_geometry _ _
    · exact Rkv.aimed_geometry _ _
    · exact Vdpu34x.aimed_geometry bind _
    · exact Vdpu34x.aimed_geometry bind _

theorem length_lists {m n : Nat} (lists : Vector (Vector UInt8 m) n) :
    (lists.toList.flatMap (·.toList)).length = n * m := by
  simp [List.length_flatMap]

theorem scaling_le {bytes : List UInt8} (h : picture.scalingBytes? = some bytes) :
    scalingOffset + bytes.length ≤ tableBufferSize := by
  cases picture with
  | avc p =>
    obtain ⟨lists, -, rfl⟩ := Option.map_eq_some_iff.1 h
    simp only [VideoAccel.Avc.ScalingLists.bytes, List.length_append, length_lists]
    decide
  | hevc p =>
    obtain ⟨lists, -, rfl⟩ := Option.map_eq_some_iff.1 h
    simp only [VideoAccel.Hevc.ScalingLists.bytes, List.length_append, length_lists,
      Vector.length_toList]
    decide

theorem fits_of_mem (he : e.Suits g) (h : edit ∈ (g.stepResult picture bind size step).edits) :
    e.fits edit = true := by
  have hmade := g.made_of_mem picture bind size step edit h
  cases edit with
  | register w =>
    obtain ⟨z, hzone, -⟩ := hmade.exists_zone (rfl : (Edit.register w).reg? = some w.reg)
    have hcontains := RegisterImage.contains_of_isSome (isSome_get?_of_suits he.image hzone)
    have haimed := aimed_of_mem g picture bind size step _ h
    simp only [Emission.fits, RegisterImage.fits, hcontains, Bool.true_and]
    exact decide_eq_true haimed
  | table offset bytes =>
    have hwords := g.parameterWords_le picture.standard
    obtain ⟨hheader, htable⟩ := g.parts_apart picture.standard
    have hsize : scalingOffset ≤ tableBufferSize := by decide
    simp only [Emission.fits, he.tables, decide_eq_true_eq]
    obtain ⟨-, rfl, hlength⟩ | ⟨-, rfl, hlength⟩ | ⟨-, rfl, hbytes⟩ := hmade.table
    · omega
    · omega
    · exact scaling_le hbytes
  | patch p => rfl

theorem reg_lt_of_mem (h : edit ∈ (g.stepResult picture bind size step).edits) :
    ∀ reg, edit.reg? = some reg → reg < 2 ^ 32 := by
  intro reg hreg
  obtain ⟨z, ⟨range, hrange, -, hlast⟩, -⟩ :=
    (g.made_of_mem picture bind size step edit h).exists_zone hreg
  have hzones : ∀ range ∈ g.zone z, range.2 < 2 ^ 32 := by
    cases g <;> cases z <;> decide
  exact Nat.lt_of_le_of_lt hlast (hzones range hrange)

theorem allMet_edits (he : e.Suits g) :
    AllMet ((g.stepResult picture bind size step).edits.flatMap e.editDemands) :=
  allMet_flatMap fun _ hedit => Emission.allMet_edit (fits_of_mem he hedit) (reg_lt_of_mem hedit)

end Generation

end VideoAccel
