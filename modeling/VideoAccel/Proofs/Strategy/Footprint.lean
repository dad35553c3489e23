import VideoAccel.Proofs.Header.Parameters

namespace VideoAccel

def Edit.reg? : Edit → Option Nat
  | .register w => some w.reg
  | .table .. => none
  | .patch p => some p.reg

/-- Parts of the register file by what is written there. -/
inductive RegisterZone
  | stream
  | references
  | refBases
  | motion
  | tables
  | regions
  | geometry
  deriving DecidableEq, Repr

namespace Generation

def zone : Generation → RegisterZone → List (Nat × Nat)
  | .rkv, .stream => [(4, 5), (7, 7)]
  | .rkv, .references => [(26, 59), (62, 73)]
  | .rkv, .refBases => [(10, 25)]
  | .rkv, .tables => [(6, 6), (60, 61)]
  | .rkv, .geometry => [(1, 3), (8, 9)]
  | .rkv, .motion | .rkv, .regions => []
  | .vdpu34x, .stream => [(128, 128), (132, 132)]
  | .vdpu34x, .references => [(64, 111)]
  | .vdpu34x, .refBases => [(164, 179)]
  | .vdpu34x, .motion => [(133, 133), (180, 195)]
  | .vdpu34x, .tables => [(129, 131)]
  | .vdpu34x, .regions => [(140, 161)]
  | .vdpu34x, .geometry => [(8, 31), (134, 135), (256, 271)]

def InZone (g : Generation) (z : RegisterZone) (reg : Nat) : Prop :=
  ∃ range ∈ g.zone z, range.1 ≤ reg ∧ reg ≤ range.2

instance (g : Generation) (z : RegisterZone) (reg : Nat) : Decidable (g.InZone z reg) :=
  inferInstanceAs (Decidable (∃ range ∈ g.zone z, range.1 ≤ reg ∧ reg ≤ range.2))

theorem InZone.word {g : Generation} {z : RegisterZone} {reg : Nat} (h : g.InZone z reg)
    (value : UInt32) : g.InZone z (RegisterWrite.word reg value).reg := h

theorem InZone.unique {g : Generation} {z z' : RegisterZone} {reg : Nat} (h : g.InZone z reg)
    (h' : g.InZone z' reg) : z = z' := by
  simp only [InZone] at h h'
  cases g <;> cases z <;> cases z' <;> first | rfl | (simp [zone] at h h' <;> omega)

def refBase : Generation → Nat
  | .rkv => Rkv.Reg.refBase
  | .vdpu34x => Vdpu34x.Reg.refBase

def refTableOffset : Generation → CodingStandard → Nat
  | .rkv, .avc => Rkv.Avc.refFlagsOffset
  | _, _ => refSetOffset

def refTableWords : Generation → CodingStandard → Nat
  | .rkv, .avc => 1
  | .vdpu34x, .avc => 5
  | _, .hevc => 3

def tableBases (g : Generation) (picture : CodedPicture) : List (Nat × Nat) :=
  match g, picture with
  | .rkv, .avc p => Rkv.Avc.tableBases p
  | .vdpu34x, .avc p => Vdpu34x.Avc.tableBases p
  | .rkv, .hevc p => Rkv.Hevc.tableBases p
  | .vdpu34x, .hevc p => Vdpu34x.Hevc.tableBases p

end Generation

/-- The scaling lists that the hardware is to find in the table buffer. -/
def CodedPicture.scalingBytes? : CodedPicture → Option (List UInt8)
  | .avc p => p.scaling.map (·.bytes)
  | .hevc p => p.activeScaling.map (·.bytes)

inductive Edit.Made (g : Generation) (picture : CodedPicture) (bind : Binding) :
    GenerationStep → Edit → Prop
  | header (bytes : List UInt8) (h : bytes.length = g.parameterWords picture.standard * 8) :
      Made g picture bind .parameters (.table parameterOffset bytes)
  | refTable (bytes : List UInt8) (h : bytes.length = g.refTableWords picture.standard * 8) :
      Made g picture bind .references (.table (g.refTableOffset picture.standard) bytes)
  | reference (w : RegisterWrite) (h : g.InZone .references w.reg) :
      Made g picture bind .references (.register w)
  | scaling (bytes : List UInt8) (h : picture.scalingBytes? = some bytes) :
      Made g picture bind .tables (.table scalingOffset bytes)
  | stream (w : RegisterWrite) (h : g.InZone .stream w.reg) :
      Made g picture bind .addresses (.register w)
  | refBase (i : Nat) (r : ResolvedRef) (hr : bind.refs[i]? = some r) (hi : i < 16) :
      Made g picture bind .addresses (.register (.word (g.refBase + i) r.frame.handle))
  | motion (edit : Edit) (motion : MotionBinding) (hmotion : bind.motion = some motion)
      (h : edit ∈ Vdpu34x.motionEdits motion) (hg : g = .vdpu34x) :
      Made g picture bind .addresses edit
  | tableBase (reg offset : Nat) (h : (reg, offset) ∈ g.tableBases picture) :
      Made g picture bind .addresses (.register (.word reg bind.tables))
  | tablePatch (reg offset : Nat) (edit : Edit) (h : (reg, offset) ∈ g.tableBases picture)
      (hedit : edit ∈ patchEdits reg offset) : Made g picture bind .addresses edit
  | region (edit : Edit) (reg : Nat) (hreg : edit.reg? = some reg) (h : g.InZone .regions reg) :
      Made g picture bind .addresses edit
  | geometry (edit : Edit) (reg : Nat) (hreg : edit.reg? = some reg)
      (h : g.InZone .geometry reg) : Made g picture bind .geometry edit

theorem mem_mapIdx_take {α β : Type} {l : List α} {f : Nat → α → β} {n : Nat} {y : β} :
    y ∈ (l.take n).mapIdx f ↔ ∃ i x, i < n ∧ l[i]? = some x ∧ f i x = y := by
  rw [List.mem_mapIdx]
  constructor
  · rintro ⟨i, hi, rfl⟩
    rw [List.length_take, Nat.lt_min] at hi
    exact ⟨i, _, hi.1, List.getElem?_eq_getElem hi.2, by rw [List.getElem_take]⟩
  · rintro ⟨i, x, hi, hx, rfl⟩
    obtain ⟨hlt, rfl⟩ := List.getElem?_eq_some_iff.1 hx
    refine ⟨i, ?_, by rw [List.getElem_take]⟩
    rw [List.length_take, Nat.lt_min]
    exact ⟨hi, hlt⟩

namespace Edit

variable {g : Generation} {picture : CodedPicture} {bind : Binding}

theorem mem_patchEdits {reg offset : Nat} {edit : Edit} (h : edit ∈ patchEdits reg offset) :
    edit = .patch ⟨reg, offset.toUInt32⟩ ∧ offset ≠ 0 := by
  simp only [patchEdits] at h
  split at h
  · cases h
  · rename_i hne
    exact ⟨List.mem_singleton.1 h, hne⟩

theorem mem_ofExcept {r : Except StepError (List Edit)} {edit : Edit}
    (h : edit ∈ (StepResult.ofExcept r).edits) : ∃ edits, r = .ok edits ∧ edit ∈ edits := by
  cases r with
  | ok edits => exact ⟨edits, rfl, h⟩
  | error e => cases h

theorem mem_packRegion {capacity size offset : Nat} {fields : List BitField} {edit : Edit}
    (h : edit ∈ (StepResult.ofExcept (packRegion capacity fields size offset)).edits) :
    ∃ bytes, edit = .table offset bytes ∧ bytes.length = (capacity + 63) / 64 * 8 := by
  obtain ⟨edits, hedits, hedit⟩ := mem_ofExcept h
  obtain ⟨bytes, rfl, hlength⟩ := packRegion_eq_ok hedits
  exact ⟨bytes, List.mem_singleton.1 hedit, hlength⟩

theorem mem_scalingTable {bytes : List UInt8} {size : Nat} {edit : Edit}
    (h : edit ∈ (StepResult.ofExcept (scalingTable bytes size)).edits) :
    edit = .table scalingOffset bytes := by
  obtain ⟨edits, hedits, hedit⟩ := mem_ofExcept h
  simp only [scalingTable] at hedits
  split at hedits
  · cases hedits
  · cases hedits
    exact List.mem_singleton.1 hedit

theorem mem_motionEdits {motion : MotionBinding} {edit : Edit}
    (h : edit ∈ Vdpu34x.motionEdits motion) :
    edit = .register (.word Vdpu34x.Reg.motionCurrentBase motion.current) ∨
      ∃ i handle, i < 16 ∧ motion.refs[i]? = some handle ∧
        edit = .register (.word (Vdpu34x.Reg.motionRefBase + i) handle) := by
  obtain rfl | h := List.mem_cons.1 h
  · exact .inl rfl
  · obtain ⟨i, handle, hi, hhandle, rfl⟩ := mem_mapIdx_take.1 h
    exact .inr ⟨i, handle, hi, hhandle, rfl⟩

theorem Made.table {step : GenerationStep} {offset : Nat} {bytes : List UInt8}
    (h : Made g picture bind step (.table offset bytes)) :
    step = .parameters ∧ offset = parameterOffset ∧
        bytes.length = g.parameterWords picture.standard * 8 ∨
      step = .references ∧ offset = g.refTableOffset picture.standard ∧
        bytes.length = g.refTableWords picture.standard * 8 ∨
      step = .tables ∧ offset = scalingOffset ∧ picture.scalingBytes? = some bytes := by
  generalize hedit : Edit.table offset bytes = edit at h
  cases h with
  | header _ h =>
    cases hedit
    exact .inl ⟨rfl, rfl, h⟩
  | refTable _ h =>
    cases hedit
    exact .inr (.inl ⟨rfl, rfl, h⟩)
  | scaling _ h =>
    cases hedit
    exact .inr (.inr ⟨rfl, rfl, h⟩)
  | reference | stream | refBase | tableBase => cases hedit
  | motion _ motion _ h =>
    obtain rfl | ⟨_, _, _, _, rfl⟩ := mem_motionEdits h <;> cases hedit
  | tablePatch _ _ _ _ h =>
    obtain ⟨rfl, -⟩ := mem_patchEdits h
    cases hedit
  | region _ _ hreg | geometry _ _ hreg =>
    subst hedit
    cases hreg

theorem made_avcParameters {p : Avc.Picture} {size capacity : Nat}
    {fields : UInt8 × UInt8 → List BitField}
    (hwords : (capacity + 63) / 64 = g.parameterWords .avc) :
    ∀ edit ∈ (Avc.parameterTable p.params bind size capacity fields).edits,
      Made g (.avc p) bind .parameters edit := by
  intro edit hedit
  simp only [Avc.parameterTable] at hedit
  split at hedit
  · cases hedit
  · rename_i depths _
    have hregion : edit ∈ (StepResult.ofExcept
      (packRegion capacity (fields depths) size parameterOffset)).edits := hedit
    obtain ⟨bytes, rfl, hlength⟩ := mem_packRegion hregion
    exact .header bytes (by rw [hlength, hwords]; rfl)

theorem made_hevcParameters {p : Hevc.Picture} {size : Nat} {parts : List Hevc.HeaderPart} :
    ∀ edit ∈ (Hevc.parameterTable p.params bind size parts).edits,
      Made g (.hevc p) bind .parameters edit := by
  intro edit hedit
  obtain ⟨edits, hedits, hedit⟩ := mem_ofExcept hedit
  split at hedits
  · cases hedits
  · rename_i w hw
    rw [packedTable_eq_ok hedits] at hedit
    obtain rfl := List.mem_singleton.1 hedit
    refine .header w.bytes ?_
    rw [BitWriter.length_bytes, Hevc.wordCount_packParts hw]
    cases g <;> rfl

theorem made_avcScaling {p : Avc.Picture} {size : Nat} :
    ∀ edit ∈ (Avc.scalingEdits p size).edits, Made g (.avc p) bind .tables edit := by
  intro edit hedit
  simp only [Avc.scalingEdits] at hedit
  split at hedit
  · cases hedit
  · rename_i lists hlists
    obtain rfl := mem_scalingTable hedit
    exact .scaling _ (by simp [CodedPicture.scalingBytes?, hlists])

theorem made_hevcScaling {p : Hevc.Picture} {size : Nat} :
    ∀ edit ∈ (Hevc.scalingEdits p size).edits, Made g (.hevc p) bind .tables edit := by
  intro edit hedit
  simp only [Hevc.scalingEdits] at hedit
  split at hedit
  · cases hedit
  · rename_i lists hlists
    obtain rfl := mem_scalingTable hedit
    exact .scaling _ (by simp [CodedPicture.scalingBytes?, hlists])

/-- The writes for at most sixteen references stay in their zone, and a table follows. -/
theorem made_references {α : Type} {l : List α} {f : Nat → α → List RegisterWrite}
    {ws : List RegisterWrite} {r : StepResult} (hlength : l.length ≤ 16)
    (hrefs : ∀ i, i < 16 → ∀ x, ∀ w ∈ f i x, g.InZone .references w.reg)
    (hws : ∀ w ∈ ws, g.InZone .references w.reg)
    (hr : ∀ edit ∈ r.edits, Made g picture bind .references edit) :
    ∀ edit ∈ (r.after (((l.mapIdx f).flatten ++ ws).map .register)).edits,
      Made g picture bind .references edit := by
  intro edit hedit
  obtain hedit | hedit := List.mem_append.1 hedit
  · obtain ⟨w, hw, rfl⟩ := List.mem_map.1 hedit
    refine .reference w ?_
    obtain hw | hw := List.mem_append.1 hw
    · obtain ⟨_, hmem, hw⟩ := List.mem_flatten.1 hw
      obtain ⟨i, hi, rfl⟩ := List.mem_mapIdx.1 hmem
      exact hrefs i (Nat.lt_of_lt_of_le hi hlength) l[i] w hw
    · exact hws w hw
  · exact hr edit hedit

theorem made_refTable (capacity : Nat) (fields : List BitField) {size offset : Nat}
    (hoffset : offset = g.refTableOffset picture.standard)
    (hwords : (capacity + 63) / 64 = g.refTableWords picture.standard) :
    ∀ edit ∈ (StepResult.ofExcept (packRegion capacity fields size offset)).edits,
      Made g picture bind .references edit := by
  intro edit hedit
  obtain ⟨bytes, rfl, hbytes⟩ := mem_packRegion hedit
  rw [hwords] at hbytes
  exact hoffset ▸ .refTable bytes hbytes

theorem made_tableBases :
    ∀ edit ∈ (g.tableBases picture).flatMap fun (reg, offset) =>
        .register (.word reg bind.tables) :: patchEdits reg offset,
      Made g picture bind .addresses edit := by
  intro edit hedit
  obtain ⟨⟨reg, offset⟩, hx, hedit⟩ := List.mem_flatMap.1 hedit
  obtain rfl | hedit := List.mem_cons.1 hedit
  · exact .tableBase reg offset hx
  · exact .tablePatch reg offset edit hx hedit

end Edit

theorem Avc.Params.length_zip_refs (p : Avc.Params) (bind : Binding) :
    (p.refs.toList.zip bind.refs).length ≤ 16 := by
  rw [List.length_zip, Vector.length_toList]
  exact Nat.min_le_left _ _

theorem Hevc.Params.length_zip_refs (p : Hevc.Params) (bind : Binding) :
    (p.refs.toList.zip bind.refs).length ≤ 16 := by
  rw [List.length_zip, Vector.length_toList]
  exact Nat.le_trans (Nat.min_le_left _ _) (by decide)

namespace Rkv

theorem inZone_references {reg : Nat} :
    Generation.rkv.InZone .references reg ↔ 26 ≤ reg ∧ reg ≤ 59 ∨ 62 ≤ reg ∧ reg ≤ 73 := by
  simp [Generation.InZone, Generation.zone]

theorem setRefInfo_inZone {i : Nat} (hi : i < 16) (info : RefInfo) :
    Generation.rkv.InZone .references (setRefInfo i info).reg := by
  have hle : narrow (i / 4) ≤ i / 4 := Nat.mod_le _ _
  simp only [inZone_references, setRefInfo, Reg.refInfo]
  omega

theorem Avc.referenceWrites_inZone (p : VideoAccel.Avc.Params) {i : Nat} (hi : i < 16)
    (r : VideoAccel.Avc.RefFrame) (valid : Bool) (wrap : Int) :
    ∀ w ∈ referenceWrites p i r valid wrap, Generation.rkv.InZone .references w.reg := by
  have hle : narrow (i / 2) ≤ i / 2 := Nat.mod_le _ _
  simp only [referenceWrites, List.forall_mem_cons]
  refine ⟨?_, ?_, setRefInfo_inZone hi _, ?_, nofun⟩ <;>
    simp only [inZone_references, RegisterWrite.word, setFrameNumWrap, Reg.refPocTop,
      Reg.refPocBottom, Reg.frameNumWrap] <;>
    omega

theorem Avc.made_references (p : VideoAccel.Avc.Picture) (bind : Binding) (size : Nat) :
    ∀ edit ∈ (references p bind size).edits, Edit.Made .rkv (.avc p) bind .references edit := by
  unfold references
  simp only
  split
  · exact fun edit hedit => by cases hedit
  · refine Edit.made_references ?_ ?_ ?_
      (Edit.made_refTable refFlagsBits (refFlagFields _) rfl rfl)
    · rw [List.length_zip]
      exact Nat.le_trans (Nat.min_le_left _ _) (p.params.length_zip_refs bind)
    · exact fun i hi x => referenceWrites_inZone _ hi _ _ _
    · simp only [List.forall_mem_cons]
      exact ⟨.word (by decide) _, .word (by decide) _, List.forall_mem_nil _⟩

theorem Hevc.referenceWrites_inZone (p : VideoAccel.Hevc.Params) {i : Nat} (hi : i < 16)
    (r : VideoAccel.Hevc.RefPicture) (valid : Bool) :
    ∀ w ∈ referenceWrites p i r valid, Generation.rkv.InZone .references w.reg := by
  simp only [referenceWrites, List.forall_mem_cons]
  refine ⟨?_, setRefInfo_inZone hi _, nofun⟩
  simp only [inZone_references, RegisterWrite.word, Reg.refPocTop]
  omega

theorem Hevc.made_references (p : VideoAccel.Hevc.Picture) (bind : Binding) (size : Nat) :
    ∀ edit ∈ (references p bind size).edits, Edit.Made .rkv (.hevc p) bind .references edit := by
  refine Edit.made_references (p.params.length_zip_refs bind) ?_ ?_
    (Edit.made_refTable Hevc.refSetBits (Hevc.refSetFields _ _) rfl rfl)
  · exact fun i hi x => referenceWrites_inZone _ hi _ _
  · simp only [List.forall_mem_cons]
    exact ⟨.word (by decide) _, List.forall_mem_nil _⟩

variable {picture : CodedPicture} {bind : Binding}

theorem made_addresses (picture : CodedPicture) (bind : Binding) :
    ∀ edit ∈ addressEdits bind (Generation.rkv.tableBases picture),
      Edit.Made .rkv picture bind .addresses edit := by
  simp only [addressEdits, List.forall_mem_append, List.forall_mem_cons]
  refine ⟨⟨⟨.stream _ ?_, .stream _ ?_, .stream _ ?_, nofun⟩, ?_⟩, ?_⟩
  · simp [Generation.InZone, Generation.zone, RegisterWrite.word, Reg.streamBase]
  · simp [Generation.InZone, Generation.zone, RegisterWrite.word, Reg.streamLength]
  · simp [Generation.InZone, Generation.zone, RegisterWrite.word, Reg.outputBase]
  · intro edit hedit
    obtain ⟨i, r, hi, hr, rfl⟩ := mem_mapIdx_take.1 hedit
    exact .refBase i r hr hi
  · exact Edit.made_tableBases

theorem made_geometry (output : Frame) (mode : UInt32) :
    ∀ edit ∈ (geometryWrites output mode).map Edit.register,
      Edit.Made .rkv picture bind .geometry edit := by
  simp only [geometryWrites, List.map_cons, List.map_nil, List.forall_mem_cons]
  exact ⟨.geometry _ Reg.control rfl (by decide), .geometry _ Reg.strides rfl (by decide),
    .geometry _ Reg.strides rfl (by decide), .geometry _ Reg.lumaStride rfl (by decide),
    .geometry _ Reg.pictureStride rfl (by decide), .geometry _ Reg.interrupt rfl (by decide),
    .geometry _ Reg.interrupt rfl (by decide), nofun⟩

end Rkv

namespace Vdpu34x

theorem inZone_references {reg : Nat} :
    Generation.vdpu34x.InZone .references reg ↔ 64 ≤ reg ∧ reg ≤ 111 := by
  simp [Generation.InZone, Generation.zone]

theorem setRefInfo_inZone {i : Nat} (hi : i < 16) (info : RefInfo) :
    ∀ w ∈ setRefInfo i info, Generation.vdpu34x.InZone .references w.reg := by
  have hle : narrow (i / 4) ≤ i / 4 := Nat.mod_le _ _
  simp only [setRefInfo, List.forall_mem_cons]
  refine ⟨?_, ?_, ?_, nofun⟩ <;>
    simp only [inZone_references, RegisterWrite.flag, Reg.refInfo, Reg.refValidMask,
      Reg.refLongTermMask] <;>
    omega

theorem setSameAsCurrent_inZone (i : Nat) (same : Bool) :
    Generation.vdpu34x.InZone .references (setSameAsCurrent i same).reg := by
  simp [inZone_references, setSameAsCurrent, RegisterWrite.flag, Reg.refSameAsCurrentMask]

theorem Avc.referenceWrites_inZone (p : VideoAccel.Avc.Params) (outputSlot : Nat) {i : Nat}
    (hi : i < 16) (r : VideoAccel.Avc.RefFrame) (resolved : ResolvedRef) :
    ∀ w ∈ referenceWrites p outputSlot i r resolved,
      Generation.vdpu34x.InZone .references w.reg := by
  simp only [referenceWrites, List.forall_mem_append, List.forall_mem_cons]
  refine ⟨⟨⟨?_, ?_, nofun⟩, setRefInfo_inZone hi _⟩, setSameAsCurrent_inZone i _, nofun⟩ <;>
    simp only [inZone_references, RegisterWrite.word, Reg.refPoc] <;>
    omega

theorem Avc.made_references (p : VideoAccel.Avc.Picture) (bind : Binding) (size : Nat) :
    ∀ edit ∈ (references p bind size).edits,
      Edit.Made .vdpu34x (.avc p) bind .references edit := by
  unfold references
  simp only
  split
  · exact fun edit hedit => by cases hedit
  · refine Edit.made_references (p.params.length_zip_refs bind) ?_ ?_
      (Edit.made_refTable (refEntryBits * VideoAccel.Avc.maxRefs) _ rfl rfl)
    · exact fun i hi x => referenceWrites_inZone _ _ hi _ _
    · simp only [List.forall_mem_cons]
      exact ⟨.word (by decide) _, .word (by decide) _, List.forall_mem_nil _⟩

theorem Hevc.referenceWrites_inZone (p : VideoAccel.Hevc.Params) (outputSlot : Nat) {i : Nat}
    (hi : i < 16) (r : VideoAccel.Hevc.RefPicture) (resolved : ResolvedRef) :
    ∀ w ∈ referenceWrites p outputSlot i r resolved,
      Generation.vdpu34x.InZone .references w.reg := by
  simp only [referenceWrites, List.cons_append, List.forall_mem_append, List.forall_mem_cons]
  refine ⟨?_, setRefInfo_inZone hi _, setSameAsCurrent_inZone i _, nofun⟩
  simp only [inZone_references, RegisterWrite.word, Reg.refPoc]
  omega

theorem Hevc.made_references (p : VideoAccel.Hevc.Picture) (bind : Binding) (size : Nat) :
    ∀ edit ∈ (references p bind size).edits,
      Edit.Made .vdpu34x (.hevc p) bind .references edit := by
  refine Edit.made_references (p.params.length_zip_refs bind) ?_ ?_
    (Edit.made_refTable Hevc.refSetBits (Hevc.refSetFields _ _) rfl rfl)
  · exact fun i hi x => referenceWrites_inZone _ _ hi _ _
  · simp only [List.forall_mem_cons]
    exact ⟨.word (by decide) _, List.forall_mem_nil _⟩

variable {picture : CodedPicture} {bind : Binding}

theorem made_regions (aux : AuxBinding) :
    ∀ edit ∈ regionEdits aux, Edit.Made .vdpu34x picture bind .addresses edit := by
  intro edit hedit
  obtain ⟨⟨id, region⟩, _, hedit⟩ := List.mem_flatMap.1 hedit
  have hindex : id.index < 11 := by cases id <;> decide
  have hzone : ∀ reg, 140 ≤ reg → reg ≤ 161 → Generation.vdpu34x.InZone .regions reg := by
    intro reg hfirst hlast
    simp [Generation.InZone, Generation.zone, hfirst, hlast]
  cases hlocate : aux.locate id with
  | none =>
    simp only [hlocate] at hedit
    cases hedit
  | some place =>
    simp only [hlocate, List.cons_append, List.nil_append, List.mem_cons] at hedit
    obtain rfl | rfl | hedit := hedit
    · exact .region _ (Reg.regionBase + id.index) rfl
        (hzone _ (by simp only [Reg.regionBase]; omega) (by simp only [Reg.regionBase]; omega))
    · exact .region _ (Reg.regionSize + id.index) rfl
        (hzone _ (by simp only [Reg.regionSize]; omega) (by simp only [Reg.regionSize]; omega))
    · obtain ⟨rfl, -⟩ := Edit.mem_patchEdits hedit
      exact .region _ (Reg.regionBase + id.index) rfl
        (hzone _ (by simp only [Reg.regionBase]; omega) (by simp only [Reg.regionBase]; omega))

theorem made_addresses (picture : CodedPicture) (bind : Binding) :
    ∀ edit ∈ addressEdits bind (Generation.vdpu34x.tableBases picture),
      Edit.Made .vdpu34x picture bind .addresses edit := by
  simp only [addressEdits, List.forall_mem_append, List.forall_mem_cons]
  refine ⟨⟨⟨⟨⟨.stream _ ?_, .stream _ ?_, nofun⟩, ?_⟩, ?_⟩, ?_⟩, ?_⟩
  · simp [Generation.InZone, Generation.zone, RegisterWrite.word, Reg.streamBase]
  · simp [Generation.InZone, Generation.zone, RegisterWrite.word, Reg.outputBase]
  · intro edit hedit
    obtain ⟨i, r, hi, hr, rfl⟩ := mem_mapIdx_take.1 hedit
    exact .refBase i r hr hi
  · split
    · exact nofun
    · rename_i motion hmotion
      exact fun edit hedit => .motion edit motion hmotion hedit rfl
  · exact Edit.made_tableBases
  · split
    · exact nofun
    · exact made_regions _

theorem made_geometry (mode : UInt32) :
    ∀ edit ∈ geometryEdits bind mode, Edit.Made .vdpu34x picture bind .geometry edit := by
  have hpatch : ∀ reg offset edit, Generation.vdpu34x.InZone .geometry reg →
      edit ∈ patchEdits reg offset → Edit.Made .vdpu34x picture bind .geometry edit := by
    intro reg offset edit hreg hedit
    obtain ⟨rfl, -⟩ := Edit.mem_patchEdits hedit
    exact .geometry _ reg rfl hreg
  have hcompressed : ∀ edit ∈ compressedEdits bind.output,
      Edit.Made .vdpu34x picture bind .geometry edit := by
    unfold compressedEdits
    split
    · simp only [List.forall_mem_append, List.forall_mem_cons]
      exact ⟨⟨.geometry _ Reg.importantEnable rfl (by decide),
        .geometry _ Reg.compressedHeaderStride rfl (by decide),
        .geometry _ Reg.compressedPayloadBase rfl (by decide), nofun⟩,
        fun edit hedit => hpatch _ _ edit (by decide) hedit⟩
    · exact nofun
  have hthumbnail : ∀ edit ∈ thumbnailEdits bind.output,
      Edit.Made .vdpu34x picture bind .geometry edit := by
    unfold thumbnailEdits
    split
    · simp only [List.forall_mem_append, List.forall_mem_cons]
      exact ⟨⟨.geometry _ Reg.importantEnable rfl (by decide),
        .geometry _ Reg.thumbnailBase rfl (by decide), nofun⟩,
        fun edit hedit => hpatch _ _ edit (by decide) hedit⟩
    · exact nofun
  simp only [geometryEdits, List.forall_mem_append, List.forall_mem_cons]
  exact ⟨⟨⟨⟨.geometry _ Reg.decodeMode rfl (by decide),
    .geometry _ Reg.streamLength rfl (by decide),
    .geometry _ Reg.timeoutThreshold rfl (by decide),
    .geometry _ Reg.lumaRowStride rfl (by decide), .geometry _ Reg.chromaRowStride rfl (by decide),
    .geometry _ Reg.lumaStride rfl (by decide), .geometry _ Reg.importantEnable rfl (by decide),
    .geometry _ Reg.importantEnable rfl (by decide),
    .geometry _ Reg.importantEnable rfl (by decide), nofun⟩, hcompressed⟩, hthumbnail⟩,
    .geometry _ Reg.performanceControl rfl (by decide),
    .geometry _ Reg.decodeEnable rfl (by decide), nofun⟩

end Vdpu34x

theorem Generation.made_of_mem (g : Generation) (picture : CodedPicture) (bind : Binding)
    (size : Nat) (step : GenerationStep) :
    ∀ edit ∈ (g.stepResult picture bind size step).edits, Edit.Made g picture bind step edit := by
  cases picture with
  | avc p =>
    cases g with
    | rkv =>
      cases step with
      | parameters => exact Edit.made_avcParameters rfl
      | references => exact Rkv.Avc.made_references p bind size
      | tables => exact Edit.made_avcScaling
      | addresses => exact Rkv.made_addresses (.avc p) bind
      | geometry => exact Rkv.made_geometry _ _
    | vdpu34x =>
      cases step with
      | parameters => exact Edit.made_avcParameters rfl
      | references => exact Vdpu34x.Avc.made_references p bind size
      | tables => exact Edit.made_avcScaling
      | addresses => exact Vdpu34x.made_addresses (.avc p) bind
      | geometry => exact Vdpu34x.made_geometry _
  | hevc p =>
    cases g with
    | rkv =>
      cases step with
      | parameters => exact Edit.made_hevcParameters
      | references => exact Rkv.Hevc.made_references p bind size
      | tables => exact Edit.made_hevcScaling
      | addresses => exact Rkv.made_addresses (.hevc p) bind
      | geometry => exact Rkv.made_geometry _ _
    | vdpu34x =>
      cases step with
      | parameters => exact Edit.made_hevcParameters
      | references => exact Vdpu34x.Hevc.made_references p bind size
      | tables => exact Edit.made_hevcScaling
      | addresses => exact Vdpu34x.made_addresses (.hevc p) bind
      | geometry => exact Vdpu34x.made_geometry _

namespace Generation

theorem inZone_refBases (g : Generation) {i : Nat} (hi : i < 16) :
    g.InZone .refBases (g.refBase + i) := by
  cases g <;>
    simp [InZone, zone, refBase, Rkv.Reg.refBase, Vdpu34x.Reg.refBase] <;> omega

theorem inZone_motion {motion : MotionBinding} {edit : Edit}
    (h : edit ∈ Vdpu34x.motionEdits motion) {reg : Nat} (hreg : edit.reg? = some reg) :
    vdpu34x.InZone .motion reg := by
  obtain rfl | ⟨i, handle, hi, -, rfl⟩ := Edit.mem_motionEdits h
  · obtain rfl : Vdpu34x.Reg.motionCurrentBase = reg := Option.some.inj hreg
    decide
  · obtain rfl : Vdpu34x.Reg.motionRefBase + i = reg := Option.some.inj hreg
    simp [InZone, zone, Vdpu34x.Reg.motionRefBase]
    omega

theorem inZone_tables {g : Generation} {picture : CodedPicture} {reg offset : Nat}
    (h : (reg, offset) ∈ g.tableBases picture) : g.InZone .tables reg := by
  have hzone : ∀ bases : List (Nat × Nat), (∀ x ∈ bases, g.InZone .tables x.1) →
      (reg, offset) ∈ bases → g.InZone .tables reg := fun _ hall hmem => hall _ hmem
  refine hzone _ ?_ h
  cases g <;> cases picture <;>
    simp only [tableBases, Rkv.Avc.tableBases, Rkv.Hevc.tableBases, Vdpu34x.Avc.tableBases,
      Vdpu34x.Hevc.tableBases] <;>
    split <;> decide

end Generation

def Edit.OfZone (g : Generation) (picture : CodedPicture) (bind : Binding) (step : GenerationStep)
    (edit : Edit) : RegisterZone → Prop
  | .references => step = .references
  | .refBases => ∃ i r, i < 16 ∧ bind.refs[i]? = some r ∧
      edit = .register (.word (g.refBase + i) r.frame.handle)
  | .motion => ∃ motion, bind.motion = some motion ∧ edit ∈ Vdpu34x.motionEdits motion
  | .tables => ∃ reg offset, (reg, offset) ∈ g.tableBases picture ∧
      (edit = .register (.word reg bind.tables) ∨ edit ∈ patchEdits reg offset)
  | .stream | .regions | .geometry => True

theorem Edit.Made.ofZone {g : Generation} {picture : CodedPicture} {bind : Binding}
    {step : GenerationStep} {edit : Edit} {reg : Nat} {z : RegisterZone}
    (h : Made g picture bind step edit) (hreg : edit.reg? = some reg) (hzone : g.InZone z reg) :
    edit.OfZone g picture bind step z := by
  cases h with
  | header | refTable | scaling => cases hreg
  | reference w h =>
    cases hreg
    obtain rfl := hzone.unique h
    rfl
  | stream w h =>
    cases hreg
    obtain rfl := hzone.unique h
    trivial
  | refBase i r hr hi =>
    cases hreg
    obtain rfl := hzone.unique (g.inZone_refBases hi)
    exact ⟨i, r, hi, hr, rfl⟩
  | motion _ motion hmotion h hg =>
    subst hg
    obtain rfl := hzone.unique (Generation.inZone_motion h hreg)
    exact ⟨motion, hmotion, h⟩
  | tableBase base offset h =>
    cases hreg
    obtain rfl := hzone.unique (Generation.inZone_tables h)
    exact ⟨base, offset, h, .inl rfl⟩
  | tablePatch base offset _ h hedit =>
    obtain ⟨rfl, -⟩ := mem_patchEdits hedit
    cases hreg
    obtain rfl := hzone.unique (Generation.inZone_tables h)
    exact ⟨base, offset, h, .inr hedit⟩
  | region _ _ hreg' h | geometry _ _ hreg' h =>
    obtain rfl := Option.some.inj (hreg.symm.trans hreg')
    obtain rfl := hzone.unique h
    trivial

end VideoAccel
