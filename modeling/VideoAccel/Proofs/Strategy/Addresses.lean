import VideoAccel.Proofs.Emission.Addresses

namespace VideoAccel

open Edit

section

variable {g : Generation} {bind : Binding}

theorem Avc.parameterTable_respects (p : Avc.Params) (size capacity : Nat)
    (fields : UInt8 × UInt8 → List BitField) :
    ∀ edit ∈ (Avc.parameterTable p bind size capacity fields).edits, edit.Respects g bind := by
  refine respects_ofExcept fun edits h => ?_
  split at h
  · cases h
  split at h
  · cases h
  · exact respects_packed h

theorem Avc.scalingEdits_respects (picture : Avc.Picture) (size : Nat) :
    ∀ edit ∈ (Avc.scalingEdits picture size).edits, edit.Respects g bind := by
  unfold Avc.scalingEdits
  split
  · exact fun edit hedit => absurd hedit List.not_mem_nil
  · exact respects_ofExcept fun edits h => respects_scaling h

theorem Hevc.parameterTable_respects (p : Hevc.Params) (size : Nat) (parts : List Hevc.HeaderPart) :
    ∀ edit ∈ (Hevc.parameterTable p bind size parts).edits, edit.Respects g bind := by
  refine respects_ofExcept fun edits h => ?_
  split at h
  · cases h
  · exact respects_packed h

theorem Hevc.scalingEdits_respects (picture : Hevc.Picture) (size : Nat) :
    ∀ edit ∈ (Hevc.scalingEdits picture size).edits, edit.Respects g bind := by
  unfold Hevc.scalingEdits
  split
  · exact fun edit hedit => absurd hedit List.not_mem_nil
  · exact respects_ofExcept fun edits h => respects_scaling h

theorem Hevc.refSetTable_respects (p : Hevc.Params) (refs : List ResolvedRef) (size : Nat) :
    ∀ edit ∈ (Hevc.refSetTable p refs size).edits, edit.Respects g bind := by
  refine respects_ofExcept fun edits h => ?_
  split at h
  · cases h
  · exact respects_packed h

/-- The writes for at most `n` references go by the positions of these; others follow. -/
theorem respects_references {α : Type} {l : List α} {f : Nat → α → List RegisterWrite}
    {ws : List RegisterWrite} {r : StepResult} {n : Nat} (hlength : l.length ≤ n)
    (hrefs : ∀ i, i < n → ∀ x, ∀ w ∈ f i x, g.purposeOf? w.reg = none)
    (hws : ∀ w ∈ ws, g.purposeOf? w.reg = none) (hr : ∀ edit ∈ r.edits, Respects g bind edit) :
    ∀ edit ∈ (r.after (((l.mapIdx f).flatten ++ ws).map .register)).edits,
      Respects g bind edit := by
  refine respects_after (List.forall_mem_append.2 ⟨fun w hw => ?_, hws⟩) hr
  obtain ⟨_, hmem, hw⟩ := List.mem_flatten.1 hw
  obtain ⟨i, hi, rfl⟩ := List.mem_mapIdx.1 hmem
  exact hrefs i (Nat.lt_of_lt_of_le hi hlength) l[i] w hw

end

namespace Rkv

variable {bind : Binding}

theorem purposeOf?_eq_none {reg : Nat}
    (h : reg ≠ Reg.parameterBase ∧ reg ≠ Reg.refSetBase ∧ reg ≠ Reg.scalingBase) :
    Generation.rkv.purposeOf? reg = none := by
  simp [Generation.purposeOf?, h]

theorem addressEdits_respects (tables : List (Nat × Nat))
    (htables : ∀ x ∈ tables, Generation.rkv.purposeOf? x.1 = some .tables) :
    ∀ edit ∈ addressEdits bind tables, edit.Respects .rkv bind := by
  simp only [addressEdits, List.forall_mem_append, List.forall_mem_cons]
  refine ⟨⟨⟨respects_of_none rfl, respects_of_none rfl, respects_of_none rfl, nofun⟩, ?_⟩, ?_⟩
  · intro edit hedit
    obtain ⟨i, hi, rfl⟩ := List.mem_mapIdx.1 hedit
    have hlt : i < refRegisters := Nat.lt_of_lt_of_le hi (List.length_take_le _ _)
    refine respects_of_none (purposeOf?_eq_none ?_)
    simp only [RegisterWrite.word, Reg.refBase, Reg.parameterBase, Reg.refSetBase, Reg.scalingBase,
      refRegisters] at hlt ⊢
    omega
  · intro edit hedit
    obtain ⟨x, hx, hedit⟩ := List.mem_flatMap.1 hedit
    obtain rfl | hedit := List.mem_cons.1 hedit
    · exact respects_word (htables x hx) List.mem_cons_self
    · exact respects_patch hedit

theorem mem_addressEdits {tables : List (Nat × Nat)} {x : Nat × Nat} (hx : x ∈ tables) :
    .register (.word x.1 bind.tables) ∈ addressEdits bind tables :=
  List.mem_append_right _ (List.mem_flatMap.2 ⟨x, hx, List.mem_cons_self⟩)

theorem geometryWrites_respects (output : Frame) (mode : UInt32) :
    ∀ edit ∈ (geometryWrites output mode).map Edit.register, edit.Respects .rkv bind := by
  simp only [geometryWrites, List.map_cons, List.map_nil, List.forall_mem_cons]
  refine ⟨?_, ?_, ?_, ?_, ?_, ?_, ?_, nofun⟩ <;> exact respects_of_none rfl

theorem setRefInfo_purposeOf? (i : Nat) (info : RefInfo) :
    Generation.rkv.purposeOf? (setRefInfo i info).reg = none := by
  refine purposeOf?_eq_none ?_
  simp only [setRefInfo, Reg.refInfo, Reg.parameterBase, Reg.refSetBase, Reg.scalingBase]
  omega

namespace Avc

theorem referenceWrites_purposeOf? (p : VideoAccel.Avc.Params) {i : Nat} (hi : i < refRegisters)
    (r : VideoAccel.Avc.RefFrame) (valid : Bool) (wrap : Int) :
    ∀ w ∈ referenceWrites p i r valid wrap, Generation.rkv.purposeOf? w.reg = none := by
  simp only [referenceWrites, List.forall_mem_cons]
  refine ⟨purposeOf?_eq_none ?_, purposeOf?_eq_none ?_, setRefInfo_purposeOf? i _,
    purposeOf?_eq_none ?_, nofun⟩ <;>
    simp only [RegisterWrite.word, setFrameNumWrap, Reg.refPocTop, Reg.refPocBottom,
      Reg.frameNumWrap, Reg.parameterBase, Reg.refSetBase, Reg.scalingBase,
      refRegisters] at hi ⊢ <;>
    omega

theorem references_respects (picture : VideoAccel.Avc.Picture) (size : Nat) :
    ∀ edit ∈ (references picture bind size).edits, edit.Respects .rkv bind := by
  simp only [references]
  split
  · exact fun edit hedit => absurd hedit List.not_mem_nil
  · refine respects_references (n := refRegisters) ?_ ?_ ?_ ?_
    · rw [List.length_zip, List.length_zip, Vector.length_toList]
      exact Nat.le_trans (Nat.min_le_left _ _) (Nat.min_le_left _ _)
    · exact fun i hi _ => referenceWrites_purposeOf? _ hi _ _ _
    · simp only [List.forall_mem_cons]
      exact ⟨rfl, rfl, nofun⟩
    · refine respects_ofExcept fun edits h => ?_
      split at h
      · cases h
      · exact respects_packed h

theorem strategy_respects : Strategy.Respects strategy where
  edits picture bind size step := by
    cases step with
    | parameters => exact Avc.parameterTable_respects _ _ _ _
    | references => exact references_respects picture size
    | tables => exact Avc.scalingEdits_respects _ _
    | addresses =>
      refine addressEdits_respects _ ?_
      simp only [tableBases, List.forall_mem_cons]
      refine ⟨rfl, ?_⟩
      split
      · simp only [List.forall_mem_cons]
        exact ⟨rfl, nofun⟩
      · exact nofun
    | geometry => exact geometryWrites_respects _ _
  tables _ _ _ := mem_addressEdits List.mem_cons_self

end Avc

namespace Hevc

theorem referenceWrites_purposeOf? (p : VideoAccel.Hevc.Params) {i : Nat} (hi : i < refRegisters)
    (r : VideoAccel.Hevc.RefPicture) (valid : Bool) :
    ∀ w ∈ referenceWrites p i r valid, Generation.rkv.purposeOf? w.reg = none := by
  simp only [referenceWrites, List.forall_mem_cons]
  refine ⟨purposeOf?_eq_none ?_, setRefInfo_purposeOf? i _, nofun⟩
  simp only [RegisterWrite.word, Reg.refPocTop, Reg.parameterBase, Reg.refSetBase, Reg.scalingBase,
    refRegisters] at hi ⊢
  omega

theorem references_respects (picture : VideoAccel.Hevc.Picture) (size : Nat) :
    ∀ edit ∈ (references picture bind size).edits, edit.Respects .rkv bind := by
  refine respects_references (n := refRegisters) ?_ ?_ ?_ (Hevc.refSetTable_respects _ _ _)
  · rw [List.length_zip, Vector.length_toList]
    exact Nat.le_trans (Nat.min_le_left _ _) (by decide)
  · exact fun i hi _ => referenceWrites_purposeOf? _ hi _ _
  · simp only [List.forall_mem_cons]
    exact ⟨rfl, nofun⟩

theorem strategy_respects : Strategy.Respects strategy where
  edits picture bind size step := by
    cases step with
    | parameters => exact Hevc.parameterTable_respects _ _ _
    | references => exact references_respects picture size
    | tables => exact Hevc.scalingEdits_respects _ _
    | addresses =>
      refine addressEdits_respects _ ?_
      simp only [tableBases, List.cons_append, List.nil_append, List.forall_mem_cons]
      refine ⟨rfl, rfl, ?_⟩
      split
      · simp only [List.forall_mem_cons]
        exact ⟨rfl, nofun⟩
      · exact nofun
    | geometry => exact geometryWrites_respects _ _
  tables _ _ _ := mem_addressEdits List.mem_cons_self

end Hevc

end Rkv

namespace Vdpu34x

variable {bind : Binding}

theorem purposeOf?_eq (reg : Nat) :
    Generation.vdpu34x.purposeOf? reg =
      if 129 ≤ reg ∧ reg ≤ 131 then some .tables
      else if 140 ≤ reg ∧ reg < 151 then some .auxiliary
      else if reg = 133 ∨ 180 ≤ reg ∧ reg < 196 then some .motionVectors
      else none := rfl

theorem purposeOf?_of_lt {reg : Nat} (h : reg < 129) :
    Generation.vdpu34x.purposeOf? reg = none := by
  rw [purposeOf?_eq, if_neg (by omega), if_neg (by omega), if_neg (by omega)]

theorem purposeOf?_of_between {reg : Nat} (h : 151 ≤ reg) (h' : reg < 180) :
    Generation.vdpu34x.purposeOf? reg = none := by
  rw [purposeOf?_eq, if_neg (by omega), if_neg (by omega), if_neg (by omega)]

theorem purposeOf?_region {i : Nat} (h : i < 11) :
    Generation.vdpu34x.purposeOf? (Reg.regionBase + i) = some .auxiliary := by
  change Generation.vdpu34x.purposeOf? (140 + i) = some .auxiliary
  rw [purposeOf?_eq, if_neg (by omega), if_pos (by omega)]

theorem purposeOf?_motionRef {i : Nat} (h : i < 16) :
    Generation.vdpu34x.purposeOf? (Reg.motionRefBase + i) = some .motionVectors := by
  change Generation.vdpu34x.purposeOf? (180 + i) = some .motionVectors
  rw [purposeOf?_eq, if_neg (by omega), if_neg (by omega), if_pos (by omega)]

theorem motionEdits_respects {motion : MotionBinding} (hbind : bind.motion = some motion) :
    ∀ edit ∈ motionEdits motion, edit.Respects .vdpu34x bind := by
  simp only [motionEdits, List.forall_mem_cons]
  constructor
  · refine respects_word rfl ?_
    simp [Binding.handles, hbind]
  · intro edit hedit
    obtain ⟨i, hi, rfl⟩ := List.mem_mapIdx.1 hedit
    have hlt : i < refRegisters := Nat.lt_of_lt_of_le hi (List.length_take_le _ _)
    refine respects_word (purposeOf?_motionRef hlt) ?_
    have hmem := List.mem_of_mem_take (List.getElem_mem hi)
    simp only [Binding.handles, hbind, Option.toList_some, List.flatMap_cons, List.flatMap_nil,
      List.append_nil]
    exact List.mem_cons_of_mem _ hmem

theorem regionEdits_respects {aux : AuxBinding} (hbind : bind.aux = some aux) :
    ∀ edit ∈ regionEdits aux, edit.Respects .vdpu34x bind := by
  intro edit hedit
  obtain ⟨⟨id, region⟩, _, hedit⟩ := List.mem_flatMap.1 hedit
  have hindex : id.index < 11 := by cases id <;> decide
  cases hlocate : aux.locate id with
  | none =>
    simp only [hlocate] at hedit
    cases hedit
  | some place =>
    simp only [hlocate] at hedit
    have hhandle : place.1 ∈ bind.handles .auxiliary := by
      simp only [Binding.handles, hbind, Option.toList_some, List.flatMap_cons, List.flatMap_nil,
        List.append_nil, List.mem_cons, List.not_mem_nil, or_false]
      unfold AuxBinding.locate at hlocate
      split at hlocate
      · cases hlocate
        exact .inr rfl
      · obtain ⟨region, _, rfl⟩ := Option.map_eq_some_iff.1 hlocate
        exact .inl rfl
    have hsize : Generation.vdpu34x.purposeOf? (Reg.regionSize + id.index) = none := by
      change Generation.vdpu34x.purposeOf? (151 + id.index) = none
      exact purposeOf?_of_between (by omega) (by omega)
    obtain hedit | hedit := List.mem_append.1 hedit
    · obtain rfl | hedit := List.mem_cons.1 hedit
      · exact respects_word (purposeOf?_region hindex) hhandle
      · obtain rfl := List.mem_singleton.1 hedit
        exact respects_of_none hsize
    · exact respects_patch hedit

theorem addressEdits_respects (tables : List (Nat × Nat))
    (htables : ∀ x ∈ tables, Generation.vdpu34x.purposeOf? x.1 = some .tables) :
    ∀ edit ∈ addressEdits bind tables, edit.Respects .vdpu34x bind := by
  simp only [addressEdits, List.forall_mem_append, List.forall_mem_cons]
  refine ⟨⟨⟨⟨⟨respects_of_none rfl, respects_of_none rfl, nofun⟩, ?_⟩, ?_⟩, ?_⟩, ?_⟩
  · intro edit hedit
    obtain ⟨i, hi, rfl⟩ := List.mem_mapIdx.1 hedit
    have hlt : i < refRegisters := Nat.lt_of_lt_of_le hi (List.length_take_le _ _)
    refine respects_of_none (purposeOf?_of_between ?_ ?_) <;>
      simp only [RegisterWrite.word, Reg.refBase, refRegisters] at hlt ⊢ <;> omega
  · split
    · exact nofun
    · rename_i motion hmotion
      exact motionEdits_respects hmotion
  · intro edit hedit
    obtain ⟨x, hx, hedit⟩ := List.mem_flatMap.1 hedit
    obtain rfl | hedit := List.mem_cons.1 hedit
    · exact respects_word (htables x hx) List.mem_cons_self
    · exact respects_patch hedit
  · split
    · exact nofun
    · rename_i aux haux
      exact regionEdits_respects haux

theorem mem_addressEdits {tables : List (Nat × Nat)} {x : Nat × Nat} (hx : x ∈ tables) :
    .register (.word x.1 bind.tables) ∈ addressEdits bind tables :=
  List.mem_append_left _
    (List.mem_append_right _ (List.mem_flatMap.2 ⟨x, hx, List.mem_cons_self⟩))

theorem geometryEdits_respects (mode : UInt32) :
    ∀ edit ∈ geometryEdits bind mode, edit.Respects .vdpu34x bind := by
  have hcompressed : ∀ edit ∈ compressedEdits bind.output, edit.Respects .vdpu34x bind := by
    unfold compressedEdits
    split
    · simp only [List.forall_mem_append, List.forall_mem_cons]
      exact ⟨⟨respects_of_none rfl, respects_of_none rfl, respects_of_none rfl, nofun⟩,
        fun edit hedit => respects_patch hedit⟩
    · exact nofun
  have hthumbnail : ∀ edit ∈ thumbnailEdits bind.output, edit.Respects .vdpu34x bind := by
    unfold thumbnailEdits
    split
    · simp only [List.forall_mem_append, List.forall_mem_cons]
      exact ⟨⟨respects_of_none rfl, respects_of_none rfl, nofun⟩,
        fun edit hedit => respects_patch hedit⟩
    · exact nofun
  simp only [geometryEdits, List.forall_mem_append, List.forall_mem_cons]
  refine ⟨⟨⟨⟨?_, ?_, ?_, ?_, ?_, ?_, ?_, ?_, ?_, nofun⟩, hcompressed⟩, hthumbnail⟩, ?_, ?_, nofun⟩
  all_goals exact respects_of_none rfl

theorem setRefInfo_purposeOf? {i : Nat} (hi : i < refRegisters) (info : RefInfo) :
    ∀ w ∈ setRefInfo i info, Generation.vdpu34x.purposeOf? w.reg = none := by
  have hle : narrow (i / 4) ≤ i / 4 := Nat.mod_le _ _
  simp only [setRefInfo, List.forall_mem_cons]
  refine ⟨purposeOf?_of_lt ?_, rfl, rfl, nofun⟩
  simp only [Reg.refInfo, refRegisters] at hi ⊢
  omega

namespace Avc

theorem referenceWrites_purposeOf? (p : VideoAccel.Avc.Params) (outputSlot : Nat) {i : Nat}
    (hi : i < refRegisters) (r : VideoAccel.Avc.RefFrame) (resolved : ResolvedRef) :
    ∀ w ∈ referenceWrites p outputSlot i r resolved,
      Generation.vdpu34x.purposeOf? w.reg = none := by
  simp only [referenceWrites, List.forall_mem_append, List.forall_mem_cons]
  refine ⟨⟨⟨purposeOf?_of_lt ?_, purposeOf?_of_lt ?_, nofun⟩, setRefInfo_purposeOf? hi _⟩, rfl,
    nofun⟩
  all_goals
    simp only [RegisterWrite.word, Reg.refPoc, refRegisters] at hi ⊢
    omega

theorem references_respects (picture : VideoAccel.Avc.Picture) (size : Nat) :
    ∀ edit ∈ (references picture bind size).edits, edit.Respects .vdpu34x bind := by
  simp only [references]
  split
  · exact fun edit hedit => absurd hedit List.not_mem_nil
  · refine respects_references (n := refRegisters) ?_ ?_ ?_ ?_
    · rw [List.length_zip, Vector.length_toList]
      exact Nat.min_le_left _ _
    · exact fun i hi _ => referenceWrites_purposeOf? _ _ hi _ _
    · simp only [List.forall_mem_cons]
      exact ⟨rfl, rfl, nofun⟩
    · refine respects_ofExcept fun edits h => ?_
      split at h
      · cases h
      · exact respects_packed h

theorem strategy_respects : Strategy.Respects strategy where
  edits picture bind size step := by
    cases step with
    | parameters => exact Avc.parameterTable_respects _ _ _ _
    | references => exact references_respects picture size
    | tables => exact Avc.scalingEdits_respects _ _
    | addresses =>
      refine addressEdits_respects _ ?_
      simp only [tableBases, List.cons_append, List.nil_append, List.forall_mem_cons]
      refine ⟨rfl, rfl, ?_⟩
      split
      · simp only [List.forall_mem_cons]
        exact ⟨rfl, nofun⟩
      · exact nofun
    | geometry => exact geometryEdits_respects _
  tables _ _ _ := mem_addressEdits List.mem_cons_self

end Avc

namespace Hevc

theorem referenceWrites_purposeOf? (p : VideoAccel.Hevc.Params) (outputSlot : Nat) {i : Nat}
    (hi : i < refRegisters) (r : VideoAccel.Hevc.RefPicture) (resolved : ResolvedRef) :
    ∀ w ∈ referenceWrites p outputSlot i r resolved,
      Generation.vdpu34x.purposeOf? w.reg = none := by
  simp only [referenceWrites, List.cons_append, List.forall_mem_append, List.forall_mem_cons]
  refine ⟨purposeOf?_of_lt ?_, setRefInfo_purposeOf? hi _, rfl, nofun⟩
  simp only [RegisterWrite.word, Reg.refPoc, refRegisters] at hi ⊢
  omega

theorem references_respects (picture : VideoAccel.Hevc.Picture) (size : Nat) :
    ∀ edit ∈ (references picture bind size).edits, edit.Respects .vdpu34x bind := by
  refine respects_references (n := refRegisters) ?_ ?_ ?_ (Hevc.refSetTable_respects _ _ _)
  · rw [List.length_zip, Vector.length_toList]
    exact Nat.le_trans (Nat.min_le_left _ _) (by decide)
  · exact fun i hi _ => referenceWrites_purposeOf? _ _ hi _ _
  · simp only [List.forall_mem_cons]
    exact ⟨rfl, nofun⟩

theorem strategy_respects : Strategy.Respects strategy where
  edits picture bind size step := by
    cases step with
    | parameters => exact Hevc.parameterTable_respects _ _ _
    | references => exact references_respects picture size
    | tables => exact Hevc.scalingEdits_respects _ _
    | addresses =>
      refine addressEdits_respects _ ?_
      simp only [tableBases, List.cons_append, List.nil_append, List.forall_mem_cons]
      refine ⟨rfl, rfl, ?_⟩
      split
      · simp only [List.forall_mem_cons]
        exact ⟨rfl, nofun⟩
      · exact nofun
    | geometry => exact geometryEdits_respects _
  tables _ _ _ := mem_addressEdits List.mem_cons_self

end Hevc

end Vdpu34x

theorem Generation.avc_respects (g : Generation) : g.avc.Respects := by
  cases g with
  | rkv => exact Rkv.Avc.strategy_respects
  | vdpu34x => exact Vdpu34x.Avc.strategy_respects

theorem Generation.hevc_respects (g : Generation) : g.hevc.Respects := by
  cases g with
  | rkv => exact Rkv.Hevc.strategy_respects
  | vdpu34x => exact Vdpu34x.Hevc.strategy_respects

end VideoAccel
