import VideoAccel.Proofs.Strategy.Parts
import VideoAccel.Proofs.Strategy.Writes

namespace VideoAccel

def CodedPicture.scalingFlag : CodedPicture → Bool
  | .avc p => p.scaling.isSome
  | .hevc p => p.params.scalingListEnabledFlag

namespace Generation

def scalingBase : Generation → Nat
  | .rkv => Rkv.Reg.scalingBase
  | .vdpu34x => Vdpu34x.Reg.scalingBase

/-- The scaling flag as the hardware reads it. -/
def readScalingFlag (g : Generation) (standard : CodingStandard) (tables : Memory) : Option Int :=
  match standard with
  | .avc => (g.readParameters .avc tables .pictureSet)[14]?
  | .hevc => (g.readParameters .hevc tables .sequence)[12]?

/-- The scaling lists are copied into a table buffer of `size` bytes. -/
def CopiesScaling (g : Generation) (picture : CodedPicture) (bind : Binding) (size : Nat) : Prop :=
  ∃ bytes, .table scalingOffset bytes ∈ (g.stepResult picture bind size .tables).edits

/-- The address of the scaling lists is that of the table buffer, with their offset there. -/
def BindsScaling (g : Generation) (bind : Binding) (e : Emission) : Prop :=
  e.image.get? g.scalingBase = some bind.tables ∧
    ⟨g.scalingBase, scalingOffset.toUInt32⟩ ∈ e.patches

variable {g : Generation} {picture : CodedPicture} {bind : Binding} {steps : List GenerationStep}
  {e e' : Emission}

theorem mem_tableBases_scaling (g : Generation) (picture : CodedPicture) (offset : Nat) :
    (g.scalingBase, offset) ∈ g.tableBases picture ↔
      picture.scalingBytes?.isSome = true ∧ offset = scalingOffset := by
  cases g <;> cases picture <;>
    simp [tableBases, scalingBase, Rkv.Avc.tableBases, Rkv.Hevc.tableBases,
      Vdpu34x.Avc.tableBases, Vdpu34x.Hevc.tableBases, CodedPicture.scalingBytes?,
      Rkv.Reg.scalingBase, Rkv.Reg.parameterBase, Rkv.Reg.refSetBase, Vdpu34x.Reg.scalingBase,
      Vdpu34x.Reg.parameterBase, Vdpu34x.Reg.refSetBase]

theorem stepResult_tables {size : Nat} {bytes : List UInt8}
    (h : picture.scalingBytes? = some bytes) :
    g.stepResult picture bind size .tables = .ofExcept (scalingTable bytes size) := by
  cases picture with
  | avc p =>
    obtain ⟨lists, hlists, rfl⟩ := Option.map_eq_some_iff.1 h
    cases g <;> simp [stepResult, avc, Rkv.Avc.strategy, Rkv.Avc.step, Vdpu34x.Avc.strategy,
      Vdpu34x.Avc.step, Avc.scalingEdits, hlists]
  | hevc p =>
    obtain ⟨lists, hlists, rfl⟩ := Option.map_eq_some_iff.1 h
    cases g <;> simp [stepResult, hevc, Rkv.Hevc.strategy, Rkv.Hevc.step, Vdpu34x.Hevc.strategy,
      Vdpu34x.Hevc.step, Hevc.scalingEdits, hlists]

theorem mem_scalingEdits {size : Nat} {bytes : List UInt8}
    (h : picture.scalingBytes? = some bytes)
    (hfailure : (g.stepResult picture bind size .tables).failure = none) :
    .table scalingOffset bytes ∈ (g.stepResult picture bind size .tables).edits := by
  rw [stepResult_tables h, scalingTable] at hfailure ⊢
  split at hfailure <;> rename_i hroom
  · cases hfailure
  · rw [if_neg hroom]
    exact List.mem_cons_self

theorem copiesScaling_iff {size : Nat}
    (hfailure : (g.stepResult picture bind size .tables).failure = none) :
    g.CopiesScaling picture bind size ↔ picture.scalingBytes?.isSome = true := by
  refine ⟨fun ⟨bytes, hmem⟩ => ?_, fun h => ?_⟩
  · have hmade := (g.made_of_mem picture bind size .tables _ hmem).table
    simp only [reduceCtorEq, false_and, false_or, true_and] at hmade
    rw [hmade]
    rfl
  · obtain ⟨bytes, hbytes⟩ := Option.isSome_iff_exists.1 h
    exact ⟨bytes, mem_scalingEdits hbytes hfailure⟩

/-- Writes and patches of a register for the table buffer come from the list of these registers. -/
theorem mem_tableBases_of_made {step : GenerationStep} {edit : Edit} {reg : Nat}
    (h : edit.Made g picture bind step) (hreg : edit.reg? = some reg)
    (hzone : g.InZone .tables reg) : ∃ offset, (reg, offset) ∈ g.tableBases picture ∧
      (edit = .register (.word reg bind.tables) ∨ edit = .patch ⟨reg, offset.toUInt32⟩) := by
  obtain ⟨base, offset, hmem, rfl | hedit⟩ := h.ofZone hreg hzone
  · cases hreg
    exact ⟨offset, hmem, .inl rfl⟩
  · obtain ⟨rfl, -⟩ := Edit.mem_patchEdits hedit
    cases hreg
    exact ⟨offset, hmem, .inr rfl⟩

theorem mem_edits_of_tableBases {reg offset : Nat} (h : (reg, offset) ∈ g.tableBases picture)
    (size : Nat) {edit : Edit}
    (hedit : edit ∈ .register (.word reg bind.tables) :: patchEdits reg offset) :
    edit ∈ (g.stepResult picture bind size .addresses).edits := by
  have hrkv : ∀ tables, (reg, offset) ∈ tables → edit ∈ Rkv.addressEdits bind tables :=
    fun _ h => List.mem_append_right _ (List.mem_flatMap.2 ⟨_, h, hedit⟩)
  have hvdpu : ∀ tables, (reg, offset) ∈ tables → edit ∈ Vdpu34x.addressEdits bind tables :=
    fun _ h => List.mem_append_left _ (List.mem_append_right _ (List.mem_flatMap.2 ⟨_, h, hedit⟩))
  cases g with
  | rkv => cases picture <;> exact hrkv _ h
  | vdpu34x => cases picture <;> exact hvdpu _ h

theorem inZone_scalingBase (g : Generation) : g.InZone .tables g.scalingBase := by
  cases g <;> decide

theorem edit_scalingBase {size : Nat} {edit : Edit}
    (hmem : edit ∈ steps.flatMap fun step => (g.stepResult picture bind size step).edits)
    (hreg : edit.reg? = some g.scalingBase) : picture.scalingBytes?.isSome = true ∧
      (edit = .register (.word g.scalingBase bind.tables) ∨
        edit = .patch ⟨g.scalingBase, scalingOffset.toUInt32⟩) := by
  obtain ⟨step, -, hmem⟩ := List.mem_flatMap.1 hmem
  obtain ⟨offset, htable, hedit⟩ :=
    mem_tableBases_of_made (g.made_of_mem picture bind size step edit hmem) hreg
      g.inZone_scalingBase
  obtain ⟨hsome, rfl⟩ := (mem_tableBases_scaling g picture offset).1 htable
  exact ⟨hsome, hedit⟩

theorem scalingBase_untouched (himage : e.image = g.blankImage) (hpatches : e.patches = [])
    (hrun : g.runSteps picture bind steps e = (.ok (), e'))
    (hnone : ¬ picture.scalingBytes?.isSome = true) :
    e'.image.get? g.scalingBase = some 0 ∧ ∀ p ∈ e'.patches, p.reg ≠ g.scalingBase := by
  constructor
  · refine get?_of_unwritten himage hrun g.inZone_scalingBase fun w hw hreg => ?_
    obtain ⟨step, hstep, hedit⟩ := mem_stepWrites.1 hw
    exact hnone (edit_scalingBase (List.mem_flatMap.2 ⟨step, hstep, hedit⟩) (congrArg some hreg)).1
  · intro p hp hreg
    rw [runSteps_ok hrun] at hp
    obtain hp | hp := (e.mem_applyAll_patches _ p).1 hp
    · rw [hpatches] at hp
      cases hp
    · exact hnone (edit_scalingBase hp (congrArg some hreg)).1

theorem bindsScaling_iff (himage : e.image = g.blankImage) (hpatches : e.patches = [])
    (hrun : g.runSteps picture bind steps e = (.ok (), e')) (hstep : .addresses ∈ steps) :
    g.BindsScaling bind e' ↔ picture.scalingBytes?.isSome = true := by
  refine ⟨fun ⟨_, hpatch⟩ => ?_, fun hsome => ?_⟩
  · exact Decidable.byContradiction fun hnone =>
      (scalingBase_untouched himage hpatches hrun hnone).2 _ hpatch rfl
  have htable := (mem_tableBases_scaling g picture scalingOffset).2 ⟨hsome, rfl⟩
  have hmem : ∀ edit ∈ .register (.word g.scalingBase bind.tables) ::
      patchEdits g.scalingBase scalingOffset,
      edit ∈ (g.stepResult picture bind e.tables.size .addresses).edits := fun edit hedit =>
    mem_edits_of_tableBases htable _ hedit
  constructor
  · refine get?_of_written himage hrun g.inZone_scalingBase (fun w hw hreg => ?_)
      (mem_stepWrites.2 ⟨.addresses, hstep, hmem _ List.mem_cons_self⟩)
    obtain ⟨step, hstep, hedit⟩ := mem_stepWrites.1 hw
    obtain ⟨-, hword | hpatch⟩ :=
      edit_scalingBase (List.mem_flatMap.2 ⟨step, hstep, hedit⟩) (congrArg some hreg)
    · exact Edit.register.inj hword
    · cases hpatch
  · rw [runSteps_ok hrun]
    have hpatch := hmem _ (List.mem_cons_of_mem _ List.mem_cons_self)
    exact (e.mem_applyAll_patches _ _).2
      (.inr (List.mem_flatMap.2 ⟨.addresses, hstep, hpatch⟩))

theorem readScalingFlag_of_runSteps (hrun : g.runSteps picture bind steps e = (.ok (), e'))
    (hstep : .parameters ∈ steps) :
    g.readScalingFlag picture.standard e'.tables = some (picture.scalingFlag.toNat : Int) := by
  obtain ⟨depths, -, -, hread⟩ := readParameters_of_runSteps hrun hstep
  cases picture with
  | avc p =>
    have hmem : ParameterPart.pictureSet ∈ g.parameterOrder .avc := by cases g <;> decide
    have hpart := hread .pictureSet hmem
    simp only [CodedPicture.standard] at hpart ⊢
    rw [readScalingFlag, hpart]
    rfl
  | hevc p =>
    have hmem : ParameterPart.sequence ∈ g.parameterOrder .hevc := by cases g <;> decide
    have hpart := hread .sequence hmem
    simp only [CodedPicture.standard] at hpart ⊢
    rw [readScalingFlag, hpart]
    rfl

theorem announcesScaling_iff (hrun : g.runSteps picture bind steps e = (.ok (), e'))
    (hstep : .parameters ∈ steps) :
    g.readScalingFlag picture.standard e'.tables = some 1 ↔ picture.scalingFlag = true := by
  rw [readScalingFlag_of_runSteps hrun hstep]
  cases picture.scalingFlag <;> decide

/-- The header announces lists, and there are none, only for a stream that enables them and sends
none. -/
theorem scalingFlag_iff (picture : CodedPicture) :
    (picture.scalingFlag = true ↔ picture.scalingBytes?.isSome = true) ↔
      ∀ p, picture = .hevc p → p.params.scalingListEnabledFlag = true →
        p.scaling.isSome = true := by
  cases picture with
  | avc p => simp [CodedPicture.scalingFlag, CodedPicture.scalingBytes?]
  | hevc p =>
    simp only [CodedPicture.scalingFlag, CodedPicture.scalingBytes?, Option.isSome_map,
      Hevc.Picture.activeScaling, CodedPicture.hevc.injEq, forall_eq']
    cases p.params.scalingListEnabledFlag <;> simp

/-- After all steps, the copy of the scaling lists and the binding of their address agree. The
header agrees with them exactly if an H.265 stream that enables scaling lists also sends them. -/
theorem scaling_agrees_iff (himage : e.image = g.blankImage) (hpatches : e.patches = [])
    (hrun : g.runSteps picture bind GenerationStep.all e = (.ok (), e')) :
    let announced := g.readScalingFlag picture.standard e'.tables = some 1
    let copied := g.CopiesScaling picture bind e.tables.size
    let bound := g.BindsScaling bind e'
    (copied ↔ bound) ∧
      ((announced ↔ copied) ↔ ∀ p, picture = .hevc p →
        p.params.scalingListEnabledFlag = true → p.scaling.isSome = true) ∧
      (∀ bytes, picture.scalingBytes? = some bytes →
        e'.tables.read scalingOffset bytes.length = bytes) ∧
      (¬ bound → e'.image.get? g.scalingBase = some 0 ∧
        ∀ p ∈ e'.patches, p.reg ≠ g.scalingBase) := by
  intro announced copied bound
  have hannounced : announced ↔ picture.scalingFlag = true :=
    announcesScaling_iff hrun (by decide)
  have hfailure : (g.stepResult picture bind e.tables.size .tables).failure = none :=
    (of_runSteps_ok hrun (by decide)).1
  have hcopied : copied ↔ picture.scalingBytes?.isSome = true := copiesScaling_iff hfailure
  have hbound : bound ↔ picture.scalingBytes?.isSome = true :=
    bindsScaling_iff himage hpatches hrun (by decide)
  refine ⟨hcopied.trans hbound.symm, ?_, fun bytes hbytes => ?_, fun hnot => ?_⟩
  · rw [hannounced, hcopied]
    exact scalingFlag_iff picture
  · exact read_of_runSteps hrun (by decide) (mem_scalingEdits hbytes hfailure)
  · exact scalingBase_untouched himage hpatches hrun (mt hbound.2 hnot)

/-- Scaling lists that are sent with an H.264 picture are announced, copied and bound. -/
theorem scaling_agrees_iff_avc :
    let e : Emission := { image := vdpu34x.blankImage, tables := { handle := 7, size := 4096 } }
    let picture : CodedPicture := .avc { scaling := some {} }
    let bind : Binding := { output := {}, tables := 7 }
    ∃ e', vdpu34x.runSteps picture bind GenerationStep.all e = (.ok (), e') ∧
      vdpu34x.readScalingFlag picture.standard e'.tables = some 1 ∧
      vdpu34x.CopiesScaling picture bind e.tables.size ∧ vdpu34x.BindsScaling bind e' := by
  intro e picture bind
  obtain ⟨e', hrun⟩ := exists_of_isOk (r := vdpu34x.runSteps picture bind GenerationStep.all e)
    (by decide +kernel)
  have hcopied : vdpu34x.CopiesScaling picture bind e.tables.size :=
    (copiesScaling_iff (of_runSteps_ok hrun (by decide)).1).2 rfl
  have himage : e.image = vdpu34x.blankImage := rfl
  have hpatches : e.patches = [] := rfl
  obtain ⟨hbound, hannounced, -⟩ := scaling_agrees_iff himage hpatches hrun
  have hannounces := (hannounced.2 fun p hp => by simp only [picture, reduceCtorEq] at hp).2 hcopied
  exact ⟨e', hrun, hannounces, hcopied, hbound.1 hcopied⟩

/-- An H.265 stream that enables scaling lists and sends none is announced to have lists which are
neither copied nor bound. -/
theorem announced_without_lists :
    let e : Emission := { image := rkv.blankImage, tables := { handle := 7, size := 4096 } }
    let picture : CodedPicture := .hevc { params := { scalingListEnabledFlag := true } }
    let bind : Binding := { output := {}, tables := 7 }
    ∃ e', rkv.runSteps picture bind GenerationStep.all e = (.ok (), e') ∧
      rkv.readScalingFlag picture.standard e'.tables = some 1 ∧
      ¬ rkv.CopiesScaling picture bind e.tables.size ∧ ¬ rkv.BindsScaling bind e' := by
  intro e picture bind
  obtain ⟨e', hrun⟩ := exists_of_isOk (r := rkv.runSteps picture bind GenerationStep.all e)
    (by decide +kernel)
  have hnone : ¬ picture.scalingBytes?.isSome = true := by decide
  exact ⟨e', hrun, (announcesScaling_iff hrun (by decide)).2 rfl,
    mt (copiesScaling_iff (of_runSteps_ok hrun (by decide)).1).1 hnone,
    mt (bindsScaling_iff rfl rfl hrun (by decide)).1 hnone⟩

end Generation

end VideoAccel
