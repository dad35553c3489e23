import VideoAccel.Proofs.Strategy.ReferenceWrites
import VideoAccel.Proofs.Strategy.Writes

namespace VideoAccel

namespace RegisterWrite

theorem bit?_flag (reg i j : Nat) (flag : Bool) :
    (RegisterWrite.flag reg i flag).bit? reg j = if i = j then some flag else none := by
  simp only [bit?, RegisterWrite.flag, RegisterField.bit, true_and]
  by_cases h : i = j
  · subst h
    rw [if_pos ⟨Nat.le_refl i, Nat.lt_succ_self i⟩, if_pos rfl, Nat.sub_self]
    cases flag <;> rfl
  · rw [if_neg (by omega), if_neg h]

theorem bit?_infoWrite (g : Generation) {i j k : Nat} (value : UInt32) (hk : k < 8) :
    (g.infoWrite j value).bit? (g.refInfo + i / 4) (i % 4 * 8 + k) =
      if i = j then some (hasBit value k) else none := by
  change (if g.refInfo + j / 4 = g.refInfo + i / 4 ∧ j % 4 * 8 ≤ i % 4 * 8 + k ∧
      i % 4 * 8 + k < j % 4 * 8 + 8 then
    some (hasBit value (i % 4 * 8 + k - j % 4 * 8)) else none) = _
  by_cases h : i = j
  · subst h
    rw [if_pos (by omega), if_pos rfl, Nat.add_sub_cancel_left]
  · rw [if_neg (by omega), if_neg h]

end RegisterWrite

namespace Generation

variable {g : Generation} {picture : CodedPicture} {bind : Binding} {steps : List GenerationStep}
  {e e' : Emission} {i : Nat} {entry : ReferenceEntry} {r : ResolvedRef}

theorem get?_refBase (himage : e.image = g.blankImage)
    (hrun : g.runSteps picture bind steps e = (.ok (), e')) (hstep : .addresses ∈ steps)
    (hi : i < 16) (hr : bind.refs[i]? = some r) :
    e'.image.get? (g.refBase + i) = some r.frame.handle := by
  refine get?_of_written himage hrun (g.inZone_refBases hi) ?_ ?_
  · intro w hw hreg
    obtain ⟨step, -, -, j, r', hj, hr', hedit⟩ :=
      ofZone_of_mem hw (hreg ▸ g.inZone_refBases hi)
    cases hedit
    obtain rfl : j = i := Nat.add_left_cancel hreg
    cases hr.symm.trans hr'
    rfl
  · refine mem_stepWrites.2 ⟨.addresses, hstep, ?_⟩
    have hmem : Edit.register (.word (g.refBase + i) r.frame.handle) ∈
        (bind.refs.take 16).mapIdx fun i r => .register (.word (g.refBase + i) r.frame.handle) :=
      mem_mapIdx_take.2 ⟨i, r, hi, hr, rfl⟩
    have hrkv : ∀ tables, g = .rkv → Edit.register (.word (g.refBase + i) r.frame.handle) ∈
        Rkv.addressEdits bind tables := by
      rintro tables rfl
      exact List.mem_append_left _ (List.mem_append_right _ hmem)
    have hvdpu : ∀ tables, g = .vdpu34x → Edit.register (.word (g.refBase + i) r.frame.handle) ∈
        Vdpu34x.addressEdits bind tables := by
      rintro tables rfl
      exact List.mem_append_left _ (List.mem_append_left _ (List.mem_append_left _
        (List.mem_append_right _ hmem)))
    cases g <;> cases picture
    · exact hrkv _ rfl
    · exact hrkv _ rfl
    · exact hvdpu _ rfl
    · exact hvdpu _ rfl

theorem eq_of_motionEdits {motion : MotionBinding} {w w' : RegisterWrite}
    (hw : Edit.register w ∈ Vdpu34x.motionEdits motion)
    (hw' : Edit.register w' ∈ Vdpu34x.motionEdits motion) (hreg : w.reg = w'.reg) : w = w' := by
  obtain hw | ⟨i, handle, -, hhandle, hw⟩ := Edit.mem_motionEdits hw <;>
    obtain hw' | ⟨j, handle', -, hhandle', hw'⟩ := Edit.mem_motionEdits hw' <;>
    cases hw <;> cases hw' <;>
    simp only [RegisterWrite.word, Vdpu34x.Reg.motionCurrentBase, Vdpu34x.Reg.motionRefBase] at hreg
  · rfl
  · omega
  · omega
  · obtain rfl : i = j := Nat.add_left_cancel hreg
    cases hhandle.symm.trans hhandle'
    rfl

/-- A register for motion vector stores holds the handle that is bound to it. -/
theorem get?_of_motionEdits {motion : MotionBinding} {reg : Nat} {handle : UInt32}
    (himage : e.image = vdpu34x.blankImage)
    (hrun : vdpu34x.runSteps picture bind steps e = (.ok (), e')) (hstep : .addresses ∈ steps)
    (hmotion : bind.motion = some motion)
    (hedit : Edit.register (.word reg handle) ∈ Vdpu34x.motionEdits motion) :
    e'.image.get? reg = some handle := by
  have hzone : vdpu34x.InZone .motion reg := inZone_motion hedit rfl
  refine get?_of_written himage hrun hzone ?_ ?_
  · intro w hw hreg
    obtain ⟨step, -, -, motion', hmotion', hedit'⟩ := ofZone_of_mem hw (hreg ▸ hzone)
    cases hmotion.symm.trans hmotion'
    exact eq_of_motionEdits hedit' hedit hreg
  · refine mem_stepWrites.2 ⟨.addresses, hstep, ?_⟩
    have hmem : ∀ tables, Edit.register (.word reg handle) ∈ Vdpu34x.addressEdits bind tables := by
      intro tables
      simp only [Vdpu34x.addressEdits, hmotion]
      exact List.mem_append_left _ (List.mem_append_left _ (List.mem_append_right _ hedit))
    cases picture <;> exact hmem _

/-- The motion vector store of reference `i` is the one bound to it. -/
theorem get?_motionRefBase {motion : MotionBinding} {handle : UInt32}
    (himage : e.image = vdpu34x.blankImage)
    (hrun : vdpu34x.runSteps picture bind steps e = (.ok (), e')) (hstep : .addresses ∈ steps)
    (hmotion : bind.motion = some motion) (hi : i < 16) (hhandle : motion.refs[i]? = some handle) :
    e'.image.get? (Vdpu34x.Reg.motionRefBase + i) = some handle :=
  get?_of_motionEdits himage hrun hstep hmotion
    (List.mem_cons_of_mem _ (mem_mapIdx_take.2 ⟨i, handle, hi, hhandle, rfl⟩))

theorem referenceWrite_of_mem (hrun : g.runSteps picture bind steps e = (.ok (), e'))
    (hstep : .references ∈ steps) {w : RegisterWrite}
    (hw : w ∈ g.stepWrites picture bind e.tables.size steps)
    (hzone : g.InZone .references w.reg) : ReferenceWrite g picture bind w := by
  obtain ⟨step, -, hedit, rfl⟩ := ofZone_of_mem hw hzone
  exact (referencesWritten_of_step (of_runSteps_ok hrun hstep).1).kinds w hedit

theorem entryWrites_of_runSteps (hrun : g.runSteps picture bind steps e = (.ok (), e'))
    (hstep : .references ∈ steps) (hentry : picture.references[i]? = some entry)
    (hr : bind.refs[i]? = some r) :
    ∃ ws, EntryWrites g picture bind i entry r ws ∧
      ∀ w ∈ ws, w ∈ g.stepWrites picture bind e.tables.size steps := by
  obtain ⟨ws, hwrites, hmem⟩ :=
    (referencesWritten_of_step (of_runSteps_ok hrun hstep).1).entries i entry r hentry hr
  exact ⟨ws, hwrites, fun w hw => mem_stepWrites.2 ⟨.references, hstep, hmem w hw⟩⟩

theorem inZone_orderCountReg (g : Generation) (standard : CodingStandard) (c : OrderCount)
    (hi : i < 16) : g.InZone .references (g.orderCountReg standard c i) := by
  cases g <;> cases standard <;> cases c <;>
    simp [InZone, zone, orderCountReg, Rkv.Reg.refPocTop, Rkv.Reg.refPocBottom,
      Vdpu34x.Reg.refPoc] <;>
    omega

theorem inZone_refInfo (g : Generation) (hi : i < 16) :
    g.InZone .references (g.refInfo + i / 4) := by
  have hall : ∀ k < 4, g.InZone .references (g.refInfo + k) := by cases g <;> decide
  exact hall (i / 4) (by omega)

/-- The order counts of reference `i` are its own, or those of the picture for a substitute. -/
theorem get?_orderCountReg (himage : e.image = g.blankImage)
    (hrun : g.runSteps picture bind steps e = (.ok (), e')) (hstep : .references ∈ steps)
    (hi : i < 16) (hentry : picture.references[i]? = some entry) (hr : bind.refs[i]? = some r)
    {c : OrderCount} (hc : c ∈ OrderCount.ofStandard picture.standard) :
    e'.image.get? (g.orderCountReg picture.standard c i) =
      some (if r.valid then entry.orderCount c else picture.orderCount c).toUInt32 := by
  have hzone := g.inZone_orderCountReg picture.standard c hi
  obtain ⟨ws, hwrites, hmem⟩ := entryWrites_of_runSteps hrun hstep hentry hr
  refine get?_of_written himage hrun hzone ?_ (hmem _ (hwrites.orderCount c hc))
  intro w hw hreg
  have hkind := referenceWrite_of_mem hrun hstep hw (hreg ▸ hzone)
  rw [ReferenceWrite, hreg, g.referenceGroup_orderCountReg hi] at hkind
  obtain ⟨j, entry', r', c', hj, hentry', hr', hc', rfl⟩ := hkind
  obtain ⟨rfl, rfl⟩ := orderCountReg_inj hj hi hc' hc hreg
  cases hentry.symm.trans hentry'
  cases hr.symm.trans hr'
  rfl

theorem info_of_mem (hrun : g.runSteps picture bind steps e = (.ok (), e'))
    (hstep : .references ∈ steps) (hi : i < 16) (hr : bind.refs[i]? = some r) {w : RegisterWrite}
    (hw : w ∈ g.stepWrites picture bind e.tables.size steps) (hreg : w.reg = g.refInfo + i / 4) :
    w.field.shift < 32 ∧ ∀ k < 8, ∀ x, w.bit? (g.refInfo + i / 4) (i % 4 * 8 + k) = some x →
      (k = invalidBit → x = !r.valid) ∧ (k ∈ g.usedBits → x = true → r.valid = true) := by
  have hkind := referenceWrite_of_mem hrun hstep hw (hreg ▸ g.inZone_refInfo hi)
  rw [ReferenceWrite, hreg, g.referenceGroup_refInfo hi] at hkind
  obtain ⟨j, r', value, hr', rfl, hinvalid, hused⟩ := hkind
  refine ⟨?_, fun k hk x hx => ?_⟩
  · change j % 4 * 8 < 32
    omega
  · rw [RegisterWrite.bit?_infoWrite g value hk] at hx
    split at hx
    · rename_i hsame
      subst hsame
      cases hr.symm.trans hr'
      obtain rfl := Option.some.inj hx
      exact ⟨fun hk => hk ▸ hinvalid, fun hk => hused k hk⟩
    · cases hx

theorem bit?_invalid (himage : e.image = g.blankImage)
    (hrun : g.runSteps picture bind steps e = (.ok (), e')) (hstep : .references ∈ steps)
    (hi : i < 16) (hentry : picture.references[i]? = some entry) (hr : bind.refs[i]? = some r) :
    e'.image.bit? (g.refInfo + i / 4) (i % 4 * 8 + invalidBit) = some !r.valid := by
  obtain ⟨ws, hwrites, hmem⟩ := entryWrites_of_runSteps hrun hstep hentry hr
  obtain ⟨value, hvalue⟩ := hwrites.info
  rw [image_of_runSteps himage hrun]
  refine RegisterImage.bit?_writeAll_of_written _ (by simp only [invalidBit]; omega)
    (isSome_get?_blankImage (g.inZone_refInfo hi)) (fun w hw hreg => ?_)
    ⟨_, hmem _ hvalue, ?_⟩
  · obtain ⟨hshift, hbits⟩ := info_of_mem hrun hstep hi hr hw hreg
    exact ⟨hshift, fun x hx => (hbits invalidBit (by decide) x hx).1 rfl⟩
  · rw [RegisterWrite.bit?_infoWrite g value (by decide), if_pos rfl]
    rfl

theorem valid_of_bit?_used (himage : e.image = g.blankImage)
    (hrun : g.runSteps picture bind steps e = (.ok (), e')) (hstep : .references ∈ steps)
    (hi : i < 16) (hr : bind.refs[i]? = some r) {k : Nat} (hk : k ∈ g.usedBits)
    (hset : e'.image.bit? (g.refInfo + i / 4) (i % 4 * 8 + k) = some true) : r.valid = true := by
  have hsmall : ∀ k ∈ g.usedBits, k < 8 := by cases g <;> decide
  have hk8 := hsmall k hk
  obtain ⟨w, hw, hbit⟩ := exists_of_bit?_true himage hrun (by omega)
    (fun w hw hreg => (info_of_mem hrun hstep hi hr hw hreg).1) hset
  have hinfo := info_of_mem hrun hstep hi hr hw (RegisterImage.reg_eq_of_bit? hbit)
  exact (hinfo.2 k hk8 true hbit).2 hk rfl

theorem valid_of_bit?_validMask (himage : e.image = vdpu34x.blankImage)
    (hrun : vdpu34x.runSteps picture bind steps e = (.ok (), e')) (hstep : .references ∈ steps)
    (hi : i < 16) (hr : bind.refs[i]? = some r)
    (hset : e'.image.bit? Vdpu34x.Reg.refValidMask i = some true) : r.valid = true := by
  have hkind : ∀ w ∈ vdpu34x.stepWrites picture bind e.tables.size steps,
      w.reg = Vdpu34x.Reg.refValidMask → ∃ j r flag, j < 16 ∧ bind.refs[j]? = some r ∧
        w = .flag Vdpu34x.Reg.refValidMask j flag ∧ (flag = true → r.valid = true) := by
    intro w hw hreg
    have hwrite := referenceWrite_of_mem hrun hstep hw (hreg ▸ by decide)
    rwa [ReferenceWrite, hreg] at hwrite
  have hshift : ∀ w ∈ vdpu34x.stepWrites picture bind e.tables.size steps,
      w.reg = Vdpu34x.Reg.refValidMask → w.field.shift < 32 := by
    intro w hw hreg
    obtain ⟨j, _, _, hj, _, rfl, _⟩ := hkind w hw hreg
    exact Nat.lt_trans hj (by decide)
  obtain ⟨w, hw, hbit⟩ := exists_of_bit?_true himage hrun (by omega) hshift hset
  obtain ⟨j, r', flag, hj, hr', rfl, hflag⟩ := hkind w hw (RegisterImage.reg_eq_of_bit? hbit)
  rw [RegisterWrite.bit?_flag] at hbit
  split at hbit
  · rename_i hsame
    subst hsame
    cases hr.symm.trans hr'
    exact hflag (Option.some.inj hbit)
  · cases hbit

theorem bit?_sameMask (himage : e.image = vdpu34x.blankImage)
    (hrun : vdpu34x.runSteps picture bind steps e = (.ok (), e')) (hstep : .references ∈ steps)
    (hi : i < 16) (hentry : picture.references[i]? = some entry) (hr : bind.refs[i]? = some r) :
    e'.image.bit? Vdpu34x.Reg.refSameAsCurrentMask i = some (r.slot == bind.outputSlot) := by
  obtain ⟨ws, hwrites, hmem⟩ := entryWrites_of_runSteps hrun hstep hentry hr
  rw [image_of_runSteps himage hrun]
  refine RegisterImage.bit?_writeAll_of_written _ (by omega) (by decide) (fun w hw hreg => ?_)
    ⟨_, hmem _ (hwrites.same rfl), ?_⟩
  · have hwrite := referenceWrite_of_mem hrun hstep hw (hreg ▸ by decide)
    rw [ReferenceWrite, hreg] at hwrite
    obtain ⟨j, r', hj, hr', rfl⟩ := hwrite
    refine ⟨Nat.lt_trans hj (by decide), fun x hx => ?_⟩
    rw [RegisterWrite.bit?_flag] at hx
    split at hx
    · rename_i hsame
      subst hsame
      cases hr.symm.trans hr'
      exact (Option.some.inj hx).symm
    · cases hx
  · rw [RegisterWrite.bit?_flag, if_pos rfl]
    rfl

end Generation

end VideoAccel
