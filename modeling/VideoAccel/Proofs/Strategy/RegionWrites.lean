import VideoAccel.Proofs.Auxiliary.Binding
import VideoAccel.Proofs.Strategy.Addresses
import VideoAccel.Proofs.Strategy.Writes

namespace VideoAccel

def Edit.patch? : Edit → Option AddressOffset
  | .patch p => some p
  | _ => none

def addressOffset (patches : List AddressOffset) (reg : Nat) : Nat :=
  ((patches.filter fun p => p.reg == reg).map fun p => p.offset.toNat).sum

structure RegionSpan where
  handle : UInt32
  offset : Nat
  size : Nat
  deriving DecidableEq, Repr

def RegionSpan.stop (s : RegionSpan) : Nat := s.offset + s.size

def Emission.regionSpan? (e : Emission) (id : RegionId) : Option RegionSpan :=
  match e.image.get? (Vdpu34x.Reg.regionBase + id.index),
    e.image.get? (Vdpu34x.Reg.regionSize + id.index) with
  | some handle, some units =>
    some ⟨handle, addressOffset e.patches (Vdpu34x.Reg.regionBase + id.index), units.toNat * 16⟩
  | _, _ => none

namespace Emission

theorem applyAll_patches (e : Emission) (edits : List Edit) :
    (e.applyAll edits).patches = e.patches ++ edits.filterMap Edit.patch? := by
  induction edits generalizing e with
  | nil => exact (List.append_nil _).symm
  | cons edit edits ih =>
    refine (ih (e.apply edit)).trans ?_
    cases edit with
    | register | table => rfl
    | patch p => exact List.append_assoc _ _ _

end Emission

theorem flatMap_eq_of_count_one {α β : Type} [BEq α] [LawfulBEq α] {l : List α} {a : α}
    {f : α → List β} (hcount : l.count a = 1) (h : ∀ x ∈ l, x ≠ a → f x = []) :
    l.flatMap f = f a := by
  induction l with
  | nil => cases hcount
  | cons b l ih =>
    obtain ⟨hb, hrest⟩ := List.forall_mem_cons.1 h
    rw [List.flatMap_cons]
    by_cases heq : b = a
    · subst heq
      rw [List.count_cons_self, Nat.add_eq_right, List.count_eq_zero] at hcount
      rw [List.flatMap_eq_nil_iff.2, List.append_nil]
      exact fun x hx => hrest x hx (ne_of_mem_of_not_mem hx hcount)
    · rw [List.count_cons_of_ne heq] at hcount
      rw [hb heq, List.nil_append]
      exact ih hcount hrest

namespace Edit

def patchesOn (reg : Nat) (edits : List Edit) : List AddressOffset :=
  (edits.filterMap Edit.patch?).filter fun p => p.reg == reg

variable {reg : Nat}

theorem patchesOn_append (edits edits' : List Edit) :
    patchesOn reg (edits ++ edits') = patchesOn reg edits ++ patchesOn reg edits' := by
  simp only [patchesOn, List.filterMap_append, List.filter_append]

theorem patchesOn_flatMap {α : Type} (l : List α) (f : α → List Edit) :
    patchesOn reg (l.flatMap f) = l.flatMap fun x => patchesOn reg (f x) := by
  simp only [patchesOn, List.filterMap_flatMap, List.filter_flatMap]

theorem patchesOn_eq_nil {edits : List Edit} (h : ∀ edit ∈ edits, edit.reg? ≠ some reg) :
    patchesOn reg edits = [] := by
  simp only [patchesOn, List.filter_eq_nil_iff, List.mem_filterMap, beq_iff_eq]
  rintro p ⟨edit, hedit, hp⟩ rfl
  cases edit with
  | register | table => cases hp
  | patch p' =>
    cases hp
    exact h _ hedit rfl

theorem sum_patchEdits {offset : Nat} (h : offset < Nat.pow 2 32) :
    (((patchEdits reg offset).filterMap Edit.patch?).map fun p => p.offset.toNat).sum = offset := by
  simp only [patchEdits]
  split
  · rename_i hzero
    rw [hzero]
    rfl
  · simp only [List.filterMap_cons, Edit.patch?, List.filterMap_nil, List.map_cons, List.map_nil,
      List.sum_cons, List.sum_nil, Nat.add_zero]
    exact Nat.mod_eq_of_lt h

end Edit

theorem RegionId.index_lt (id : RegionId) : id.index < 11 := by
  cases id <;> decide

theorem RegisterImage.contains_of_isSome {image : RegisterImage} {reg : Nat}
    (h : (image.get? reg).isSome = true) : image.contains reg = true := by
  obtain ⟨v, hv⟩ := Option.isSome_iff_exists.1 h
  obtain ⟨b, hb, hget⟩ := List.exists_of_findSome?_eq_some hv
  refine List.any_eq_true.2 ⟨b, hb, ?_⟩
  simp only [RegisterBlock.get?] at hget
  split at hget
  · rename_i hfirst
    obtain ⟨hlt, -⟩ := List.getElem?_eq_some_iff.1 hget
    simp only [RegisterBlock.contains, hfirst, hlt, decide_true, Bool.and_self]
  · cases hget

namespace Vdpu34x

variable {picture : CodedPicture} {bind : Binding} {aux : AuxBinding} {size : Nat}
  {step : GenerationStep} {edit : Edit} {reg : Nat}

theorem inZone_regions : Generation.vdpu34x.InZone .regions reg ↔ 140 ≤ reg ∧ reg ≤ 161 := by
  simp [Generation.InZone, Generation.zone]

theorem inZone_regionBase (id : RegionId) :
    Generation.vdpu34x.InZone .regions (Reg.regionBase + id.index) := by
  have hlt := id.index_lt
  simp only [inZone_regions, Reg.regionBase]
  omega

theorem inZone_regionSize (id : RegionId) :
    Generation.vdpu34x.InZone .regions (Reg.regionSize + id.index) := by
  have hlt := id.index_lt
  simp only [inZone_regions, Reg.regionSize]
  omega

theorem mem_regionEdits :
    edit ∈ regionEdits aux ↔ ∃ x ∈ aux.layout.regions, ∃ handle offset,
      aux.locate x.1 = some (handle, offset) ∧
        (edit = .register (.word (Reg.regionBase + x.1.index) handle) ∨
          edit = .register (.word (Reg.regionSize + x.1.index) (x.2.size / 16).toUInt32) ∨
          edit ∈ patchEdits (Reg.regionBase + x.1.index) offset) := by
  simp only [regionEdits, List.mem_flatMap]
  refine exists_congr fun x => and_congr_right fun _ => ?_
  cases hlocate : aux.locate x.1 with
  | none => simp
  | some place =>
    simp only [List.cons_append, List.nil_append, List.mem_cons, Option.some.injEq]
    exact ⟨fun h => ⟨_, _, rfl, h⟩, fun ⟨_, _, hplace, h⟩ => by cases hplace; exact h⟩

/-- The region edits come last in the address step, and no other one is about their registers. -/
theorem exists_addressEdits (picture : CodedPicture) (haux : bind.aux = some aux) :
    ∃ others, addressEdits bind (Generation.vdpu34x.tableBases picture) =
        others ++ regionEdits aux ∧
      ∀ edit ∈ others, ∀ reg, edit.reg? = some reg →
        ¬ Generation.vdpu34x.InZone .regions reg := by
  have hstream : ∀ {w : RegisterWrite}, Generation.vdpu34x.InZone .stream w.reg →
      ∀ reg, (Edit.register w).reg? = some reg → ¬ Generation.vdpu34x.InZone .regions reg := by
    rintro w hw _ ⟨⟩ hzone
    cases hzone.unique hw
  simp only [addressEdits, haux]
  refine ⟨_, rfl, ?_⟩
  simp only [List.forall_mem_append, List.forall_mem_cons]
  refine ⟨⟨⟨⟨hstream (.word (by decide) _), hstream (.word (by decide) _),
    List.forall_mem_nil _⟩, ?_⟩, ?_⟩, ?_⟩
  · intro edit hedit reg hreg hzone
    obtain ⟨i, r, hi, -, rfl⟩ := mem_mapIdx_take.1 hedit
    cases hreg
    cases hzone.unique (Generation.vdpu34x.inZone_refBases hi)
  · split
    · exact List.forall_mem_nil _
    · intro edit hedit reg hreg hzone
      cases hzone.unique (Generation.inZone_motion hedit hreg)
  · intro edit hedit reg hreg hzone
    obtain ⟨⟨base, offset⟩, hbase, hedit⟩ := List.mem_flatMap.1 hedit
    have hbase : reg = base := by
      obtain rfl | hedit := List.mem_cons.1 hedit
      · cases hreg
        rfl
      · obtain ⟨rfl, -⟩ := Edit.mem_patchEdits hedit
        cases hreg
        rfl
    subst hbase
    cases hzone.unique (Generation.inZone_tables hbase)

theorem stepResult_addresses (picture : CodedPicture) (bind : Binding) (size : Nat) :
    (Generation.vdpu34x.stepResult picture bind size .addresses).edits =
      addressEdits bind (Generation.vdpu34x.tableBases picture) := by
  cases picture <;> rfl

theorem step_eq_addresses (hedit : edit ∈
      (Generation.vdpu34x.stepResult picture bind size step).edits)
    (hreg : edit.reg? = some reg) (hzone : Generation.vdpu34x.InZone .regions reg) :
    step = .addresses := by
  cases Generation.made_of_mem _ _ _ _ _ edit hedit with
  | header | refTable | scaling => cases hreg
  | reference _ h =>
    cases hreg
    cases hzone.unique h
  | geometry _ _ hreg' h =>
    cases hreg.symm.trans hreg'
    cases hzone.unique h
  | stream | refBase | motion | tableBase | tablePatch | region => rfl

theorem mem_regionEdits_of_zone (haux : bind.aux = some aux)
    (hedit : edit ∈ (Generation.vdpu34x.stepResult picture bind size step).edits)
    (hreg : edit.reg? = some reg) (hzone : Generation.vdpu34x.InZone .regions reg) :
    edit ∈ regionEdits aux := by
  obtain rfl := step_eq_addresses hedit hreg hzone
  obtain ⟨others, heq, hothers⟩ := exists_addressEdits picture haux
  rw [stepResult_addresses, heq] at hedit
  obtain hedit | hedit := List.mem_append.1 hedit
  · exact absurd hzone (hothers edit hedit reg hreg)
  · exact hedit

theorem patchesOn_regionEdits (h : aux.layout.Separate) {x : RegionId × Region}
    (hx : x ∈ aux.layout.regions) {handle : UInt32} {offset : Nat}
    (hlocate : aux.locate x.1 = some (handle, offset)) :
    Edit.patchesOn (Reg.regionBase + x.1.index) (regionEdits aux) =
      (patchEdits (Reg.regionBase + x.1.index) offset).filterMap Edit.patch? := by
  have hcount : aux.layout.regions.count x = 1 := by
    refine List.count_eq_one_of_mem ?_ hx
    apply h.ascending.imp
    rintro y _ hlt rfl
    exact Nat.lt_irrefl _ hlt
  rw [regionEdits, Edit.patchesOn_flatMap, flatMap_eq_of_count_one hcount]
  · simp only [hlocate, patchEdits]
    split
    · rfl
    · simp only [Edit.patchesOn, List.cons_append, List.nil_append, List.filterMap_cons,
        Edit.patch?, List.filterMap_nil, List.filter_cons, beq_self_eq_true, if_true,
        List.filter_nil]
  · intro y hy hne
    refine Edit.patchesOn_eq_nil fun edit hedit hreg => hne ?_
    have hindex : y.1 = x.1 := by
      have hlt := x.1.index_lt
      cases hplace : aux.locate y.1 with
      | none =>
        simp only [hplace] at hedit
        cases hedit
      | some place =>
        simp only [hplace, List.cons_append, List.nil_append, List.mem_cons] at hedit
        obtain rfl | rfl | hedit := hedit
        · exact RegionId.index_injective (Nat.add_left_cancel (Option.some.inj hreg))
        · have heq : 151 + y.1.index = 140 + x.1.index := Option.some.inj hreg
          omega
        · obtain ⟨rfl, -⟩ := Edit.mem_patchEdits hedit
          exact RegionId.index_injective (Nat.add_left_cancel (Option.some.inj hreg))
    have hregion := (h.region?_of_mem hy).symm.trans (hindex ▸ h.region?_of_mem hx)
    exact Prod.ext hindex (Option.some.inj hregion)

section

variable {steps : List GenerationStep} {e e' : Emission} {x : RegionId × Region} {handle : UInt32}
  {offset : Nat}

/-- The base register of a region gets the handle of its memory, and the size register its size. -/
theorem regionWrites (haux : bind.aux = some aux) (hsep : aux.layout.Separate)
    (hx : x ∈ aux.layout.regions) (hlocate : aux.locate x.1 = some (handle, offset))
    {w : RegisterWrite}
    (hw : w ∈ Generation.vdpu34x.stepWrites picture bind size steps) :
    (w.reg = Reg.regionBase + x.1.index → w = .word (Reg.regionBase + x.1.index) handle) ∧
      (w.reg = Reg.regionSize + x.1.index →
        w = .word (Reg.regionSize + x.1.index) (x.2.size / 16).toUInt32) := by
  have hlt := x.1.index_lt
  obtain ⟨step, hstep, hedit⟩ := Generation.mem_stepWrites.1 hw
  have hregion : Generation.vdpu34x.InZone .regions w.reg → ∃ y ∈ aux.layout.regions,
      ∃ handle offset, aux.locate y.1 = some (handle, offset) ∧
        (w = .word (Reg.regionBase + y.1.index) handle ∨
          w = .word (Reg.regionSize + y.1.index) (y.2.size / 16).toUInt32) := by
    intro hzone
    obtain ⟨y, hy, handle, offset, hplace, h | h | h⟩ :=
      mem_regionEdits.1 (mem_regionEdits_of_zone haux hedit rfl hzone)
    · exact ⟨y, hy, handle, offset, hplace, .inl (Edit.register.inj h)⟩
    · exact ⟨y, hy, handle, offset, hplace, .inr (Edit.register.inj h)⟩
    · cases (Edit.mem_patchEdits h).1
  constructor
  · intro hreg
    obtain ⟨y, hy, handle', offset', hplace, rfl | rfl⟩ :=
      hregion (hreg ▸ inZone_regionBase x.1)
    · have hindex : y.1 = x.1 := RegionId.index_injective (Nat.add_left_cancel hreg)
      rw [hindex, hlocate] at hplace
      cases hplace
      rw [hindex]
    · have heq : 151 + y.1.index = 140 + x.1.index := hreg
      omega
  · intro hreg
    obtain ⟨y, hy, handle', offset', hplace, rfl | rfl⟩ :=
      hregion (hreg ▸ inZone_regionSize x.1)
    · have heq : 140 + y.1.index = 151 + x.1.index := hreg
      have hlt := y.1.index_lt
      omega
    · have hindex : y.1 = x.1 := RegionId.index_injective (Nat.add_left_cancel hreg)
      have hregion := (hsep.region?_of_mem hy).symm.trans (hindex ▸ hsep.region?_of_mem hx)
      rw [hindex, Option.some.inj hregion]

theorem mem_stepWrites_of_regionEdits (haux : bind.aux = some aux) (hstep : .addresses ∈ steps)
    {w : RegisterWrite} (hw : .register w ∈ regionEdits aux) :
    w ∈ Generation.vdpu34x.stepWrites picture bind size steps := by
  obtain ⟨others, heq, -⟩ := exists_addressEdits picture haux
  refine Generation.mem_stepWrites.2 ⟨_, hstep, ?_⟩
  rw [stepResult_addresses, heq]
  exact List.mem_append_right others hw

/-- The base register of a region holds the handle of the memory that the region is located in. -/
theorem get?_regionBase (haux : bind.aux = some aux) (hsep : aux.layout.Separate)
    (hx : x ∈ aux.layout.regions) (hlocate : aux.locate x.1 = some (handle, offset))
    (himage : e.image = Generation.vdpu34x.blankImage) (hstep : .addresses ∈ steps)
    (hrun : Generation.vdpu34x.runSteps picture bind steps e = (.ok (), e')) :
    e'.image.get? (Reg.regionBase + x.1.index) = some handle :=
  Generation.get?_of_written himage hrun (inZone_regionBase x.1)
    (fun _ hw => (regionWrites haux hsep hx hlocate hw).1)
    (mem_stepWrites_of_regionEdits haux hstep
      (mem_regionEdits.2 ⟨x, hx, handle, offset, hlocate, .inl rfl⟩))

/-- A register for the addresses of regions is blank, or it holds the handle of the memory that some
region is located in. -/
theorem eq_zero_or_located (haux : bind.aux = some aux) (hsep : aux.layout.Separate)
    (himage : e.image = Generation.vdpu34x.blankImage)
    (hrun : Generation.vdpu34x.runSteps picture bind steps e = (.ok (), e'))
    (hpurpose : Generation.vdpu34x.purposeOf? reg = some .auxiliary)
    (hget : e'.image.get? reg = some handle) :
    handle = 0 ∨ ∃ x ∈ aux.layout.regions, ∃ offset, aux.locate x.1 = some (handle, offset) := by
  have hbase : 140 ≤ reg ∧ reg < 151 := by
    rw [purposeOf?_eq] at hpurpose
    split at hpurpose
    · cases hpurpose
    split at hpurpose
    · assumption
    split at hpurpose <;> cases hpurpose
  have hzone : Generation.vdpu34x.InZone .regions reg := inZone_regions.2 (by omega)
  by_cases hwritten :
      ∃ w ∈ Generation.vdpu34x.stepWrites picture bind e.tables.size steps, w.reg = reg
  · obtain ⟨w, hw, rfl⟩ := hwritten
    obtain ⟨step, hstep, hedit⟩ := Generation.mem_stepWrites.1 hw
    obtain rfl := step_eq_addresses hedit rfl hzone
    obtain ⟨y, hy, handle', offset, hlocate, h | h | h⟩ :=
      mem_regionEdits.1 (mem_regionEdits_of_zone haux hedit rfl hzone)
    · cases h
      have hholds := get?_regionBase haux hsep hy hlocate himage hstep hrun
      obtain rfl := Option.some.inj (hget.symm.trans hholds)
      exact .inr ⟨y, hy, offset, hlocate⟩
    · cases h
      simp only [RegisterWrite.word, Reg.regionSize] at hbase
      omega
    · cases (Edit.mem_patchEdits h).1
  · have hblank := Generation.get?_of_unwritten himage hrun hzone fun w hw hreg =>
      hwritten ⟨w, hw, hreg⟩
    exact .inl (Option.some.inj (hget.symm.trans hblank))

/-- The hardware finds a region of the layout where it is located, with its size. -/
theorem regionSpan?_of_runSteps (haux : bind.aux = some aux) (hsep : aux.layout.Separate)
    (hx : x ∈ aux.layout.regions) (hlocate : aux.locate x.1 = some (handle, offset))
    (hsize : x.2.size < Nat.pow 2 32) (hdvd : 16 ∣ x.2.size) (hoffset : offset < Nat.pow 2 32)
    (himage : e.image = Generation.vdpu34x.blankImage) (hpatches : e.patches = [])
    (hcount : steps.count .addresses = 1)
    (hrun : Generation.vdpu34x.runSteps picture bind steps e = (.ok (), e')) :
    e'.regionSpan? x.1 = some ⟨handle, offset, x.2.size⟩ := by
  have hstep : GenerationStep.addresses ∈ steps := List.count_pos_iff.1 (hcount ▸ Nat.one_pos)
  obtain ⟨others, heq, hothers⟩ := exists_addressEdits picture haux
  have hbase := get?_regionBase haux hsep hx hlocate himage hstep hrun
  have hunits : e'.image.get? (Reg.regionSize + x.1.index) =
      some (x.2.size / 16).toUInt32 :=
    Generation.get?_of_written himage hrun (inZone_regionSize x.1)
      (fun _ hw => (regionWrites haux hsep hx hlocate hw).2)
      (mem_stepWrites_of_regionEdits haux hstep
        (mem_regionEdits.2 ⟨x, hx, handle, offset, hlocate, .inr (.inl rfl)⟩))
  have hadded : addressOffset e'.patches (Reg.regionBase + x.1.index) = offset := by
    have hon : (e'.patches.filter fun p => p.reg == Reg.regionBase + x.1.index) =
        (patchEdits (Reg.regionBase + x.1.index) offset).filterMap Edit.patch? := by
      rw [Generation.runSteps_ok hrun, Emission.applyAll_patches, hpatches, List.nil_append]
      change Edit.patchesOn _ _ = _
      rw [Edit.patchesOn_flatMap, flatMap_eq_of_count_one hcount, stepResult_addresses, heq,
        Edit.patchesOn_append, Edit.patchesOn_eq_nil, List.nil_append,
        patchesOn_regionEdits hsep hx hlocate]
      · exact fun edit hedit hreg => hothers edit hedit _ hreg (inZone_regionBase x.1)
      · exact fun step _ hne => Edit.patchesOn_eq_nil fun edit hedit hreg =>
          hne (step_eq_addresses hedit hreg (inZone_regionBase x.1))
    rw [addressOffset, hon, Edit.sum_patchEdits hoffset]
  have hexact : (x.2.size / 16).toUInt32.toNat * 16 = x.2.size := by
    rw [Nat.toUInt32, UInt32.toNat_ofNat_of_lt', Nat.div_mul_cancel hdvd]
    exact Nat.lt_of_le_of_lt (Nat.div_le_self _ _) hsize
  simp only [Emission.regionSpan?, hbase, hunits, hadded, hexact]

theorem fits_word {z : RegisterZone} (himage : e.image = Generation.vdpu34x.blankImage)
    (hzone : Generation.vdpu34x.InZone z reg) (value : UInt32) :
    e.fits (.register (.word reg value)) = true := by
  have hcontains := RegisterImage.contains_of_isSome (Generation.isSome_get?_blankImage hzone)
  simp only [Emission.fits, RegisterImage.fits, RegisterWrite.word, himage, hcontains,
    RegisterField.word]
  rfl

theorem fits_patch {offset : Nat} (e : Emission) (h : edit ∈ patchEdits reg offset) :
    e.fits edit = true := by
  obtain ⟨rfl, -⟩ := Edit.mem_patchEdits h
  rfl

theorem fits_addressEdits (picture : CodedPicture) (bind : Binding)
    (himage : e.image = Generation.vdpu34x.blankImage) :
    ∀ edit ∈ addressEdits bind (Generation.vdpu34x.tableBases picture), e.fits edit = true := by
  simp only [addressEdits, List.forall_mem_append, List.forall_mem_cons]
  refine ⟨⟨⟨⟨⟨fits_word (z := .stream) himage (by decide) _,
    fits_word (z := .stream) himage (by decide) _, List.forall_mem_nil _⟩, ?_⟩, ?_⟩, ?_⟩, ?_⟩
  · intro edit hedit
    obtain ⟨i, r, hi, -, rfl⟩ := mem_mapIdx_take.1 hedit
    exact fits_word himage (Generation.vdpu34x.inZone_refBases hi) _
  · split
    · exact List.forall_mem_nil _
    · intro edit hedit
      have hzone : ∀ reg, edit.reg? = some reg → Generation.vdpu34x.InZone .motion reg :=
        fun reg => Generation.inZone_motion hedit
      obtain rfl | ⟨i, handle, -, -, rfl⟩ := Edit.mem_motionEdits hedit
      · exact fits_word himage (hzone _ rfl) _
      · exact fits_word himage (hzone _ rfl) _
  · intro edit hedit
    obtain ⟨⟨base, offset⟩, hbase, hedit⟩ := List.mem_flatMap.1 hedit
    obtain rfl | hedit := List.mem_cons.1 hedit
    · exact fits_word himage (Generation.inZone_tables hbase) _
    · exact fits_patch e hedit
  · split
    · exact List.forall_mem_nil _
    · intro edit hedit
      obtain ⟨x, -, handle, offset, -, rfl | rfl | hedit⟩ := mem_regionEdits.1 hedit
      · exact fits_word himage (inZone_regionBase x.1) _
      · exact fits_word himage (inZone_regionSize x.1) _
      · exact fits_patch e hedit

theorem runSteps_addresses (himage : e.image = Generation.vdpu34x.blankImage) :
    ∃ e', Generation.vdpu34x.runSteps picture bind [.addresses] e = (.ok (), e') := by
  have hall := fits_addressEdits picture bind himage
  rw [← stepResult_addresses picture bind e.tables.size, ← List.all_eq_true] at hall
  have hfailure :
      (Generation.vdpu34x.stepResult picture bind e.tables.size .addresses).failure = none := by
    cases picture <;> rfl
  rw [Generation.runSteps_singleton, Emission.run, if_pos hall, hfailure]
  exact ⟨_, rfl⟩

end

end Vdpu34x

end VideoAccel
