import VideoAccel.Proofs.Backend.Buffers
import VideoAccel.Proofs.Header.ReferenceSets
import VideoAccel.Proofs.Platform.Bench
import VideoAccel.Proofs.Reference.Resolution
import VideoAccel.Proofs.Strategy.Parts
import VideoAccel.Proofs.Strategy.ReferenceRegisters

namespace VideoAccel

variable {σ Pic : Type}

/-- Hardware that uses motion vector stores has one for the slot of every reference. -/
theorem Engine.bindMotion_store {device : Device σ} {strategy : Strategy Pic} {picture : Pic}
    {t : Task} {refs : List ResolvedRef} {e e' : Engine σ} {motion : Option MotionBinding}
    (hsize : (strategy.motionStoreSize picture).isSome = true)
    (h : e.bindMotion device strategy picture t refs = (.ok motion, e')) {r : ResolvedRef}
    (hr : r ∈ refs) :
    motion = some (motionBinding t refs e'.backend.motion) ∧
      ∃ store, e'.backend.motion.stores[r.slot]? = some store := by
  obtain ⟨hnone, -⟩ | ⟨-, hmotion, hstores⟩ := bindMotion_ok h
  · rw [hnone] at hsize
    cases hsize
  · have hlt : r.slot < storesNeeded t refs e.frames := lt_storesNeeded (.inr ⟨r, hr, rfl⟩) e.frames
    exact ⟨hmotion, _, List.getElem?_eq_getElem (Nat.lt_of_lt_of_le hlt hstores)⟩

namespace Generation

def bindMotion (g : Generation) (device : Device σ) (picture : CodedPicture) (t : Task)
    (refs : List ResolvedRef) (e : Engine σ) :
    Except BackendError (Option MotionBinding) × Engine σ :=
  match picture with
  | .avc p => e.bindMotion device g.avc p t refs
  | .hevc p => e.bindMotion device g.hevc p t refs

variable {g : Generation} {picture : CodedPicture} {bind : Binding} {steps : List GenerationStep}
  {e e' : Emission} {i : Nat} {entry : ReferenceEntry} {r : ResolvedRef}

theorem bindMotion_store {device : Device σ} {t : Task} {refs : List ResolvedRef}
    {e₁ e₂ : Engine σ} {motion : Option MotionBinding}
    (h : vdpu34x.bindMotion device picture t refs e₁ = (.ok motion, e₂)) (hr : r ∈ refs) :
    motion = some (Engine.motionBinding t refs e₂.backend.motion) ∧
      ∃ store, e₂.backend.motion.stores[r.slot]? = some store := by
  cases picture with
  | avc p =>
    change e₁.bindMotion device Vdpu34x.Avc.strategy p t refs = (.ok motion, e₂) at h
    exact Engine.bindMotion_store rfl h hr
  | hevc p =>
    change e₁.bindMotion device Vdpu34x.Hevc.strategy p t refs = (.ok motion, e₂) at h
    exact Engine.bindMotion_store rfl h hr

theorem exists_of_packRegion {capacity size offset : Nat} {fields : List BitField}
    (h : (StepResult.ofExcept (packRegion capacity fields size offset)).failure = none) :
    ∃ bytes, packRegion capacity fields size offset = .ok [.table offset bytes] := by
  cases hpacked : packRegion capacity fields size offset with
  | error failure =>
    rw [hpacked] at h
    cases h
  | ok edits =>
    obtain ⟨bytes, rfl, -⟩ := packRegion_eq_ok hpacked
    exact ⟨bytes, rfl⟩

/-- What is packed for the references of a picture is in the table buffer at the end. -/
theorem read_refTable (hrun : g.runSteps picture bind steps e = (.ok (), e'))
    (hstep : .references ∈ steps) (capacity : Nat) (fields : List BitField) {offset : Nat}
    {writes : List RegisterWrite}
    (h : g.stepResult picture bind e.tables.size .references =
      (StepResult.ofExcept (packRegion capacity fields e.tables.size offset)).after
        (writes.map .register)) :
    ∃ bytes, packRegion capacity fields e.tables.size offset = .ok [.table offset bytes] ∧
      e'.tables.read offset bytes.length = bytes := by
  have hfailure := (of_runSteps_ok hrun hstep).1
  rw [h] at hfailure
  obtain ⟨bytes, hbytes⟩ := exists_of_packRegion hfailure
  refine ⟨bytes, hbytes, read_of_runSteps hrun hstep ?_⟩
  rw [h, hbytes]
  exact List.mem_append_right _ (List.mem_singleton_self _)

/-- The reference picture set marks a reference as missing exactly if a list names it and its frame
is a substitute. -/
theorem testBit_readMissing {p : Hevc.Picture}
    (hrun : g.runSteps (.hevc p) bind steps e = (.ok (), e')) (hstep : .references ∈ steps)
    (hi : i < Hevc.maxRefs) (hr : bind.refs[i]? = some r) :
    (Hevc.readMissing e'.tables).testBit i = true ↔
      (∃ list ∈ p.params.refLists, ∃ index, some index ∈ list ∧ index.toNat = i) ∧
        r.valid = false := by
  have hmissing : Hevc.readMissing e'.tables = Hevc.missingBits p.params bind.refs := by
    cases g with
    | rkv | vdpu34x =>
      obtain ⟨bytes, hstored, hread⟩ := read_refTable hrun hstep Hevc.refSetBits
        (Hevc.refSetFields p.params bind.refs) rfl
      exact Hevc.readMissing_of_stored hstored hread
  rw [hmissing, Hevc.testBit_missingBits hi, Hevc.isMissing, hr]
  simp [Option.any_eq_true]

section

variable {p : Avc.Picture} {wraps : List Int}
  (hwraps : ((p.params.refs.toList.zip bind.refs).mapM fun (r, _) => p.params.frameNumWrap r) =
    .ok wraps)

include hwraps

theorem exists_wrap_of_mapM {frame : Avc.RefFrame} (hframe : p.params.refs.toList[i]? = some frame)
    (hr : bind.refs[i]? = some r) :
    ∃ wrap, ((p.params.refs.toList.zip bind.refs).zip wraps)[i]? = some ((frame, r), wrap) := by
  have hentry : (p.params.refs.toList.zip bind.refs)[i]? = some (frame, r) :=
    List.getElem?_zip_eq_some.2 ⟨hframe, hr⟩
  have hi : i < wraps.length := by
    rw [length_of_mapM_ok hwraps]
    exact (List.getElem?_eq_some_iff.1 hentry).1
  exact ⟨wraps[i], List.getElem?_zip_eq_some.2 ⟨hentry, List.getElem?_eq_getElem hi⟩⟩

theorem wrap_of_mem_zip {frame : Avc.RefFrame} {wrap : Int}
    (h : ((frame, r), wrap) ∈ (p.params.refs.toList.zip bind.refs).zip wraps) :
    p.params.frameNumWrap frame = .ok wrap :=
  (List.forall₂_iff_zip.1 (forall₂_of_mapM_ok hwraps)).2 h

end

/-- The reference set of H.264 has an entry for each reference, with its frame number. -/
theorem readEntry_of_runSteps {p : Avc.Picture}
    (hrun : vdpu34x.runSteps (.avc p) bind steps e = (.ok (), e')) (hstep : .references ∈ steps)
    (hlength : bind.refs.length = Avc.maxRefs) {frame : Avc.RefFrame}
    (hframe : p.params.refs.toList[i]? = some frame) (hr : bind.refs[i]? = some r) :
    ∃ wrap, p.params.frameNumWrap frame = .ok wrap ∧
      Vdpu34x.Avc.readEntry e'.tables i =
        (Vdpu34x.Avc.refEntryFields frame r.valid wrap).map BitField.value := by
  have hfailure := (of_runSteps_ok hrun hstep).1
  simp only [stepResult, avc, Vdpu34x.Avc.strategy, Vdpu34x.Avc.step, Vdpu34x.Avc.references]
    at hfailure
  split at hfailure
  · cases hfailure
  rename_i wraps hwraps
  have hentries : (p.params.refs.toList.zip bind.refs).length = Avc.maxRefs := by
    rw [List.length_zip, Vector.length_toList, hlength, Nat.min_self]
  have hall : ((p.params.refs.toList.zip bind.refs).zip wraps).length = Avc.maxRefs := by
    rw [List.length_zip, length_of_mapM_ok hwraps, Nat.min_self, hentries]
  obtain ⟨bytes, hstored, hread⟩ := read_refTable hrun hstep
    (Vdpu34x.Avc.refEntryBits * Avc.maxRefs)
    (Vdpu34x.Avc.refSetFields ((p.params.refs.toList.zip bind.refs).zip wraps)) (by
      simp only [stepResult, avc, Vdpu34x.Avc.strategy, Vdpu34x.Avc.step,
        Vdpu34x.Avc.references, hwraps]
      rfl)
  obtain ⟨wrap, hentry⟩ := exists_wrap_of_mapM hwraps hframe hr
  have hwrap := wrap_of_mem_zip hwraps (List.mem_of_getElem? hentry)
  exact ⟨wrap, hwrap, Vdpu34x.Avc.readEntry_of_stored hall hstored hread hentry⟩

theorem readValid_of_runSteps {p : Avc.Picture}
    (hrun : vdpu34x.runSteps (.avc p) bind steps e = (.ok (), e')) (hstep : .references ∈ steps)
    (hlength : bind.refs.length = Avc.maxRefs) (hr : bind.refs[i]? = some r) :
    Vdpu34x.Avc.readValid e'.tables i = r.valid := by
  have hi : i < p.params.refs.toList.length := by
    rw [Vector.length_toList, ← hlength]
    exact (List.getElem?_eq_some_iff.1 hr).1
  obtain ⟨wrap, -, hentry⟩ :=
    readEntry_of_runSteps hrun hstep hlength (List.getElem?_eq_getElem hi) hr
  exact Vdpu34x.Avc.readValid_of_entry hentry

end Generation

/-- What the hardware is told about reference `i` of a picture, as a whole: `r` is the resolved
entry for it, and it counts as real exactly if the picture names a slot with a frame. -/
structure ReferenceShown (g : Generation) (picture : CodedPicture) (bind : Binding)
    (table : FrameTable) (e : Emission) (i : Nat) (entry : ReferenceEntry) (r : ResolvedRef) :
    Prop where
  real : r.valid = true ↔ entry.IsReal table
  slot : r.valid = true → entry.slot = some r.slot
  frame : table.frame? r.slot = some r.frame ∨ r.slot = bind.outputSlot ∧ r.frame = bind.output
  address : e.image.get? (g.refBase + i) = some r.frame.handle
  invalid : e.image.bit? (g.refInfo + i / 4) (i % 4 * 8 + Generation.invalidBit) = some !r.valid
  used : ∀ k ∈ g.usedBits, e.image.bit? (g.refInfo + i / 4) (i % 4 * 8 + k) = some true →
    r.valid = true
  orderCounts : ∀ c ∈ OrderCount.ofStandard picture.standard,
    e.image.get? (g.orderCountReg picture.standard c i) =
      some (if r.valid then entry.orderCount c else picture.orderCount c).toUInt32
  validMask : g = .vdpu34x → e.image.bit? Vdpu34x.Reg.refValidMask i = some true → r.valid = true
  sameMask : g = .vdpu34x →
    e.image.bit? Vdpu34x.Reg.refSameAsCurrentMask i = some (r.slot == bind.outputSlot)
  refSet : g = .vdpu34x → picture.standard = .avc →
    Vdpu34x.Avc.readValid e.tables i = r.valid
  missing : ∀ p, picture = .hevc p → ((Hevc.readMissing e.tables).testBit i = true ↔
    (∃ list ∈ p.params.refLists, ∃ index, some index ∈ list ∧ index.toNat = i) ∧ r.valid = false)
  motion : g = .vdpu34x → ∀ {σ : Type} (device : Device σ) (t : Task) (e₁ e₂ : Engine σ),
    g.bindMotion device picture t bind.refs e₁ = (.ok bind.motion, e₂) →
      ∃ store, e₂.backend.motion.stores[r.slot]? = some store ∧
        e.image.get? (Vdpu34x.Reg.motionRefBase + i) = some store.handle

namespace Generation

variable {g : Generation} {picture : CodedPicture} {bind : Binding} {steps : List GenerationStep}
  {e e' : Emission} {table : FrameTable} {i : Nat} {entry : ReferenceEntry}

theorem length_referenceSlots (g : Generation) (picture : CodedPicture) :
    (g.referenceSlots picture).length = picture.references.length := by
  cases g <;> cases picture <;> simp [referenceSlots, CodedPicture.references, avc, hevc,
    Rkv.Avc.strategy, Rkv.Hevc.strategy, Vdpu34x.Avc.strategy, Vdpu34x.Hevc.strategy,
    Avc.Params.referenceSlots, Hevc.Params.referenceSlots]

/-- After the steps for the references and the addresses on a blank image, everything that the
hardware is told about a reference agrees on whether it is real. -/
theorem reference_shown (himage : e.image = g.blankImage)
    (hrefs : bind.refs =
      resolveReferences (g.referenceSlots picture) table bind.output bind.outputSlot)
    (hrun : g.runSteps picture bind steps e = (.ok (), e'))
    (hreferences : .references ∈ steps) (haddresses : .addresses ∈ steps)
    (hentry : picture.references[i]? = some entry) :
    ∃ r, bind.refs[i]? = some r ∧ ReferenceShown g picture bind table e' i entry r := by
  obtain ⟨r, hr, hreal, hslot, hframe⟩ :=
    getElem?_resolveReferences hrefs (g.getElem?_referenceSlots hentry)
  have hi : i < 16 :=
    Nat.lt_of_lt_of_le (List.getElem?_eq_some_iff.1 hentry).1 picture.length_references
  refine ⟨r, hr, ?_, ?_, hframe, get?_refBase himage hrun haddresses hi hr,
    bit?_invalid himage hrun hreferences hi hentry hr, fun k hk => ?_, fun c hc => ?_, ?_, ?_, ?_,
    ?_, ?_⟩
  · rw [hreal, ReferenceEntry.IsReal]
    cases entry.nonExisting <;> simp
  · intro hvalid
    have hkept := hslot hvalid
    split at hkept
    · cases hkept
    · exact hkept
  · exact valid_of_bit?_used himage hrun hreferences hi hr hk
  · exact get?_orderCountReg himage hrun hreferences hi hentry hr hc
  · rintro rfl
    exact valid_of_bit?_validMask himage hrun hreferences hi hr
  · rintro rfl
    exact bit?_sameMask himage hrun hreferences hi hentry hr
  · rintro rfl havc
    have hlength : bind.refs.length = picture.references.length := by
      rw [hrefs, length_resolveReferences, length_referenceSlots]
    cases picture with
    | avc p =>
      refine readValid_of_runSteps hrun hreferences ?_ hr
      rw [hlength, CodedPicture.references, List.length_map, Vector.length_toList]
    | hevc p => cases havc
  · rintro p rfl
    have hlt := (List.getElem?_eq_some_iff.1 hentry).1
    rw [CodedPicture.references, List.length_map, Vector.length_toList] at hlt
    exact testBit_readMissing hrun hreferences hlt hr
  · rintro rfl σ device t e₁ e₂ hbind
    obtain ⟨hmotion, store, hstore⟩ := bindMotion_store hbind (List.mem_of_getElem? hr)
    refine ⟨store, hstore, get?_motionRefBase himage hrun haddresses hmotion hi ?_⟩
    simp [Engine.motionBinding, MotionPool.handle?, hr, hstore]

/-- The second reference names an empty slot, so the frame of the first one stands in for it. -/
theorem reference_shown_substitute :
    let refs : Vector Avc.RefFrame Avc.maxRefs :=
      (Vector.replicate 16 {}).set 0 { slot := some 1, topPoc := 4, bottomPoc := 5 }
    let picture : CodedPicture :=
      .avc { params := { topPoc := 8, bottomPoc := 9, refs := refs.set 1 { slot := some 7 } } }
    let resolved := resolveReferences (vdpu34x.referenceSlots picture) Bench.frames {} 0
    let start := (Bench.start .vdpu34x).2
    let bound := vdpu34x.bindMotion Bench.device picture (Bench.task 0) resolved start
    let bind : Binding :=
      { output := {}, refs := resolved
        motion := some (Engine.motionBinding (Bench.task 0) resolved bound.2.backend.motion) }
    let e : Emission := { image := vdpu34x.blankImage, tables := { handle := 7, size := 4096 } }
    ∃ e' r store, vdpu34x.runSteps picture bind [.references, .addresses] e = (.ok (), e') ∧
      bind.refs[1]? = some r ∧ r.slot = 1 ∧ r.valid = false ∧
      e'.image.get? (vdpu34x.refBase + 1) = some r.frame.handle ∧
      e'.image.bit? (vdpu34x.refInfo + 0) 11 = some true ∧
      e'.image.get? (vdpu34x.orderCountReg .avc .top 1) = some 8 ∧
      bound.2.backend.motion.stores[1]? = some store ∧
      e'.image.get? (Vdpu34x.Reg.motionRefBase + 1) = some store.handle := by
  intro refs picture resolved start bound bind e
  obtain ⟨e', hrun⟩ := exists_of_isOk
    (r := vdpu34x.runSteps picture bind [.references, .addresses] e) (by decide +kernel)
  have himage : e.image = vdpu34x.blankImage := rfl
  have hrefs : bind.refs = resolveReferences (vdpu34x.referenceSlots picture) Bench.frames
      bind.output bind.outputSlot := rfl
  have hentry : picture.references[1]? = some (.ofAvc { slot := some 7 }) := rfl
  obtain ⟨r, hr, hshown⟩ := reference_shown himage hrefs hrun (by decide) (by decide) hentry
  have hresolved : (bind.refs[1]?).map (fun r => (r.slot, r.valid)) = some (1, false) := by decide
  rw [hr] at hresolved
  obtain ⟨hslot, hvalid⟩ := Prod.mk.inj (Option.some.inj hresolved)
  obtain ⟨motion, hmotion⟩ := eq_ok_of_isOk (r := bound) (by decide +kernel)
  have hbound : vdpu34x.bindMotion Bench.device picture (Bench.task 0) resolved start = bound := rfl
  -- what was computed is known by equations now; its terms are too large to be unfolded again
  clear_value bound start resolved
  have hbind := (bindMotion_store (hbound.trans hmotion) (List.mem_of_getElem? hr)).1
  rw [hbind] at hmotion
  obtain ⟨store, hstore, hbase⟩ :=
    hshown.motion rfl Bench.device (Bench.task 0) start bound.2 (hbound.trans hmotion)
  have hcount := hshown.orderCounts .top (by decide)
  have hinvalid := hshown.invalid
  rw [hvalid] at hcount hinvalid
  rw [hslot] at hstore
  exact ⟨e', r, store, hrun, hr, hslot, hvalid, hshown.address, hinvalid, hcount, hstore, hbase⟩

end Generation

end VideoAccel
