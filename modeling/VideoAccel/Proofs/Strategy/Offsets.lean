import VideoAccel.Proofs.Batch.Loading
import VideoAccel.Proofs.Strategy.Addresses
import VideoAccel.Proofs.Strategy.Regions

namespace VideoAccel

/-- A place in a memory, and the register that tells the hardware about it. -/
structure BaseAddress where
  reg : Nat
  handle : UInt32
  offset : Nat
  deriving DecidableEq, Repr

def BaseAddress.patch? (a : BaseAddress) : Option AddressOffset :=
  if a.offset = 0 then none else some ⟨a.reg, a.offset.toUInt32⟩

def BaseAddress.edits (a : BaseAddress) : List Edit :=
  .register (.word a.reg a.handle) :: patchEdits a.reg a.offset

theorem BaseAddress.filterMap_patchEdits (a : BaseAddress) :
    (patchEdits a.reg a.offset).filterMap Edit.patch? = a.patch?.toList := by
  simp only [patchEdits, patch?]
  by_cases hzero : a.offset = 0
  · rw [if_pos hzero, if_pos hzero]
    rfl
  · rw [if_neg hzero, if_neg hzero]
    rfl

theorem BaseAddress.filterMap_flatMap_edits (addresses : List BaseAddress) :
    (addresses.flatMap edits).filterMap Edit.patch? = addresses.filterMap patch? := by
  rw [List.filterMap_flatMap, List.filterMap_eq_flatMap_toList]
  refine congrArg (addresses.flatMap ·) ?_
  funext a
  exact a.filterMap_patchEdits

theorem BaseAddress.eq_of_patch? {a : BaseAddress} {p : AddressOffset} (h : a.patch? = some p) :
    a.offset ≠ 0 ∧ p = ⟨a.reg, a.offset.toUInt32⟩ := by
  simp only [patch?] at h
  split at h
  · cases h
  · exact ⟨‹_›, (Option.some.inj h).symm⟩

theorem BaseAddress.patch?_eq_some {a : BaseAddress} (hlt : a.offset < Nat.pow 2 32)
    {p : AddressOffset} :
    a.patch? = some p ↔ a.offset ≠ 0 ∧ p.reg = a.reg ∧ p.offset.toNat = a.offset := by
  have hoffset : a.offset.toUInt32.toNat = a.offset := Nat.mod_eq_of_lt hlt
  simp only [patch?]
  by_cases hzero : a.offset = 0
  · rw [if_pos hzero]
    exact iff_of_false nofun fun h => h.1 hzero
  · rw [if_neg hzero, Option.some.injEq]
    constructor
    · rintro rfl
      exact ⟨hzero, rfl, hoffset⟩
    · rintro ⟨-, hreg, hp⟩
      obtain ⟨reg, offset⟩ := p
      obtain rfl : reg = a.reg := hreg
      obtain rfl : offset = a.offset.toUInt32 := UInt32.toNat_inj.1 (hp.trans hoffset.symm)
      rfl

namespace Vdpu34x

def regionAddresses (aux : AuxBinding) : List BaseAddress :=
  aux.layout.regions.filterMap fun x =>
    (aux.locate x.1).map fun place => ⟨Reg.regionBase + x.1.index, place.1, place.2⟩

def outputAddresses (output : Frame) : List BaseAddress :=
  (if output.layout = .compressed then
    [⟨Reg.compressedPayloadBase, output.handle, headerSize output⟩] else [])
  ++ if output.thumbnail = .downscale then
    [⟨Reg.thumbnailBase, output.handle, output.pictureSize⟩] else []

end Vdpu34x

namespace Generation

def tableAddresses (g : Generation) (picture : CodedPicture) (bind : Binding) : List BaseAddress :=
  (g.tableBases picture).map fun x => ⟨x.1, bind.tables, x.2⟩

def stepAddresses (g : Generation) (picture : CodedPicture) (bind : Binding) :
    GenerationStep → List BaseAddress
  | .addresses =>
    g.tableAddresses picture bind ++
      match g, bind.aux with
      | .vdpu34x, some aux => Vdpu34x.regionAddresses aux
      | _, _ => []
  | .geometry =>
    match g with
    | .rkv => []
    | .vdpu34x => Vdpu34x.outputAddresses bind.output
  | .parameters | .references | .tables => []

def baseAddresses (g : Generation) (picture : CodedPicture) (bind : Binding) : List BaseAddress :=
  GenerationStep.all.flatMap (g.stepAddresses picture bind)

end Generation

/-- The batch adds an offset for each address that needs one and for nothing else, at most one to a
register, and tells the hardware the handle that the offset counts from. -/
structure Batch.Anchors (addresses : List BaseAddress) (b : Batch) : Prop where
  unique : (b.addressOffsets.map fun p => p.reg).Nodup
  nonzero : ∀ p ∈ b.addressOffsets, p.offset ≠ 0
  offsets : ∀ p, p ∈ b.addressOffsets ↔
    ∃ a ∈ addresses, a.offset ≠ 0 ∧ p.reg = a.reg ∧ p.offset.toNat = a.offset
  handles : ∀ a ∈ addresses, ∃ op ∈ b, op.word? a.reg = some a.handle

theorem BaseAddress.filterMap_tableEdits (bind : Binding) (tables : List (Nat × Nat)) :
    (tables.flatMap fun x => Edit.register (.word x.1 bind.tables) :: patchEdits x.1 x.2).filterMap
        Edit.patch? =
      (tables.map fun x => (⟨x.1, bind.tables, x.2⟩ : BaseAddress)).filterMap patch? := by
  rw [← filterMap_flatMap_edits, List.flatMap_map]
  rfl

section

variable {g : Generation} {picture : CodedPicture} {bind : Binding} {size : Nat}
  {step : GenerationStep} {steps : List GenerationStep}

theorem Edit.filterMap_patch?_eq_nil {edits : List Edit}
    (h : ∀ edit ∈ edits, edit.patch? = none) : edits.filterMap Edit.patch? = [] :=
  List.filterMap_eq_nil_iff.2 h

theorem filterMap_refEdits (refs : List ResolvedRef) (base count : Nat) :
    ((refs.take count).mapIdx fun i r =>
      Edit.register (.word (base + i) r.frame.handle)).filterMap Edit.patch? = [] := by
  refine Edit.filterMap_patch?_eq_nil fun edit hedit => ?_
  obtain ⟨i, r, -, -, rfl⟩ := mem_mapIdx_take.1 hedit
  rfl

theorem Rkv.filterMap_addressEdits (bind : Binding) (tables : List (Nat × Nat)) :
    (addressEdits bind tables).filterMap Edit.patch? =
      (tables.map fun x => (⟨x.1, bind.tables, x.2⟩ : BaseAddress)).filterMap
        BaseAddress.patch? := by
  simp only [addressEdits, List.filterMap_append, filterMap_refEdits]
  exact BaseAddress.filterMap_tableEdits bind tables

namespace Vdpu34x

theorem filterMap_motionEdits (motion : MotionBinding) :
    (motionEdits motion).filterMap Edit.patch? = [] := by
  refine Edit.filterMap_patch?_eq_nil fun edit hedit => ?_
  obtain rfl | ⟨i, handle, -, -, rfl⟩ := Edit.mem_motionEdits hedit <;> rfl

theorem filterMap_regionEdits (aux : AuxBinding) :
    (regionEdits aux).filterMap Edit.patch? =
      (regionAddresses aux).filterMap BaseAddress.patch? := by
  rw [regionEdits, regionAddresses, List.filterMap_flatMap, List.filterMap_filterMap,
    List.filterMap_eq_flatMap_toList]
  refine congrArg (aux.layout.regions.flatMap ·) ?_
  funext entry
  obtain ⟨id, region⟩ := entry
  cases hplace : aux.locate id with
  | none =>
    simp only [hplace]
    rfl
  | some place =>
    simp only [hplace]
    exact BaseAddress.filterMap_patchEdits ⟨Reg.regionBase + id.index, place.1, place.2⟩

theorem filterMap_outputEdits (output : Frame) :
    (compressedEdits output ++ thumbnailEdits output).filterMap Edit.patch? =
      (outputAddresses output).filterMap BaseAddress.patch? := by
  simp only [compressedEdits, thumbnailEdits, outputAddresses, List.filterMap_append]
  refine congrArg₂ (· ++ ·) ?_ ?_
  · by_cases hcompressed : output.layout = .compressed
    · rw [if_pos hcompressed, if_pos hcompressed, List.filterMap_append,
        BaseAddress.filterMap_patchEdits ⟨_, output.handle, _⟩, List.filterMap_eq_flatMap_toList]
      rfl
    · rw [if_neg hcompressed, if_neg hcompressed]
      rfl
  · by_cases hthumbnail : output.thumbnail = .downscale
    · rw [if_pos hthumbnail, if_pos hthumbnail, List.filterMap_append,
        BaseAddress.filterMap_patchEdits ⟨_, output.handle, _⟩, List.filterMap_eq_flatMap_toList]
      rfl
    · rw [if_neg hthumbnail, if_neg hthumbnail]
      rfl

end Vdpu34x

theorem Generation.filterMap_stepResult (g : Generation) (picture : CodedPicture) (bind : Binding)
    (size : Nat) (step : GenerationStep) :
    (g.stepResult picture bind size step).edits.filterMap Edit.patch? =
      (g.stepAddresses picture bind step).filterMap BaseAddress.patch? := by
  have hnone : ∀ step, step ≠ .addresses → step ≠ .geometry →
      (g.stepResult picture bind size step).edits.filterMap Edit.patch? = [] := by
    intro step haddresses hgeometry
    refine Edit.filterMap_patch?_eq_nil fun edit hedit => ?_
    cases g.made_of_mem picture bind size step edit hedit with
    | header | refTable | scaling | reference => rfl
    | stream | refBase | motion | tableBase | tablePatch | region => exact absurd rfl haddresses
    | geometry => exact absurd rfl hgeometry
  cases step with
  | parameters | references | tables => exact hnone _ nofun nofun
  | addresses =>
    cases g with
    | rkv =>
      have hedits : (rkv.stepResult picture bind size .addresses).edits =
          Rkv.addressEdits bind (rkv.tableBases picture) := by
        cases picture <;> rfl
      rw [hedits, Rkv.filterMap_addressEdits]
      exact congrArg _ (List.append_nil _).symm
    | vdpu34x =>
      rw [Vdpu34x.stepResult_addresses]
      simp only [Vdpu34x.addressEdits, List.filterMap_append, filterMap_refEdits, stepAddresses]
      rw [BaseAddress.filterMap_tableEdits]
      refine congrArg₂ (· ++ ·) ?_ ?_
      · cases bind.motion with
        | none => rfl
        | some motion => simp [Vdpu34x.filterMap_motionEdits, tableAddresses, Edit.patch?]
      · cases bind.aux with
        | none => rfl
        | some aux => exact Vdpu34x.filterMap_regionEdits aux
  | geometry =>
    cases g with
    | rkv => cases picture <;> rfl
    | vdpu34x =>
      have hedits : ∃ mode, (vdpu34x.stepResult picture bind size .geometry).edits =
          Vdpu34x.geometryEdits bind mode := by
        cases picture
        · exact ⟨_, rfl⟩
        · exact ⟨_, rfl⟩
      obtain ⟨mode, hedits⟩ := hedits
      rw [hedits, stepAddresses, ← Vdpu34x.filterMap_outputEdits, Vdpu34x.geometryEdits]
      simp only [List.filterMap_append]
      exact List.append_nil _

namespace Vdpu34x

variable {aux : AuxBinding} {output : Frame} {a : BaseAddress}

theorem mem_regionAddresses : a ∈ regionAddresses aux ↔ ∃ x ∈ aux.layout.regions,
    aux.locate x.1 = some (a.handle, a.offset) ∧ a.reg = Reg.regionBase + x.1.index := by
  simp only [regionAddresses, List.mem_filterMap, Option.map_eq_some_iff]
  refine exists_congr fun x => and_congr_right fun _ => ?_
  constructor
  · rintro ⟨place, hplace, rfl⟩
    exact ⟨hplace, rfl⟩
  · rintro ⟨hplace, hreg⟩
    refine ⟨_, hplace, ?_⟩
    rw [← hreg]

theorem pairwise_regionAddresses (h : aux.layout.Separate) :
    (regionAddresses aux).Pairwise fun a a' => a.reg ≠ a'.reg := by
  apply h.ascending.filterMap
  intro x y hlt a ha a' ha'
  obtain ⟨place, -, rfl⟩ := Option.map_eq_some_iff.1 ha
  obtain ⟨place', -, rfl⟩ := Option.map_eq_some_iff.1 ha'
  exact fun hreg => Nat.ne_of_lt hlt (Nat.add_left_cancel hreg)

theorem mem_outputAddresses : a ∈ outputAddresses output ↔
    output.layout = .compressed ∧
        a = ⟨Reg.compressedPayloadBase, output.handle, headerSize output⟩ ∨
      output.thumbnail = .downscale ∧
        a = ⟨Reg.thumbnailBase, output.handle, output.pictureSize⟩ := by
  simp [outputAddresses]

theorem of_mem_outputAddresses (h : a ∈ outputAddresses output) :
    (a.reg = Reg.compressedPayloadBase ∨ a.reg = Reg.thumbnailBase) ∧
      a.handle = output.handle := by
  obtain ⟨-, rfl⟩ | ⟨-, rfl⟩ := mem_outputAddresses.1 h
  · exact ⟨.inl rfl, rfl⟩
  · exact ⟨.inr rfl, rfl⟩

theorem inZone_areas {reg : Nat} (h : reg = Reg.compressedPayloadBase ∨ reg = Reg.thumbnailBase) :
    Generation.vdpu34x.InZone .geometry reg := by
  obtain rfl | rfl := h <;> decide

theorem pairwise_outputAddresses (output : Frame) :
    (outputAddresses output).Pairwise fun a a' => a.reg ≠ a'.reg := by
  have hne : Reg.compressedPayloadBase ≠ Reg.thumbnailBase := by decide
  simp only [outputAddresses]
  split <;> split <;> simp [hne]

def aboutArea (edit : Edit) : Bool :=
  edit.reg? == some Reg.compressedPayloadBase || edit.reg? == some Reg.thumbnailBase

theorem filter_patchEdits {reg : Nat}
    (h : reg = Reg.compressedPayloadBase ∨ reg = Reg.thumbnailBase) (offset : Nat) :
    (patchEdits reg offset).filter aboutArea = patchEdits reg offset := by
  refine List.filter_eq_self.2 fun edit hedit => ?_
  obtain ⟨rfl, -⟩ := Edit.mem_patchEdits hedit
  obtain rfl | rfl := h <;> rfl

theorem filter_geometryEdits (bind : Binding) (mode : UInt32) :
    (geometryEdits bind mode).filter aboutArea =
      (outputAddresses bind.output).flatMap BaseAddress.edits := by
  simp only [geometryEdits, outputAddresses, List.filter_append, List.flatMap_append]
  refine (List.append_nil _).trans (congrArg₂ (· ++ ·) ?_ ?_)
  · simp only [compressedEdits]
    by_cases hcompressed : bind.output.layout = .compressed
    · rw [if_pos hcompressed, if_pos hcompressed, List.filter_append,
        filter_patchEdits (.inl rfl), List.flatMap_singleton]
      rfl
    · rw [if_neg hcompressed, if_neg hcompressed]
      rfl
  · simp only [thumbnailEdits]
    by_cases hthumbnail : bind.output.thumbnail = .downscale
    · rw [if_pos hthumbnail, if_pos hthumbnail, List.filter_append,
        filter_patchEdits (.inr rfl), List.flatMap_singleton]
      rfl
    · rw [if_neg hthumbnail, if_neg hthumbnail]
      rfl

theorem exists_of_geometryEdits {bind : Binding} {mode : UInt32} {w : RegisterWrite}
    (h : .register w ∈ geometryEdits bind mode)
    (hreg : w.reg = Reg.compressedPayloadBase ∨ w.reg = Reg.thumbnailBase) :
    ∃ a ∈ outputAddresses bind.output, w = .word a.reg a.handle := by
  have hfilter : Edit.register w ∈ (geometryEdits bind mode).filter aboutArea := by
    refine List.mem_filter.2 ⟨h, ?_⟩
    simpa only [aboutArea, Edit.reg?, Bool.or_eq_true, beq_iff_eq, Option.some.injEq] using hreg
  rw [filter_geometryEdits] at hfilter
  obtain ⟨a, ha, hedit⟩ := List.mem_flatMap.1 hfilter
  obtain hword | hpatch := List.mem_cons.1 hedit
  · exact ⟨a, ha, Edit.register.inj hword⟩
  · cases (Edit.mem_patchEdits hpatch).1

theorem exists_geometryEdits (picture : CodedPicture) (bind : Binding) (size : Nat) :
    ∃ mode, (Generation.vdpu34x.stepResult picture bind size .geometry).edits =
      geometryEdits bind mode := by
  cases picture with
  | avc => exact ⟨modeAvc, rfl⟩
  | hevc => exact ⟨modeHevc, rfl⟩

theorem mem_geometryEdits_of_zone {w : RegisterWrite}
    (hw : w ∈ Generation.vdpu34x.stepWrites picture bind size steps)
    (hzone : Generation.vdpu34x.InZone .geometry w.reg) :
    ∃ mode, .register w ∈ geometryEdits bind mode := by
  obtain ⟨step, -, hedit⟩ := Generation.mem_stepWrites.1 hw
  have hgeometry : step = .geometry := by
    cases Generation.made_of_mem _ _ _ _ _ _ hedit with
    | geometry => rfl
    | reference _ h | stream _ h => cases hzone.unique h
    | refBase i _ _ hi => cases hzone.unique (Generation.vdpu34x.inZone_refBases hi)
    | motion _ _ _ h => cases hzone.unique (Generation.inZone_motion h rfl)
    | tableBase _ _ h => cases hzone.unique (Generation.inZone_tables h)
    | tablePatch _ _ _ _ h => cases (Edit.mem_patchEdits h).1
    | region _ _ hreg h =>
      cases hreg
      cases hzone.unique h
  subst hgeometry
  obtain ⟨mode, hedits⟩ := exists_geometryEdits picture bind size
  exact ⟨mode, hedits ▸ hedit⟩

end Vdpu34x

namespace Generation

variable {a : BaseAddress}

theorem stepAddresses_cases (h : a ∈ g.stepAddresses picture bind step) :
    step = .addresses ∧ (a.reg, a.offset) ∈ g.tableBases picture ∧ a.handle = bind.tables ∨
    (step = .addresses ∧ g = .vdpu34x ∧
      ∃ aux, bind.aux = some aux ∧ a ∈ Vdpu34x.regionAddresses aux) ∨
    step = .geometry ∧ g = .vdpu34x ∧ a ∈ Vdpu34x.outputAddresses bind.output := by
  cases step with
  | parameters | references | tables => cases h
  | addresses =>
    obtain htable | hregion := List.mem_append.1 h
    · obtain ⟨x, hx, rfl⟩ := List.mem_map.1 htable
      exact .inl ⟨rfl, hx, rfl⟩
    · cases g with
      | rkv => cases hregion
      | vdpu34x =>
        cases haux : bind.aux with
        | none =>
          rw [haux] at hregion
          cases hregion
        | some aux =>
          rw [haux] at hregion
          exact .inr (.inl ⟨rfl, rfl, aux, rfl, hregion⟩)
  | geometry =>
    cases g with
    | rkv => cases h
    | vdpu34x => exact .inr (.inr ⟨rfl, rfl, h⟩)

theorem inZone_of_mem_stepAddresses (h : a ∈ g.stepAddresses picture bind step) :
    step = .addresses ∧ (g.InZone .tables a.reg ∨ g.InZone .regions a.reg) ∨
      step = .geometry ∧ g.InZone .geometry a.reg := by
  obtain ⟨rfl, hbase, -⟩ | ⟨rfl, rfl, aux, -, hregion⟩ | ⟨rfl, rfl, harea⟩ :=
    stepAddresses_cases h
  · exact .inl ⟨rfl, .inl (inZone_tables hbase)⟩
  · obtain ⟨x, -, -, hreg⟩ := Vdpu34x.mem_regionAddresses.1 hregion
    exact .inl ⟨rfl, .inr (hreg ▸ Vdpu34x.inZone_regionBase x.1)⟩
  · exact .inr ⟨rfl, Vdpu34x.inZone_areas (Vdpu34x.of_mem_outputAddresses harea).1⟩

theorem pairwise_tableAddresses (g : Generation) (picture : CodedPicture) (bind : Binding) :
    (g.tableAddresses picture bind).Pairwise fun a a' => a.reg ≠ a'.reg := by
  rw [tableAddresses, List.pairwise_map]
  cases g <;> cases picture <;>
    simp only [tableBases, Rkv.Avc.tableBases, Rkv.Hevc.tableBases, Vdpu34x.Avc.tableBases,
      Vdpu34x.Hevc.tableBases] <;>
    split <;> decide

theorem baseAddresses_eq (g : Generation) (picture : CodedPicture) (bind : Binding) :
    g.baseAddresses picture bind =
      g.stepAddresses picture bind .addresses ++ g.stepAddresses picture bind .geometry :=
  congrArg _ (List.append_nil _)

theorem pairwise_baseAddresses (hlayout : ∀ aux, bind.aux = some aux → aux.layout.Separate) :
    (g.baseAddresses picture bind).Pairwise fun a a' => a.reg ≠ a'.reg := by
  rw [baseAddresses_eq, List.pairwise_append]
  refine ⟨List.pairwise_append.2 ⟨pairwise_tableAddresses g picture bind, ?_, ?_⟩, ?_, ?_⟩
  · cases g with
    | rkv => exact .nil
    | vdpu34x =>
      cases haux : bind.aux with
      | none => exact .nil
      | some aux => exact Vdpu34x.pairwise_regionAddresses (hlayout aux haux)
  · intro a ha a' ha' hreg
    obtain ⟨x, hx, rfl⟩ := List.mem_map.1 ha
    have htable : g.InZone .tables a'.reg := hreg ▸ inZone_tables hx
    cases g with
    | rkv => cases ha'
    | vdpu34x =>
      cases haux : bind.aux with
      | none =>
        rw [haux] at ha'
        cases ha'
      | some aux =>
        rw [haux] at ha'
        obtain ⟨y, -, -, hy⟩ := Vdpu34x.mem_regionAddresses.1 ha'
        cases htable.unique (hy ▸ Vdpu34x.inZone_regionBase y.1)
  · cases g with
    | rkv => exact .nil
    | vdpu34x => exact Vdpu34x.pairwise_outputAddresses bind.output
  · intro a ha a' ha' hreg
    obtain ⟨-, hzone⟩ | ⟨hstep, -⟩ := inZone_of_mem_stepAddresses ha
    · obtain ⟨hstep, -⟩ | ⟨-, hzone'⟩ := inZone_of_mem_stepAddresses ha'
      · cases hstep
      · rw [← hreg] at hzone'
        obtain hzone | hzone := hzone
        · cases hzone.unique hzone'
        · cases hzone.unique hzone'
    · cases hstep

theorem mem_stepResult_of_mem_stepAddresses (h : a ∈ g.stepAddresses picture bind step) :
    .register (.word a.reg a.handle) ∈ (g.stepResult picture bind size step).edits := by
  obtain ⟨rfl, hbase, hhandle⟩ | ⟨rfl, rfl, aux, haux, hregion⟩ | ⟨rfl, rfl, harea⟩ :=
    stepAddresses_cases h
  · rw [hhandle]
    cases g with
    | rkv => cases picture <;> exact Rkv.mem_addressEdits hbase
    | vdpu34x => cases picture <;> exact Vdpu34x.mem_addressEdits hbase
  · obtain ⟨others, hedits, -⟩ := Vdpu34x.exists_addressEdits picture haux
    obtain ⟨x, hx, hplace, hreg⟩ := Vdpu34x.mem_regionAddresses.1 hregion
    rw [Vdpu34x.stepResult_addresses, hedits, hreg]
    exact List.mem_append_right _
      (Vdpu34x.mem_regionEdits.2 ⟨x, hx, a.handle, a.offset, hplace, .inl rfl⟩)
  · obtain ⟨mode, hedits⟩ := Vdpu34x.exists_geometryEdits picture bind size
    have hedit : Edit.register (.word a.reg a.handle) ∈
        (Vdpu34x.geometryEdits bind mode).filter Vdpu34x.aboutArea := by
      rw [Vdpu34x.filter_geometryEdits]
      exact List.mem_flatMap.2 ⟨a, harea, List.mem_cons_self⟩
    rw [hedits]
    exact (List.mem_filter.1 hedit).1

theorem eq_word_of_mem_stepWrites
    (hlayout : ∀ aux, bind.aux = some aux → aux.layout.Separate)
    (h : a ∈ g.stepAddresses picture bind step) {w : RegisterWrite}
    (hw : w ∈ g.stepWrites picture bind size steps) (hreg : w.reg = a.reg) :
    w = .word a.reg a.handle := by
  obtain ⟨-, hbase, hhandle⟩ | ⟨-, rfl, aux, haux, hregion⟩ | ⟨-, rfl, harea⟩ :=
    stepAddresses_cases h
  · obtain ⟨_, -, -, reg, offset, -, hword | hpatch⟩ :=
      ofZone_of_mem (z := .tables) hw (hreg ▸ inZone_tables hbase)
    · obtain rfl := Edit.register.inj hword
      rw [hhandle, ← hreg]
      rfl
    · cases (Edit.mem_patchEdits hpatch).1
  · obtain ⟨x, hx, hplace, hbase⟩ := Vdpu34x.mem_regionAddresses.1 hregion
    rw [hbase]
    exact (Vdpu34x.regionWrites haux (hlayout aux haux) hx hplace hw).1 (hreg.trans hbase)
  · obtain ⟨hregs, hhandle⟩ := Vdpu34x.of_mem_outputAddresses harea
    rw [← hreg] at hregs
    obtain ⟨mode, hedit⟩ := Vdpu34x.mem_geometryEdits_of_zone hw (Vdpu34x.inZone_areas hregs)
    obtain ⟨a', ha', rfl⟩ := Vdpu34x.exists_of_geometryEdits hedit hregs
    rw [(Vdpu34x.of_mem_outputAddresses ha').2, hhandle, ← hreg]
    rfl

theorem configures_of_inZone {z : RegisterZone} {reg : Nat} (h : g.InZone z reg) :
    g.Configures reg := by
  have hall : ∀ range ∈ g.zone z, ∀ reg < range.2 + 1, range.1 ≤ reg → g.Configures reg := by
    cases g <;> cases z <;> decide +kernel
  obtain ⟨range, hrange, hfirst, hlast⟩ := h
  exact hall range hrange reg (Nat.lt_succ_of_le hlast) hfirst

theorem suits_of_runSteps {e e' : Emission} (himage : e.image.Suits g)
    (hrun : g.runSteps picture bind steps e = (.ok (), e')) : e'.image.Suits g := by
  rw [RegisterImage.Suits, runSteps_ok hrun, Emission.applyAll_image, RegisterImage.shape_writeAll]
  exact himage

theorem isSome_get?_of_suits {image : RegisterImage} (himage : image.Suits g) {z : RegisterZone}
    {reg : Nat} (h : g.InZone z reg) : (image.get? reg).isSome = true := by
  rw [image.isSome_get?_eq_any, himage, ← RegisterImage.isSome_get?_eq_any]
  exact isSome_get?_blankImage h

theorem exists_op_of_runSteps {e e' : Emission}
    (hlayout : ∀ aux, bind.aux = some aux → aux.layout.Separate)
    (hsteps : steps.Perm GenerationStep.all) (himage : e.image.Suits g)
    (hrun : g.runSteps picture bind steps e = (.ok (), e')) {a : BaseAddress}
    (ha : a ∈ g.baseAddresses picture bind) (patches : Batch) :
    ∃ op ∈ g.queue e'.image patches, op.word? a.reg = some a.handle := by
  obtain ⟨step, hstep, ha⟩ := List.mem_flatMap.1 ha
  obtain ⟨z, hzone⟩ : ∃ z, g.InZone z a.reg := by
    obtain ⟨-, hzone | hzone⟩ | ⟨-, hzone⟩ := inZone_of_mem_stepAddresses ha
    · exact ⟨_, hzone⟩
    · exact ⟨_, hzone⟩
    · exact ⟨_, hzone⟩
  have hsuits := suits_of_runSteps himage hrun
  obtain ⟨v, hv⟩ := Option.isSome_iff_exists.1 (isSome_get?_of_suits hsuits hzone)
  have hhandle : v = a.handle := by
    have himage := hv
    rw [runSteps_ok hrun, Emission.applyAll_image] at himage
    refine RegisterImage.get?_writeAll_of_written (· = a.handle) e.image _ a.reg
      (fun w hw hreg => ?_) ⟨.word a.reg a.handle, ?_, rfl⟩ himage
    · rw [eq_word_of_mem_stepWrites hlayout ha hw hreg]
      exact ⟨rfl, rfl⟩
    · exact mem_stepWrites.2
        ⟨step, hsteps.mem_iff.2 hstep, mem_stepResult_of_mem_stepAddresses ha⟩
  rw [← findSome?_sentBlocks hsuits (configures_of_inZone hzone)] at hv
  obtain ⟨b, hb, hget⟩ := List.exists_of_findSome?_eq_some hv
  have hop : b.op ∈ (g.queue e'.image patches).writes := by
    rw [writes_queue]
    exact List.mem_map_of_mem hb
  exact ⟨b.op, (List.mem_filter.1 hop).1, by rw [RegisterBlock.word?_op, hget, hhandle]⟩

theorem perm_patches {e e' : Emission} (hsteps : steps.Perm GenerationStep.all)
    (hpatches : e.patches = []) (hrun : g.runSteps picture bind steps e = (.ok (), e')) :
    e'.patches.Perm ((g.baseAddresses picture bind).filterMap BaseAddress.patch?) := by
  rw [runSteps_ok hrun, Emission.applyAll_patches, hpatches, List.nil_append,
    List.filterMap_flatMap, baseAddresses, List.filterMap_flatMap]
  simp only [filterMap_stepResult]
  exact hsteps.flatMap_right _

theorem anchors_queue {e e' : Emission}
    (hlayout : ∀ aux, bind.aux = some aux → aux.layout.Separate)
    (hoffsets : ∀ a ∈ g.baseAddresses picture bind, a.offset < Nat.pow 2 32)
    (hsteps : steps.Perm GenerationStep.all) (himage : e.image.Suits g)
    (hpatches : e.patches = []) (hrun : g.runSteps picture bind steps e = (.ok (), e')) :
    (g.queue e'.image e'.patches).Anchors (g.baseAddresses picture bind) := by
  have hperm := perm_patches hsteps hpatches hrun
  have hmem : ∀ p, p ∈ e'.patches ↔ ∃ a ∈ g.baseAddresses picture bind,
      a.offset ≠ 0 ∧ p.reg = a.reg ∧ p.offset.toNat = a.offset := by
    intro p
    rw [hperm.mem_iff, List.mem_filterMap]
    exact exists_congr fun a => and_congr_right fun ha => BaseAddress.patch?_eq_some (hoffsets a ha)
  refine ⟨?_, ?_, ?_, fun a ha => exists_op_of_runSteps hlayout hsteps himage hrun ha _⟩
  · rw [addressOffsets_queue, Batch.addressOffsets_map_address]
    refine (hperm.map fun p : AddressOffset => p.reg).nodup_iff.2 ?_
    rw [List.nodup_iff_pairwise_ne, List.pairwise_map]
    apply (pairwise_baseAddresses hlayout).filterMap
    intro a a' hne p hp p' hp'
    obtain ⟨-, rfl⟩ := BaseAddress.eq_of_patch? hp
    obtain ⟨-, rfl⟩ := BaseAddress.eq_of_patch? hp'
    exact hne
  · rw [addressOffsets_queue, Batch.addressOffsets_map_address]
    intro p hp hzero
    obtain ⟨a, -, hne, -, hoffset⟩ := (hmem p).1 hp
    rw [hzero] at hoffset
    exact hne hoffset.symm
  · rw [addressOffsets_queue, Batch.addressOffsets_map_address]
    exact hmem

end Generation

end

/-- A batch configures the hardware register by register with its image, starts it last, and has
the address offsets that were asked for. After a whole generation these belong to the addresses of
the task, which count from the handles that the batch writes. -/
theorem Generation.queue_wellFormed (g : Generation) :
    (∀ image patches, image.Suits g → (g.queue image patches).Sends g image patches) ∧
      ∀ picture bind steps e e',
        (∀ aux, bind.aux = some aux → ∃ formulas key, aux.layout = .compute formulas key) →
        (∀ a ∈ g.baseAddresses picture bind, a.offset < Nat.pow 2 32) →
        steps.Perm GenerationStep.all → e.image.Suits g → e.patches = [] →
        g.runSteps picture bind steps e = (.ok (), e') →
          (g.queue e'.image e'.patches).Sends g e'.image e'.patches ∧
            (g.queue e'.image e'.patches).Anchors (g.baseAddresses picture bind) := by
  refine ⟨fun image patches himage => sends_queue himage patches, ?_⟩
  intro picture bind steps e e' hcomputed hoffsets hsteps himage hpatches hrun
  have hlayout : ∀ aux, bind.aux = some aux → aux.layout.Separate := by
    intro aux haux
    obtain ⟨formulas, key, heq⟩ := hcomputed aux haux
    rw [heq]
    exact AuxLayout.compute_separate formulas key
  exact ⟨sends_queue (suits_of_runSteps himage hrun) e'.patches,
    anchors_queue hlayout hoffsets hsteps himage hpatches hrun⟩

namespace Vdpu34x.FullHd

def richBinding : Binding :=
  { binding with output := { binding.output with layout := .compressed, thumbnail := .downscale } }

end Vdpu34x.FullHd

open Vdpu34x.FullHd in
theorem queue_wellFormed_fullHd :
    (Generation.vdpu34x.queue blank.image []).Sends .vdpu34x blank.image [] ∧
      ∃ e', Generation.vdpu34x.runSteps picture richBinding GenerationStep.all blank =
          (.ok (), e') ∧
        (Generation.vdpu34x.queue e'.image e'.patches).Sends .vdpu34x e'.image e'.patches ∧
        (Generation.vdpu34x.queue e'.image e'.patches).Anchors
          (Generation.vdpu34x.baseAddresses picture richBinding) := by
  obtain ⟨hsends, hanchors⟩ := Generation.queue_wellFormed .vdpu34x
  obtain ⟨e', hrun⟩ := Generation.exists_of_isOk
    (r := Generation.vdpu34x.runSteps picture richBinding GenerationStep.all blank)
    (by decide +kernel)
  refine ⟨hsends blank.image [] rfl, e', hrun, ?_⟩
  refine hanchors picture richBinding GenerationStep.all blank e' ?_ ?_ (.refl _) rfl rfl hrun
  · rintro _ ⟨⟩
    exact ⟨_, _, rfl⟩
  · decide +kernel

open Vdpu34x.FullHd in
example :
    (Generation.vdpu34x.runSteps picture richBinding GenerationStep.all blank).2.patches.map
        (·.reg) =
      [130, 140, 141, 144, 146, 149, 134, 135] := by
  decide +kernel

end VideoAccel
