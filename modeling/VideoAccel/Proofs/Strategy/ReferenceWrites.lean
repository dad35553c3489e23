import Mathlib.Data.List.Forall2
import VideoAccel.Proofs.Register.Fields
import VideoAccel.Proofs.Strategy.Footprint

namespace VideoAccel

/-- The counts that order pictures for output. A picture of H.264 has one for each of its fields. -/
inductive OrderCount
  | top
  | bottom
  deriving DecidableEq, Repr

def OrderCount.ofStandard : CodingStandard → List OrderCount
  | .avc => [.top, .bottom]
  | .hevc => [.top]

theorem OrderCount.top_mem (standard : CodingStandard) : .top ∈ ofStandard standard := by
  cases standard <;> decide

theorem OrderCount.bottom_mem : .bottom ∈ ofStandard .avc := by decide

structure ReferenceEntry where
  slot : Option Nat
  nonExisting : Bool
  orderCount : OrderCount → Int32

namespace ReferenceEntry

def ofAvc (r : Avc.RefFrame) : ReferenceEntry where
  slot := r.slot
  nonExisting := r.nonExisting
  orderCount
    | .top => r.topPoc
    | .bottom => r.bottomPoc

def ofHevc (r : Hevc.RefPicture) : ReferenceEntry := ⟨r.slot, false, fun _ => r.poc⟩

def IsReal (entry : ReferenceEntry) (table : FrameTable) : Prop :=
  entry.nonExisting = false ∧ ∃ slot frame, entry.slot = some slot ∧ table.frame? slot = some frame

end ReferenceEntry

namespace CodedPicture

def references : CodedPicture → List ReferenceEntry
  | .avc p => p.params.refs.toList.map .ofAvc
  | .hevc p => p.params.refs.toList.map .ofHevc

def orderCount : CodedPicture → OrderCount → Int32
  | .avc p, .top => p.params.topPoc
  | .avc p, .bottom => p.params.bottomPoc
  | .hevc p, _ => p.params.currentPoc

theorem length_references (picture : CodedPicture) : picture.references.length ≤ 16 := by
  cases picture <;> rw [references, List.length_map, Vector.length_toList] <;> decide

end CodedPicture

namespace Generation

def referenceSlots (g : Generation) : CodedPicture → List (Option Nat)
  | .avc p => g.avc.referenceSlots p
  | .hevc p => g.hevc.referenceSlots p

theorem getElem?_referenceSlots (g : Generation) {picture : CodedPicture} {i : Nat}
    {entry : ReferenceEntry} (h : picture.references[i]? = some entry) :
    (g.referenceSlots picture)[i]? = some (if entry.nonExisting then none else entry.slot) := by
  cases picture with
  | avc p =>
    have hslots : g.referenceSlots (.avc p) = p.params.referenceSlots := by cases g <;> rfl
    simp only [CodedPicture.references, List.getElem?_map, Option.map_eq_some_iff] at h
    obtain ⟨r, hr, rfl⟩ := h
    rw [hslots, Avc.Params.referenceSlots, List.getElem?_map, hr]
    rfl
  | hevc p =>
    have hslots : g.referenceSlots (.hevc p) = p.params.referenceSlots := by cases g <;> rfl
    simp only [CodedPicture.references, List.getElem?_map, Option.map_eq_some_iff] at h
    obtain ⟨r, hr, rfl⟩ := h
    rw [hslots, Hevc.Params.referenceSlots, List.getElem?_map, hr]
    rfl

def orderCountReg : Generation → CodingStandard → OrderCount → Nat → Nat
  | .rkv, _, .top, i => Rkv.Reg.refPocTop + i
  | .rkv, _, .bottom, i => Rkv.Reg.refPocBottom + i
  | .vdpu34x, .avc, .top, i => Vdpu34x.Reg.refPoc + 2 * i
  | .vdpu34x, .avc, .bottom, i => Vdpu34x.Reg.refPoc + 2 * i + 1
  | .vdpu34x, .hevc, _, i => Vdpu34x.Reg.refPoc + i

def currentCountRegs : Generation → List Nat
  | .rkv => [Rkv.Reg.currentPocTop, Rkv.Reg.currentPocBottom]
  | .vdpu34x => [Vdpu34x.Reg.currentPoc, Vdpu34x.Reg.currentPocBottom]

def refInfo : Generation → Nat
  | .rkv => Rkv.Reg.refInfo
  | .vdpu34x => Vdpu34x.Reg.refInfo

def usedBits : Generation → List Nat
  | .rkv => [0, 1]
  | .vdpu34x => [0]

def invalidBit : Nat := 3

def orderCountWrite (g : Generation) (picture : CodedPicture) (i : Nat) (entry : ReferenceEntry)
    (r : ResolvedRef) (c : OrderCount) : RegisterWrite :=
  .word (g.orderCountReg picture.standard c i)
    (if r.valid then entry.orderCount c else picture.orderCount c).toUInt32

def infoWrite (g : Generation) (i : Nat) (value : UInt32) : RegisterWrite :=
  { reg := g.refInfo + i / 4, field := ⟨i % 4 * 8, 8⟩, value }

end Generation

inductive ReferenceGroup
  | orderCounts
  | infos
  | validMask
  | sameMask
  | others
  deriving DecidableEq, Repr

def Generation.referenceGroup (g : Generation) (reg : Nat) : ReferenceGroup :=
  match g with
  | .rkv =>
    if Rkv.Reg.refPocTop ≤ reg ∧ reg < Rkv.Reg.currentPocTop then .orderCounts
    else if Rkv.Reg.refInfo ≤ reg ∧ reg < Rkv.Reg.frameNumWrap then .infos
    else .others
  | .vdpu34x =>
    if Vdpu34x.Reg.refPoc ≤ reg ∧ reg < Vdpu34x.Reg.refInfo then .orderCounts
    else if Vdpu34x.Reg.refInfo ≤ reg ∧ reg < Vdpu34x.Reg.refValidMask then .infos
    else if reg = Vdpu34x.Reg.refValidMask then .validMask
    else if reg = Vdpu34x.Reg.refSameAsCurrentMask then .sameMask
    else .others

def ReferenceWrite (g : Generation) (picture : CodedPicture) (bind : Binding)
    (w : RegisterWrite) : Prop :=
  match g.referenceGroup w.reg with
  | .orderCounts => ∃ i entry r c, i < 16 ∧ picture.references[i]? = some entry ∧
      bind.refs[i]? = some r ∧ c ∈ OrderCount.ofStandard picture.standard ∧
      w = g.orderCountWrite picture i entry r c
  | .infos => ∃ i r value, bind.refs[i]? = some r ∧ w = g.infoWrite i value ∧
      hasBit value Generation.invalidBit = !r.valid ∧
      ∀ b ∈ g.usedBits, hasBit value b = true → r.valid = true
  | .validMask => ∃ i r flag, i < 16 ∧ bind.refs[i]? = some r ∧
      w = .flag Vdpu34x.Reg.refValidMask i flag ∧ (flag = true → r.valid = true)
  | .sameMask => ∃ i r, i < 16 ∧ bind.refs[i]? = some r ∧
      w = .flag Vdpu34x.Reg.refSameAsCurrentMask i (r.slot == bind.outputSlot)
  | .others => True

namespace Generation

theorem referenceGroup_orderCountReg (g : Generation) {standard : CodingStandard} {c : OrderCount}
    {i : Nat} (hi : i < 16) :
    g.referenceGroup (g.orderCountReg standard c i) = .orderCounts := by
  cases g with
  | rkv =>
    have hrange : ∀ reg < 58, 26 ≤ reg → rkv.referenceGroup reg = .orderCounts := by decide
    refine hrange _ ?_ ?_ <;> cases c <;>
      simp only [orderCountReg, Rkv.Reg.refPocTop, Rkv.Reg.refPocBottom] <;> omega
  | vdpu34x =>
    have hrange : ∀ reg < 98, 66 ≤ reg → vdpu34x.referenceGroup reg = .orderCounts := by decide
    refine hrange _ ?_ ?_ <;> cases standard <;> cases c <;>
      simp only [orderCountReg, Vdpu34x.Reg.refPoc] <;> omega

theorem referenceGroup_refInfo (g : Generation) {i : Nat} (hi : i < 16) :
    g.referenceGroup (g.refInfo + i / 4) = .infos := by
  have hall : ∀ k < 4, g.referenceGroup (g.refInfo + k) = .infos := by cases g <;> decide
  exact hall (i / 4) (by omega)

theorem orderCountReg_inj {g : Generation} {standard : CodingStandard} {c c' : OrderCount}
    {i j : Nat} (hi : i < 16) (hj : j < 16) (hc : c ∈ OrderCount.ofStandard standard)
    (hc' : c' ∈ OrderCount.ofStandard standard)
    (h : g.orderCountReg standard c i = g.orderCountReg standard c' j) : c = c' ∧ i = j := by
  cases g <;> cases standard <;> cases c <;> cases c' <;>
    simp only [OrderCount.ofStandard, List.mem_cons, List.not_mem_nil, reduceCtorEq, or_false,
      false_or, true_and, false_and, orderCountReg, Rkv.Reg.refPocTop, Rkv.Reg.refPocBottom,
      Vdpu34x.Reg.refPoc] at h hc hc' ⊢ <;>
    omega

end Generation

namespace ReferenceWrite

variable {g : Generation} {picture : CodedPicture} {bind : Binding} {i : Nat} {r : ResolvedRef}

theorem orderCount {entry : ReferenceEntry} {c : OrderCount} (hi : i < 16)
    (hentry : picture.references[i]? = some entry) (hr : bind.refs[i]? = some r)
    (hc : c ∈ OrderCount.ofStandard picture.standard) :
    ReferenceWrite g picture bind (g.orderCountWrite picture i entry r c) := by
  have hgroup : g.referenceGroup (g.orderCountWrite picture i entry r c).reg = .orderCounts :=
    g.referenceGroup_orderCountReg hi
  rw [ReferenceWrite, hgroup]
  exact ⟨i, entry, r, c, hi, hentry, hr, hc, rfl⟩

theorem info {value : UInt32} (hi : i < 16) (hr : bind.refs[i]? = some r)
    (hinvalid : hasBit value Generation.invalidBit = !r.valid)
    (hused : ∀ b ∈ g.usedBits, hasBit value b = true → r.valid = true) :
    ReferenceWrite g picture bind (g.infoWrite i value) := by
  have hgroup : g.referenceGroup (g.infoWrite i value).reg = .infos :=
    g.referenceGroup_refInfo hi
  rw [ReferenceWrite, hgroup]
  exact ⟨i, r, value, hr, rfl, hinvalid, hused⟩

theorem validMask {flag : Bool} (hi : i < 16) (hr : bind.refs[i]? = some r)
    (hflag : flag = true → r.valid = true) :
    ReferenceWrite .vdpu34x picture bind (.flag Vdpu34x.Reg.refValidMask i flag) :=
  ⟨i, r, flag, hi, hr, rfl, hflag⟩

theorem same (hi : i < 16) (hr : bind.refs[i]? = some r) :
    ReferenceWrite .vdpu34x picture bind
      (.flag Vdpu34x.Reg.refSameAsCurrentMask i (r.slot == bind.outputSlot)) :=
  ⟨i, r, hi, hr, rfl⟩

theorem of_others {w : RegisterWrite} (h : g.referenceGroup w.reg = .others) :
    ReferenceWrite g picture bind w := by
  rw [ReferenceWrite, h]
  trivial

theorem frameNumWrap (hi : i < 16) (wrap : Int) :
    ReferenceWrite .rkv picture bind (Rkv.setFrameNumWrap i wrap) := by
  have hall : ∀ k < 8, Generation.rkv.referenceGroup (Rkv.Reg.frameNumWrap + k) = .others := by
    decide
  have hhalf : narrow (i / 2) < 8 := by
    have hle : narrow (i / 2) ≤ i / 2 := Nat.mod_le _ _
    omega
  exact of_others (hall _ hhalf)

theorem current {reg : Nat} (hreg : reg ∈ g.currentCountRegs) (value : UInt32) :
    ReferenceWrite g picture bind (.word reg value) := by
  have hall : ∀ reg ∈ g.currentCountRegs, g.referenceGroup reg = .others := by
    cases g <;> decide
  exact of_others (hall reg hreg)

end ReferenceWrite

theorem narrow_of_lt_16 {i : Nat} (h : i < 16) : narrow i = i :=
  narrow_of_lt (Nat.lt_of_lt_of_le h (by decide))

theorem Rkv.RefInfo.hasBit_bits (info : RefInfo) :
    hasBit info.bits.toUInt32 0 = info.topUsed ∧ hasBit info.bits.toUInt32 1 = info.bottomUsed ∧
      hasBit info.bits.toUInt32 3 = info.invalid := by
  obtain ⟨_ | _, _ | _, _ | _, _ | _⟩ := info <;> decide

theorem Vdpu34x.RefInfo.hasBit_bits (info : RefInfo) :
    hasBit info.bits.toUInt32 0 = info.used ∧ hasBit info.bits.toUInt32 3 = info.invalid := by
  obtain ⟨_ | _, _ | _, _ | _, _ | _⟩ := info <;> decide

structure EntryWrites (g : Generation) (picture : CodedPicture) (bind : Binding) (i : Nat)
    (entry : ReferenceEntry) (r : ResolvedRef) (ws : List RegisterWrite) : Prop where
  kinds : ∀ w ∈ ws, ReferenceWrite g picture bind w
  orderCount : ∀ c ∈ OrderCount.ofStandard picture.standard,
    g.orderCountWrite picture i entry r c ∈ ws
  info : ∃ value, g.infoWrite i value ∈ ws
  same : g = .vdpu34x →
    .flag Vdpu34x.Reg.refSameAsCurrentMask i (r.slot == bind.outputSlot) ∈ ws

section

variable {bind : Binding} {i : Nat} {r : ResolvedRef} {picture : CodedPicture}

theorem Rkv.setRefInfo_eq (hi : i < 16) (info : RefInfo) :
    setRefInfo i info = Generation.rkv.infoWrite i info.bits.toUInt32 := by
  rw [setRefInfo, narrow_of_lt_16 (Nat.lt_of_le_of_lt (Nat.div_le_self i 4) hi)]
  rfl

theorem Vdpu34x.setRefInfo_eq (hi : i < 16) (info : RefInfo) :
    setRefInfo i info =
      [Generation.vdpu34x.infoWrite i info.bits.toUInt32,
        .flag Reg.refValidMask i (info.used && !info.invalid),
        .flag Reg.refLongTermMask i info.longTerm] := by
  rw [setRefInfo, narrow_of_lt_16 hi,
    narrow_of_lt_16 (Nat.lt_of_le_of_lt (Nat.div_le_self i 4) hi)]
  rfl

theorem Vdpu34x.setSameAsCurrent_eq (hi : i < 16) (same : Bool) :
    setSameAsCurrent i same = .flag Reg.refSameAsCurrentMask i same := by
  rw [setSameAsCurrent, narrow_of_lt_16 hi]

theorem Rkv.referenceWrite_info (hi : i < 16) (hr : bind.refs[i]? = some r) {info : RefInfo}
    (hinvalid : info.invalid = !r.valid) (htop : info.topUsed = true → r.valid = true)
    (hbottom : info.bottomUsed = true → r.valid = true) :
    ReferenceWrite .rkv picture bind (Generation.rkv.infoWrite i info.bits.toUInt32) := by
  obtain ⟨h0, h1, h3⟩ := info.hasBit_bits
  refine .info hi hr (h3.trans hinvalid) ?_
  simp only [Generation.usedBits, List.forall_mem_cons, h0, h1]
  exact ⟨htop, hbottom, nofun⟩

theorem Vdpu34x.referenceWrite_info (hi : i < 16) (hr : bind.refs[i]? = some r) {info : RefInfo}
    (hinvalid : info.invalid = !r.valid) (hused : info.used = true → r.valid = true) :
    ∀ w ∈ setRefInfo i info, ReferenceWrite .vdpu34x picture bind w := by
  obtain ⟨h0, h3⟩ := info.hasBit_bits
  simp only [setRefInfo_eq hi, List.forall_mem_cons]
  refine ⟨.info hi hr (h3.trans hinvalid) ?_, .validMask hi hr ?_,
    .of_others rfl, nofun⟩
  · simp only [Generation.usedBits, List.forall_mem_cons, h0]
    exact ⟨hused, nofun⟩
  · intro hflag
    exact hused (Bool.and_eq_true_iff.1 hflag).1

theorem Rkv.Avc.entryWrites {p : Avc.Picture} {frame : Avc.RefFrame} (hi : i < 16)
    (hentry : (CodedPicture.avc p).references[i]? = some (.ofAvc frame))
    (hr : bind.refs[i]? = some r) (wrap : Int) :
    EntryWrites .rkv (.avc p) bind i (.ofAvc frame) r
      (referenceWrites p.params i frame r.valid wrap) := by
  rw [referenceWrites, setRefInfo_eq hi]
  refine ⟨?_, ?_, ⟨_, .tail _ (.tail _ (.head _))⟩, fun h => absurd h (by decide)⟩
  · simp only [List.forall_mem_cons]
    refine ⟨.orderCount hi hentry hr (OrderCount.top_mem _),
      .orderCount hi hentry hr OrderCount.bottom_mem,
      referenceWrite_info hi hr rfl ?_ ?_, .frameNumWrap hi wrap, List.forall_mem_nil _⟩
    · exact fun h => (Bool.and_eq_true_iff.1 h).1
    · exact fun h => (Bool.and_eq_true_iff.1 h).1
  · rintro (_ | _) _
    · exact .head _
    · exact .tail _ (.head _)

theorem Rkv.Hevc.entryWrites {p : Hevc.Picture} {ref : Hevc.RefPicture} (hi : i < 16)
    (hentry : (CodedPicture.hevc p).references[i]? = some (.ofHevc ref))
    (hr : bind.refs[i]? = some r) :
    EntryWrites .rkv (.hevc p) bind i (.ofHevc ref) r
      (referenceWrites p.params i ref r.valid) := by
  rw [referenceWrites, setRefInfo_eq hi]
  refine ⟨?_, ?_, ⟨_, .tail _ (.head _)⟩, fun h => absurd h (by decide)⟩
  · simp only [List.forall_mem_cons]
    exact ⟨.orderCount hi hentry hr (OrderCount.top_mem _),
      referenceWrite_info hi hr rfl id id, List.forall_mem_nil _⟩
  · intro c hc
    obtain rfl := List.mem_singleton.1 hc
    exact .head _

theorem Vdpu34x.Avc.entryWrites {p : Avc.Picture} {frame : Avc.RefFrame} (hi : i < 16)
    (hentry : (CodedPicture.avc p).references[i]? = some (.ofAvc frame))
    (hr : bind.refs[i]? = some r) :
    EntryWrites .vdpu34x (.avc p) bind i (.ofAvc frame) r
      (referenceWrites p.params bind.outputSlot i frame r) := by
  rw [referenceWrites, setSameAsCurrent_eq hi]
  refine ⟨?_, ?_, ?_, fun _ => List.mem_append_right _ (.head _)⟩
  · simp only [List.forall_mem_append, List.forall_mem_cons]
    refine ⟨⟨⟨.orderCount hi hentry hr (OrderCount.top_mem _),
      .orderCount hi hentry hr OrderCount.bottom_mem, List.forall_mem_nil _⟩,
      referenceWrite_info hi hr rfl ?_⟩, .same hi hr, List.forall_mem_nil _⟩
    exact fun h => (Bool.and_eq_true_iff.1 h).1
  · rintro (_ | _) _
    · exact .head _
    · exact .tail _ (.head _)
  · rw [setRefInfo_eq hi]
    exact ⟨_, .tail _ (.tail _ (.head _))⟩

theorem Vdpu34x.Hevc.entryWrites {p : Hevc.Picture} {ref : Hevc.RefPicture} (hi : i < 16)
    (hentry : (CodedPicture.hevc p).references[i]? = some (.ofHevc ref))
    (hr : bind.refs[i]? = some r) :
    EntryWrites .vdpu34x (.hevc p) bind i (.ofHevc ref) r
      (referenceWrites p.params bind.outputSlot i ref r) := by
  rw [referenceWrites, setSameAsCurrent_eq hi]
  refine ⟨?_, ?_, ?_, fun _ => List.mem_append_right _ (.head _)⟩
  · simp only [List.cons_append, List.forall_mem_append, List.forall_mem_cons]
    exact ⟨.orderCount hi hentry hr (OrderCount.top_mem _),
      referenceWrite_info hi hr rfl id, .same hi hr, List.forall_mem_nil _⟩
  · intro c hc
    obtain rfl := List.mem_singleton.1 hc
    exact .head _
  · rw [setRefInfo_eq hi]
    exact ⟨_, .tail _ (.head _)⟩

end

/-- The register writes of a step for the references are those for its references, together with the
counts of the picture itself. -/
structure ReferencesWritten (g : Generation) (picture : CodedPicture) (bind : Binding)
    (edits : List Edit) : Prop where
  kinds : ∀ w, .register w ∈ edits → ReferenceWrite g picture bind w
  entries : ∀ i entry r, picture.references[i]? = some entry → bind.refs[i]? = some r →
    ∃ ws, EntryWrites g picture bind i entry r ws ∧ ∀ w ∈ ws, .register w ∈ edits

theorem referencesWritten_after {α : Type} {g : Generation} {picture : CodedPicture}
    {bind : Binding} {l : List α} {f : Nat → α → List RegisterWrite} {ws : List RegisterWrite}
    {table : StepResult} (htable : ∀ w, .register w ∉ table.edits)
    (hlength : min picture.references.length bind.refs.length ≤ l.length)
    (hl : ∀ i x, l[i]? = some x → ∃ entry r, picture.references[i]? = some entry ∧
      bind.refs[i]? = some r ∧ EntryWrites g picture bind i entry r (f i x))
    (hws : ∀ w ∈ ws, ReferenceWrite g picture bind w) :
    ReferencesWritten g picture bind
      (table.after (((l.mapIdx f).flatten ++ ws).map .register)).edits := by
  constructor
  · intro w hw
    obtain hw | hw := List.mem_append.1 hw
    · obtain ⟨w', hw, hsame⟩ := List.mem_map.1 hw
      cases hsame
      obtain hw | hw := List.mem_append.1 hw
      · obtain ⟨_, hmem, hw⟩ := List.mem_flatten.1 hw
        obtain ⟨i, hi, rfl⟩ := List.mem_mapIdx.1 hmem
        obtain ⟨_, _, _, _, hentry⟩ := hl i l[i] (List.getElem?_eq_getElem hi)
        exact hentry.kinds w hw
      · exact hws w hw
    · exact absurd hw (htable w)
  · intro i entry r hentry hr
    have hi : i < l.length := by
      have hi := (List.getElem?_eq_some_iff.1 hentry).1
      have hi' := (List.getElem?_eq_some_iff.1 hr).1
      omega
    obtain ⟨entry', r', hentry', hr', hwrites⟩ := hl i l[i] (List.getElem?_eq_getElem hi)
    cases hentry.symm.trans hentry'
    cases hr.symm.trans hr'
    refine ⟨_, hwrites, fun w hw => ?_⟩
    have hmem : f i l[i] ∈ l.mapIdx f := List.mem_mapIdx.2 ⟨i, hi, rfl⟩
    exact List.mem_append_left _ (List.mem_map_of_mem
      (List.mem_append_left _ (List.mem_flatten.2 ⟨_, hmem, hw⟩)))

theorem register_not_mem_packRegion (capacity : Nat) (fields : List BitField) (size offset : Nat)
    (w : RegisterWrite) :
    .register w ∉ (StepResult.ofExcept (packRegion capacity fields size offset)).edits := by
  intro hmem
  obtain ⟨bytes, hbytes, -⟩ := Edit.mem_packRegion hmem
  cases hbytes

theorem forall₂_of_mapM_ok {α β ε : Type} {f : α → Except ε β} {l : List α} {ys : List β}
    (h : l.mapM f = .ok ys) : List.Forall₂ (fun x y => f x = .ok y) l ys := by
  induction l generalizing ys with
  | nil =>
    cases h
    exact .nil
  | cons x l ih =>
    rw [List.mapM_cons] at h
    cases hx : f x with
    | error e =>
      rw [hx] at h
      cases h
    | ok y =>
      cases hl : l.mapM f with
      | error e =>
        rw [hx, hl] at h
        cases h
      | ok rest =>
        rw [hx, hl] at h
        cases h
        exact .cons hx (ih hl)

theorem length_of_mapM_ok {α β ε : Type} {f : α → Except ε β} {l : List α} {ys : List β}
    (h : l.mapM f = .ok ys) : ys.length = l.length :=
  (forall₂_of_mapM_ok h).length_eq.symm

namespace CodedPicture

theorem getElem?_references_avc {p : Avc.Picture} {i : Nat} {frame : Avc.RefFrame}
    (h : p.params.refs.toList[i]? = some frame) :
    i < 16 ∧ (avc p).references[i]? = some (.ofAvc frame) := by
  have hi := (List.getElem?_eq_some_iff.1 h).1
  rw [Vector.length_toList] at hi
  refine ⟨hi, ?_⟩
  rw [references, List.getElem?_map, h]
  rfl

theorem getElem?_references_hevc {p : Hevc.Picture} {i : Nat} {ref : Hevc.RefPicture}
    (h : p.params.refs.toList[i]? = some ref) :
    i < 16 ∧ (hevc p).references[i]? = some (.ofHevc ref) := by
  have hi := (List.getElem?_eq_some_iff.1 h).1
  rw [Vector.length_toList] at hi
  refine ⟨Nat.lt_of_lt_of_le hi (by decide), ?_⟩
  rw [references, List.getElem?_map, h]
  rfl

end CodedPicture

section

variable {bind : Binding} {size : Nat}

theorem Rkv.Avc.referencesWritten {p : Avc.Picture}
    (hfailure : (references p bind size).failure = none) :
    ReferencesWritten .rkv (.avc p) bind (references p bind size).edits := by
  simp only [references] at hfailure ⊢
  split at hfailure
  · cases hfailure
  rename_i wraps hwraps
  refine referencesWritten_after (register_not_mem_packRegion refFlagsBits _ size _) ?_ ?_ ?_
  · refine Nat.le_of_eq ?_
    rw [List.length_zip, length_of_mapM_ok hwraps, Nat.min_self, List.length_zip,
      CodedPicture.references, List.length_map]
  · rintro i ⟨⟨frame, r⟩, wrap⟩ hx
    obtain ⟨hx, -⟩ := List.getElem?_zip_eq_some.1 hx
    obtain ⟨hframe, hr⟩ := List.getElem?_zip_eq_some.1 hx
    obtain ⟨hi, hentry⟩ := CodedPicture.getElem?_references_avc hframe
    exact ⟨_, r, hentry, hr, entryWrites hi hentry hr wrap⟩
  · simp only [List.forall_mem_cons]
    exact ⟨.current (.head _) _, .current (.tail _ (.head _)) _, List.forall_mem_nil _⟩

theorem Vdpu34x.Avc.referencesWritten {p : Avc.Picture}
    (hfailure : (references p bind size).failure = none) :
    ReferencesWritten .vdpu34x (.avc p) bind (references p bind size).edits := by
  simp only [references] at hfailure ⊢
  split at hfailure
  · cases hfailure
  refine referencesWritten_after
    (register_not_mem_packRegion (refEntryBits * VideoAccel.Avc.maxRefs) _ size _) ?_ ?_ ?_
  · refine Nat.le_of_eq ?_
    rw [List.length_zip, CodedPicture.references, List.length_map]
  · rintro i ⟨frame, r⟩ hx
    obtain ⟨hframe, hr⟩ := List.getElem?_zip_eq_some.1 hx
    obtain ⟨hi, hentry⟩ := CodedPicture.getElem?_references_avc hframe
    exact ⟨_, r, hentry, hr, entryWrites hi hentry hr⟩
  · simp only [List.forall_mem_cons]
    exact ⟨.current (.head _) _, .current (.tail _ (.head _)) _, List.forall_mem_nil _⟩

theorem min_length_le_zip_refs (p : Hevc.Picture) (bind : Binding) :
    min (CodedPicture.hevc p).references.length bind.refs.length ≤
      (p.params.refs.toList.zip bind.refs).length := by
  refine Nat.le_of_eq ?_
  rw [List.length_zip, CodedPicture.references, List.length_map]

theorem Rkv.Hevc.referencesWritten (p : Hevc.Picture) :
    ReferencesWritten .rkv (.hevc p) bind (references p bind size).edits := by
  refine referencesWritten_after (register_not_mem_packRegion Hevc.refSetBits _ size _)
    (min_length_le_zip_refs p bind) ?_ ?_
  · rintro i ⟨ref, r⟩ hx
    obtain ⟨href, hr⟩ := List.getElem?_zip_eq_some.1 hx
    obtain ⟨hi, hentry⟩ := CodedPicture.getElem?_references_hevc href
    exact ⟨_, r, hentry, hr, entryWrites hi hentry hr⟩
  · simp only [List.forall_mem_cons]
    exact ⟨.current (.head _) _, List.forall_mem_nil _⟩

theorem Vdpu34x.Hevc.referencesWritten (p : Hevc.Picture) :
    ReferencesWritten .vdpu34x (.hevc p) bind (references p bind size).edits := by
  refine referencesWritten_after (register_not_mem_packRegion Hevc.refSetBits _ size _)
    (min_length_le_zip_refs p bind) ?_ ?_
  · rintro i ⟨ref, r⟩ hx
    obtain ⟨href, hr⟩ := List.getElem?_zip_eq_some.1 hx
    obtain ⟨hi, hentry⟩ := CodedPicture.getElem?_references_hevc href
    exact ⟨_, r, hentry, hr, entryWrites hi hentry hr⟩
  · simp only [List.forall_mem_cons]
    exact ⟨.current (.head _) _, List.forall_mem_nil _⟩

theorem Generation.referencesWritten_of_step {g : Generation} {picture : CodedPicture}
    (hfailure : (g.stepResult picture bind size .references).failure = none) :
    ReferencesWritten g picture bind (g.stepResult picture bind size .references).edits := by
  cases picture with
  | avc p =>
    cases g with
    | rkv => exact Rkv.Avc.referencesWritten hfailure
    | vdpu34x => exact Vdpu34x.Avc.referencesWritten hfailure
  | hevc p =>
    cases g with
    | rkv => exact Rkv.Hevc.referencesWritten p
    | vdpu34x => exact Vdpu34x.Hevc.referencesWritten p

end

end VideoAccel
