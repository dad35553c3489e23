import Mathlib.Data.Int.ModEq
import VideoAccel.Proofs.Demand.Steps
import VideoAccel.Proofs.Strategy.ReferenceCells
import VideoAccel.Proofs.Strategy.References

namespace VideoAccel

namespace Avc

/-- The number with the residue of `idx` modulo `max` that is among the `max` numbers up to
`current`. -/
structure Unwraps (max current idx : Nat) (wrap : Int) : Prop where
  residue : wrap ≡ idx [ZMOD max]
  above : (current : Int) - max < wrap
  below : wrap ≤ current

namespace Unwraps

variable {max current idx idx' : Nat} {wrap wrap' : Int}

theorem unique (h : Unwraps max current idx wrap) (h' : Unwraps max current idx wrap') :
    wrap = wrap' := by
  have hdvd : (max : Int) ∣ wrap - wrap' := (h'.residue.trans h.residue.symm).dvd
  have hsmall : |wrap - wrap'| < (max : Int) := by
    have habove := h.above
    have hbelow := h.below
    have habove' := h'.above
    have hbelow' := h'.below
    rw [abs_lt]
    omega
  exact Int.sub_eq_zero.1 (Int.eq_zero_of_abs_lt_dvd hdvd hsmall)

/-- Equal low bits of two numbers are those of one residue, if the modulus is a power of two. -/
theorem idx_eq {bits : Nat} (hmax : max ∣ 2 ^ bits) (hidx : idx < max) (hidx' : idx' < max)
    (h : Unwraps max current idx wrap) (h' : Unwraps max current idx' wrap')
    (hcode : twosComplement bits wrap = twosComplement bits wrap') : idx = idx' := by
  have hlow : wrap ≡ wrap' [ZMOD (2 ^ bits : Nat)] := by
    have hcast := congrArg (Nat.cast : Nat → Int) hcode
    rwa [natCast_twosComplement, natCast_twosComplement] at hcast
  have hsame : wrap ≡ wrap' [ZMOD max] := hlow.of_dvd (Int.natCast_dvd_natCast.2 hmax)
  have hresidues : (idx : Int) ≡ idx' [ZMOD max] := (h.residue.symm.trans hsame).trans h'.residue
  exact Nat.ModEq.eq_of_lt_of_lt ((Int.natCast_modEq_iff).1 hresidues) hidx hidx'

end Unwraps

namespace Params

variable {p : Params} {r : RefFrame}

theorem frameNumWrap_of_longTerm (h : r.longTerm = true) :
    p.frameNumWrap r = .ok r.frameIdx.toNat := if_pos h

theorem frameNumWrap_of_shortTerm {max : Nat} (hmax : p.maxFrameNum = .ok max)
    (hword : max < 2 ^ 31) (hnum : p.frameNum.toNat < max) (hshort : r.longTerm = false)
    (hidx : r.frameIdx.toNat < max) :
    ∃ wrap, p.frameNumWrap r = .ok wrap ∧
      Unwraps max p.frameNum.toNat r.frameIdx.toNat wrap := by
  have hlong : ¬ r.longTerm = true := by
    rw [hshort]
    nofun
  by_cases hwrapped : p.frameNum < r.frameIdx
  · have hlt : p.frameNum.toNat < r.frameIdx.toNat := hwrapped
    refine ⟨(r.frameIdx.toNat : Int) - max, ?_, ?_, by omega, by omega⟩
    · simp only [frameNumWrap, if_neg hlong, if_pos hwrapped, hmax]
      exact if_pos hword
    · exact Int.modEq_iff_dvd.2 ⟨1, by omega⟩
  · have hle : r.frameIdx.toNat ≤ p.frameNum.toNat := Nat.le_of_not_lt hwrapped
    refine ⟨r.frameIdx.toNat, ?_, Int.ModEq.refl _, by omega, by omega⟩
    simp only [frameNumWrap, if_neg hlong, if_neg hwrapped]

/-- The low sixteen bits of the frame number of reference `i`. -/
def frameNumCode (p : Params) (i : Nat) : Nat :=
  match p.frameNumWrap (p.refs.toList.getD i {}) with
  | .ok wrap => twosComplement 16 wrap
  | .error _ => 0

theorem frameNumCode_eq {i : Nat} {wrap : Int} (hr : p.refs.toList[i]? = some r)
    (hwrap : p.frameNumWrap r = .ok wrap) : p.frameNumCode i = twosComplement 16 wrap := by
  simp only [frameNumCode, List.getD_eq_getElem?_getD, hr, Option.getD_some, hwrap]

end Params

end Avc

namespace Rkv.Avc

variable {p : VideoAccel.Avc.Picture} {bind : Binding} {size i : Nat} {wraps : List Int}
  (hwraps : ((p.params.refs.toList.zip bind.refs).mapM fun (r, _) => p.params.frameNumWrap r) =
    .ok wraps)

include hwraps

theorem setFrameNumWrap_of_mem {w : RegisterWrite}
    (hedit : .register w ∈ (references p bind size).edits)
    (hreg : Reg.frameNumWrap ≤ w.reg ∧ w.reg < Reg.errorEnable) :
    ∃ j < 16, ∃ entry, ((p.params.refs.toList.zip bind.refs).zip wraps)[j]? = some entry ∧
      w = setFrameNumWrap j entry.2 := by
  simp only [references, hwraps] at hedit
  obtain hedit | hedit := List.mem_append.1 hedit
  · obtain ⟨w', hw, hsame⟩ := List.mem_map.1 hedit
    cases hsame
    obtain hw | hw := List.mem_append.1 hw
    · obtain ⟨_, hmem, hw⟩ := List.mem_flatten.1 hw
      obtain ⟨j, hj, rfl⟩ := List.mem_mapIdx.1 hmem
      have hj16 : j < 16 := by
        have hle := p.params.length_zip_refs bind
        rw [List.length_zip] at hj
        omega
      have hinfo : narrow (j / 4) = j / 4 := narrow_of_lt_16 (by omega)
      refine ⟨j, hj16, _, List.getElem?_eq_getElem hj, ?_⟩
      simp only [referenceWrites, List.mem_cons, List.not_mem_nil, or_false] at hw
      obtain rfl | rfl | rfl | rfl := hw
      · simp only [RegisterWrite.word, Reg.frameNumWrap, Reg.refPocTop] at hreg
        omega
      · simp only [RegisterWrite.word, Reg.frameNumWrap, Reg.refPocBottom] at hreg
        omega
      · simp only [setRefInfo, hinfo, Reg.frameNumWrap, Reg.refInfo] at hreg
        omega
      · rfl
    · simp only [List.mem_cons, List.not_mem_nil, or_false] at hw
      obtain rfl | rfl := hw <;>
        simp only [RegisterWrite.word, Reg.frameNumWrap, Reg.currentPocTop, Reg.currentPocBottom]
          at hreg <;>
        omega
  · exact absurd hedit (register_not_mem_packRegion refFlagsBits _ size _ w)

theorem setFrameNumWrap_mem {entry : (VideoAccel.Avc.RefFrame × ResolvedRef) × Int}
    (hentry : ((p.params.refs.toList.zip bind.refs).zip wraps)[i]? = some entry) :
    .register (setFrameNumWrap i entry.2) ∈ (references p bind size).edits := by
  obtain ⟨hi, rfl⟩ := List.getElem?_eq_some_iff.1 hentry
  simp only [references, hwraps]
  refine List.mem_append_left _ (List.mem_map_of_mem (List.mem_append_left _ ?_))
  refine List.mem_flatten.2 ⟨_, List.mem_mapIdx.2 ⟨i, hi, rfl⟩, ?_⟩
  exact .tail _ (.tail _ (.tail _ (.head _)))

end Rkv.Avc

theorem Rkv.Avc.singleFieldBits_lt (refs : List Avc.RefFrame) :
    singleFieldBits refs < 2 ^ refs.length := by
  induction refs with
  | nil => exact Nat.one_pos
  | cons r refs ih =>
    have hflag := Bool.toNat_lt r.isSingleField
    have hrest : singleFieldBits refs + 1 ≤ 2 ^ refs.length := ih
    change r.isSingleField.toNat + 2 * singleFieldBits refs < 2 ^ (refs.length + 1)
    rw [Nat.pow_succ]
    omega

theorem Rkv.Avc.packRegion_refFlags {refs : List Avc.RefFrame} (hlength : refs.length ≤ 16) :
    ∃ bytes, packRegion refFlagsBits (refFlagFields refs) tableBufferSize refFlagsOffset =
      .ok [.table refFlagsOffset bytes] := by
  have hchecked : ∀ f ∈ refFlagFields refs, f.shape.isChecked = true := by
    refine List.forall_mem_append.2 ⟨fun f hf => ?_, List.forall_mem_singleton.2 rfl⟩
    obtain ⟨r, -, rfl⟩ := List.mem_map.1 hf
    rfl
  have hroom : BitField.totalWidth (refFlagFields refs) ≤ (refFlagsBits + 63) / 64 * 64 := by
    have hwidth : BitField.totalWidth (refFlagFields refs) = refs.length + 16 := by
      simp [refFlagFields, BitField.totalWidth, BitField.width, Function.comp_def]
    rw [hwidth, refFlagsBits]
    omega
  have hfits : ∀ f ∈ refFlagFields refs, f.Fits := by
    refine List.forall_mem_append.2 ⟨fun f hf => ?_, List.forall_mem_singleton.2 ?_⟩
    · obtain ⟨r, -, rfl⟩ := List.mem_map.1 hf
      exact trivial
    · exact Nat.lt_of_lt_of_le (singleFieldBits_lt refs) (Nat.pow_le_pow_right (by decide) hlength)
  have hsize : refFlagsOffset + (refFlagsBits + 63) / 64 * 8 ≤ tableBufferSize := by decide
  obtain ⟨bytes, hbytes, -⟩ := packRegion_of_fits hchecked hroom hfits hsize
  exact ⟨bytes, hbytes⟩

theorem Vdpu34x.Avc.packRegion_refSet {entries : List ((Avc.RefFrame × ResolvedRef) × Int)}
    (hlength : entries.length ≤ 16) :
    ∃ bytes, packRegion (refEntryBits * Avc.maxRefs) (refSetFields entries) tableBufferSize
      refSetOffset = .ok [.table refSetOffset bytes] := by
  have hroom : BitField.totalWidth (refSetFields entries) ≤
      (refEntryBits * Avc.maxRefs + 63) / 64 * 64 := by
    rw [totalWidth_refSetFields]
    simp only [refEntryBits, Avc.maxRefs]
    omega
  have hfits : ∀ f ∈ refSetFields entries, f.Fits := by
    intro f hf
    obtain ⟨⟨⟨r, resolved⟩, wrap⟩, -, hf⟩ := List.mem_flatMap.1 hf
    have hall : ∀ f ∈ refEntryFields r resolved.valid wrap, f.Fits :=
      List.forall_mem_cons.2 ⟨twosComplement_lt 16 wrap, by simp [BitField.Fits]⟩
    exact hall f hf
  have hsize : refSetOffset + (refEntryBits * Avc.maxRefs + 63) / 64 * 8 ≤ tableBufferSize := by
    decide
  obtain ⟨bytes, hbytes, -⟩ := packRegion_of_fits isChecked_refSetFields hroom hfits hsize
  exact ⟨bytes, hbytes⟩

namespace Generation

/-- The frame number of reference `i` where the hardware finds it: half a register, or sixteen bits
of the reference set. -/
def frameNumCode? (g : Generation) (e : Emission) (i : Nat) : Option Nat :=
  match g with
  | .rkv => e.image.fieldValue? (Rkv.Reg.frameNumWrap + i / 2) ⟨i % 2 * 16, 16⟩
  | .vdpu34x => some (Vdpu34x.Avc.readFrameNum e.tables i)

variable {g : Generation} {p : Avc.Picture} {bind : Binding} {steps : List GenerationStep}
  {e e' : Emission} {i : Nat} {frame : Avc.RefFrame} {r : ResolvedRef}

theorem inZone_frameNumWrap (hi : i < 16) :
    rkv.InZone .references (Rkv.Reg.frameNumWrap + i / 2) := by
  have hall : ∀ k < 8, rkv.InZone .references (Rkv.Reg.frameNumWrap + k) := by decide
  exact hall (i / 2) (by omega)

/-- The half of a register for reference `i` holds its frame number, whatever else is written. -/
theorem fieldValue?_frameNumWrap (himage : e.image.Suits rkv)
    (hrun : rkv.runSteps (.avc p) bind steps e = (.ok (), e')) (hstep : .references ∈ steps)
    (hi : i < 16) (hframe : p.params.refs.toList[i]? = some frame) (hr : bind.refs[i]? = some r) :
    ∃ wrap, p.params.frameNumWrap frame = .ok wrap ∧
      rkv.frameNumCode? e' i = some (twosComplement 16 wrap) := by
  have hfailure := (of_runSteps_ok hrun hstep).1
  simp only [stepResult, avc, Rkv.Avc.strategy, Rkv.Avc.step, Rkv.Avc.references] at hfailure
  split at hfailure
  · cases hfailure
  rename_i wraps hwraps
  obtain ⟨wrap, hentry⟩ := exists_wrap_of_mapM hwraps hframe hr
  refine ⟨wrap, wrap_of_mem_zip hwraps (List.mem_of_getElem? hentry), ?_⟩
  have hcell : ReferenceCell.wrap ∈ rkv.cells := .tail _ (.head _)
  -- every write to the register is for the frame number of some reference
  have hkind : ∀ w ∈ rkv.stepWrites (.avc p) bind e.tables.size steps,
      w.reg = Rkv.Reg.frameNumWrap + i / 2 → ∃ j < 16, ∃ entry,
        ((p.params.refs.toList.zip bind.refs).zip wraps)[j]? = some entry ∧
          w = ReferenceCell.wrap.write .rkv j (twosComplement 16 entry.2) := by
    intro w hw hreg
    obtain ⟨step, -, hedit, rfl⟩ := ofZone_of_mem hw (hreg ▸ inZone_frameNumWrap hi)
    have hrange : Rkv.Reg.frameNumWrap ≤ w.reg ∧ w.reg < Rkv.Reg.errorEnable := by
      simp only [hreg, Rkv.Reg.frameNumWrap, Rkv.Reg.errorEnable]
      omega
    obtain ⟨j, hj, entry, hentry', rfl⟩ := Rkv.Avc.setFrameNumWrap_of_mem hwraps hedit hrange
    exact ⟨j, hj, entry, hentry', Rkv.setFrameNumWrap_eq hj entry.2⟩
  rw [frameNumCode?, image_eq_of_runSteps hrun]
  refine RegisterImage.fieldValue?_writeAll_of_written e.image
    (ReferenceCell.inside_field (c := .wrap) hi) (himage.isSome_get?_reg hcell hi)
    (fun w hw hreg => ?_) (fun w hw value hsets => ?_) ?_
  · obtain ⟨j, hj, entry, -, rfl⟩ := hkind w hw hreg
    exact ReferenceCell.keepsTo_write hcell hcell hi hj _ hreg
  · have hreg : w.reg = Rkv.Reg.frameNumWrap + i / 2 := by
      rw [RegisterWrite.sets?] at hsets
      split at hsets
      · rename_i hplace
        exact hplace.1
      · cases hsets
    obtain ⟨j, hj, entry, hentry', rfl⟩ := hkind w hw hreg
    have hplace := ReferenceCell.sets?_write hcell hcell hi hj (twosComplement_lt 16 entry.2)
    rw [hsets] at hplace
    split at hplace
    · rename_i hsame
      obtain ⟨rfl, -⟩ := hsame
      cases hentry.symm.trans hentry'
      exact Option.some.inj hplace
    · cases hplace
  · refine ⟨_, mem_stepWrites.2 ⟨.references, hstep, Rkv.Avc.setFrameNumWrap_mem hwraps hentry⟩, ?_⟩
    rw [Rkv.setFrameNumWrap_eq hi,
      ReferenceCell.sets?_write hcell hcell hi hi (twosComplement_lt 16 wrap), if_pos ⟨rfl, rfl⟩]
    rfl

theorem frameNumCode?_of_runSteps (himage : e.image.Suits g)
    (hrun : g.runSteps (.avc p) bind steps e = (.ok (), e')) (hstep : .references ∈ steps)
    (hlength : bind.refs.length = Avc.maxRefs) (hframe : p.params.refs.toList[i]? = some frame) :
    ∃ wrap, p.params.frameNumWrap frame = .ok wrap ∧
      g.frameNumCode? e' i = some (twosComplement 16 wrap) := by
  have hi : i < 16 := (CodedPicture.getElem?_references_avc hframe).1
  obtain ⟨r, hr⟩ : ∃ r, bind.refs[i]? = some r :=
    ⟨_, List.getElem?_eq_getElem (hlength.symm ▸ hi)⟩
  cases g with
  | rkv => exact fieldValue?_frameNumWrap himage hrun hstep hi hframe hr
  | vdpu34x =>
    obtain ⟨wrap, hwrap, hentry⟩ := readEntry_of_runSteps hrun hstep hlength hframe hr
    exact ⟨wrap, hwrap, congrArg some (Vdpu34x.Avc.readFrameNum_of_entry hentry)⟩

theorem references_ok (hmodulus : p.params.log2MaxFrameNumMinus4.toNat < 16) (he : e.Suits g)
    (bind : Binding) : ∃ e', g.runSteps (.avc p) bind [.references] e = (.ok (), e') := by
  have hlength : (p.params.refs.toList.zip bind.refs).length ≤ 16 := p.params.length_zip_refs bind
  have hsucceeds : (g.stepResult (.avc p) bind tableBufferSize .references).failure = none := by
    cases hmap :
      (p.params.refs.toList.zip bind.refs).mapM fun (r, _) => p.params.frameNumWrap r with
    | error f => exact absurd hmap (Avc.mapM_frameNumWrap_ne_error hmodulus _ f)
    | ok wraps =>
      cases g with
      | rkv =>
        have hflags : ((p.params.refs.toList.zip bind.refs).map (·.1)).length ≤ 16 :=
          (List.length_map _).trans_le hlength
        obtain ⟨bytes, hpacked⟩ := Rkv.Avc.packRegion_refFlags hflags
        simp only [stepResult, avc, Rkv.Avc.strategy, Rkv.Avc.step, Rkv.Avc.references, hmap]
        change (StepResult.ofExcept (packRegion _ _ _ _)).failure = none
        rw [hpacked]
        rfl
      | vdpu34x =>
        have hentries : ((p.params.refs.toList.zip bind.refs).zip wraps).length ≤ 16 := by
          rw [List.length_zip]
          exact Nat.le_trans (Nat.min_le_left _ _) hlength
        obtain ⟨bytes, hpacked⟩ := Vdpu34x.Avc.packRegion_refSet hentries
        simp only [stepResult, avc, Vdpu34x.Avc.strategy, Vdpu34x.Avc.step,
          Vdpu34x.Avc.references, hmap]
        change (StepResult.ofExcept (packRegion _ _ _ _)).failure = none
        rw [Vdpu34x.Avc.refSetFields] at hpacked
        rw [hpacked]
        rfl
  rw [runSteps_singleton, he.tables]
  exact ⟨_, Emission.run_eq_ok_iff.2
    ⟨⟨hsucceeds, List.all_eq_true.2 fun edit h => fits_of_mem he h⟩, rfl⟩⟩

/-- The frame number of a short-term reference is the one with its residue in the window up to the
number of the picture. Both generations are told its low sixteen bits at their own places, whatever
else is written, and short-term references with the same bits have the same residue. -/
theorem frame_numbers_told {p : Avc.Picture} {bind : Binding}
    (hlog : p.params.log2MaxFrameNumMinus4.toNat ≤ 12)
    (hnum : p.params.frameNum.toNat < 2 ^ (p.params.log2MaxFrameNumMinus4.toNat + 4))
    (hlength : bind.refs.length = Avc.maxRefs) :
    let max := 2 ^ (p.params.log2MaxFrameNumMinus4.toNat + 4)
    (∀ r : Avc.RefFrame, r.longTerm = false → r.frameIdx.toNat < max →
      ∃ wrap, p.params.frameNumWrap r = .ok wrap ∧
        Avc.Unwraps max p.params.frameNum.toNat r.frameIdx.toNat wrap ∧
        ∀ n, Avc.Unwraps max p.params.frameNum.toNat r.frameIdx.toNat n → n = wrap) ∧
      (∀ r : Avc.RefFrame, r.longTerm = true → p.params.frameNumWrap r = .ok r.frameIdx.toNat) ∧
      (∀ (g : Generation) (e : Emission), e.Suits g →
        (∃ e', g.runSteps (.avc p) bind [.references] e = (.ok (), e')) ∧
        ∀ steps e', .references ∈ steps → g.runSteps (.avc p) bind steps e = (.ok (), e') →
          ∀ i < 16, g.frameNumCode? e' i = some (p.params.frameNumCode i)) ∧
      (∀ i r, p.params.refs.toList[i]? = some r →
        ∃ wrap, p.params.frameNumWrap r = .ok wrap ∧
          (p.params.frameNumCode i : Int) = wrap % (2 ^ 16 : Nat)) ∧
      ∀ i j r s, p.params.refs.toList[i]? = some r → p.params.refs.toList[j]? = some s →
        r.longTerm = false → s.longTerm = false →
        r.frameIdx.toNat < max → s.frameIdx.toNat < max →
          p.params.frameNumCode i = p.params.frameNumCode j → r.frameIdx = s.frameIdx := by
  intro max
  have hmodulus : p.params.log2MaxFrameNumMinus4.toNat < 16 := by omega
  have hmax : p.params.maxFrameNum = .ok max := (Avc.maxFrameNum_eq hmodulus).1
  have hdvd : max ∣ 2 ^ 16 := Nat.pow_dvd_pow 2 (by omega)
  have hword : max < 2 ^ 31 := Nat.lt_of_le_of_lt (Nat.le_of_dvd (by decide) hdvd) (by decide)
  have hshort : ∀ r : Avc.RefFrame, r.longTerm = false → r.frameIdx.toNat < max →
      ∃ wrap, p.params.frameNumWrap r = .ok wrap ∧
        Avc.Unwraps max p.params.frameNum.toNat r.frameIdx.toNat wrap := fun r hr hidx =>
    Avc.Params.frameNumWrap_of_shortTerm hmax hword hnum hr hidx
  refine ⟨fun r hr hidx => ?_, fun r hr => Avc.Params.frameNumWrap_of_longTerm hr,
    fun g e he => ⟨references_ok hmodulus he bind, ?_⟩, fun i r hr => ?_,
    fun i j r s hr hs hrshort hsshort hridx hsidx hcode => ?_⟩
  · obtain ⟨wrap, hwrap, hwindow⟩ := hshort r hr hidx
    exact ⟨wrap, hwrap, hwindow, fun n hn => hn.unique hwindow⟩
  · intro steps e' hstep hrun i hi
    have hlt : i < p.params.refs.toList.length := hi.trans_eq Vector.length_toList.symm
    have hframe := List.getElem?_eq_getElem hlt
    obtain ⟨wrap, hwrap, htold⟩ := frameNumCode?_of_runSteps he.image hrun hstep hlength hframe
    rw [htold, Avc.Params.frameNumCode_eq hframe hwrap]
  · cases hwrap : p.params.frameNumWrap r with
    | error f => exact absurd hwrap (Avc.frameNumWrap_ne_error hmodulus r f)
    | ok wrap =>
      refine ⟨wrap, rfl, ?_⟩
      rw [Avc.Params.frameNumCode_eq hr hwrap]
      exact natCast_twosComplement 16 wrap
  · obtain ⟨wrap, hwrap, hwindow⟩ := hshort r hrshort hridx
    obtain ⟨wrap', hwrap', hwindow'⟩ := hshort s hsshort hsidx
    rw [Avc.Params.frameNumCode_eq hr hwrap, Avc.Params.frameNumCode_eq hs hwrap'] at hcode
    exact UInt16.toNat_inj.1 (hwindow.idx_eq hdvd hridx hsidx hwindow' hcode)

def wrappedPicture : Avc.Picture where
  params :=
    { log2MaxFrameNumMinus4 := 12
      frameNum := 40001
      refs := ((Vector.replicate 16 {}).setIfInBounds 0
        { slot := some 1, frameIdx := 40000 }).setIfInBounds 1 { slot := some 2, frameIdx := 40002 } }

def wrappedBinding : Binding :=
  { output := {}
    refs := resolveReferences wrappedPicture.params.referenceSlots Bench.frames {} 0 }

/-- The number of the second reference is negative and would need a seventeenth bit for its sign. -/
theorem frame_numbers_told_wrapped :
    wrappedPicture.params.frameNumWrap { slot := some 2, frameIdx := 40002 } = .ok (-25534) ∧
      ∀ g : Generation, ∃ e',
        g.runSteps (.avc wrappedPicture) wrappedBinding [.references]
            { image := g.blankImage, tables := { handle := 7, size := tableBufferSize } } =
          (.ok (), e') ∧
          g.frameNumCode? e' 0 = some 40000 ∧ g.frameNumCode? e' 1 = some 40002 := by
  have hlength : wrappedBinding.refs.length = Avc.maxRefs := length_resolveReferences ..
  obtain ⟨-, -, htold, -⟩ :=
    frame_numbers_told (p := wrappedPicture) (by decide) (by decide) hlength
  refine ⟨by decide +kernel, fun g => ?_⟩
  obtain ⟨⟨e', hrun⟩, hall⟩ := htold g
    { image := g.blankImage, tables := { handle := 7, size := tableBufferSize } } ⟨rfl, rfl⟩
  have hcode := hall [.references] e' (.head _) hrun
  have hfirst : wrappedPicture.params.frameNumCode 0 = 40000 := by decide +kernel
  have hsecond : wrappedPicture.params.frameNumCode 1 = 40002 := by decide +kernel
  refine ⟨e', hrun, ?_, ?_⟩
  · rw [hcode 0 (by decide), hfirst]
  · rw [hcode 1 (by decide), hsecond]

end Generation

end VideoAccel
