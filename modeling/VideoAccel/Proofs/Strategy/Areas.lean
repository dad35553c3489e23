import VideoAccel.Proofs.Frame.Strides
import VideoAccel.Proofs.Strategy.Offsets

namespace VideoAccel

/-- What the hardware finds behind an address register: a memory and the offset of the place in it.
-/
def Emission.place? (e : Emission) (reg : Nat) : Option (UInt32 × Nat) :=
  (e.image.get? reg).map fun handle => (handle, addressOffset e.patches reg)

namespace Frame

def chromaRows (f : Frame) : Nat :=
  match f.chroma with
  | .monochrome => 0
  | .yuv420 => f.verStride / 2
  | .yuv422 => f.verStride
  | .yuv444 => 2 * f.verStride

def rasterEnd (f : Frame) : Nat := f.horStride * (f.verStride + f.chromaRows)

/-- The blocks of 64 by 16 samples that cover the frame. -/
def headerBlocks (f : Frame) : Nat :=
  ⌈(f.resolution.width : ℚ) / (64 : Nat)⌉₊ * ⌈(f.resolution.height : ℚ) / (16 : Nat)⌉₊

variable (f : Frame) (c : AlignmentClass)

theorem pictureSize_aligned_eq : (f.aligned c).pictureSize = (f.aligned c).rasterEnd := by
  have hrows : (f.aligned c).verStride = ceilDiv f.resolution.height 16 * 16 := rfl
  generalize f.aligned c = output at *
  simp only [pictureSize, lumaSize, rasterEnd, chromaRows, hrows]
  generalize ceilDiv f.resolution.height 16 = n
  cases output.chroma with
  | monochrome => simp only [ChromaFormat.sampleRatio, Nat.mul_one, Nat.div_one, Nat.add_zero]
  | yuv420 =>
    have hhalf : output.horStride * (n * 16) * 3 = output.horStride * (n * 24) * 2 := by ring
    have hsum : n * 16 + n * 16 / 2 = n * 24 := by omega
    simp only [ChromaFormat.sampleRatio, hhalf, hsum]
    exact Nat.mul_div_cancel _ (by decide)
  | yuv422 =>
    simp only [ChromaFormat.sampleRatio, Nat.div_one]
    ring
  | yuv444 =>
    simp only [ChromaFormat.sampleRatio, Nat.div_one]
    ring

theorem headerBlocks_eq :
    f.headerBlocks = ceilDiv f.resolution.width 64 * ceilDiv f.resolution.height 16 := by
  rw [headerBlocks, ceilDiv_eq_natCeil _ (by decide), ceilDiv_eq_natCeil _ (by decide)]

theorem headerBlocks_le_pictureSize (hwidth : 0 < f.resolution.width) :
    256 * f.headerBlocks ≤ (f.aligned c).pictureSize := by
  have hstride : 16 * ceilDiv f.resolution.width 64 ≤ (f.aligned c).horStride := by
    have hbytes : f.resolution.width ≤ f.resolution.width * f.bytesPerSample := by
      refine Nat.le_mul_of_pos_right _ ?_
      unfold bytesPerSample
      split <;> decide
    have hrow := Nat.le_trans hbytes (c.le_stride (f.resolution.width * f.bytesPerSample))
    obtain ⟨units, hunits⟩ := f.dvd_horStride_aligned c
    change _ ≤ (f.aligned c).horStride at hrow
    simp only [ceilDiv]
    omega
  have hluma : 256 * f.headerBlocks ≤ (f.aligned c).lumaSize := by
    calc 256 * f.headerBlocks
        = 16 * ceilDiv f.resolution.width 64 * (ceilDiv f.resolution.height 16 * 16) := by
          rw [headerBlocks_eq]
          ring
      _ ≤ (f.aligned c).lumaSize := Nat.mul_le_mul_right _ hstride
  rw [pictureSize_aligned_eq, rasterEnd, Nat.mul_add]
  exact Nat.le_trans hluma (Nat.le_add_right _ _)

end Frame

namespace Vdpu34x

variable {f : Frame} {c : AlignmentClass}

theorem headerSize_eq (hwidth : f.resolution.width < 2 ^ 32) :
    headerSize f = alignUp (16 * f.headerBlocks) 4096 := by
  have hstride : (headerStride f).toNat = ceilDiv f.resolution.width 64 * 16 := by
    have hlt : ceilDiv f.resolution.width 64 * 16 < UInt32.size := by
      have hsize : UInt32.size = 2 ^ 32 := rfl
      simp only [ceilDiv]
      omega
    rw [headerStride, alignUp, Nat.mul_div_cancel _ (by decide), Nat.toUInt32,
      UInt32.toNat_ofNat_of_lt' hlt]
  rw [headerSize, hstride, Frame.headerBlocks_eq]
  congr 1
  ring

/-- The payload is in front of the downscaled copy exactly if the planes fill more than a page, or
any byte at all where there is no header. -/
theorem headerSize_lt_pictureSize_iff (hwidth : f.resolution.width < 2 ^ 32) :
    headerSize (f.aligned c) < (f.aligned c).pictureSize ↔
      (if f.headerBlocks = 0 then 0 else 4096) < (f.aligned c).pictureSize := by
  have hheader : headerSize (f.aligned c) = alignUp (16 * f.headerBlocks) 4096 :=
    headerSize_eq (f := f.aligned c) hwidth
  rw [hheader]
  by_cases hempty : f.headerBlocks = 0
  · rw [if_pos hempty, hempty]
    exact Iff.rfl
  · have hpos : 0 < f.resolution.width := by
      refine Nat.pos_of_ne_zero fun hzero => hempty ?_
      rw [Frame.headerBlocks_eq, hzero]
      exact Nat.zero_mul _
    have hplanes := f.headerBlocks_le_pictureSize c hpos
    rw [if_neg hempty]
    -- a header of several pages has more than 256 entries, and the planes as many units of 256
    simp only [alignUp, ceilDiv]
    omega

section

variable {picture : CodedPicture} {bind : Binding} {steps : List GenerationStep} {e e' : Emission}
  {a : BaseAddress}

/-- Of the offsets for the areas of a frame, one at most is for the register of an area. -/
theorem filter_outputPatches {output : Frame} (ha : a ∈ outputAddresses output) :
    ((outputAddresses output).filterMap BaseAddress.patch?).filter (fun p => p.reg == a.reg) =
      a.patch?.toList := by
  have hdistinct := pairwise_outputAddresses output
  have hcount : (outputAddresses output).count a = 1 := by
    refine List.count_eq_one_of_mem (hdistinct.imp ?_) ha
    rintro b _ hne rfl
    exact hne rfl
  have hreg : ∀ (b : BaseAddress) (p : AddressOffset), b.patch? = some p → p.reg = b.reg := by
    intro b p hp
    obtain ⟨-, rfl⟩ := BaseAddress.eq_of_patch? hp
    rfl
  rw [List.filterMap_eq_flatMap_toList, List.filter_flatMap, flatMap_eq_of_count_one hcount]
  · refine List.filter_eq_self.2 fun p hp => ?_
    rw [beq_iff_eq]
    exact hreg a p (Option.mem_toList.1 hp)
  · intro b hb hne
    refine List.filter_eq_nil_iff.2 fun p hp => ?_
    rw [beq_iff_eq, hreg b p (Option.mem_toList.1 hp)]
    obtain hne | hne := or_of_pairwise hdistinct hb ha hne
    · exact hne
    · exact hne.symm

theorem addressOffset_of_runSteps (ha : a ∈ outputAddresses bind.output)
    (hoffset : a.offset < Nat.pow 2 32) (hpatches : e.patches = [])
    (hcount : steps.count .geometry = 1)
    (hrun : Generation.vdpu34x.runSteps picture bind steps e = (.ok (), e')) :
    addressOffset e'.patches a.reg = a.offset := by
  have hzone := inZone_areas (of_mem_outputAddresses ha).1
  have hon : (e'.patches.filter fun p => p.reg == a.reg) = a.patch?.toList := by
    rw [Generation.runSteps_ok hrun, Emission.applyAll_patches, hpatches, List.nil_append]
    change Edit.patchesOn _ _ = _
    rw [Edit.patchesOn_flatMap, flatMap_eq_of_count_one hcount, Edit.patchesOn,
      Generation.filterMap_stepResult]
    · exact filter_outputPatches ha
    · intro step _ hne
      rw [Edit.patchesOn, Generation.filterMap_stepResult]
      refine List.filter_eq_nil_iff.2 fun p hp hreg => ?_
      obtain ⟨b, hb, hpatch⟩ := List.mem_filterMap.1 hp
      obtain ⟨-, rfl⟩ := BaseAddress.eq_of_patch? hpatch
      rw [← beq_iff_eq.1 hreg] at hzone
      obtain ⟨-, hother | hother⟩ | ⟨hstep, -⟩ := Generation.inZone_of_mem_stepAddresses hb
      · cases hzone.unique hother
      · cases hzone.unique hother
      · exact hne hstep
  rw [addressOffset, hon, ← BaseAddress.filterMap_patchEdits, Edit.sum_patchEdits hoffset]

theorem place?_of_runSteps (ha : a ∈ outputAddresses bind.output)
    (hoffset : a.offset < Nat.pow 2 32) (himage : e.image = Generation.vdpu34x.blankImage)
    (hpatches : e.patches = []) (hcount : steps.count .geometry = 1)
    (hrun : Generation.vdpu34x.runSteps picture bind steps e = (.ok (), e')) :
    e'.place? a.reg = some (bind.output.handle, a.offset) := by
  obtain ⟨harea, hhandle⟩ := of_mem_outputAddresses ha
  have hstep : GenerationStep.geometry ∈ steps := List.count_pos_iff.1 (hcount ▸ Nat.one_pos)
  have hword : e'.image.get? a.reg = some bind.output.handle := by
    refine Generation.get?_of_written himage hrun (inZone_areas harea) (fun w hw hreg => ?_) ?_
    · rw [← hreg] at harea
      obtain ⟨mode, hedit⟩ := mem_geometryEdits_of_zone hw (inZone_areas harea)
      obtain ⟨b, hb, rfl⟩ := exists_of_geometryEdits hedit harea
      rw [(of_mem_outputAddresses hb).2, ← hreg]
      rfl
    · rw [← hhandle]
      exact Generation.mem_stepWrites.2
        ⟨_, hstep, Generation.mem_stepResult_of_mem_stepAddresses ha⟩
  rw [Emission.place?, hword, addressOffset_of_runSteps ha hoffset hpatches hcount hrun]
  rfl

/-- The areas of an output frame as they were stored: the payload starts at the first page behind
an entry of 16 bytes for each block, and the downscaled copy at the end of the raster planes. The
copy starts behind the start of the payload exactly if these planes fill more than a page, or
anything at all where there is no header. -/
theorem areas_of_runSteps (houtput : bind.output = f.aligned c)
    (hwidth : f.resolution.width < 2 ^ 32)
    (hpayload : f.layout = .compressed → headerSize (f.aligned c) < 2 ^ 32)
    (hcopy : f.thumbnail = .downscale → (f.aligned c).pictureSize < 2 ^ 32)
    (himage : e.image = Generation.vdpu34x.blankImage) (hpatches : e.patches = [])
    (hcount : steps.count .geometry = 1)
    (hrun : Generation.vdpu34x.runSteps picture bind steps e = (.ok (), e')) :
    (f.layout = .compressed → ∃ payload,
        e'.place? Reg.compressedPayloadBase = some (f.handle, payload) ∧
        IsLeast {m | 4096 ∣ m ∧ 16 * f.headerBlocks ≤ m} payload) ∧
      (f.thumbnail = .downscale → ∃ copy,
        e'.place? Reg.thumbnailBase = some (f.handle, copy) ∧ (f.aligned c).rasterEnd ≤ copy) ∧
      (f.layout = .compressed → f.thumbnail = .downscale → ∃ payload copy,
        e'.place? Reg.compressedPayloadBase = some (f.handle, payload) ∧
        e'.place? Reg.thumbnailBase = some (f.handle, copy) ∧
        (payload < copy ↔
          (if f.headerBlocks = 0 then 0 else 4096) < (f.aligned c).rasterEnd)) := by
  have hfound : ∀ a ∈ outputAddresses (f.aligned c), a.offset < Nat.pow 2 32 →
      e'.place? a.reg = some (f.handle, a.offset) := by
    intro a ha hoffset
    rw [← houtput] at ha
    have hplace := place?_of_runSteps ha hoffset himage hpatches hcount hrun
    rwa [houtput] at hplace
  have hfirst : f.layout = .compressed →
      e'.place? Reg.compressedPayloadBase = some (f.handle, headerSize (f.aligned c)) :=
    fun hcompressed => hfound ⟨Reg.compressedPayloadBase, f.handle, headerSize (f.aligned c)⟩
      (mem_outputAddresses.2 (.inl ⟨hcompressed, rfl⟩)) (hpayload hcompressed)
  have hsecond : f.thumbnail = .downscale →
      e'.place? Reg.thumbnailBase = some (f.handle, (f.aligned c).pictureSize) :=
    fun hdownscale => hfound ⟨Reg.thumbnailBase, f.handle, (f.aligned c).pictureSize⟩
      (mem_outputAddresses.2 (.inr ⟨hdownscale, rfl⟩)) (hcopy hdownscale)
  refine ⟨fun hcompressed => ⟨_, hfirst hcompressed, ?_⟩,
    fun hdownscale => ⟨_, hsecond hdownscale, Nat.le_of_eq (f.pictureSize_aligned_eq c).symm⟩,
    fun hcompressed hdownscale => ⟨_, _, hfirst hcompressed, hsecond hdownscale, ?_⟩⟩
  · have hheader : headerSize (f.aligned c) = alignUp (16 * f.headerBlocks) 4096 :=
      headerSize_eq (f := f.aligned c) hwidth
    rw [hheader]
    exact isLeast_alignUp _ (by decide)
  · rw [← f.pictureSize_aligned_eq c]
    exact headerSize_lt_pictureSize_iff hwidth

end

namespace OneBlock

def picture : CodedPicture :=
  .avc { params := { picWidthInMbsMinus1 := 0, frameHeightInMbsMinus1 := 0 } }

def frame : Frame :=
  { handle := 100, resolution := ⟨16, 16⟩, layout := .compressed, thumbnail := .downscale }

def binding : Binding := { output := frame.aligned .align64 }

end OneBlock

/-- The planes of a small picture end before the first page does, and its copy is in the header. -/
theorem copy_inside_header :
    (Generation.vdpu34x.runSteps OneBlock.picture OneBlock.binding GenerationStep.all
        FullHd.blank).1.isOk = true ∧
      (Generation.vdpu34x.runSteps OneBlock.picture OneBlock.binding GenerationStep.all
        FullHd.blank).2.place? Reg.compressedPayloadBase = some (100, 4096) ∧
      (Generation.vdpu34x.runSteps OneBlock.picture OneBlock.binding GenerationStep.all
        FullHd.blank).2.place? Reg.thumbnailBase = some (100, 1536) := by
  decide +kernel

open FullHd in
theorem areas_of_runSteps_fullHd :
    ∃ e', Generation.vdpu34x.runSteps picture richBinding GenerationStep.all blank =
        (.ok (), e') ∧
      ∃ payload copy, e'.place? Reg.compressedPayloadBase = some (100, payload) ∧
        e'.place? Reg.thumbnailBase = some (100, copy) ∧ payload < copy := by
  obtain ⟨e', hrun⟩ := Generation.exists_of_isOk
    (r := Generation.vdpu34x.runSteps picture richBinding GenerationStep.all blank)
    (by decide +kernel)
  obtain ⟨-, -, hboth⟩ := areas_of_runSteps (f := richBinding.output) (c := .align64) rfl
    (by decide +kernel) (fun _ => by decide +kernel) (fun _ => by decide +kernel) rfl rfl
    (by decide) hrun
  obtain ⟨payload, copy, hpayload, hcopy, hiff⟩ := hboth rfl rfl
  have hblocks : richBinding.output.headerBlocks = 30 * 68 := by
    rw [Frame.headerBlocks_eq]
    decide
  refine ⟨e', hrun, payload, copy, hpayload, hcopy, hiff.2 ?_⟩
  rw [hblocks]
  decide +kernel

end Vdpu34x

end VideoAccel
