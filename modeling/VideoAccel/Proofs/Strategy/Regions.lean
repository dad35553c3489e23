import VideoAccel.Backend.Fill
import VideoAccel.Proofs.Backend.Announcement
import VideoAccel.Proofs.Strategy.RegionWrites

namespace VideoAccel

/-- The auxiliary memory of a set, bound for a picture of either coding standard. -/
def CodedPicture.auxBinding? (picture : CodedPicture) (g : Generation) (slot : Nat) (b : Backend) :
    Option AuxBinding :=
  match picture with
  | .avc _ => Engine.auxBinding? g.avc slot b
  | .hevc _ => Engine.auxBinding? g.hevc slot b

def Vdpu34x.scratchPolicyFor : CodingStandard → ScratchPolicy
  | .avc => .largestFirst
  | .hevc => .priority Hevc.scratchOrder

/-- Depths of a byte and three planes make a region at most 96 times as large as eight-bit luma. -/
theorem RegionFormula.size_le (f : RegionFormula) (key : LayoutKey)
    (h : f.baseSize key.resolution ≤ 0x200000) : f.size key ≤ 0x10000000 := by
  have hscaled : scaledSize (f.baseSize key.resolution) key.bitDepth key.chroma ≤ 0xc000000 := by
    have hdepth : f.baseSize key.resolution * key.bitDepth.toNat ≤ 0x200000 * 255 :=
      Nat.mul_le_mul h (Nat.le_of_lt_succ key.bitDepth.toNat_lt)
    have hbytes : ceilDiv (f.baseSize key.resolution * key.bitDepth.toNat) 8 ≤ 0x4000000 :=
      Nat.le_trans (ceilDiv_mono 8 hdepth) (by decide)
    simp only [scaledSize]
    refine Nat.le_trans (ceilDiv_mono _ (Nat.mul_le_mul_right _ hbytes)) ?_
    cases key.chroma <;> decide
  have hround := alignUp_le
    (if f.scaled then scaledSize (f.baseSize key.resolution) key.bitDepth key.chroma
      else f.baseSize key.resolution) dmaAlignment
  refine Nat.le_trans hround ?_
  simp only [dmaAlignment]
  split <;> omega

def CodingStandard.maxSide : CodingStandard → Nat
  | .avc => 0x100000
  | .hevc => 0xffff

/-- The sides of a picture are given in sixteen bits, for H.264 as a number of macroblocks. -/
theorem CodedPicture.resolution_le {picture : CodedPicture} {format : PictureFormat}
    (h : picture.format = .ok format) :
    format.resolution.width ≤ picture.standard.maxSide ∧
      format.resolution.height ≤ picture.standard.maxSide := by
  cases picture with
  | avc p =>
    have hwidth := p.params.picWidthInMbsMinus1.toNat_lt
    have hheight := p.params.frameHeightInMbsMinus1.toNat_lt
    simp only [CodedPicture.format, Avc.Params.format] at h
    split at h <;> cases h
    simp only [Avc.Params.resolution, CodedPicture.standard,
      CodingStandard.maxSide]
    omega
  | hevc p =>
    have hwidth := p.params.picWidthInLumaSamples.toNat_lt
    have hheight := p.params.picHeightInLumaSamples.toNat_lt
    simp only [CodedPicture.format, Hevc.Params.format] at h
    split at h <;> cases h
    simp only [Hevc.Params.resolution, CodedPicture.standard,
      CodingStandard.maxSide]
    omega

theorem CodedPicture.regionSize_le {picture : CodedPicture} {format : PictureFormat}
    {key : LayoutKey} (h : picture.format = .ok format)
    (hresolution : key.resolution = format.resolution) :
    ∀ f ∈ Vdpu34x.regionsFor picture.standard, f.size key ≤ 0x10000000 := by
  intro f hf
  apply f.size_le
  obtain ⟨hwidth, hheight⟩ := CodedPicture.resolution_le h
  have hside : f.dimension key.resolution ≤ picture.standard.maxSide := by
    rw [hresolution, RegionFormula.dimension]
    split
    · exact hwidth
    · exact hheight
  have hblocks : ∀ f ∈ Vdpu34x.regionsFor picture.standard,
      ceilDiv picture.standard.maxSide f.unit * f.bytesPerUnit ≤ 0x200000 := by
    generalize picture.standard = standard
    cases standard <;> decide
  exact Nat.le_trans (Nat.mul_le_mul_right _ (ceilDiv_mono f.unit hside)) (hblocks f hf)

/-- The binding of a picture: its policy chooses regions for scratch memory, if there is any. -/
theorem CodedPicture.auxBinding?_eq {picture : CodedPicture} {b : Backend} {slot : Nat}
    {layout : AuxLayout} {buffer : DeviceBuffer} (hlayout : b.aux.layout = some layout)
    (hbuffer : b.aux.buffer? slot = some buffer) :
    picture.auxBinding? .vdpu34x slot b = some (match b.scratch with
      | none => { handle := buffer.handle, layout }
      | some memory =>
        { handle := buffer.handle, layout
          scratch := (Vdpu34x.scratchPolicyFor picture.standard).select layout memory.size
          scratchHandle := memory.handle }) := by
  cases picture <;> cases hscratch : b.scratch <;>
    simp only [auxBinding?, Engine.auxBinding?, hlayout, hbuffer, hscratch] <;> rfl

/-- Every region that the hardware finds lies inside the auxiliary buffer or the scratch memory and
has its size; regions in one memory do not overlap. -/
structure Emission.RegionsSeparate (e : Emission) (layout : AuxLayout) (buffer : UInt32)
    (scratch : Option ScratchMemory) : Prop where
  inside : ∀ x ∈ layout.regions, ∃ span, e.regionSpan? x.1 = some span ∧ span.size = x.2.size ∧
    (span.handle = buffer ∧ span.stop ≤ layout.totalSize ∨
      ∃ memory, scratch = some memory ∧ span.handle = memory.handle ∧ span.stop ≤ memory.size)
  apart : ∀ x ∈ layout.regions, ∀ y ∈ layout.regions, x.1 ≠ y.1 → ∀ span span',
    e.regionSpan? x.1 = some span → e.regionSpan? y.1 = some span' → span.handle = span'.handle →
      span.stop ≤ span'.offset ∨ span'.stop ≤ span.offset

namespace Vdpu34x

variable {picture : CodedPicture} {bind : Binding} {aux : AuxBinding} {steps : List GenerationStep}
  {e e' : Emission}

/-- What holds of the places of regions holds of the registers if these can express the places. -/
theorem regionsSeparate_of_sound {capacity : Nat} {scratch : Option ScratchMemory}
    (hsound : aux.Sound capacity)
    (hscratch : aux.scratch ≠ [] →
      ∃ memory, scratch = some memory ∧ aux.scratchHandle = memory.handle ∧ capacity = memory.size)
    (hsize : ∀ x ∈ aux.layout.regions, x.2.size < Nat.pow 2 32 ∧ 16 ∣ x.2.size)
    (hoffset : ∀ x ∈ aux.layout.regions, ∀ place, aux.locate x.1 = some place →
      place.2 < Nat.pow 2 32)
    (haux : bind.aux = some aux) (himage : e.image = Generation.vdpu34x.blankImage)
    (hpatches : e.patches = []) (hcount : steps.count .addresses = 1)
    (hrun : Generation.vdpu34x.runSteps picture bind steps e = (.ok (), e')) :
    e'.RegionsSeparate aux.layout aux.handle scratch := by
  have hspan : ∀ x ∈ aux.layout.regions, ∀ handle offset,
      aux.locate x.1 = some (handle, offset) →
        e'.regionSpan? x.1 = some ⟨handle, offset, x.2.size⟩ := fun x hx handle offset hlocate =>
    regionSpan?_of_runSteps haux hsound.layout hx hlocate (hsize x hx).1 (hsize x hx).2
      (hoffset x hx _ hlocate) himage hpatches hcount hrun
  constructor
  · intro x hx
    obtain ⟨handle, offset, hlocate, hplace⟩ := hsound.exists_place hx
    refine ⟨_, hspan x hx handle offset hlocate, rfl, ?_⟩
    obtain ⟨rfl, hinside⟩ | ⟨hne, rfl, hinside⟩ := hplace
    · exact .inl ⟨rfl, hinside⟩
    · obtain ⟨memory, hmemory, hhandle, rfl⟩ := hscratch hne
      exact .inr ⟨memory, hmemory, hhandle, hinside⟩
  · intro x hx y hy hne span span' hx' hy' hhandle
    obtain ⟨handle, offset, hlocate, -⟩ := hsound.exists_place hx
    obtain ⟨handle', offset', hlocate', -⟩ := hsound.exists_place hy
    obtain rfl := Option.some.inj ((hspan x hx handle offset hlocate).symm.trans hx')
    obtain rfl := Option.some.inj ((hspan y hy handle' offset' hlocate').symm.trans hy')
    obtain rfl : handle = handle' := hhandle
    exact hsound.locate_apart hx hy hne hlocate hlocate'

section

variable {format : PictureFormat} {key : LayoutKey}

/-- The layout of a picture for its coding standard. -/
def layoutFor (standard : CodingStandard) (key : LayoutKey) : AuxLayout :=
  AuxLayout.compute (regionsFor standard) key

theorem size_layoutFor (hformat : picture.format = .ok format)
    (hresolution : key.resolution = format.resolution) :
    ∀ x ∈ (layoutFor picture.standard key).regions, x.2.size ≤ 0x10000000 ∧ 16 ∣ x.2.size := by
  intro x hx
  obtain ⟨f, hf, -, heq⟩ := AuxLayout.exists_formula hx
  rw [heq]
  exact ⟨CodedPicture.regionSize_le hformat hresolution f hf,
    Nat.dvd_trans (by decide) (f.dvd_size key)⟩

theorem offset_layoutFor (hformat : picture.format = .ok format)
    (hresolution : key.resolution = format.resolution) :
    ∀ x ∈ (layoutFor picture.standard key).regions, x.2.offset < Nat.pow 2 32 := by
  intro x hx
  have hinside := (AuxLayout.compute_separate _ key).inside x hx
  have htotal := AuxLayout.totalSize_compute_le (CodedPicture.regionSize_le hformat hresolution)
  have hbound : (regionsFor picture.standard).length * (0x10000000 + pageAlignment) +
      pageAlignment < Nat.pow 2 32 := by
    generalize picture.standard = standard
    cases standard <;> decide
  exact Nat.lt_of_le_of_lt
    (Nat.le_trans (Nat.le_add_right _ _) (Nat.le_trans hinside htotal)) hbound

theorem candidates_le (standard : CodingStandard) (key : LayoutKey) :
    (scratchPolicyFor standard).candidates (layoutFor standard key) ≤ 10 := by
  cases standard with
  | avc => exact Nat.le_trans (AuxLayout.length_regions_le Avc.regions key) (by decide)
  | hevc => exact Nat.le_refl 10

theorem offset_select (hformat : picture.format = .ok format)
    (hresolution : key.resolution = format.resolution) (capacity : Nat) :
    ∀ x ∈ (scratchPolicyFor picture.standard).select (layoutFor picture.standard key) capacity,
      x.2 < Nat.pow 2 32 := by
  intro x hx
  have hle := ScratchPolicy.select_le (scratchPolicyFor picture.standard)
    (fun x hx => (size_layoutFor hformat hresolution x hx).1) x hx
  refine Nat.lt_of_le_of_lt (Nat.le_trans hle (Nat.mul_le_mul_right _ (candidates_le _ key))) ?_
  decide

end

/-- Every auxiliary region that the hardware is given lies inside its memory and overlaps no other
one, whatever the picture, the depth and the scratch memory are. -/
theorem auxiliaryRegions_separate {format : PictureFormat} {key : LayoutKey} {b : Backend}
    {slot : Nat} {buffer : DeviceBuffer} (hformat : picture.format = .ok format)
    (hresolution : key.resolution = format.resolution)
    (hlayout : b.aux.layout = some (layoutFor picture.standard key))
    (hbuffer : b.aux.buffer? slot = some buffer)
    (hscratch : ∀ memory, b.scratch = some memory → memory.handle ≠ buffer.handle)
    (haux : bind.aux = picture.auxBinding? .vdpu34x slot b)
    (himage : e.image = Generation.vdpu34x.blankImage) (hpatches : e.patches = []) :
    (∃ e', Generation.vdpu34x.runSteps picture bind [.addresses] e = (.ok (), e')) ∧
      ∀ steps, steps.count .addresses = 1 → ∀ e',
        Generation.vdpu34x.runSteps picture bind steps e = (.ok (), e') →
          e'.RegionsSeparate (layoutFor picture.standard key) buffer.handle b.scratch := by
  refine ⟨runSteps_addresses himage, fun steps hcount e' hrun => ?_⟩
  rw [CodedPicture.auxBinding?_eq hlayout hbuffer] at haux
  have hsep : (layoutFor picture.standard key).Separate := AuxLayout.compute_separate _ key
  have hoffset := offset_layoutFor hformat hresolution
  have hsize : ∀ x ∈ (layoutFor picture.standard key).regions,
      x.2.size < Nat.pow 2 32 ∧ 16 ∣ x.2.size := fun x hx =>
    have hle := size_layoutFor hformat hresolution x hx
    ⟨Nat.lt_of_le_of_lt hle.1 (by decide), hle.2⟩
  cases hmemory : b.scratch with
  | none =>
    rw [hmemory] at haux
    have hsound : AuxBinding.Sound { handle := buffer.handle, layout := _ } 0 :=
      ⟨hsep, .nil _ _ _, .inl rfl⟩
    refine regionsSeparate_of_sound hsound (fun h => absurd rfl h) hsize ?_ haux himage hpatches
      hcount hrun
    intro x hx place hplace
    obtain ⟨_, hlookup, _⟩ | ⟨-, hlocate⟩ := hsound.locate_cases hx
    · cases hlookup
    · cases hplace.symm.trans hlocate
      exact hoffset x hx
  | some memory =>
    rw [hmemory] at haux
    have hsound : AuxBinding.Sound
        { handle := buffer.handle, layout := _
          scratch := (scratchPolicyFor picture.standard).select _ memory.size
          scratchHandle := memory.handle } memory.size :=
      ⟨hsep, ScratchPolicy.select_fits _ hsep, .inr (hscratch memory hmemory)⟩
    refine regionsSeparate_of_sound hsound (fun _ => ⟨memory, rfl, rfl, rfl⟩) hsize ?_ haux himage
      hpatches hcount hrun
    intro x hx place hplace
    obtain ⟨offset, hlookup, hlocate⟩ | ⟨-, hlocate⟩ := hsound.locate_cases hx
    · cases hplace.symm.trans hlocate
      exact offset_select hformat hresolution memory.size _ (mem_of_lookup hlookup)
    · cases hplace.symm.trans hlocate
      exact hoffset x hx

end Vdpu34x

namespace Vdpu34x

namespace FullHd

/-- A picture of 120 by 68 macroblocks. -/
def picture : CodedPicture :=
  .avc { params := { picWidthInMbsMinus1 := 119, frameHeightInMbsMinus1 := 67 } }

def key : LayoutKey := { resolution := ⟨1920, 1088⟩ }

def buffer : DeviceBuffer := ⟨{ handle := 7, size := (layoutFor .avc key).totalSize }, .auxiliary⟩

/-- A backend whose scratch memory has room for some of the regions. -/
def backend : Backend :=
  { standard := .avc, generation := .vdpu34x
    aux := { key := some key, layout := some (layoutFor .avc key), buffers := [buffer] }
    scratch := some ⟨9, 0x2000⟩ }

def binding : Binding :=
  { output := { handle := 100, resolution := ⟨1920, 1088⟩, horStride := 1920, verStride := 1088 }
    aux := picture.auxBinding? .vdpu34x 0 backend }

def blank : Emission :=
  { image := Generation.vdpu34x.blankImage, tables := { handle := 1, size := tableBufferSize } }

end FullHd

theorem auxiliaryRegions_separate_fullHd :
    (∃ e', Generation.vdpu34x.runSteps FullHd.picture FullHd.binding [.addresses] FullHd.blank =
        (.ok (), e')) ∧
      ∀ steps, steps.count .addresses = 1 → ∀ e',
        Generation.vdpu34x.runSteps FullHd.picture FullHd.binding steps FullHd.blank =
            (.ok (), e') →
          e'.RegionsSeparate (layoutFor .avc FullHd.key) 7 (some ⟨9, 0x2000⟩) := by
  have hformat : FullHd.picture.format = .ok ⟨⟨1920, 1088⟩, 8, .yuv420⟩ := by decide
  have hlayout : FullHd.backend.aux.layout =
      some (layoutFor FullHd.picture.standard FullHd.key) := rfl
  have hbuffer : FullHd.backend.aux.buffer? 0 = some FullHd.buffer := rfl
  have hscratch : ∀ memory, FullHd.backend.scratch = some memory →
      memory.handle ≠ FullHd.buffer.handle := by
    rintro _ ⟨⟩
    decide
  exact auxiliaryRegions_separate hformat rfl hlayout hbuffer hscratch rfl rfl rfl

example :
    [RegionId.strmdRow, .interRow, .dblkRow].map
        (Generation.vdpu34x.runSteps FullHd.picture FullHd.binding [.addresses]
          FullHd.blank).2.regionSpan? =
      [some ⟨9, 5760, 960⟩, some ⟨7, 4096, 3840⟩, some ⟨9, 0, 5760⟩] := by
  decide +kernel

end Vdpu34x

end VideoAccel
