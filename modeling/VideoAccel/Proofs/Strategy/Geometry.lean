import VideoAccel.Proofs.Frame.Strides
import VideoAccel.Proofs.Register.Cells
import VideoAccel.Proofs.Strategy.Writes

namespace VideoAccel

structure FrameStrides where
  lumaRow : Nat
  chromaRow : Nat
  lumaPlane : Nat
  /-- All planes together, where the hardware is told. -/
  picture : Option Nat
  deriving DecidableEq, Repr

def Frame.strides (f : Frame) : Generation → FrameStrides
  | .rkv => ⟨f.horStride, f.horStride, f.lumaSize, some f.pictureSize⟩
  | .vdpu34x => ⟨f.horStride, f.horStride, f.lumaSize, none⟩

def RegisterImage.readUnits (image : RegisterImage) (reg : Nat) (f : RegisterField) : Nat :=
  (f.read ((image.get? reg).getD 0)).toNat * 16

def RegisterWrite.SparedBy (w w' : RegisterWrite) : Prop :=
  w'.reg = w.reg → w'.field.shift < 32 ∧
    (w'.field = w.field ∧ w'.value = w.value ∨ w'.field.shift + w'.field.width ≤ w.field.shift ∨
      w.field.shift + w.field.width ≤ w'.field.shift)

namespace RegisterWrite.SparedBy

variable {w w' : RegisterWrite}

theorem keepsTo (h : w.SparedBy w') : RegisterImage.KeepsTo w' w.reg w.field := by
  intro hreg
  obtain ⟨hshift, hkind⟩ := h hreg
  exact ⟨.inl hshift, hkind.imp And.left RegisterField.apart_of_le⟩

theorem value_eq (h : w.SparedBy w') {value : Nat}
    (hsets : w'.sets? w.reg w.field = some value) :
    value = w.value.toNat % 2 ^ w.field.width := by
  rw [sets?] at hsets
  split at hsets
  · rename_i hplace
    obtain ⟨hreg, hfield⟩ := hplace
    obtain rfl := Option.some.inj hsets
    obtain ⟨-, ⟨-, hvalue⟩ | hapart⟩ := h hreg
    · rw [hvalue]
    · -- a field that keeps off itself is empty
      have hempty : w.field.width = 0 := by
        rw [hfield] at hapart
        omega
      rw [hempty, Nat.pow_zero, Nat.mod_one, Nat.mod_one]
  · cases hsets

end RegisterWrite.SparedBy

namespace Generation

/-- The strides as the hardware reads them. -/
def readStrides (g : Generation) (image : RegisterImage) : FrameStrides :=
  match g with
  | .rkv =>
    ⟨image.readUnits Rkv.Reg.strides Rkv.lumaStrideField,
      image.readUnits Rkv.Reg.strides Rkv.chromaStrideField,
      image.readUnits Rkv.Reg.lumaStride .word,
      some (image.readUnits Rkv.Reg.pictureStride .word)⟩
  | .vdpu34x =>
    ⟨image.readUnits Vdpu34x.Reg.lumaRowStride .word,
      image.readUnits Vdpu34x.Reg.chromaRowStride .word,
      image.readUnits Vdpu34x.Reg.lumaStride .word, none⟩

def strideWrites (g : Generation) (output : Frame) : List RegisterWrite :=
  let row := (output.horStride / 16).toUInt32
  match g with
  | .rkv =>
    [⟨Rkv.Reg.strides, Rkv.lumaStrideField, row⟩, ⟨Rkv.Reg.strides, Rkv.chromaStrideField, row⟩,
      .word Rkv.Reg.lumaStride (output.lumaSize / 16).toUInt32,
      .word Rkv.Reg.pictureStride (output.pictureSize / 16).toUInt32]
  | .vdpu34x =>
    [.word Vdpu34x.Reg.lumaRowStride row, .word Vdpu34x.Reg.chromaRowStride row,
      .word Vdpu34x.Reg.lumaStride (output.lumaSize / 16).toUInt32]

/-- What the registers tell of the stride of a row: the first generation drops all bits but ten. -/
def shownRow : Generation → Nat → Nat
  | .rkv, stride => stride % 0x4000
  | .vdpu34x, stride => stride

end Generation

theorem Rkv.sparedBy_geometry (output : Frame) (mode : UInt32) :
    ∀ w ∈ Generation.rkv.strideWrites output, ∀ w' ∈ geometryWrites output mode,
      w.SparedBy w' := by
  simp [Generation.strideWrites, geometryWrites, RegisterWrite.SparedBy, RegisterWrite.word,
    RegisterWrite.flag, RegisterField.word, RegisterField.bit, Reg.strides, Reg.control,
    Reg.lumaStride, Reg.pictureStride, Reg.interrupt, lumaStrideField, chromaStrideField]

theorem Vdpu34x.reg_of_mem_extras {output : Frame} {w : RegisterWrite}
    (h : .register w ∈ compressedEdits output ++ thumbnailEdits output) :
    w.reg ∈ [Reg.importantEnable, Reg.compressedHeaderStride, Reg.compressedPayloadBase,
      Reg.thumbnailBase] := by
  have hpatch : ∀ reg offset, .register w ∉ patchEdits reg offset := by
    intro reg offset h
    cases (Edit.mem_patchEdits h).1
  simp only [compressedEdits, thumbnailEdits, List.mem_append] at h
  split at h <;> split at h <;> simp [hpatch] at h <;>
    grind [RegisterWrite.flag, RegisterWrite.word]

theorem Vdpu34x.sparedBy_geometry (bind : Binding) (mode : UInt32) :
    ∀ w ∈ Generation.vdpu34x.strideWrites bind.output, ∀ w',
      .register w' ∈ geometryEdits bind mode → w.SparedBy w' := by
  intro w hw w' hw' hreg
  by_cases hextra : .register w' ∈ compressedEdits bind.output ++ thumbnailEdits bind.output
  · have hmem := reg_of_mem_extras hextra
    rw [hreg] at hmem
    revert w
    simp [Generation.strideWrites, RegisterWrite.word, Reg.importantEnable,
      Reg.compressedHeaderStride, Reg.compressedPayloadBase, Reg.thumbnailBase, Reg.lumaRowStride,
      Reg.chromaRowStride, Reg.lumaStride]
  · simp only [List.mem_append, not_or] at hextra
    simp only [geometryEdits, List.mem_append, hextra, or_false, List.mem_cons,
      List.not_mem_nil, Edit.register.injEq] at hw'
    revert w
    obtain (rfl | rfl | rfl | rfl | rfl | rfl | rfl | rfl | rfl) | rfl | rfl := hw' <;>
      simp [Generation.strideWrites, RegisterWrite.word, RegisterWrite.flag, RegisterField.word,
        Reg.decodeMode, Reg.streamLength, Reg.timeoutThreshold, Reg.lumaRowStride,
        Reg.chromaRowStride, Reg.lumaStride, Reg.importantEnable, Reg.performanceControl,
        Reg.decodeEnable]

namespace Generation

variable {g : Generation} {picture : CodedPicture} {bind : Binding} {steps : List GenerationStep}
  {e e' : Emission} {size : Nat}

theorem step_eq_geometry {reg : Nat} {step : GenerationStep} {edit : Edit}
    (hedit : edit ∈ (g.stepResult picture bind size step).edits) (hreg : edit.reg? = some reg)
    (hzone : g.InZone .geometry reg) : step = .geometry := by
  cases g.made_of_mem _ _ _ _ edit hedit with
  | header | refTable | scaling => cases hreg
  | reference _ h | stream _ h =>
    cases hreg
    cases hzone.unique h
  | refBase _ _ _ hi =>
    cases hreg
    cases hzone.unique (g.inZone_refBases hi)
  | motion _ _ _ h hg =>
    subst hg
    cases hzone.unique (inZone_motion h hreg)
  | tableBase _ _ h =>
    cases hreg
    cases hzone.unique (inZone_tables h)
  | tablePatch _ _ _ h hpatch =>
    obtain ⟨rfl, -⟩ := Edit.mem_patchEdits hpatch
    cases hreg
    cases hzone.unique (inZone_tables h)
  | region _ _ hreg' h =>
    cases hreg.symm.trans hreg'
    cases hzone.unique h
  | geometry => rfl

theorem strideWrites_of_geometry (g : Generation) (picture : CodedPicture) (bind : Binding)
    (size : Nat) :
    ∀ w ∈ g.strideWrites bind.output,
      .register w ∈ (g.stepResult picture bind size .geometry).edits ∧
        ∀ w', .register w' ∈ (g.stepResult picture bind size .geometry).edits →
          w.SparedBy w' := by
  intro w hw
  cases g with
  | rkv =>
    obtain ⟨mode, hedits⟩ : ∃ mode, (rkv.stepResult picture bind size .geometry).edits =
        (Rkv.geometryWrites bind.output mode).map .register := by
      cases picture <;> exact ⟨_, rfl⟩
    have hmade : w ∈ Rkv.geometryWrites bind.output mode := by
      simp only [strideWrites, List.mem_cons, List.not_mem_nil, or_false] at hw
      simp only [Rkv.geometryWrites, List.mem_cons]
      grind
    rw [hedits]
    refine ⟨List.mem_map_of_mem hmade, fun w' hw' => ?_⟩
    obtain ⟨_, hmem, ⟨⟩⟩ := List.mem_map.1 hw'
    exact Rkv.sparedBy_geometry _ _ w hw w' hmem
  | vdpu34x =>
    obtain ⟨mode, hedits⟩ : ∃ mode, (vdpu34x.stepResult picture bind size .geometry).edits =
        Vdpu34x.geometryEdits bind mode := by
      cases picture <;> exact ⟨_, rfl⟩
    rw [hedits]
    refine ⟨?_, Vdpu34x.sparedBy_geometry bind mode w hw⟩
    simp only [strideWrites, List.mem_cons, List.not_mem_nil, or_false] at hw
    simp only [Vdpu34x.geometryEdits, List.mem_append, List.mem_cons, Edit.register.injEq]
    grind

theorem inside_strideWrites (g : Generation) (output : Frame) :
    ∀ w ∈ g.strideWrites output, g.InZone .geometry w.reg ∧ w.field.Inside := by
  have hword : RegisterField.word.Inside := by decide
  cases g with
  | rkv =>
    simp only [strideWrites, List.forall_mem_cons]
    exact ⟨⟨by decide, by decide⟩, ⟨by decide, by decide⟩, ⟨.word (by decide) _, hword⟩,
      ⟨.word (by decide) _, hword⟩, List.forall_mem_nil _⟩
  | vdpu34x =>
    simp only [strideWrites, List.forall_mem_cons]
    exact ⟨⟨.word (by decide) _, hword⟩, ⟨.word (by decide) _, hword⟩, ⟨.word (by decide) _, hword⟩,
      List.forall_mem_nil _⟩

theorem readUnits_of_runSteps (himage : e.image = g.blankImage)
    (hrun : g.runSteps picture bind steps e = (.ok (), e')) (hstep : .geometry ∈ steps)
    {w : RegisterWrite} (hw : w ∈ g.strideWrites bind.output) :
    e'.image.readUnits w.reg w.field = w.value.toNat % 2 ^ w.field.width * 16 := by
  obtain ⟨hzone, hinside⟩ := g.inside_strideWrites bind.output w hw
  obtain ⟨hmade, hspared⟩ := g.strideWrites_of_geometry picture bind e.tables.size w hw
  have hothers : ∀ w' ∈ g.stepWrites picture bind e.tables.size steps, w.SparedBy w' := by
    intro w' hw' hreg
    obtain ⟨step, -, hedit⟩ := mem_stepWrites.1 hw'
    obtain rfl := step_eq_geometry hedit rfl (hreg ▸ hzone)
    exact hspared w' hedit hreg
  have hsets : (w.sets? w.reg w.field).isSome = true := by
    rw [RegisterWrite.sets?, if_pos ⟨rfl, rfl⟩]
    rfl
  have hvalue := RegisterImage.fieldValue?_writeAll_of_written g.blankImage hinside
    (isSome_get?_blankImage hzone) (fun w' hw' => (hothers w' hw').keepsTo)
    (fun w' hw' value h => (hothers w' hw').value_eq h)
    ⟨w, mem_stepWrites.2 ⟨_, hstep, hmade⟩, hsets⟩
  obtain ⟨word, hword, hread⟩ := Option.map_eq_some_iff.1 hvalue
  rw [RegisterImage.readUnits, image_of_runSteps himage hrun, hword, Option.getD_some, hread]

theorem toNat_units {stride : Nat} (hdvd : 16 ∣ stride) (hlt : stride < 2 ^ 36) (width : Nat) :
    (stride / 16).toUInt32.toNat % 2 ^ width * 16 = stride % (2 ^ width * 16) := by
  have hunits : stride / 16 < UInt32.size :=
    Nat.div_lt_of_lt_mul (Nat.lt_of_lt_of_le hlt (by decide))
  rw [Nat.toUInt32, UInt32.toNat_ofNat_of_lt' hunits, ← Nat.mul_mod_mul_right,
    Nat.div_mul_cancel hdvd]

variable {f : Frame} {c : AlignmentClass}

/-- The strides of an aligned frame are told exactly, but for the rows of the first generation. -/
theorem readStrides_of_runSteps (himage : e.image = g.blankImage)
    (hrun : g.runSteps picture bind steps e = (.ok (), e')) (hstep : .geometry ∈ steps)
    (houtput : bind.output = f.aligned c) (hwidth : f.resolution.width < 2 ^ 32)
    (hsize : (f.aligned c).lumaSize < 2 ^ 32) :
    g.readStrides e'.image =
      { (f.aligned c).strides g with
        lumaRow := g.shownRow (f.aligned c).horStride
        chromaRow := g.shownRow (f.aligned c).horStride } := by
  have hread : ∀ reg field stride, 16 ∣ stride → stride < 2 ^ 36 →
      ⟨reg, field, (stride / 16).toUInt32⟩ ∈ g.strideWrites (f.aligned c) →
      e'.image.readUnits reg field = stride % (2 ^ field.width * 16) := by
    intro reg field stride hdvd hlt hw
    rw [← houtput] at hw
    exact (readUnits_of_runSteps himage hrun hstep hw).trans (toNat_units hdvd hlt _)
  have hrow := f.horStride_aligned_lt c hwidth
  have hall := f.pictureSize_aligned_le c
  have hrowUnits := f.dvd_horStride_aligned c
  have hplaneUnits := Nat.dvd_trans (by decide : 16 ∣ 256) (f.dvd_lumaSize_aligned c)
  have hallUnits := f.dvd_pictureSize_aligned c
  have hwhole : ∀ n < 2 ^ 36, n % (2 ^ RegisterField.word.width * 16) = n := by
    intro n hn
    exact Nat.mod_eq_of_lt hn
  generalize f.aligned c = output at *
  cases g with
  | rkv =>
    have hluma := hread Rkv.Reg.strides Rkv.lumaStrideField _ hrowUnits (by omega)
      (by simp [strideWrites])
    have hchroma := hread Rkv.Reg.strides Rkv.chromaStrideField _ hrowUnits (by omega)
      (by simp [strideWrites])
    have hplane := hread Rkv.Reg.lumaStride .word _ hplaneUnits (by omega)
      (by simp [strideWrites, RegisterWrite.word])
    have hpicture := hread Rkv.Reg.pictureStride .word _ hallUnits (by omega)
      (by simp [strideWrites, RegisterWrite.word])
    rw [hwhole _ (by omega)] at hplane hpicture
    rw [readStrides, hluma, hchroma, hplane, hpicture]
    rfl
  | vdpu34x =>
    have hluma := hread Vdpu34x.Reg.lumaRowStride .word _ hrowUnits (by omega)
      (by simp [strideWrites, RegisterWrite.word])
    have hchroma := hread Vdpu34x.Reg.chromaRowStride .word _ hrowUnits (by omega)
      (by simp [strideWrites, RegisterWrite.word])
    have hplane := hread Vdpu34x.Reg.lumaStride .word _ hplaneUnits (by omega)
      (by simp [strideWrites, RegisterWrite.word])
    rw [hwhole _ (by omega)] at hluma hchroma hplane
    rw [readStrides, hluma, hchroma, hplane]
    rfl

theorem shownRow_eq_iff (g : Generation) (output : Frame) :
    { output.strides g with
        lumaRow := g.shownRow output.horStride, chromaRow := g.shownRow output.horStride } =
      output.strides g ↔ (g = .rkv → output.horStride < 0x4000) := by
  cases g with
  | rkv =>
    simp only [Frame.strides, shownRow, FrameStrides.mk.injEq, and_self, and_true, true_implies]
    omega
  | vdpu34x => simp [Frame.strides, shownRow]

end Generation

end VideoAccel
