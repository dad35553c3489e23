import VideoAccel.Motion
import VideoAccel.Proofs.Demand.Header
import VideoAccel.Proofs.Strategy.Regions

namespace VideoAccel

namespace RegionFormula

def demands (f : RegionFormula) (key : LayoutKey) : List Demand :=
  let bytes := f.baseSize key.resolution
  let deep := bytes * key.bitDepth.toNat
  let planes := ceilDiv deep 8 * key.chroma.sampleRatio.1
  ceilDivDemands 32 (f.dimension key.resolution) f.unit ++ [.word 64 bytes]
  ++ (if f.scaled then
      [.word 64 deep] ++ ceilDivDemands 64 deep 8 ++ [.word 64 planes]
      ++ ceilDivDemands 64 planes key.chroma.sampleRatio.2
    else [])
  ++ alignUpDemands (if f.scaled then scaledSize bytes key.bitDepth key.chroma else bytes)
    dmaAlignment

/-- The formula is one for pictures of the key: its blocks exist, and its bytes are at most two MiB
before they are scaled. -/
structure Suits (f : RegionFormula) (key : LayoutKey) : Prop where
  unit : f.unit ≠ 0
  dimension : f.dimension key.resolution < 2 ^ 32
  base : f.baseSize key.resolution ≤ 0x200000

variable {f : RegionFormula} {key : LayoutKey}

theorem Suits.size_le (h : f.Suits key) : f.size key ≤ 0x10000000 := f.size_le key h.base

theorem Suits.allMet (h : f.Suits key) : AllMet (f.demands key) := by
  have hbase := h.base
  have hdeep : f.baseSize key.resolution * key.bitDepth.toNat ≤ 0x200000 * 255 :=
    Nat.mul_le_mul hbase (Nat.le_of_lt_succ key.bitDepth.toNat_lt)
  have hbytes : ceilDiv (f.baseSize key.resolution * key.bitDepth.toNat) 8 ≤ 0x200000 * 255 :=
    Nat.le_trans (ceilDiv_le_self _ (by decide)) hdeep
  have hratio : key.chroma.sampleRatio.1 ≤ 3 ∧ key.chroma.sampleRatio.2 ≠ 0 := by
    cases key.chroma <;> decide
  have hplanes : ceilDiv (f.baseSize key.resolution * key.bitDepth.toNat) 8 *
      key.chroma.sampleRatio.1 ≤ 0x200000 * 255 * 3 := Nat.mul_le_mul hbytes hratio.1
  have hscaled : scaledSize (f.baseSize key.resolution) key.bitDepth key.chroma ≤
      0x200000 * 255 * 3 := Nat.le_trans (ceilDiv_le_self _ hratio.2) hplanes
  simp only [demands, allMet_append, allMet_cons, allMet_nil, and_true, Demand.Met]
  refine ⟨⟨⟨allMet_ceilDiv h.unit h.dimension, by omega⟩, allMet_ite (fun _ => ?_) fun _ =>
    allMet_nil⟩, allMet_alignUp (by decide) ?_⟩
  · simp only [allMet_append, allMet_cons, allMet_nil, and_true, Demand.Met]
    refine ⟨⟨⟨by omega, allMet_ceilDiv (by decide) (by omega)⟩, by omega⟩, ?_⟩
    exact allMet_ceilDiv hratio.2 (by omega)
  · simp only [dmaAlignment]
    split <;> omega

end RegionFormula

namespace AuxLayout

def placeDemands (key : LayoutKey) : Nat → List RegionFormula → List Demand
  | _, [] => []
  | start, f :: fs =>
    let stop := alignUp start f.alignment + f.size key
    f.demands key ++ alignUpDemands start f.alignment ++ [.word 64 stop] ++ placeDemands key stop fs

def demands (formulas : List RegionFormula) (key : LayoutKey) : List Demand :=
  let sorted := sortBy (fun f g : RegionFormula => f.id.index ≤ g.id.index) formulas
  placeDemands key 0 sorted ++ alignUpDemands (extent (place key 0 sorted)) pageAlignment

variable {key : LayoutKey} {formulas : List RegionFormula}

theorem allMet_place (h : ∀ f ∈ formulas, f.Suits key) {start : Nat}
    (hstart : start + formulas.length * 0x20000000 ≤ 2 ^ 48) :
    AllMet (placeDemands key start formulas) := by
  induction formulas generalizing start with
  | nil => exact allMet_nil
  | cons f formulas ih =>
    obtain ⟨hf, hrest⟩ := List.forall_mem_cons.1 h
    have hsize := hf.size_le
    have hpos := f.alignment_pos
    have hpage : f.alignment ≤ 4096 := by
      simp only [RegionFormula.alignment]
      split <;> decide
    have hround := alignUp_le start f.alignment
    rw [List.length_cons, Nat.succ_mul] at hstart
    simp only [placeDemands, allMet_append, allMet_cons, allMet_nil, and_true, Demand.Met]
    refine ⟨⟨⟨hf.allMet, allMet_alignUp (by omega) (by omega)⟩, by omega⟩, ih hrest (by omega)⟩

theorem allMet_demands (h : ∀ f ∈ formulas, f.Suits key) (hlength : formulas.length ≤ 16) :
    AllMet (demands formulas key) := by
  have hsorted : ∀ f ∈ sortBy (fun f g : RegionFormula => f.id.index ≤ g.id.index) formulas,
      f.Suits key := fun f hf => h f (mem_sortBy.1 hf)
  have hextent := extent_place_le 0 fun f hf => (hsorted f hf).size_le
  rw [length_sortBy] at hextent
  simp only [demands, allMet_append]
  simp only [pageAlignment] at hextent ⊢
  refine ⟨allMet_place hsorted ?_, allMet_alignUp (by decide) ?_⟩
  · rw [length_sortBy]
    omega
  · omega

end AuxLayout

namespace ScratchPolicy

def takeInOrderDemands (layout : AuxLayout) (capacity : Nat) : Nat → List RegionId → List Demand
  | _, [] => []
  | used, id :: rest =>
    match layout.region? id with
    | none => takeInOrderDemands layout capacity used rest
    | some region =>
      .word 64 (used + region.size) ::
        if capacity < used + region.size then []
        else takeInOrderDemands layout capacity (used + region.size) rest

def takeFittingDemands (capacity : Nat) : Nat → List (RegionId × Region) → List Demand
  | _, [] => []
  | used, (_, region) :: rest =>
    .word 64 (used + region.size) ::
      takeFittingDemands capacity
        (if used + region.size ≤ capacity then used + region.size else used) rest

def demands (policy : ScratchPolicy) (layout : AuxLayout) (capacity : Nat) : List Demand :=
  match policy with
  | .priority order => takeInOrderDemands layout capacity 0 order
  | .largestFirst => takeFittingDemands capacity 0 (sortBy larger layout.regions)

variable {layout : AuxLayout} {bound : Nat}

theorem allMet_takeInOrder (capacity : Nat)
    (h : ∀ id region, layout.region? id = some region → region.size ≤ bound) {used : Nat}
    {order : List RegionId} (hused : used + order.length * bound < 2 ^ 64) :
    AllMet (takeInOrderDemands layout capacity used order) := by
  induction order generalizing used with
  | nil => exact allMet_nil
  | cons id order ih =>
    rw [List.length_cons, Nat.succ_mul] at hused
    simp only [takeInOrderDemands]
    split
    · exact ih (by omega)
    · rename_i region hregion
      have hsize := h id region hregion
      rw [allMet_cons]
      refine ⟨by simp only [Demand.Met]; omega, allMet_ite (fun _ => allMet_nil) fun _ => ?_⟩
      exact ih (by omega)

theorem allMet_takeFitting (capacity : Nat) {used : Nat} {candidates : List (RegionId × Region)}
    (h : ∀ x ∈ candidates, x.2.size ≤ bound)
    (hused : used + candidates.length * bound < 2 ^ 64) :
    AllMet (takeFittingDemands capacity used candidates) := by
  induction candidates generalizing used with
  | nil => exact allMet_nil
  | cons y candidates ih =>
    obtain ⟨hsize, hrest⟩ := List.forall_mem_cons.1 h
    rw [List.length_cons, Nat.succ_mul] at hused
    rw [takeFittingDemands, allMet_cons]
    refine ⟨by simp only [Demand.Met]; omega, ih hrest ?_⟩
    split <;> omega

theorem allMet_demands (policy : ScratchPolicy) (h : ∀ x ∈ layout.regions, x.2.size ≤ bound)
    (hbound : policy.candidates layout * bound < 2 ^ 64) (capacity : Nat) :
    AllMet (policy.demands layout capacity) := by
  cases policy with
  | priority order =>
    apply allMet_takeInOrder capacity (fun id region hregion => h _ (mem_of_lookup hregion))
    rw [Nat.zero_add]
    exact hbound
  | largestFirst =>
    apply allMet_takeFitting capacity fun x hx => h x (mem_sortBy.1 hx)
    rw [Nat.zero_add, length_sortBy]
    exact hbound

end ScratchPolicy

def BufferGroup.countDemands (g : BufferGroup) (returned requested : Nat) : List Demand :=
  [.difference g.outstanding returned, .word 64 (g.outstanding - returned + requested)]

def AuxBuffers.refreshDemands (formulas : List RegionFormula) (key : LayoutKey)
    (a : AuxBuffers) (group : BufferGroup) : List Demand :=
  let count := if 0 < (AuxLayout.compute formulas key).totalSize then max key.pipelineDepth 1 else 0
  if a.needsRefresh key then
    AuxLayout.demands formulas key ++ group.countDemands a.buffers.length count
    ++ [.word 64 (a.allocations + count)]
  else []

def MotionPool.ensureDemands (count size : Nat) (p : MotionPool) (group : BufferGroup) :
    List Demand :=
  if p.needsGrowth count size then
    .array count storeEntryBytes :: group.countDemands p.stores.length count
  else []

namespace Generation

def motionDemands : Generation → CodedPicture → List Demand
  | .rkv, _ => []
  | .vdpu34x, .avc p =>
    let (width, height) := p.params.resolution.blocks 16
    ceilDivDemands 32 p.params.resolution.width 16
    ++ ceilDivDemands 32 p.params.resolution.height 16
    ++ [.word 64 (width * height), .word 64 (width * height * 16)]
    ++ alignUpDemands (width * height * 16) 4096
  | .vdpu34x, .hevc p =>
    let width := alignUp p.params.resolution.width 64
    let height := alignUp p.params.resolution.height 64
    alignUpDemands p.params.resolution.width 64 ++ alignUpDemands p.params.resolution.height 64
    ++ [.divisor 16, .word 64 (width / 16 * (height / 16)),
      .word 64 (width / 16 * (height / 16) * 16)]

theorem allMet_motion (g : Generation) (picture : CodedPicture) :
    AllMet (g.motionDemands picture) := by
  cases g with
  | rkv => exact allMet_nil
  | vdpu34x =>
    cases picture with
    | avc p =>
      have hwidth : p.params.resolution.width ≤ 2 ^ 20 := by
        have hlt := p.params.picWidthInMbsMinus1.toNat_lt
        simp only [Avc.Params.resolution]
        omega
      have hheight : p.params.resolution.height ≤ 2 ^ 20 := by
        have hlt := p.params.frameHeightInMbsMinus1.toNat_lt
        simp only [Avc.Params.resolution]
        omega
      have hblocks : ceilDiv p.params.resolution.width 16 * ceilDiv p.params.resolution.height 16 ≤
          2 ^ 20 * 2 ^ 20 :=
        Nat.mul_le_mul (Nat.le_trans (ceilDiv_le_self _ (by decide)) hwidth)
          (Nat.le_trans (ceilDiv_le_self _ (by decide)) hheight)
      simp only [motionDemands, Resolution.blocks, allMet_append, allMet_cons, allMet_nil,
        and_true, Demand.Met]
      refine ⟨⟨⟨allMet_ceilDiv (by decide) (by omega), allMet_ceilDiv (by decide) (by omega)⟩,
        by omega, by omega⟩, allMet_alignUp (by decide) (by omega)⟩
    | hevc p =>
      have hwidth : p.params.resolution.width < 2 ^ 16 := p.params.picWidthInLumaSamples.toNat_lt
      have hheight : p.params.resolution.height < 2 ^ 16 :=
        p.params.picHeightInLumaSamples.toNat_lt
      have hround := alignUp_le p.params.resolution.width 64
      have hround' := alignUp_le p.params.resolution.height 64
      have hblocks : alignUp p.params.resolution.width 64 / 16 *
          (alignUp p.params.resolution.height 64 / 16) ≤ 2 ^ 17 * 2 ^ 17 :=
        Nat.mul_le_mul (Nat.le_trans (Nat.div_le_self _ _) (by omega))
          (Nat.le_trans (Nat.div_le_self _ _) (by omega))
      simp only [motionDemands, allMet_append, allMet_cons, allMet_nil, and_true, Demand.Met]
      exact ⟨⟨allMet_alignUp (by decide) (by omega), allMet_alignUp (by decide) (by omega)⟩,
        by decide, by omega, by omega⟩

end Generation

theorem CodedPicture.suits_regions (picture : CodedPicture) {format : PictureFormat}
    {key : LayoutKey} (h : picture.format = .ok format)
    (hresolution : key.resolution = format.resolution) :
    ∀ f ∈ Vdpu34x.regionsFor picture.standard, f.Suits key := by
  intro f hf
  obtain ⟨hwidth, hheight⟩ := CodedPicture.resolution_le h
  have hside : f.dimension key.resolution ≤ picture.standard.maxSide := by
    rw [hresolution, RegionFormula.dimension]
    split
    · exact hwidth
    · exact hheight
  have hblocks : ∀ f ∈ Vdpu34x.regionsFor picture.standard, f.unit ≠ 0 ∧
      ceilDiv picture.standard.maxSide f.unit * f.bytesPerUnit ≤ 0x200000 := by
    generalize picture.standard = standard
    cases standard <;> decide
  have hmax : picture.standard.maxSide < 2 ^ 32 := by
    generalize picture.standard = standard
    cases standard <;> decide
  obtain ⟨hunit, hbase⟩ := hblocks f hf
  exact ⟨hunit, Nat.lt_of_le_of_lt hside hmax,
    Nat.le_trans (Nat.mul_le_mul_right _ (ceilDiv_mono f.unit hside)) hbase⟩

end VideoAccel
