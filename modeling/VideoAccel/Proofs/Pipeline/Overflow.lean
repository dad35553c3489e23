import VideoAccel.Proofs.Demand.Filling
import VideoAccel.Proofs.Platform.Bench

namespace VideoAccel

variable {σ : Type}

theorem Safe.ends {α : Type} {demands : List Demand} {result : Except BackendError α} {P : Prop}
    (h : Safe demands result) (hP : ¬ P) :
    firstFault demands = crashOf result ∧ ∀ f, crashOf result = some f ↔ f = .overflow ∧ P := by
  rw [h.result, firstFault_eq_none_iff.2 h.demands]
  refine ⟨rfl, fun f => ⟨fun hcrash => ?_, fun hf => absurd hf.2 hP⟩⟩
  cases hcrash

namespace Engine

def fillPictureDemands (device : Device σ) (t : Task) (slot : Nat) (e : Engine σ) : List Demand :=
  let g := e.backend.generation
  match e.backend.standard, t.picture with
  | .avc, .avc picture => e.fillDemands device g.avc (g.demands .avc) picture t slot
  | .hevc, .hevc picture => e.fillDemands device g.hevc (g.demands .hevc) picture t slot
  | _, _ => []

/-- What generating the registers of a task asks for, up to the first failure. -/
def generateDemands (device : Device σ) (t : Task) (e : Engine σ) : List Demand :=
  if t.state ≠ .idle then []
  else if t.picture.standard ≠ e.backend.standard then []
  else
    match e.backend.sets.acquire? with
    | none => []
    | some (slot, sets) =>
      if t.mustSkip e.backend.config then []
      else (e.withSets sets).fillPictureDemands device t slot

/-- The frame table has an output frame, one that the hardware can write, and a packet. -/
structure HasBuffers (e : Engine σ) (t : Task) : Prop where
  output : ∃ output, e.frames.frame? t.output = some output ∧
    e.backend.generation.supportsLayout output.layout = true
  stream : (e.frames.packet? t.input).isSome = true

/-- Nothing keeps the task from the computation of its bit depth, which is no byte. -/
structure Overflows (e : Engine σ) (t : Task) : Prop where
  idle : t.state = .idle
  standard : t.picture.standard = e.backend.standard
  free : e.backend.sets.acquire?.isSome = true
  decoded : t.mustSkip e.backend.config = false
  buffers : e.HasBuffers t
  depth : 248 ≤ (max t.picture.depthsMinus8.1 t.picture.depthsMinus8.2).toNat

section

variable {Pic : Type} {device : Device σ} {strategy : Strategy Pic} {picture : Pic} {t : Task}
  {e : Engine σ}

theorem crashOf_plan_eq_some_iff (hgeneration : strategy.generation = e.backend.generation)
    {f : Fault} :
    crashOf (e.plan strategy picture t) = some f ↔
      e.HasBuffers t ∧ faultOf (strategy.format picture) = some f := by
  rw [plan, hgeneration]
  cases houtput : e.frames.frame? t.output with
  | none =>
    constructor
    · intro hcrash
      cases hcrash
    · rintro ⟨hbuffers, -⟩
      obtain ⟨output, hframe, -⟩ := hbuffers.output
      cases houtput.symm.trans hframe
  | some output =>
    simp only
    by_cases hlayout : e.backend.generation.supportsLayout output.layout = true
    · rw [hlayout, if_neg (by decide)]
      cases hstream : e.frames.packet? t.input with
      | none =>
        constructor
        · intro hcrash
          cases hcrash
        · rintro ⟨hbuffers, -⟩
          have hsome := hbuffers.stream
          rw [hstream] at hsome
          cases hsome
      | some stream =>
        have hbuffers : e.HasBuffers t :=
          ⟨⟨output, houtput, hlayout⟩, by rw [hstream, Option.isSome_some]⟩
        simp only [hbuffers, true_and]
        cases strategy.format picture <;> rfl
    · rw [Bool.not_eq_true] at hlayout
      rw [hlayout, if_pos (by decide)]
      constructor
      · intro hcrash
        cases hcrash
      · rintro ⟨hbuffers, -⟩
        obtain ⟨output', hframe, hlayout'⟩ := hbuffers.output
        obtain rfl := Option.some.inj (houtput.symm.trans hframe)
        cases hlayout.symm.trans hlayout'

theorem firstFault_fill_coded {standard : CodingStandard} {coded : Pic → CodedPicture}
    (hcodes : e.backend.generation.Codes strategy standard coded)
    (hexact : device.memory.IsExact) (htotal : device.memory.IsTotal)
    (h : e.Provisioned device.memory strategy.regions) (hframes : e.frames.Sized)
    (hcount : e.backend.aux.allocations + max e.backend.sets.size 1 < 2 ^ 64) (slot : Nat) :
    firstFault (e.fillDemands device strategy (e.backend.generation.demands coded) picture t slot) =
        crashOf (e.fill device strategy picture t slot).1 ∧
      ∀ f, crashOf (e.fill device strategy picture t slot).1 = some f ↔
        e.HasBuffers t ∧ faultOf (coded picture).format = some f := by
  obtain ⟨hfault, hcrash⟩ :=
    firstFault_fillDemands hcodes.guarded hexact htotal h hframes hcount picture t slot
  refine ⟨hfault, fun f => ?_⟩
  rw [hcrash, crashOf_plan_eq_some_iff hcodes.generation, hcodes.format]

/-- Filling a set for a picture of the backend's standard ends as its demands tell, and without a
result only for a picture whose bit depth is no byte. -/
theorem firstFault_fillPictureDemands (hexact : device.memory.IsExact)
    (htotal : device.memory.IsTotal) (h : e.Provisioned device.memory e.backend.regions)
    (hframes : e.frames.Sized)
    (hcount : e.backend.aux.allocations + max e.backend.sets.size 1 < 2 ^ 64)
    (hstandard : t.picture.standard = e.backend.standard) (slot : Nat) :
    firstFault (e.fillPictureDemands device t slot) = crashOf (e.fillPicture device t slot).1 ∧
      ∀ f, crashOf (e.fillPicture device t slot).1 = some f ↔
        e.HasBuffers t ∧ faultOf t.picture.format = some f := by
  simp only [fillPictureDemands, fillPicture]
  cases hpicture : t.picture with
  | avc p =>
    rw [hpicture] at hstandard
    simp only [Backend.regions, ← hstandard, CodedPicture.standard] at h ⊢
    exact firstFault_fill_coded (Generation.codes_avc _) hexact htotal h hframes hcount slot
  | hevc p =>
    rw [hpicture] at hstandard
    simp only [Backend.regions, ← hstandard, CodedPicture.standard] at h ⊢
    exact firstFault_fill_coded (Generation.codes_hevc _) hexact htotal h hframes hcount slot

theorem crashOf_generate {slot : Nat} {sets : RegisterSets RegisterImage}
    (hidle : t.state = .idle) (hstandard : t.picture.standard = e.backend.standard)
    (hacquire : e.backend.sets.acquire? = some (slot, sets))
    (hskip : t.mustSkip e.backend.config = false) :
    crashOf (e.generate device t).result =
      crashOf ((e.withSets sets).fillPicture device t slot).1 := by
  simp only [generate, hidle, hstandard, hacquire, hskip, ne_eq, not_true_eq_false, if_false,
    Bool.false_eq_true]
  split <;> rename_i hfill <;> rw [hfill]

end

section

variable {device : Device σ} {e : Engine σ}

/-- A task is turned away before anything is computed for it, or a register set is filled. -/
theorem generateDemands_cases (device : Device σ) (e : Engine σ) (t : Task) :
    (Safe (e.generateDemands device t) (e.generate device t).result ∧ ¬ e.Overflows t) ∨
      ∃ slot sets, t.state = .idle ∧ t.picture.standard = e.backend.standard ∧
        e.backend.sets.acquire? = some (slot, sets) ∧ t.mustSkip e.backend.config = false ∧
        e.generateDemands device t = (e.withSets sets).fillPictureDemands device t slot := by
  unfold generateDemands generate
  by_cases hstate : t.state ≠ .idle
  · rw [if_pos hstate, if_pos hstate]
    exact .inl ⟨⟨allMet_nil, rfl⟩, fun hoverflows => hstate hoverflows.idle⟩
  rw [if_neg hstate, if_neg hstate]
  by_cases hforeign : t.picture.standard ≠ e.backend.standard
  · rw [if_pos hforeign, if_pos hforeign]
    exact .inl ⟨⟨allMet_nil, rfl⟩, fun hoverflows => hforeign hoverflows.standard⟩
  rw [if_neg hforeign, if_neg hforeign]
  cases hacquire : e.backend.sets.acquire? with
  | none =>
    refine .inl ⟨⟨allMet_nil, rfl⟩, fun hoverflows => ?_⟩
    have hfree := hoverflows.free
    rw [hacquire] at hfree
    cases hfree
  | some acquired =>
    obtain ⟨slot, sets⟩ := acquired
    by_cases hskip : t.mustSkip e.backend.config = true
    · simp only [if_pos hskip]
      refine .inl ⟨⟨allMet_nil, rfl⟩, fun hoverflows => ?_⟩
      cases hskip.symm.trans hoverflows.decoded
    · exact .inr ⟨slot, sets, Decidable.not_not.1 hstate, Decidable.not_not.1 hforeign, rfl,
        eq_false_of_ne_true hskip, if_neg hskip⟩

/-- The same for a whole task: the first demand that is not met, if there is one, is that of the bit
depth. -/
theorem firstFault_generateDemands (hexact : device.memory.IsExact) (htotal : device.memory.IsTotal)
    (h : e.Provisioned device.memory e.backend.regions) (hframes : e.frames.Sized)
    (hcount : e.backend.aux.allocations + max e.backend.sets.size 1 < 2 ^ 64) (t : Task) :
    firstFault (e.generateDemands device t) = crashOf (e.generate device t).result ∧
      ∀ f, crashOf (e.generate device t).result = some f ↔ f = .overflow ∧ e.Overflows t := by
  obtain ⟨hsafe, hrefused⟩ | ⟨slot, sets, hidle, hstandard, hacquire, hskip, hdemands⟩ :=
    generateDemands_cases device e t
  · exact hsafe.ends hrefused
  have hsize : sets.size = e.backend.sets.size := RegisterSets.size_acquire? hacquire
  have hacquired : (e.withSets sets).Provisioned device.memory
      (e.withSets sets).backend.regions :=
    h.operate (transfer_acquire? hacquire).operations (acquire?_restocks _ hacquire) hsize
      (.inl rfl)
  rw [← hsize] at hcount
  obtain ⟨hfault, hcrash⟩ := firstFault_fillPictureDemands (e := e.withSets sets) hexact htotal
    hacquired hframes hcount hstandard slot
  rw [hdemands, crashOf_generate hidle hstandard hacquire hskip]
  refine ⟨hfault, fun f => (hcrash f).trans ?_⟩
  rw [CodedPicture.faultOf_format_eq_some_iff]
  constructor
  · rintro ⟨hbuffers, rfl, hdepth⟩
    have hfree : e.backend.sets.acquire?.isSome = true := by rw [hacquire, Option.isSome_some]
    exact ⟨rfl, hidle, hstandard, hfree, hskip, ⟨hbuffers.output, hbuffers.stream⟩, hdepth⟩
  · rintro ⟨rfl, hoverflows⟩
    exact ⟨⟨hoverflows.buffers.output, hoverflows.buffers.stream⟩, rfl, hoverflows.depth⟩

end

end Engine

namespace Pipeline

variable {device : Device σ} {p : Pipeline σ}

/-- Wherever a run of a backend has led to, with whatever frames, settings and scratch memory, and
whatever a task says: its registers are generated or there is an error, and nothing is read,
shifted, divided or counted that leaves its words, except for one case. A bit depth that is no byte,
in a task that nothing else keeps from being decoded, ends in an overflow. -/
theorem generate_crashes_iff_of_run (hp : p.IsInitial device) (hexact : device.memory.IsExact)
    (htotal : device.memory.IsTotal)
    (hsets : isAddressable p.engine.backend.sets.size setEntryBytes = true)
    (actions : List Action) {frames : FrameTable} (hframes : frames.Filled) (config : Config)
    (scratch : Option ScratchMemory)
    (hcount : (p.run device actions).engine.backend.aux.allocations +
      max (p.run device actions).engine.backend.sets.size 1 < 2 ^ 64) (t : Task) :
    let e := (p.run device actions).engine.withSetting frames config scratch
    firstFault (e.generateDemands device t) = crashOf (e.generate device t).result ∧
      ∀ f, crashOf (e.generate device t).result = some f ↔ f = .overflow ∧ e.Overflows t := by
  intro e
  have hprovisioned := (provisioned_run hp hsets actions).withSetting frames config scratch
  exact Engine.firstFault_generateDemands (e := e) hexact htotal hprovisioned hframes.sized hcount t

end Pipeline

namespace Bench

theorem memory_isExact : device.memory.IsExact := by
  intro size s m h
  change (s.allocate size).1 = .ok m at h
  unfold allocate at h
  split at h <;> cases h
  rfl

theorem memory_isTotal : device.memory.IsTotal := by
  intro size s f h
  change (s.allocate size).1 = .error (.fault f) at h
  unfold allocate at h
  split at h <;> cases h

theorem frames_filled : frames.Filled := by
  have hframe : ∀ handle, (Frame.aligned { handle, resolution := ⟨16, 16⟩ } .align16).Sized := by
    intro handle
    have hbytes : Frame.bytesPerSample { handle, resolution := ⟨16, 16⟩ } = 1 :=
      if_neg (by decide : ¬ (8 : UInt8) < 8)
    refine ⟨(by decide : 16 < 2 ^ 32), (by decide : 16 < 2 ^ 32), ?_⟩
    rw [Frame.lumaSize, Frame.aligned, hbytes]
    change alignUp (16 * 1) 16 * alignUp 16 16 * 3 < 2 ^ 64
    decide
  have hinsert : ∀ {t : FrameTable} (slot : Nat) {f : Frame}, slot < 3 → t.Filled →
      (f.aligned t.alignment).Sized → (t.insertFrame slot f).Filled := fun slot _ hslot h hf =>
    .insertFrame h hf (if_pos (isAddressable_of_le hslot (by decide)))
  have hthird := hinsert 2 (by decide) .empty (hframe 102)
  have hsecond := hinsert 1 (by decide) hthird (hframe 101)
  have hfirst := hinsert 0 (by decide) hsecond (hframe 100)
  have hpacket : isAddressable (0 + 1) packetEntryBytes = true := by decide
  exact .insertPacket hfirst (if_pos hpacket)

def startFor (standard : CodingStandard) (g : Generation) :
    Except BackendError Unit × Engine Bench :=
  Engine.init device ⟨{ standard, generation := g }, frames, {}⟩

def deepTask (depthMinus8 : UInt8) : CodingStandard → Task
  | .avc => { picture := .avc { params := { bitDepthLumaMinus8 := depthMinus8 } }, output := 1 }
  | .hevc => { picture := .hevc { params := { bitDepthLumaMinus8 := depthMinus8 } }, output := 1 }

end Bench

namespace Pipeline

/-- With another task in flight: a depth of 258 bits overflows a byte, one of 255 bits does not. -/
theorem generate_crashes_iff_of_run_bench :
    let e := ((Bench.pipeline .vdpu34x).run Bench.device [.generate 0, .start 0]).engine.withSetting
      Bench.frames {} (some ⟨9, 0x1000⟩)
    firstFault (e.generateDemands Bench.device (Bench.deepTask 250 .avc)) = some .overflow ∧
      crashOf (e.generate Bench.device (Bench.deepTask 250 .avc)).result = some .overflow ∧
      firstFault (e.generateDemands Bench.device (Bench.deepTask 247 .avc)) = none ∧
      crashOf (e.generate Bench.device (Bench.deepTask 247 .avc)).result = none := by
  intro e
  have hcount : ((Bench.pipeline .vdpu34x).run Bench.device
      [.generate 0, .start 0]).engine.backend.aux.allocations +
      max ((Bench.pipeline .vdpu34x).run Bench.device
        [.generate 0, .start 0]).engine.backend.sets.size 1 < 2 ^ 64 := by decide +kernel
  have hrun := generate_crashes_iff_of_run (Bench.pipeline_isInitial .vdpu34x)
    Bench.memory_isExact Bench.memory_isTotal (by decide +kernel) [.generate 0, .start 0]
    Bench.frames_filled {} (some ⟨9, 0x1000⟩) hcount
  have hfree : e.backend.sets.acquire?.isSome = true := by decide +kernel
  have hstandard : CodingStandard.avc = e.backend.standard := by decide +kernel
  have hoverflows : e.Overflows (Bench.deepTask 250 .avc) :=
    ⟨rfl, hstandard, hfree, by decide, ⟨⟨_, rfl, by decide +kernel⟩, by decide⟩, by decide⟩
  obtain ⟨hfault, hcrash⟩ := hrun (Bench.deepTask 250 .avc)
  obtain ⟨hfault', hcrash'⟩ := hrun (Bench.deepTask 247 .avc)
  have hsafe : crashOf (e.generate Bench.device (Bench.deepTask 247 .avc)).result = none := by
    apply Option.eq_none_iff_forall_ne_some.2
    intro f hf
    exact absurd ((hcrash' f).1 hf).2.depth (by decide)
  have hdeep := (hcrash .overflow).2 ⟨rfl, hoverflows⟩
  exact ⟨hfault.trans hdeep, hdeep, hfault'.trans hsafe, hsafe⟩

/-- All four strategies, right after their initialization. -/
theorem deep_pictures_crash :
    Bench.frames.Filled ∧ ∀ standard g, (Bench.startFor standard g).1 = .ok () ∧
      ((Bench.startFor standard g).2.generate Bench.device (Bench.deepTask 250 standard)).result =
        .error (.fault .overflow) := by
  refine ⟨Bench.frames_filled, fun standard g => ?_⟩
  cases standard <;> cases g <;> decide +kernel

end Pipeline

end VideoAccel
