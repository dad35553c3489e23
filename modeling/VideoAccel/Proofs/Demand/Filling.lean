import VideoAccel.Proofs.Demand.Memory
import VideoAccel.Proofs.Demand.Provisions

namespace VideoAccel

variable {σ Pic α : Type}

def BackendError.fault? : BackendError → Option Fault
  | .fault f => some f
  | _ => none

/-- The fault that an operation of a backend ends with, if it does. -/
def crashOf : Except BackendError α → Option Fault
  | .ok _ => none
  | .error e => e.fault?

theorem crashOf_ofAlloc {e : AllocError} (h : ∀ f, e ≠ .fault f) :
    crashOf (α := α) (.error (.ofAlloc e)) = none := by
  cases e with
  | fault f => exact absurd rfl (h f)
  | _ => rfl

theorem crashOf_ofStep {e : StepError} (h : ∀ f, e ≠ .fault f) :
    crashOf (α := α) (.error (.ofStep e)) = none := by
  cases e with
  | fault f => exact absurd rfl (h f)
  | _ => rfl

structure Safe (demands : List Demand) (result : Except BackendError α) : Prop where
  demands : AllMet demands
  result : crashOf result = none

structure StrategyDemands (Pic : Type) where
  format : Pic → List Demand
  motion : Pic → List Demand
  run : Pic → Binding → Emission → List Demand

structure Strategy.Guarded (strategy : Strategy Pic) (d : StrategyDemands Pic) : Prop where
  format : ∀ picture, firstFault (d.format picture) = faultOf (strategy.format picture)
  suits : ∀ picture format (key : LayoutKey), strategy.format picture = .ok format →
    key.resolution = format.resolution → ∀ f ∈ strategy.regions, f.Suits key
  regions : strategy.regions.length ≤ 16
  candidates : ∀ policy, strategy.scratchPolicy = some policy → ∀ key,
    policy.candidates (AuxLayout.compute strategy.regions key) ≤ 16
  references : ∀ picture, (strategy.referenceSlots picture).length ≤ 16
  motion : ∀ picture, AllMet (d.motion picture)
  run : ∀ picture format bind e, strategy.format picture = .ok format → bind.output.Sized →
    e.Suits strategy.generation → AllMet (d.run picture bind e) ∧
      ∀ f, (Emission.runSteps strategy picture bind GenerationStep.all e).1 ≠ .error (.fault f)

namespace Generation

def demands (g : Generation) (coded : Pic → CodedPicture) : StrategyDemands Pic where
  format p := (coded p).formatDemands
  motion p := g.motionDemands (coded p)
  run p bind e := g.runDemands (coded p) bind GenerationStep.all e

structure Codes (g : Generation) (strategy : Strategy Pic) (standard : CodingStandard)
    (coded : Pic → CodedPicture) : Prop where
  ofStandard : ∀ p, (coded p).standard = standard
  format : ∀ p, strategy.format p = (coded p).format
  regions : strategy.regions = match g with
    | .rkv => []
    | .vdpu34x => Vdpu34x.regionsFor standard
  scratchPolicy : strategy.scratchPolicy = match g with
    | .rkv => none
    | .vdpu34x => some (Vdpu34x.scratchPolicyFor standard)
  generation : strategy.generation = g
  references : ∀ p, (strategy.referenceSlots p).length ≤ 16
  run : ∀ p bind steps e,
    Emission.runSteps strategy p bind steps e = g.runSteps (coded p) bind steps e

theorem codes_avc (g : Generation) : g.Codes g.avc .avc .avc where
  ofStandard _ := rfl
  format p := by cases g <;> rfl
  regions := by cases g <;> rfl
  scratchPolicy := by cases g <;> rfl
  generation := g.generation_avc
  references p := by
    have hlength : p.params.referenceSlots.length ≤ 16 := by
      rw [Avc.Params.referenceSlots, List.length_map, Vector.length_toList]
      decide
    cases g <;> exact hlength
  run _ _ _ _ := rfl

theorem codes_hevc (g : Generation) : g.Codes g.hevc .hevc .hevc where
  ofStandard _ := rfl
  format p := by cases g <;> rfl
  regions := by cases g <;> rfl
  scratchPolicy := by cases g <;> rfl
  generation := g.generation_hevc
  references p := by
    have hlength : p.params.referenceSlots.length ≤ 16 := by
      rw [Hevc.Params.referenceSlots, List.length_map, Vector.length_toList]
      decide
    cases g <;> exact hlength
  run _ _ _ _ := rfl

variable {g : Generation} {strategy : Strategy Pic} {standard : CodingStandard}
  {coded : Pic → CodedPicture}

theorem Codes.guarded (h : g.Codes strategy standard coded) :
    strategy.Guarded (g.demands coded) where
  format p := by
    rw [h.format]
    exact (coded p).firstFault_formatDemands
  suits p format key hformat hresolution := by
    rw [h.format] at hformat
    have hsuits := CodedPicture.suits_regions (coded p) hformat hresolution
    rw [h.ofStandard] at hsuits
    rw [h.regions]
    cases g with
    | rkv => exact List.forall_mem_nil _
    | vdpu34x => exact hsuits
  regions := by
    rw [h.regions]
    cases g <;> cases standard <;> decide
  candidates policy hpolicy key := by
    rw [h.scratchPolicy] at hpolicy
    rw [h.regions]
    cases g <;> cases hpolicy
    exact Nat.le_trans (Vdpu34x.candidates_le standard key) (by decide)
  references := h.references
  motion p := g.allMet_motion (coded p)
  run p format bind e hformat houtput he := by
    rw [h.format] at hformat
    rw [h.generation] at he
    have hsafe := safeRun_all hformat houtput he
    rw [h.run]
    exact ⟨hsafe.demands, hsafe.result⟩

end Generation

def resolveDemands (slots : List (Option Nat)) (table : FrameTable) : List Demand :=
  (List.range slots.length).flatMap fun i =>
    .index slots.length i ::
      match slots[i]?.bind (ownReference table) with
      | some _ => []
      | none =>
        [.range slots.length 0 i, .word 64 (i + 1), .range slots.length (i + 1) slots.length]

theorem allMet_resolve {slots : List (Option Nat)} (h : slots.length ≤ 16) (table : FrameTable) :
    AllMet (resolveDemands slots table) := by
  refine allMet_flatMap fun i hi => ?_
  have hlt := List.mem_range.1 hi
  rw [allMet_cons]
  refine ⟨hlt, ?_⟩
  split
  · exact allMet_nil
  · simp only [allMet_cons, allMet_nil, and_true, Demand.Met]
    exact ⟨⟨Nat.zero_le i, Nat.le_of_lt hlt⟩, by omega, hlt, Nat.le_refl _⟩

theorem lt_of_isAddressable {n width : Nat} (h : isAddressable n width = true)
    (hwidth : 32 ≤ width) : n < 2 ^ 58 := by
  have hmax : maxArrayBytes < 2 ^ 58 * 32 := by decide
  have hle : n * 32 ≤ maxArrayBytes :=
    Nat.le_trans (Nat.mul_le_mul_left n hwidth) (of_decide_eq_true h)
  omega

namespace Engine

section

variable (device : Device σ) (strategy : Strategy Pic) (d : StrategyDemands Pic) (picture : Pic)
  (t : Task) (slot : Nat) (e : Engine σ)

def planDemands : List Demand :=
  match e.frames.frame? t.output with
  | none => []
  | some output =>
    if !strategy.generation.supportsLayout output.layout then []
    else
      match e.frames.packet? t.input with
      | none => []
      | some _ => d.format picture

def scratchDemands (b : Backend) : List Demand :=
  match b.aux.layout, b.aux.buffer? slot, b.scratch, strategy.scratchPolicy with
  | some layout, some _, some memory, some policy => policy.demands layout memory.size
  | _, _, _, _ => []

def auxDemands (p : TaskPlan) : List Demand :=
  let key := p.layoutKey e.backend.sets.size
  if strategy.regions.isEmpty then []
  else if e.backend.hasOthersInFlight && e.backend.aux.needsRefresh key then []
  else
    e.backend.aux.refreshDemands strategy.regions key e.backend.buffers ++
      match e.bindAux device strategy p slot with
      | (.error _, _) => []
      | (.ok _, e) => scratchDemands strategy slot e.backend

def storeDemands (refs : List ResolvedRef) : List Demand :=
  d.motion picture ++
    match strategy.motionStoreSize picture with
    | none => []
    | some size =>
      let count := storesNeeded t refs e.frames
      .word 64 ((refs.map (·.slot)).foldl max t.output + 1) ::
        if e.backend.hasOthersInFlight && e.backend.motion.needsGrowth count size then []
        else e.backend.motion.ensureDemands count size e.backend.buffers

def emitDemands (bind : DeviceBuffer → Binding) : List Demand :=
  match e.backend.sets.get? slot with
  | none => []
  | some set =>
    match set.tables with
    | none => []
    | some tables =>
      d.run picture (bind tables)
        { image := strategy.generation.blankImage, tables := tables.memory.zeroed
          patches := set.patches }

def fillDemands : List Demand :=
  e.planDemands strategy d picture t ++
    match e.plan strategy picture t with
    | .error _ => []
    | .ok p =>
      e.auxDemands device strategy slot p ++
        match e.bindAux device strategy p slot with
        | (.error _, _) => []
        | (.ok aux, e) =>
          let refs := resolveReferences (strategy.referenceSlots picture) e.frames p.output t.output
          resolveDemands (strategy.referenceSlots picture) e.frames
          ++ e.storeDemands strategy d picture t refs ++
            match e.bindMotion device strategy picture t refs with
            | (.error _, _) => []
            | (.ok motion, e) =>
              e.emitDemands strategy d picture slot fun tables =>
                { output := p.output, outputSlot := t.output, stream := p.stream
                  streamLength := t.streamLength, refs, tables := tables.handle, aux, motion
                  bitDepth := p.bitDepth }

end

section

variable {device : Device σ} {strategy : Strategy Pic} {d : StrategyDemands Pic} {picture : Pic}
  {t : Task} {slot : Nat} {e : Engine σ} {p : TaskPlan}

theorem firstFault_planDemands (hguarded : strategy.Guarded d) :
    firstFault (e.planDemands strategy d picture t) = crashOf (e.plan strategy picture t) := by
  rw [planDemands, plan]
  cases e.frames.frame? t.output with
  | none => rfl
  | some output =>
    simp only
    by_cases hlayout : (!strategy.generation.supportsLayout output.layout) = true
    · rw [if_pos hlayout, if_pos hlayout]
      rfl
    rw [if_neg hlayout, if_neg hlayout]
    cases e.frames.packet? t.input with
    | none => rfl
    | some stream =>
      simp only
      rw [hguarded.format]
      cases strategy.format picture <;> rfl

theorem Provisioned.bindAux (h : e.Provisioned device.memory strategy.regions) (p : TaskPlan)
    (slot : Nat) :
    (e.bindAux device strategy p slot).2.Provisioned device.memory strategy.regions := by
  have hrefill := bindAux_refill device strategy p slot e
  exact h.operate hrefill.transfer.operations (bindAux_restocks device strategy p slot e)
    hrefill.size (bindAux_aux device strategy p slot e)

theorem allMet_refresh (h : e.Provisioned device.memory strategy.regions)
    (hregions : strategy.regions.length ≤ 16) {key : LayoutKey}
    (hsuits : ∀ f ∈ strategy.regions, f.Suits key) (hkey : key.pipelineDepth = e.backend.sets.size)
    (hcount : e.backend.aux.allocations + max e.backend.sets.size 1 < 2 ^ 64) :
    AllMet (e.backend.aux.refreshDemands strategy.regions key e.backend.buffers) := by
  have hsets := lt_of_isAddressable h.sets (by decide)
  have hstores := lt_of_isAddressable h.stores (Nat.le_refl 32)
  have hout := h.stocked.outstanding
  have hbuffers : (if 0 < (AuxLayout.compute strategy.regions key).totalSize
      then max key.pipelineDepth 1 else 0) ≤ max e.backend.sets.size 1 := by
    rw [hkey]
    split
    · exact Nat.le_refl _
    · exact Nat.zero_le _
  refine allMet_ite (fun _ => ?_) fun _ => allMet_nil
  simp only [BufferGroup.countDemands, allMet_append, allMet_cons, allMet_nil, and_true,
    Demand.Met]
  refine ⟨⟨AuxLayout.allMet_demands hsuits hregions, ?_, ?_⟩, ?_⟩ <;> omega

/-- A choice of regions looks at those of the layout in use, whose sizes add up to a word. -/
theorem allMet_scratch (hguarded : strategy.Guarded d) {key : LayoutKey}
    (hsuits : ∀ f ∈ strategy.regions, f.Suits key) {b : Backend}
    (hlayout : b.aux.layout = some (AuxLayout.compute strategy.regions key)) (slot : Nat) :
    AllMet (scratchDemands strategy slot b) := by
  unfold scratchDemands
  split
  · rename_i layout _ memory policy hl _ _ hpolicy
    obtain rfl := Option.some.inj (hlayout.symm.trans hl)
    have hfew := hguarded.candidates policy hpolicy key
    have hsizes : ∀ x ∈ (AuxLayout.compute strategy.regions key).regions,
        x.2.size ≤ 0x10000000 := by
      intro x hx
      obtain ⟨f, hf, -, heq⟩ := AuxLayout.exists_formula hx
      rw [heq]
      exact (hsuits f hf).size_le
    exact policy.allMet_demands hsizes (by omega) memory.size
  · exact allMet_nil

theorem safe_bindAux (hguarded : strategy.Guarded d) (htotal : device.memory.IsTotal)
    (h : e.Provisioned device.memory strategy.regions)
    (hcount : e.backend.aux.allocations + max e.backend.sets.size 1 < 2 ^ 64)
    (hp : e.plan strategy picture t = .ok p) (slot : Nat) :
    Safe (e.auxDemands device strategy slot p) (e.bindAux device strategy p slot).1 := by
  obtain ⟨format, hformat, hresolution, -, -⟩ := plan_ok hp
  have hsuits := hguarded.suits picture format (p.layoutKey e.backend.sets.size) hformat hresolution
  constructor
  · refine allMet_ite (fun _ => allMet_nil) fun hregions => ?_
    refine allMet_ite (fun _ => allMet_nil) fun _ => ?_
    rw [allMet_append]
    refine ⟨allMet_refresh h hguarded.regions hsuits rfl hcount, ?_⟩
    have hafter := (h.bindAux p slot).follows
    split
    · exact allMet_nil
    · rename_i aux e' hbind
      rw [hbind] at hafter
      obtain ⟨hempty, -⟩ | ⟨-, -, hkey⟩ := bindAux_ok hbind
      · exact absurd hempty hregions
      · exact allMet_scratch hguarded hsuits (hafter _ hkey) slot
  · simp only [bindAux]
    split
    · rfl
    split
    · rfl
    split
    · rename_i error herror
      apply crashOf_ofAlloc
      rintro f rfl
      exact AuxBuffers.refresh_ne_fault htotal (fun f hf => (hsuits f hf).unit) _ _ _ _ f herror
    · rfl

theorem safe_bindMotion (hguarded : strategy.Guarded d) (htotal : device.memory.IsTotal)
    (h : e.Provisioned device.memory strategy.regions) (hframes : e.frames.Sized) {output : Frame}
    (houtput : e.frames.frame? t.output = some output) (picture : Pic)
    {slots : List (Option Nat)} {refs : List ResolvedRef}
    (hrefs : resolveReferences slots e.frames output t.output = refs) :
    Safe (e.storeDemands strategy d picture t refs)
      (e.bindMotion device strategy picture t refs).1 := by
  subst hrefs
  have hhighest := lt_of_isAddressable (isAddressable_highest hframes houtput slots)
    (Nat.le_refl 32)
  have hneeded := isAddressable_storesNeeded hframes houtput slots
  constructor
  · have hsets := lt_of_isAddressable h.sets (by decide)
    have hstores := lt_of_isAddressable hneeded (Nat.le_refl 32)
    have haux := h.aux
    have hout := h.stocked.outstanding
    rw [storeDemands, allMet_append]
    refine ⟨hguarded.motion picture, ?_⟩
    split
    · exact allMet_nil
    rw [allMet_cons]
    refine ⟨?_, allMet_ite (fun _ => allMet_nil) fun _ => ?_⟩
    · exact Nat.lt_trans hhighest (by decide)
    refine allMet_ite (fun _ => ?_) fun _ => allMet_nil
    simp only [BufferGroup.countDemands, allMet_cons, allMet_nil, and_true, Demand.Met]
    exact ⟨hneeded, by omega, by omega⟩
  · simp only [bindMotion]
    split
    · rfl
    split
    · rfl
    split
    · rename_i error herror
      apply crashOf_ofAlloc
      rintro f rfl
      exact MotionPool.ensure_ne_fault htotal hneeded _ _ _ _ f herror
    · rfl

theorem safe_emit (hguarded : strategy.Guarded d) (hsized : e.backend.sets.Sized)
    {format : PictureFormat} (hformat : strategy.format picture = .ok format)
    {bind : DeviceBuffer → Binding} (houtput : ∀ tables, (bind tables).output.Sized) :
    Safe (e.emitDemands strategy d picture slot bind) (e.emit strategy picture slot bind).1 := by
  have hrun : ∀ {set tables}, e.backend.sets.get? slot = some set → set.tables = some tables → _ :=
    fun {set tables} hset htables => hguarded.run picture format (bind tables)
      { image := strategy.generation.blankImage, tables := tables.memory.zeroed
        patches := set.patches } hformat (houtput tables)
      ⟨rfl, hsized set (List.mem_of_getElem? hset) tables htables⟩
  constructor
  · rw [emitDemands]
    split
    · exact allMet_nil
    rename_i hset
    split
    · exact allMet_nil
    rename_i htables
    exact (hrun hset htables).1
  · simp only [emit]
    split
    · rfl
    rename_i hset
    split
    · rfl
    rename_i htables
    split
    · rename_i failure hfailure
      apply crashOf_ofStep
      rintro f rfl
      exact (hrun hset htables).2 f hfailure
    · rfl

/-- For a picture that has a format, a register set is filled or there is an error. -/
theorem safe_fill (hguarded : strategy.Guarded d) (hexact : device.memory.IsExact)
    (htotal : device.memory.IsTotal) (h : e.Provisioned device.memory strategy.regions)
    (hframes : e.frames.Sized)
    (hcount : e.backend.aux.allocations + max e.backend.sets.size 1 < 2 ^ 64)
    (hp : e.plan strategy picture t = .ok p) (slot : Nat) :
    Safe (e.fillDemands device strategy d picture t slot)
      (e.fill device strategy picture t slot).1 := by
  obtain ⟨format, hformat, -⟩ := plan_ok hp
  have houtput := plan_output hp
  have hsized := (hframes.of_frame? houtput).1
  have hplan : AllMet (e.planDemands strategy d picture t) := by
    rw [← firstFault_eq_none_iff, firstFault_planDemands hguarded, hp]
    rfl
  have haux := safe_bindAux hguarded htotal h hcount hp slot
  have hbound := h.bindAux p slot
  have hkept : (e.bindAux device strategy p slot).2.frames = e.frames :=
    (bindAux_refill device strategy p slot e).frames
  have hresolve := allMet_resolve (hguarded.references picture) e.frames
  simp only [fillDemands, fill, hp]
  generalize e.bindAux device strategy p slot = r at haux hbound hkept
  obtain ⟨error | aux, e₁⟩ := r
  · exact ⟨allMet_append.2 ⟨hplan, allMet_append.2 ⟨haux.demands, allMet_nil⟩⟩, haux.result⟩
  simp only at hbound hkept ⊢
  rw [hkept]
  generalize hrefs :
    resolveReferences (strategy.referenceSlots picture) e.frames p.output t.output = refs
  rw [← hkept] at hframes houtput hrefs
  have hmotion := safe_bindMotion hguarded htotal hbound hframes houtput picture hrefs
  have hrestocks := bindMotion_restocks device strategy picture t refs e₁
  generalize e₁.bindMotion device strategy picture t refs = r at hmotion hrestocks
  obtain ⟨error | motion, e₂⟩ := r
  · refine ⟨allMet_append.2 ⟨hplan, allMet_append.2 ⟨haux.demands, ?_⟩⟩, hmotion.result⟩
    exact allMet_append.2 ⟨allMet_append.2 ⟨hresolve, hmotion.demands⟩, allMet_nil⟩
  · have htables := ((hbound.stocked.sized hexact).restocks hexact hrestocks).tables
    have hemit : Safe
        (e₂.emitDemands strategy d picture slot fun tables =>
          { output := p.output, outputSlot := t.output, stream := p.stream
            streamLength := t.streamLength, refs, tables := tables.handle, aux, motion
            bitDepth := p.bitDepth }) _ :=
      safe_emit hguarded htables hformat fun _ => hsized
    refine ⟨allMet_append.2 ⟨hplan, allMet_append.2 ⟨haux.demands, ?_⟩⟩, hemit.result⟩
    exact allMet_append.2 ⟨allMet_append.2 ⟨hresolve, hmotion.demands⟩, hemit.demands⟩

/-- Filling ends as its demands tell, and it has no result exactly if the picture has no format. -/
theorem firstFault_fillDemands (hguarded : strategy.Guarded d) (hexact : device.memory.IsExact)
    (htotal : device.memory.IsTotal) (h : e.Provisioned device.memory strategy.regions)
    (hframes : e.frames.Sized)
    (hcount : e.backend.aux.allocations + max e.backend.sets.size 1 < 2 ^ 64) (picture : Pic)
    (t : Task) (slot : Nat) :
    firstFault (e.fillDemands device strategy d picture t slot) =
        crashOf (e.fill device strategy picture t slot).1 ∧
      crashOf (e.fill device strategy picture t slot).1 = crashOf (e.plan strategy picture t) := by
  cases hp : e.plan strategy picture t with
  | error error =>
    simp only [fillDemands, fill, hp, List.append_nil, firstFault_planDemands hguarded]
    exact ⟨rfl, rfl⟩
  | ok p =>
    have hsafe := safe_fill hguarded hexact htotal h hframes hcount hp slot
    exact ⟨(firstFault_eq_none_iff.2 hsafe.demands).trans hsafe.result.symm, hsafe.result⟩

end

end Engine

end VideoAccel
