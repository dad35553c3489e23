import VideoAccel.Proofs.Backend.Motion
import VideoAccel.Proofs.Pipeline.Overflow
import VideoAccel.Proofs.Pipeline.Reuse

namespace VideoAccel

variable {σ : Type} {device : Device σ} {p : Pipeline σ}

namespace Action

/-- The pool is not asked for stores, or it has them. -/
def KeepsPool (device : Device σ) (p : Pipeline σ) : Action → Prop
  | .generate i => Engine.Unmoved (p.engine.poolAnswer? device (p.tasks i))
  | _ => True

end Action

namespace Pipeline

/-- No action makes the pool of motion vector stores anew. -/
def KeepsPool (device : Device σ) : Pipeline σ → List Action → Prop
  | _, [] => True
  | p, a :: actions => a.KeepsPool device p ∧ KeepsPool device (p.step device a) actions

theorem motion_step {a : Action} (h : a.KeepsPool device p) :
    (p.step device a).engine.backend.motion = p.engine.backend.motion := by
  cases a with
  | generate i => exact Engine.generate_unmoved h
  | start i => exact Engine.start_motion ..
  | wait i => exact Engine.wait_motion ..
  | control c =>
    obtain ⟨config, frames, hsame, -⟩ := Engine.control_eq c p.engine
    simp only [step, hsame]
  | recycle | edit | frames | flush | reset => rfl

theorem motion_run {actions : List Action} (h : p.KeepsPool device actions) :
    (p.run device actions).engine.backend.motion = p.engine.backend.motion := by
  induction actions generalizing p with
  | nil => rfl
  | cons a actions ih => exact (ih h.2).trans (motion_step h.1)

theorem stocked_run (hp : p.IsInitial device) (actions : List Action) :
    (p.run device actions).engine.Stocked device.memory := by
  obtain ⟨_, _, _, _, _, _, hinit⟩ := hp.engine
  exact run_induction (P := fun q => q.engine.Stocked device.memory)
    (fun q a hq => hq.operate (operations_step device q a) (restocks_step device q a))
    (Engine.Stocked.init hinit) actions

/-- Registers are generated for task `i`, and the hardware is to decode it. -/
def Accepts (device : Device σ) (p : Pipeline σ) (i : Nat) : Prop :=
  (p.engine.generate device (p.tasks i)).result = .ok () ∧
    (p.tasks i).mustSkip p.engine.backend.config = false

/-- Task `i` gets the register set `set`, which holds stores of `pool` for the task. -/
def BindsStores (device : Device σ) (p : Pipeline σ) (i : Nat) (pool : MotionPool)
    (set : RegisterSet RegisterImage) : Prop :=
  let o := p.engine.generate device (p.tasks i)
  (∃ slot, o.task.slot = some slot ∧ o.engine.backend.sets.get? slot = some set) ∧
    (p.tasks i).HoldsStores p.engine pool set.registers

theorem exists_bindsStores (hp : p.IsInitial device)
    (hgeneration : p.engine.backend.generation = .vdpu34x) (hexact : device.memory.IsExact)
    {actions : List Action} {i : Nat} (haccepts : (p.run device actions).Accepts device i) :
    ∃ set, (p.run device actions).BindsStores device i
      ((p.run device actions).step device (.generate i)).engine.backend.motion set := by
  obtain ⟨hok, hskip⟩ := haccepts
  have hstocked := stocked_run hp (actions ++ [.generate i])
  rw [run_append] at hstocked
  obtain ⟨hkind, -⟩ := upToDate_run hp actions
  obtain ⟨slot, sets, -, hslot, hset⟩ := Engine.programmed_of_generate hok
  rw [hskip, if_neg Bool.false_ne_true] at hset
  obtain ⟨bind, set, hprogrammed⟩ := hset
  exact ⟨set, ⟨slot, hslot, hprogrammed.found⟩, hprogrammed.holdsStores
    (hkind.generation.trans hgeneration) (hstocked.sized hexact).motion⟩

/-- On the second generation, the registers of a task hold the handles of stores in the pool, of the
size for its picture, with the same handle for two frame slots exactly if they are the same; and in
the registers of a later task, unless the pool was made anew for it or before, each frame slot has
the handle that it had. A pool is as it was, with all the stores that are asked for, if it answers
so, and empty after an error. -/
theorem motion_stores_of_run (hp : p.IsInitial device)
    (hgeneration : p.engine.backend.generation = .vdpu34x) (hexact : device.memory.IsExact)
    {inUse : σ → Set UInt32} (hfresh : FreshHandles device inUse) :
    (∀ before i,
      let q := p.run device before
      let pool := (q.step device (.generate i)).engine.backend.motion
      q.Accepts device i →
        ∃ set, q.BindsStores device i pool set ∧
          (q.tasks i).AgreesOnStores q.engine set.registers (q.tasks i) q.engine set.registers ∧
          ∀ between j,
            let q' := p.run device (before ++ .generate i :: between)
            q'.Accepts device j →
              (q.step device (.generate i)).KeepsPool device (between ++ [.generate j]) →
                ∃ set', q'.BindsStores device j pool set' ∧
                  (q.tasks i).AgreesOnStores q.engine set.registers (q'.tasks j) q'.engine
                    set'.registers) ∧
      ∀ pool, Relation.ReflTransGen (MotionPool.Renews device.memory) {} pool →
        ∀ count size group s,
          let r := pool.ensure device.memory count size group s
          (r.1 = .ok false → count ≤ pool.stores.length ∧ (∀ b ∈ pool.stores, b.size = size) ∧
            r.2 = (pool, group, s)) ∧
          ∀ error, r.1 = .error error → r.2.1 = {} := by
  constructor
  · intro before i q pool haccepts
    obtain ⟨set, hbinds⟩ := exists_bindsStores hp hgeneration hexact haccepts
    have hdistinct : (q.step device (.generate i)).engine.holding.Distinct inUse := by
      have hrun := distinct_run hp hfresh (before ++ [.generate i])
      rwa [run_append] at hrun
    refine ⟨set, hbinds, Task.agreesOnStores_of_holds hdistinct hbinds.2 hbinds.2, ?_⟩
    intro between j q' haccepts' hkeeps
    obtain ⟨set', hbinds'⟩ := exists_bindsStores hp hgeneration hexact haccepts'
    have hpool : (q'.step device (.generate j)).engine.backend.motion = pool := by
      have hsame := motion_run hkeeps
      have hrest : q' = (q.step device (.generate i)).run device between := run_append ..
      rw [run_append] at hsame
      rw [hrest]
      exact hsame
    rw [hpool] at hbinds'
    exact ⟨set', hbinds', Task.agreesOnStores_of_holds hdistinct hbinds.2 hbinds'.2⟩
  · exact fun pool hreached count size group s =>
      MotionPool.ensure_answers hexact hreached count size group s

def referring : Task :=
  let refs : Vector Avc.RefFrame Avc.maxRefs :=
    (Vector.replicate 16 {}).set 0 { slot := some 0 } (by decide)
  { Bench.task 1 with picture := .avc { params := { refs } } }

/-- The second picture refers to the first one, and its register for the reference holds the handle
of the store that the first one was decoded into. -/
theorem motion_stores_of_run_bench :
    let p := Bench.pipeline .vdpu34x
    let q' := p.run Bench.device [.generate 0, .start 0, .edit 1 referring]
    let pool := (p.step Bench.device (.generate 0)).engine.backend.motion
    p.IsInitial Bench.device ∧ ∃ set set', p.BindsStores Bench.device 0 pool set ∧
      q'.BindsStores Bench.device 1 pool set' ∧
      set.registers.get? Vdpu34x.Reg.motionCurrentBase =
        set'.registers.get? Vdpu34x.Reg.motionRefBase := by
  intro p q' pool
  have hp : p.IsInitial Bench.device := Bench.pipeline_isInitial .vdpu34x
  have haccepts : p.Accepts Bench.device 0 := by constructor <;> decide +kernel
  have haccepts' : q'.Accepts Bench.device 1 := by constructor <;> decide +kernel
  have hkeeps : (p.step Bench.device (.generate 0)).KeepsPool Bench.device
      ([.start 0, .edit 1 referring] ++ [.generate 1]) :=
    ⟨trivial, trivial, by change Engine.Unmoved _; decide +kernel, trivial⟩
  have hentry : (Vdpu34x.Reg.motionCurrentBase, 0) ∈ p.engine.motionRegisters (p.tasks 0) := by
    decide +kernel
  have hentry' : (Vdpu34x.Reg.motionRefBase, 0) ∈ q'.engine.motionRegisters (q'.tasks 1) := by
    decide +kernel
  obtain ⟨set, hbinds, -, hlater⟩ :=
    (motion_stores_of_run hp rfl Bench.memory_isExact Bench.fresh).1 [] 0 haccepts
  obtain ⟨set', hbinds', hagrees⟩ := hlater [.start 0, .edit 1 referring] 1 haccepts' hkeeps
  exact ⟨hp, set, set', hbinds, hbinds', (hagrees _ _ _ _ hentry hentry').2 rfl⟩

end Pipeline

end VideoAccel
