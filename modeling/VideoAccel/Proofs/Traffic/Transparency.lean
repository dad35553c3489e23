import VideoAccel.Proofs.Pipeline.Basic
import VideoAccel.Proofs.Traffic.Recording

namespace VideoAccel

variable {σ τ Pic : Type} {f : σ → τ} {d : Device σ} {d' : Device τ}

structure DeviceMap (f : σ → τ) (d : Device σ) (d' : Device τ) : Prop where
  submit : ∀ batch s, d'.channel.submit batch (f s) = Prod.map id f (d.channel.submit batch s)
  poll : ∀ s, d'.channel.poll (f s) = Prod.map id f (d.channel.poll s)
  reset : ∀ s, d'.channel.reset (f s) = Prod.map id f (d.channel.reset s)
  flush : ∀ s, d'.channel.flush (f s) = Prod.map id f (d.channel.flush s)
  allocate : ∀ size s, d'.memory.allocate size (f s) = Prod.map id f (d.memory.allocate size s)
  free : ∀ m s, d'.memory.free m (f s) = f (d.memory.free m s)

theorem recorded_deviceMap (d : Device σ) : DeviceMap Recorded.state d.recorded d :=
  ⟨fun _ _ => rfl, fun _ => rfl, fun _ => rfl, fun _ => rfl, fun _ _ => rfl, fun _ _ => rfl⟩

def Engine.map (f : σ → τ) (e : Engine σ) : Engine τ := ⟨e.backend, e.frames, f e.device⟩

def Outcome.map (f : σ → τ) (o : Outcome σ) : Outcome τ :=
  ⟨o.result, o.task, o.engine.map f, o.report⟩

def Pipeline.map (f : σ → τ) (p : Pipeline σ) : Pipeline τ := ⟨p.engine.map f, p.tasks⟩

def AuxBuffers.Refreshed.map (f : σ → τ) (r : AuxBuffers.Refreshed σ) : AuxBuffers.Refreshed τ :=
  ⟨r.result, r.buffers, r.group, f r.state⟩

namespace DeviceMap

theorem get (h : DeviceMap f d d') (purpose : Purpose) (size : Nat) (g : BufferGroup) (s : σ) :
    g.get d'.memory purpose size (f s) =
      Prod.map id (Prod.map id f) (g.get d.memory purpose size s) := by
  simp only [BufferGroup.get, h.allocate]
  split
  · rfl
  split
  · rfl
  rcases d.memory.allocate size s with ⟨_ | _, _⟩ <;> rfl

theorem getMany (h : DeviceMap f d d') (purpose : Purpose) (size count : Nat) (g : BufferGroup)
    (s : σ) :
    g.getMany d'.memory purpose size count (f s) =
      Prod.map id (Prod.map id (Prod.map id f)) (g.getMany d.memory purpose size count s) := by
  induction count generalizing g s with
  | zero => rfl
  | succ count ih =>
    simp only [BufferGroup.getMany, h.get]
    rcases g.get d.memory purpose size s with ⟨_ | b, g', s'⟩
    · rfl
    · simp only [Prod.map_apply, id_eq, ih]
      rfl

theorem giveMany (h : DeviceMap f d d') (bs : List DeviceBuffer) (g : BufferGroup) (s : σ) :
    g.giveMany d'.memory bs (f s) = Prod.map id f (g.giveMany d.memory bs s) := by
  have hfree : bs.foldl (fun s b => d'.memory.free b.memory s) (f s) =
      f (bs.foldl (fun s b => d.memory.free b.memory s) s) := by
    induction bs generalizing s with
    | nil => rfl
    | cons b bs ih => rw [List.foldl_cons, List.foldl_cons, h.free, ih]
  simp only [BufferGroup.giveMany, hfree]
  split <;> rfl

theorem obtain (h : DeviceMap f d d') (layout : AuxLayout) (key : LayoutKey) (a : AuxBuffers)
    (g : BufferGroup) (s : σ) :
    a.obtain d'.memory layout key g (f s) = (a.obtain d.memory layout key g s).map f := by
  simp only [AuxBuffers.obtain, h.getMany]
  rcases g.getMany d.memory _ _ _ s with ⟨_ | _, _, _, _⟩ <;> rfl

theorem refresh (h : DeviceMap f d d') (formulas : List RegionFormula) (key : LayoutKey)
    (a : AuxBuffers) (g : BufferGroup) (s : σ) :
    a.refresh d'.memory formulas key g (f s) = (a.refresh d.memory formulas key g s).map f := by
  simp only [AuxBuffers.refresh, h.giveMany]
  split
  · split
    · rfl
    · exact h.obtain ..
  · rfl

theorem ensure (h : DeviceMap f d d') (count size : Nat) (p : MotionPool) (g : BufferGroup)
    (s : σ) :
    p.ensure d'.memory count size g (f s) =
      Prod.map id (Prod.map id (Prod.map id f)) (p.ensure d.memory count size g s) := by
  simp only [MotionPool.ensure, h.giveMany, h.getMany, Prod.map_fst, Prod.map_snd, id_eq]
  split
  · split
    · rcases BufferGroup.getMany d.memory _ _ _ _ _ with ⟨_ | _, _, _, _⟩
      · rfl
      · simp only [Prod.map_apply, id_eq, h.giveMany]
        rfl
    · rfl
  · rfl

theorem bindAux (h : DeviceMap f d d') (strategy : Strategy Pic) (p : TaskPlan) (slot : Nat)
    (e : Engine σ) :
    (e.map f).bindAux d' strategy p slot =
      Prod.map id (Engine.map f) (e.bindAux d strategy p slot) := by
  simp only [Engine.bindAux, Engine.map, h.refresh]
  split
  · rfl
  split
  · rfl
  rcases AuxBuffers.refresh d.memory _ _ _ _ _ with ⟨_ | _, _, _, _⟩ <;> rfl

theorem bindMotion (h : DeviceMap f d d') (strategy : Strategy Pic) (picture : Pic) (t : Task)
    (refs : List ResolvedRef) (e : Engine σ) :
    (e.map f).bindMotion d' strategy picture t refs =
      Prod.map id (Engine.map f) (e.bindMotion d strategy picture t refs) := by
  simp only [Engine.bindMotion, Engine.map, h.ensure]
  split
  · rfl
  split
  · rfl
  rcases MotionPool.ensure d.memory _ _ _ _ _ with ⟨_ | _, _, _, _⟩ <;> rfl

theorem emit (strategy : Strategy Pic) (picture : Pic) (slot : Nat)
    (bind : DeviceBuffer → Binding) (e : Engine σ) :
    (e.map f).emit strategy picture slot bind =
      Prod.map id (Engine.map f) (e.emit strategy picture slot bind) := by
  simp only [Engine.emit, Engine.map]
  split
  · rfl
  split
  · rfl
  rcases Emission.runSteps strategy picture _ _ _ with ⟨_ | _, _⟩ <;> rfl

theorem fill (h : DeviceMap f d d') (strategy : Strategy Pic) (picture : Pic) (t : Task)
    (slot : Nat) (e : Engine σ) :
    (e.map f).fill d' strategy picture t slot =
      Prod.map id (Engine.map f) (e.fill d strategy picture t slot) := by
  have hplan : (e.map f).plan strategy picture t = e.plan strategy picture t := rfl
  simp only [Engine.fill, hplan, h.bindAux]
  split
  · rfl
  rcases e.bindAux d strategy _ slot with ⟨_ | aux, e'⟩
  · rfl
  simp only [Prod.map_apply, id_eq, h.bindMotion]
  have hframes : (e'.map f).frames = e'.frames := rfl
  rw [hframes]
  rcases e'.bindMotion d strategy picture t _ with ⟨_ | motion, e''⟩
  · rfl
  · exact emit ..

theorem fillPicture (h : DeviceMap f d d') (t : Task) (slot : Nat) (e : Engine σ) :
    (e.map f).fillPicture d' t slot = Prod.map id (Engine.map f) (e.fillPicture d t slot) := by
  simp only [Engine.fillPicture]
  have hbackend : (e.map f).backend = e.backend := rfl
  rw [hbackend]
  split
  · exact h.fill ..
  · exact h.fill ..
  · rfl

theorem generate (h : DeviceMap f d d') (t : Task) (e : Engine σ) :
    (e.map f).generate d' t = (e.generate d t).map f := by
  have hsets : ∀ sets, (e.map f).withSets sets = (e.withSets sets).map f := fun _ => rfl
  have hbackend : (e.map f).backend = e.backend := rfl
  simp only [Engine.generate, hbackend, hsets, h.fillPicture]
  split
  · rfl
  split
  · rfl
  split
  · rfl
  split
  · rfl
  rcases Engine.fillPicture d t _ (e.withSets _) with ⟨_ | _, _⟩ <;> rfl

theorem start (h : DeviceMap f d d') (t : Task) (e : Engine σ) :
    (e.map f).start d' t = (e.start d t).map f := by
  have hsubmit : ∀ slot set, (e.map f).submit d' t slot set = (e.submit d t slot set).map f := by
    intro slot set
    simp only [Engine.submit, Engine.map, h.submit]
    rcases d.channel.submit _ e.device with ⟨_ | _, _⟩ <;> rfl
  have hbackend : (e.map f).backend = e.backend := rfl
  simp only [Engine.start, hbackend, hsubmit]
  split
  · rfl
  split
  · rfl
  split
  · rfl
  split <;> rfl

theorem wait (h : DeviceMap f d d') (t : Task) (e : Engine σ) :
    (e.map f).wait d' t = (e.wait d t).map f := by
  simp only [Engine.wait, Engine.map, h.poll]
  split
  · rfl
  split
  · rfl
  split
  · rfl
  split <;> rfl

theorem engineReset (h : DeviceMap f d d') (e : Engine σ) :
    (e.map f).reset d' = Prod.map id (Engine.map f) (e.reset d) := by
  simp only [Engine.reset, Engine.map, h.reset]
  rfl

theorem engineFlush (h : DeviceMap f d d') (e : Engine σ) :
    (e.map f).flush d' = Prod.map id (Engine.map f) (e.flush d) := by
  simp only [Engine.flush, Engine.map, h.flush]
  rfl

theorem control (c : Control) (e : Engine σ) :
    (e.map f).control c = Prod.map id (Engine.map f) (e.control c) := by
  cases c with
  | frameInfo width height depth layout =>
    by_cases hlayout : e.backend.generation.supportsLayout layout = true <;>
      simp [Engine.control, Engine.map, hlayout]
  | errorTolerance enabled => rfl

theorem step (h : DeviceMap f d d') (p : Pipeline σ) (a : Action) :
    (p.map f).step d' a = (p.step d a).map f := by
  cases a with
  | generate i => simp only [Pipeline.step, Pipeline.map, h.generate]; rfl
  | start i => simp only [Pipeline.step, Pipeline.map, h.start]; rfl
  | wait i => simp only [Pipeline.step, Pipeline.map, h.wait]; rfl
  | control c => simp only [Pipeline.step, Pipeline.map, control]; rfl
  | flush => simp only [Pipeline.step, Pipeline.map, h.engineFlush]; rfl
  | reset => simp only [Pipeline.step, Pipeline.map, h.engineReset]; rfl
  | recycle | edit | frames => rfl

theorem run (h : DeviceMap f d d') (p : Pipeline σ) (actions : List Action) :
    (p.map f).run d' actions = (p.run d actions).map f := by
  induction actions generalizing p with
  | nil => rfl
  | cons a actions ih => rw [Pipeline.run_cons, Pipeline.run_cons, h.step, ih]

end DeviceMap

end VideoAccel
