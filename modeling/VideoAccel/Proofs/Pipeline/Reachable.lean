import VideoAccel.Proofs.Pipeline.Operations

namespace VideoAccel.Pipeline

variable {σ : Type} {device : Device σ} {p : Pipeline σ}

theorem bound_step (h : Bound p.tasks p.engine.backend) (device : Device σ) (a : Action) :
    Bound (p.step device a).tasks (p.step device a).engine.backend := by
  cases a with
  | generate i => exact h.generate device i
  | start i => exact h.start device i
  | wait i => exact h.wait device i
  | recycle i => exact h.recycled i
  | edit i fields => exact h.withFields i fields
  | control c => exact h.control c
  | frames | flush => exact h
  | reset => exact h.reset device

theorem IsInitial.bound (hp : p.IsInitial device) : Bound p.tasks p.engine.backend :=
  Bound.of_free hp.tasks hp.engine.ready.submitted hp.engine.ready.isValid

theorem bound_run (hp : p.IsInitial device) (actions : List Action) :
    Bound (p.run device actions).tasks (p.run device actions).engine.backend :=
  run_induction (P := fun q => Bound q.tasks q.engine.backend)
    (fun _ a hq => bound_step hq device a) hp.bound actions

end VideoAccel.Pipeline
