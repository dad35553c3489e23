import Mathlib.Logic.Function.Basic
import VideoAccel.Proofs.Backend.Initial
import VideoAccel.Proofs.Backend.Outcomes

namespace VideoAccel

/-- The task is bound to a register set. -/
def Task.inFlight (t : Task) : Bool := t.state == .registersGenerated || t.state == .submitted

def Task.withFields (t fields : Task) : Task := { fields with slot := t.slot, state := t.state }

structure Pipeline (σ : Type) where
  engine : Engine σ
  tasks : Nat → Task

/-- What a caller does; tasks are known by numbers. -/
inductive Action
  | generate (i : Nat)
  | start (i : Nat)
  | wait (i : Nat)
  | recycle (i : Nat)
  | edit (i : Nat) (fields : Task)
  | control (c : Control)
  | frames (table : FrameTable)
  | flush
  | reset
  deriving DecidableEq

def recycled (tasks : Nat → Task) (i : Nat) : Nat → Task :=
  if (tasks i).state = .completed then Function.update tasks i (tasks i).recycle else tasks

namespace Pipeline

variable {σ : Type}

/-- The pipeline after an operation on task `i`. -/
def after (p : Pipeline σ) (i : Nat) (o : Outcome σ) : Pipeline σ :=
  ⟨o.engine, Function.update p.tasks i o.task⟩

def step (device : Device σ) (p : Pipeline σ) : Action → Pipeline σ
  | .generate i => p.after i (p.engine.generate device (p.tasks i))
  | .start i => p.after i (p.engine.start device (p.tasks i))
  | .wait i => p.after i (p.engine.wait device (p.tasks i))
  | .recycle i => { p with tasks := recycled p.tasks i }
  | .edit i fields => { p with tasks := Function.update p.tasks i ((p.tasks i).withFields fields) }
  | .control c => { p with engine := (p.engine.control c).2 }
  | .frames frames => { p with engine := { p.engine with frames } }
  | .flush => { p with engine := (p.engine.flush device).2 }
  | .reset => { p with engine := (p.engine.reset device).2 }

def run (device : Device σ) (p : Pipeline σ) (actions : List Action) : Pipeline σ :=
  actions.foldl (step device) p

theorem run_cons (device : Device σ) (p : Pipeline σ) (a : Action) (actions : List Action) :
    p.run device (a :: actions) = (p.step device a).run device actions := rfl

theorem run_induction {device : Device σ} {P : Pipeline σ → Prop}
    (hstep : ∀ p a, P p → P (p.step device a)) {p : Pipeline σ} (hp : P p)
    (actions : List Action) : P (p.run device actions) := by
  induction actions generalizing p with
  | nil => exact hp
  | cons a actions ih => exact ih (hstep p a hp)

/-- The backend is initialized and no task has been handed to it. -/
structure IsInitial (device : Device σ) (p : Pipeline σ) : Prop where
  engine : p.engine.IsInitialized device
  tasks : ∀ i, (p.tasks i).slot = none ∧ (p.tasks i).inFlight = false

end Pipeline

end VideoAccel
