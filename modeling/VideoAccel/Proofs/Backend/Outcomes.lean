import VideoAccel.Proofs.Backend.Filling

namespace VideoAccel

variable {σ Pic : Type}

/-- The errors that tell of a state of the backend itself, not of a request that cannot be met. -/
def BackendError.isInternal : BackendError → Bool
  | .unboundTask => true
  | .missingSet _ => true
  | _ => false

@[simp]
theorem BackendError.isInternal_ofAlloc (e : AllocError) : (ofAlloc e).isInternal = false := by
  cases e <;> rfl

@[simp]
theorem BackendError.isInternal_ofStep (e : StepError) : (ofStep e).isInternal = false := by
  cases e <;> rfl

namespace Engine

section

variable {device : Device σ} {strategy : Strategy Pic} {picture : Pic} {t : Task} {slot : Nat}
  {e e' : Engine σ} {error : BackendError}

theorem isInternal_plan (h : e.plan strategy picture t = .error error) :
    error.isInternal = false := by
  simp only [plan] at h
  split at h
  · cases h; rfl
  split at h
  · cases h; rfl
  split at h
  · cases h; rfl
  split at h <;> cases h
  rfl

theorem isInternal_bindAux {p : TaskPlan}
    (h : e.bindAux device strategy p slot = (.error error, e')) : error.isInternal = false := by
  simp only [bindAux] at h
  split at h
  · cases h
  split at h
  · cases h; rfl
  split at h <;> cases h
  simp

theorem isInternal_bindMotion {refs : List ResolvedRef}
    (h : e.bindMotion device strategy picture t refs = (.error error, e')) :
    error.isInternal = false := by
  simp only [bindMotion] at h
  split at h
  · cases h
  split at h
  · cases h; rfl
  split at h <;> cases h
  simp

theorem isInternal_emit {bind : DeviceBuffer → Binding} (hslot : slot < e.backend.sets.size)
    (h : e.emit strategy picture slot bind = (.error error, e')) : error.isInternal = false := by
  simp only [emit] at h
  split at h
  · rename_i hnone
    exact absurd (List.getElem?_eq_none_iff.1 hnone) (Nat.not_le_of_lt hslot)
  split at h
  · cases h; rfl
  split at h <;> cases h
  simp

theorem isInternal_fill (hslot : slot < e.backend.sets.size)
    (h : e.fill device strategy picture t slot = (.error error, e')) :
    error.isInternal = false := by
  simp only [fill] at h
  split at h
  · rename_i hplan
    cases h
    exact isInternal_plan hplan
  rename_i p _
  have haux := e.bindAux_refill device strategy p slot
  split at h <;> rename_i e₁ hr
  · cases h
    exact isInternal_bindAux hr
  rw [hr] at haux
  have hmotion := e₁.bindMotion_refill device strategy picture t
    (resolveReferences (strategy.referenceSlots picture) e₁.frames p.output t.output) slot
  split at h <;> rename_i e₂ hr
  · cases h
    exact isInternal_bindMotion hr
  rw [hr] at hmotion
  refine isInternal_emit ?_ h
  rw [hmotion.size, haux.size]
  exact hslot

theorem isInternal_fillPicture (hslot : slot < e.backend.sets.size)
    (h : e.fillPicture device t slot = (.error error, e')) : error.isInternal = false := by
  simp only [fillPicture] at h
  split at h
  · exact isInternal_fill hslot h
  · exact isInternal_fill hslot h
  · cases h; rfl

end

inductive Generated (device : Device σ) (t : Task) (e : Engine σ) : Outcome σ → Prop
  | refused {error} : error.isInternal = false → Generated device t e ⟨.error error, t, e, none⟩
  | bypassed {slot sets} :
    t.state = .idle → t.mustSkip e.backend.config = true →
    e.backend.sets.acquire? = some (slot, sets) →
      Generated device t e
        ⟨.ok (), { t with slot := some slot, state := .registersGenerated },
          e.withSets (sets.modify slot fun set => { set with skip := true }), none⟩
  | failed {slot sets error e'} :
    t.state = .idle → t.mustSkip e.backend.config = false →
    e.backend.sets.acquire? = some (slot, sets) →
    fillPicture device t slot (e.withSets sets) = (.error error, e') →
    error.isInternal = false →
      Generated device t e ⟨.error error, t, e'.releaseSet slot, none⟩
  | filled {slot sets e'} :
    t.state = .idle → t.mustSkip e.backend.config = false →
    e.backend.sets.acquire? = some (slot, sets) →
    fillPicture device t slot (e.withSets sets) = (.ok (), e') →
      Generated device t e
        ⟨.ok (), { t with slot := some slot, state := .registersGenerated }, e', none⟩

theorem generated (device : Device σ) (t : Task) (e : Engine σ) :
    Generated device t e (e.generate device t) := by
  simp only [generate]
  split
  · exact .refused rfl
  rename_i hidle
  rw [Decidable.not_not] at hidle
  split
  · exact .refused rfl
  split
  · exact .refused rfl
  rename_i slot sets hacquire
  split
  · rename_i hskip
    exact .bypassed hidle hskip hacquire
  rename_i hskip
  rw [Bool.not_eq_true] at hskip
  split <;> rename_i hfill
  · have hvalid := (RegisterSets.isValid_acquire? hacquire slot).2 (.inr rfl)
    have hlt := RegisterSets.lt_size_of_isValid hvalid
    exact .failed hidle hskip hacquire hfill (isInternal_fillPicture hlt hfill)
  · exact .filled hidle hskip hacquire hfill

theorem isInternal_generate {device : Device σ} {t : Task} {e : Engine σ} {error : BackendError}
    (h : (e.generate device t).result = .error error) : error.isInternal = false := by
  have hgen := generated device t e
  generalize e.generate device t = o at hgen h
  cases hgen with
  | refused hinternal | failed _ _ _ _ hinternal =>
    cases h
    exact hinternal
  | bypassed | filled => cases h

inductive Started (device : Device σ) (t : Task) (e : Engine σ) : Outcome σ → Prop
  | refused :
    t.state ≠ .registersGenerated →
      Started device t e ⟨.error (.invalidState t.state .registersGenerated), t, e, none⟩
  | unbound :
    t.state = .registersGenerated → t.slot = none →
      Started device t e ⟨.error .unboundTask, t, e, none⟩
  | missing {slot} :
    t.state = .registersGenerated → t.slot = some slot → e.backend.sets.get? slot = none →
      Started device t e ⟨.error (.missingSet slot), t, e, none⟩
  | bypassed {slot set} :
    t.state = .registersGenerated → t.slot = some slot → e.backend.sets.get? slot = some set →
    set.skip = true →
      Started device t e ⟨.ok (), { t with state := .submitted }, e, none⟩
  | rejected {slot set error state} :
    t.state = .registersGenerated → t.slot = some slot → e.backend.sets.get? slot = some set →
    set.skip = false →
    device.channel.submit (e.backend.generation.queue set.registers set.patches) e.device =
      (.error error, state) →
      Started device t e
        ⟨.error (.submitFailed error), { t with slot := none, state := .completed },
          { e.releaseSet slot with device := state }, none⟩
  | accepted {slot set state} :
    t.state = .registersGenerated → t.slot = some slot → e.backend.sets.get? slot = some set →
    set.skip = false →
    device.channel.submit (e.backend.generation.queue set.registers set.patches) e.device =
      (.ok (), state) →
      Started device t e
        ⟨.ok (), { t with state := .submitted },
          { e with
            backend := { e.backend with submitted := e.backend.submitted ++ [slot] }
            device := state }, none⟩

theorem started (device : Device σ) (t : Task) (e : Engine σ) :
    Started device t e (e.start device t) := by
  simp only [start]
  split
  · rename_i hstate
    exact .refused hstate
  rename_i hstate
  rw [Decidable.not_not] at hstate
  split
  · rename_i hslot
    exact .unbound hstate hslot
  rename_i slot hslot
  split
  · rename_i hget
    exact .missing hstate hslot hget
  rename_i set hget
  split
  · rename_i hskip
    exact .bypassed hstate hslot hget hskip
  rename_i hskip
  rw [Bool.not_eq_true] at hskip
  simp only [submit]
  split <;> rename_i hsubmit
  · exact .rejected hstate hslot hget hskip hsubmit
  · exact .accepted hstate hslot hget hskip hsubmit

theorem dequeue_eq_ok {slot : Nat} {submitted rest : List Nat}
    (h : dequeue slot submitted = .ok rest) :
    submitted = slot :: rest ∨ slot ∉ submitted ∧ rest = submitted := by
  unfold dequeue at h
  split at h
  · cases h
    exact .inr ⟨by simp, rfl⟩
  · rename_i first others
    split at h
    · rename_i hfirst
      cases h
      exact .inl (by rw [hfirst])
    split at h
    · cases h
    rename_i hfirst hmem
    cases h
    refine .inr ⟨?_, rfl⟩
    simp only [List.mem_cons, not_or]
    exact ⟨Ne.symm hfirst, by simpa using hmem⟩

theorem dequeue_eq_error {slot : Nat} {submitted : List Nat} {error : BackendError}
    (h : dequeue slot submitted = .error error) :
    ∃ first rest, submitted = first :: rest ∧ first ≠ slot ∧ slot ∈ rest ∧
      error = .outOfOrder first slot := by
  unfold dequeue at h
  split at h
  · cases h
  · rename_i first others
    split at h
    · cases h
    split at h
    · rename_i hfirst hmem
      cases h
      exact ⟨first, others, rfl, hfirst, by simpa using hmem, rfl⟩
    · cases h

inductive Waited (device : Device σ) (t : Task) (e : Engine σ) : Outcome σ → Prop
  | refused :
    t.state ≠ .submitted → Waited device t e ⟨.error (.invalidState t.state .submitted), t, e, none⟩
  | unbound :
    t.state = .submitted → t.slot = none → Waited device t e ⟨.error .unboundTask, t, e, none⟩
  | outOfOrder {slot first rest} :
    t.state = .submitted → t.slot = some slot →
    e.backend.submitted = first :: rest → first ≠ slot → slot ∈ rest →
      Waited device t e ⟨.error (.outOfOrder first slot), t, e, none⟩
  | bypassed {slot submitted} :
    t.state = .submitted → t.slot = some slot →
    dequeue slot e.backend.submitted = .ok submitted →
    (e.backend.sets.get? slot).any (·.skip) = true →
      Waited device t e
        (complete t slot true {} { e with backend := { e.backend with submitted } })
  | polled {slot submitted result state} :
    t.state = .submitted → t.slot = some slot →
    dequeue slot e.backend.submitted = .ok submitted →
    (e.backend.sets.get? slot).any (·.skip) = false →
    device.channel.poll e.device = (result, state) →
      Waited device t e
        (complete t slot false (pollOutcome e.backend.generation result)
          { e with backend := { e.backend with submitted }, device := state })

theorem waited (device : Device σ) (t : Task) (e : Engine σ) :
    Waited device t e (e.wait device t) := by
  simp only [wait]
  split
  · rename_i hstate
    exact .refused hstate
  rename_i hstate
  rw [Decidable.not_not] at hstate
  split
  · rename_i hslot
    exact .unbound hstate hslot
  rename_i slot hslot
  split
  · rename_i error hdequeue
    obtain ⟨first, rest, hqueue, hfirst, hmem, rfl⟩ := dequeue_eq_error hdequeue
    exact .outOfOrder hstate hslot hqueue hfirst hmem
  rename_i submitted hdequeue
  split
  · rename_i hskip
    exact .bypassed hstate hslot hdequeue hskip
  · rename_i hskip
    rw [Bool.not_eq_true] at hskip
    exact .polled hstate hslot hdequeue hskip rfl

section

variable {device : Device σ} {t : Task} {slot : Nat} {sets : RegisterSets RegisterImage}
  {e e' : Engine σ} {result : Except BackendError Unit}

theorem mark_of_bypassed (hacquire : e.backend.sets.acquire? = some (slot, sets)) :
    (sets.modify slot fun set => { set with skip := true }).mark =
      Function.update e.backend.sets.mark slot (some true) := by
  have hvalid := (RegisterSets.isValid_acquire? hacquire slot).2 (.inr rfl)
  rw [RegisterSets.mark_modify_skip hvalid, (RegisterSets.mark_acquire? hacquire).2,
    Function.update_idem]

theorem mark_of_filled (hacquire : e.backend.sets.acquire? = some (slot, sets))
    (hfill : fillPicture device t slot (e.withSets sets) = (result, e')) :
    e'.backend.sets.mark = Function.update e.backend.sets.mark slot (some false) :=
  (refill_of_fillPicture hfill).mark.trans (RegisterSets.mark_acquire? hacquire).2

theorem mark_of_failed (hacquire : e.backend.sets.acquire? = some (slot, sets))
    (hfill : fillPicture device t slot (e.withSets sets) = (result, e')) :
    (e'.releaseSet slot).backend.sets.mark = e.backend.sets.mark := by
  refine (RegisterSets.mark_release ..).trans ?_
  rw [mark_of_filled hacquire hfill, Function.update_idem,
    ← (RegisterSets.mark_acquire? hacquire).1, Function.update_eq_self]

/-- A set that is taken for the hardware was so before, or it has just been filled. -/
theorem taken_of_generate
    (hmark : (e.generate device t).engine.backend.sets.mark slot = some false) :
    e.backend.sets.mark slot = some false ∨
      ∃ sets, fillPicture device t slot (e.withSets sets) =
        (.ok (), (e.generate device t).engine) := by
  have hgen := generated device t e
  generalize e.generate device t = o at hmark hgen
  cases hgen with
  | refused _ => exact .inl hmark
  | @bypassed slot' _ _ _ hacquire =>
    have hbefore := congrFun (mark_of_bypassed hacquire) slot
    by_cases hslot : slot = slot'
    · subst hslot
      rw [Function.update_self] at hbefore
      cases hbefore.symm.trans hmark
    · rw [Function.update_of_ne hslot] at hbefore
      exact .inl (hbefore.symm.trans hmark)
  | failed _ _ hacquire hfill _ =>
    have hbefore := congrFun (mark_of_failed hacquire hfill) slot
    exact .inl (hbefore.symm.trans hmark)
  | @filled slot' sets _ _ _ hacquire hfill =>
    have hbefore := congrFun (mark_of_filled hacquire hfill) slot
    by_cases hslot : slot = slot'
    · subst hslot
      exact .inr ⟨sets, hfill⟩
    · rw [Function.update_of_ne hslot] at hbefore
      exact .inl (hbefore.symm.trans hmark)

end

theorem mark_complete (t : Task) (slot : Nat) (skipped : Bool) (p : PollOutcome) (e : Engine σ) :
    (complete t slot skipped p e).engine.backend.sets.mark =
      Function.update e.backend.sets.mark slot none := by
  have hclear := RegisterSets.mark_modify e.backend.sets slot
    (fun set => { set with registers := set.registers.writeAll e.backend.generation.clearStatus })
    fun _ => ⟨rfl, rfl⟩
  exact (RegisterSets.mark_release ..).trans (congrArg (Function.update · slot none) hclear)

theorem control_eq (c : Control) (e : Engine σ) :
    ∃ config frames, (e.control c).2 = ⟨{ e.backend with config }, frames, e.device⟩ ∧
      config.pipelineDepth = e.backend.config.pipelineDepth := by
  cases c with
  | frameInfo width height depth layout =>
    simp only [control]
    split <;> exact ⟨_, _, rfl, rfl⟩
  | errorTolerance enabled => exact ⟨_, _, rfl, rfl⟩

theorem control_eq_error {c : Control} {e e' : Engine σ} {error : BackendError}
    (h : e.control c = (.error error, e')) : e' = e := by
  cases c with
  | frameInfo width height depth layout =>
    simp only [control] at h
    split at h <;> cases h
    rfl
  | errorTolerance enabled => cases h

def SameShape (e e' : Engine σ) : Prop :=
  e'.backend.config = e.backend.config ∧ e'.backend.sets.size = e.backend.sets.size

theorem generate_shape (device : Device σ) (t : Task) (e : Engine σ) :
    SameShape e (e.generate device t).engine := by
  have hgen := generated device t e
  generalize e.generate device t = o at hgen
  cases hgen with
  | refused _ => exact ⟨rfl, rfl⟩
  | bypassed _ _ hacquire =>
    exact ⟨rfl, (RegisterSets.size_modify ..).trans (RegisterSets.size_acquire? hacquire)⟩
  | failed _ _ hacquire hfill _ =>
    have hrefill := refill_of_fillPicture hfill
    have hsize := hrefill.size.trans (RegisterSets.size_acquire? hacquire)
    exact ⟨hrefill.config, (RegisterSets.size_release ..).trans hsize⟩
  | filled _ _ hacquire hfill =>
    have hrefill := refill_of_fillPicture hfill
    exact ⟨hrefill.config, hrefill.size.trans (RegisterSets.size_acquire? hacquire)⟩

theorem start_shape (device : Device σ) (t : Task) (e : Engine σ) :
    SameShape e (e.start device t).engine := by
  have hstart := started device t e
  generalize e.start device t = o at hstart
  cases hstart with
  | rejected => exact ⟨rfl, RegisterSets.size_release ..⟩
  | refused | unbound | missing | bypassed | accepted => exact ⟨rfl, rfl⟩

theorem wait_shape (device : Device σ) (t : Task) (e : Engine σ) :
    SameShape e (e.wait device t).engine := by
  have hwait := waited device t e
  generalize e.wait device t = o at hwait
  cases hwait with
  | refused | unbound | outOfOrder => exact ⟨rfl, rfl⟩
  | bypassed | polled =>
    exact ⟨rfl, (RegisterSets.size_release ..).trans (RegisterSets.size_modify ..)⟩

end Engine

end VideoAccel
