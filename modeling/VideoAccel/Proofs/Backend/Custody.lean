import VideoAccel.Proofs.Backend.Anchoring
import VideoAccel.Proofs.Backend.Outcomes
import VideoAccel.Proofs.Memory.Accounting

namespace VideoAccel

variable {σ : Type}

/-- A register set and the buffers it may hold the addresses of are as they were. -/
structure Undisturbed (slot : Nat) (b b' : Backend) : Prop where
  set : b'.sets.get? slot = b.sets.get? slot
  aux : b'.aux = b.aux
  motion : b'.motion = b.motion
  generation : b'.generation = b.generation
  scratch : b'.scratch = b.scratch

namespace Undisturbed

variable {slot : Nat} {b b' b'' : Backend}

theorem refl (slot : Nat) (b : Backend) : Undisturbed slot b b := ⟨rfl, rfl, rfl, rfl, rfl⟩

theorem trans (h : Undisturbed slot b b') (h' : Undisturbed slot b' b'') :
    Undisturbed slot b b'' where
  set := h'.set.trans h.set
  aux := h'.aux.trans h.aux
  motion := h'.motion.trans h.motion
  generation := h'.generation.trans h.generation
  scratch := h'.scratch.trans h.scratch

theorem mark (h : Undisturbed slot b b') : b'.sets.mark slot = b.sets.mark slot := by
  rw [RegisterSets.mark, RegisterSets.mark, h.set]

theorem anchored (h : Undisturbed slot b b') {set : RegisterSet RegisterImage}
    (hset : b.Anchored slot set) : b'.Anchored slot set where
  tables := by
    rw [h.generation]
    exact hset.tables
  addresses reg purpose handle hpurpose hhandle := by
    rw [h.generation] at hpurpose
    obtain hzero | ⟨buffer, hbuffer, hown⟩ | hscratch :=
      hset.addresses reg purpose handle hpurpose hhandle
    · exact .inl hzero
    · refine .inr (.inl ⟨buffer, ?_, hown⟩)
      cases purpose with
      | tables => exact hbuffer
      | auxiliary =>
        simp only [Backend.buffersOf, h.aux]
        exact hbuffer
      | motionVectors =>
        simp only [Backend.buffersOf, h.motion]
        exact hbuffer
    · rw [← h.scratch] at hscratch
      exact .inr (.inr hscratch)

end Undisturbed

namespace Engine

variable {device : Device σ} {t : Task} {slot : Nat} {e : Engine σ}

theorem transfer_acquire? {sets : RegisterSets RegisterImage}
    (h : e.backend.sets.acquire? = some (slot, sets)) :
    Transfer device.memory e.holding (e.withSets sets).holding := by
  obtain ⟨_, rfl⟩ := RegisterSets.acquire?_eq_some h
  exact transfer_modify fun _ _ => rfl

theorem transfer_release (device : Device σ) (e : Engine σ) (slot : Nat) :
    Transfer device.memory e.holding (e.releaseSet slot).holding :=
  transfer_modify fun _ _ => rfl

theorem transfer_complete (device : Device σ) (t : Task) (slot : Nat) (skipped : Bool)
    (p : PollOutcome) (e : Engine σ) :
    Transfer device.memory e.holding (complete t slot skipped p e).engine.holding := by
  have hclear : Transfer device.memory e.holding
      (e.withSets (e.backend.sets.modify slot fun set =>
        { set with
          registers := set.registers.writeAll e.backend.generation.clearStatus })).holding :=
    transfer_modify fun _ _ => rfl
  exact hclear.trans (transfer_release ..)

theorem generate_operations (device : Device σ) (t : Task) (e : Engine σ) :
    device.Operations e.holding (e.generate device t).engine.holding := by
  have hgen := generated device t e
  generalize e.generate device t = o at hgen
  apply Transfer.operations
  cases hgen with
  | refused _ => exact .refl
  | bypassed _ _ hacquire =>
    refine (transfer_acquire? hacquire).trans ?_
    exact transfer_modify fun _ _ => rfl
  | failed _ _ hacquire hfill _ =>
    have hrefill := refill_of_fillPicture hfill
    exact ((transfer_acquire? hacquire).trans hrefill.transfer).trans (transfer_release ..)
  | filled _ _ hacquire hfill =>
    exact (transfer_acquire? hacquire).trans (refill_of_fillPicture hfill).transfer

theorem start_operations (device : Device σ) (t : Task) (e : Engine σ) :
    device.Operations e.holding (e.start device t).engine.holding := by
  have hstart := started device t e
  generalize e.start device t = o at hstart
  cases hstart with
  | refused | unbound | missing | bypassed => exact .refl
  | rejected _ _ _ _ hsubmit =>
    exact (transfer_release device e _).operations.tail (.submit hsubmit)
  | accepted _ _ _ _ hsubmit => exact .single (.submit hsubmit)

theorem wait_operations (device : Device σ) (t : Task) (e : Engine σ) :
    device.Operations e.holding (e.wait device t).engine.holding := by
  have hwait := waited device t e
  generalize e.wait device t = o at hwait
  cases hwait with
  | refused | unbound | outOfOrder => exact .refl
  | @bypassed slot submitted =>
    have hcomplete := transfer_complete device t slot true {}
      { e with backend := { e.backend with submitted } }
    exact hcomplete.operations
  | @polled slot submitted result state _ _ _ _ hpoll =>
    have hcomplete := transfer_complete device t slot false
      (pollOutcome e.backend.generation result)
      { e with backend := { e.backend with submitted }, device := state }
    exact .head (.poll hpoll) hcomplete.operations

theorem generate_shaped (h : e.backend.aux.Shaped e.backend.sets.size) (device : Device σ)
    (t : Task) :
    (e.generate device t).engine.backend.aux.Shaped
      (e.generate device t).engine.backend.sets.size := by
  rw [(generate_shape device t e).2]
  exact h.refreshes (generate_aux device t e)

theorem generate_undisturbed (hvalid : e.backend.sets.isValid slot = true) (device : Device σ)
    (t : Task) : Undisturbed slot e.backend (e.generate device t).engine.backend := by
  have hgen := generated device t e
  generalize e.generate device t = o at hgen
  have hother : ∀ {slot' sets}, e.backend.sets.acquire? = some (slot', sets) → slot' ≠ slot := by
    rintro slot' sets hacquire rfl
    rw [RegisterSets.not_isValid_of_acquire? hacquire] at hvalid
    cases hvalid
  have hfilled : ∀ {slot' sets e' result}, e.backend.sets.acquire? = some (slot', sets) →
      fillPicture device t slot' (e.withSets sets) = (result, e') →
      Undisturbed slot e.backend e'.backend := by
    intro slot' sets e' result hacquire hfill
    have hne := hother hacquire
    have hrefill := refill_of_fillPicture hfill
    -- both sets are taken by now, so the test before each replacement finds another task in flight
    have hothers : (e.withSets sets).backend.hasOthersInFlight = true := by
      have hkept := (RegisterSets.isValid_acquire? hacquire slot).2 (.inl hvalid)
      have htaken := (RegisterSets.isValid_acquire? hacquire slot').2 (.inr rfl)
      exact decide_eq_true (RegisterSets.one_lt_validCount hkept htaken hne.symm)
    obtain ⟨haux, hmotion, _⟩ := hrefill.busy hothers
    have hset := RegisterSets.get?_acquire?_of_ne hacquire hne
    exact ⟨(hrefill.other hne).trans hset, haux, hmotion, hrefill.generation, hrefill.scratch⟩
  cases hgen with
  | refused _ => exact .refl ..
  | bypassed _ _ hacquire =>
    have hne := hother hacquire
    have hset := RegisterSets.get?_acquire?_of_ne hacquire hne
    exact ⟨(RegisterSets.get?_modify_of_ne _ hne _).trans hset, rfl, rfl, rfl, rfl⟩
  | @failed slot' sets error e' _ _ hacquire hfill _ =>
    have hrelease : Undisturbed slot e'.backend (e'.releaseSet slot').backend :=
      ⟨RegisterSets.get?_release_of_ne _ (hother hacquire), rfl, rfl, rfl, rfl⟩
    exact (hfilled hacquire hfill).trans hrelease
  | filled _ _ hacquire hfill => exact hfilled hacquire hfill

theorem ne_of_isValid_release {sets : RegisterSets RegisterImage} {slot' : Nat}
    (h : (sets.release slot').isValid slot = true) : slot' ≠ slot :=
  ((RegisterSets.isValid_release ..).1 h).2

theorem start_undisturbed (h : (e.start device t).engine.backend.sets.isValid slot = true) :
    Undisturbed slot e.backend (e.start device t).engine.backend := by
  have hstart := started device t e
  generalize e.start device t = o at hstart h
  cases hstart with
  | refused | unbound | missing | bypassed => exact .refl ..
  | rejected =>
    have hne := ne_of_isValid_release h
    exact ⟨RegisterSets.get?_release_of_ne _ hne, rfl, rfl, rfl, rfl⟩
  | accepted => exact ⟨rfl, rfl, rfl, rfl, rfl⟩

theorem wait_undisturbed (h : (e.wait device t).engine.backend.sets.isValid slot = true) :
    Undisturbed slot e.backend (e.wait device t).engine.backend := by
  have hwait := waited device t e
  generalize e.wait device t = o at hwait h
  cases hwait with
  | refused | unbound | outOfOrder => exact .refl ..
  | bypassed | polled =>
    have hne := ne_of_isValid_release h
    have hclear := RegisterSets.get?_modify_of_ne e.backend.sets hne
      (fun set =>
        { set with registers := set.registers.writeAll e.backend.generation.clearStatus })
    exact ⟨(RegisterSets.get?_release_of_ne _ hne).trans hclear, rfl, rfl, rfl, rfl⟩

theorem control_undisturbed (slot : Nat) (c : Control) (e : Engine σ) :
    Undisturbed slot e.backend (e.control c).2.backend := by
  obtain ⟨config, frames, hsame, _⟩ := control_eq c e
  rw [hsame]
  exact ⟨rfl, rfl, rfl, rfl, rfl⟩

end Engine

end VideoAccel
