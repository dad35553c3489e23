import VideoAccel.Proofs.Backend.Ownership
import VideoAccel.Proofs.Memory.Conservation
import VideoAccel.Proofs.Session.Refusal

namespace VideoAccel

variable {σ : Type}

theorem Accelerator.attempt_stocked {platform : Platform σ} {config : Config}
    {info : Option Control} {a : Accelerator} {around around' : Surroundings σ} {o : Opened σ}
    (h : a.attempt platform config info around = (some o, around')) :
    o.engine.Stocked (platform.device o.link).memory := by
  obtain ⟨engine, hopens, _, haccept⟩ := attempt_eq_some h
  have hinit : engine.Stocked (platform.device o.link).memory := .init hopens.init
  cases info with
  | none =>
    obtain rfl := haccept
    exact hinit
  | some c =>
    have hcontrol := hinit.control c
    rwa [haccept] at hcontrol

theorem ScriptedPlatform.memory_isExact (id : Nat) : (ScriptedPlatform.memory id).IsExact := by
  intro size s m hm
  simp only [ScriptedPlatform.memory] at hm
  split at hm
  · cases hm
  · rename_i heap _
    exact Heap.source_isZeroFilled.isExact size heap m hm

namespace Session

def Stocked (platform : Platform σ) (s : Session σ) : Prop :=
  s.engine.Stocked (s.device platform).memory

section

variable {platform : Platform σ} {standard : CodingStandard} {s : Session σ}

theorem Switched.stocked {r : Except BackendError Unit × Session σ} (h : s.Stocked platform)
    (hswitched : Switched platform standard s r) : r.2.Stocked platform := by
  cases hswitched with
  | busy | foreign => exact h
  | stayed => exact h.of_backend rfl
  | moved _ _ _ hattempt => exact (Accelerator.attempt_stocked hattempt).of_backend rfl

theorem Stocked.of_openSession {registry : Registry} {config : Config} {caps : Capabilities}
    {around around' : Surroundings σ}
    (h : registry.openSession platform standard config caps around = (.ok s, around')) :
    s.Stocked platform := by
  obtain ⟨_, _, _, _, _, _, _, hattempt, rfl⟩ := Registry.openSession_eq_ok h
  exact Accelerator.attempt_stocked hattempt

theorem Stocked.generate (h : s.Stocked platform) (t : Task) :
    (s.generate platform t).session.Stocked platform := by
  have hswitch := (s.switched platform t.picture.standard).stocked h
  simp only [Session.generate]
  split
  · exact h.operate (Engine.generate_operations ..) (Engine.generate_restocks ..)
  split <;> rename_i hr <;> rw [hr] at hswitch
  · exact hswitch
  · exact hswitch.operate (Engine.generate_operations ..) (Engine.generate_restocks ..)

theorem Stocked.control (h : s.Stocked platform) (c : Control) :
    (s.control c).2.Stocked platform := by
  have hengine := Engine.Stocked.control h c
  simp only [Session.control]
  split <;> rename_i hr <;> rw [hr] at hengine
  · exact hengine
  · cases c <;> exact hengine

end

end Session

namespace Decoding

variable {p : Platform σ} {d : Decoding (Logged σ)}

theorem stocked_stepLogged (p : Platform σ) (d : Decoding (Logged σ)) (event : SessionEvent σ)
    (h : d.session.Stocked p.logged) : (d.stepLogged p event).session.Stocked p.logged := by
  cases event with
  | act a =>
    cases a with
    | generate i => exact h.generate (d.tasks i)
    | start i => exact h.operate (Engine.start_operations ..) (Engine.start_restocks ..)
    | wait i => exact h.operate (Engine.wait_operations ..) (Engine.wait_restocks ..)
    | control c => exact h.control c
    | recycle | edit => exact h
    | frames => exact h.of_backend rfl
    | flush => exact h.operate (.single (.flush rfl)) ⟨rfl, .refl, .refl⟩
    | reset => exact h.operate (.single (.reset rfl)) ⟨rfl, .refl, .refl⟩
  | observe => exact h
  | elapse => exact h.of_backend rfl

/-- Wherever a run has led to, every register set has a table buffer, and the buffers that are out
are these, the auxiliary buffers and the motion vector stores. Besides them only the idle buffers of
the session are allocated. Over fresh handles all of these differ, and over a source that allocates
what it is asked for they have the sizes that their owners go by. -/
theorem buffers_owned_of_run (hd : d.IsRecorded p) (events : List (SessionEvent σ)) :
    let q := d.runLogged p events
    let b := q.session.engine.backend
    let calls := q.session.engine.device.calls
    (d.map Logged.state).IsInitial p ∧
      q.map Logged.state = (d.map Logged.state).run p events ∧
      (∀ set ∈ b.sets.sets, set.tables.isSome = true) ∧
      b.buffers.outstanding = b.sets.size + b.aux.buffers.length + b.motion.stores.length ∧
      liveMemory calls =
        ↑((b.owned ++ b.buffers.idle).map fun buffer =>
          buffer.memory.tag q.session.link.memory) ∧
      (FreshAllocations calls → ((b.owned ++ b.buffers.idle).map DeviceBuffer.handle).Nodup) ∧
      ((p.memory q.session.link.memory).IsExact → b.Sized) := by
  intro q b calls
  obtain ⟨_, _, _, _, _, _, _, hopen⟩ := hd.session
  have hstocked : q.session.Stocked p.logged :=
    runLogged_induction (P := fun d => d.session.Stocked p.logged) (stocked_stepLogged p)
      (.of_openSession hopen) events
  have hbooks : q.session.Accounted :=
    runLogged_induction (P := fun d => d.session.Accounted) (accounted_stepLogged p) hd.accounted
      events
  have hmemory := hbooks.onItsOwn.memory
  exact ⟨hd.isInitial, runLogged_state p d events, hstocked.furnished, hstocked.outstanding,
    hmemory, fun hfresh => hfresh.nodup_handles hmemory,
    fun hexact => hstocked.sized fun size l m hm => hexact size l.state m hm⟩

/-- Memory runs out before the last of three stores is there, and the two that were got are idle
until the task is generated again. Later the session moves, and all begins anew. -/
theorem buffers_owned_of_run_scripted :
    let refused : List (SessionEvent ScriptedPlatform) :=
      [.elapse { heaps := [{ next := 100, budget := some 30000 }] }, .act (.generate 1)]
    let moved : List (SessionEvent ScriptedPlatform) :=
      refused ++ [.elapse { heaps := [{ next := 200 }] }, .act (.generate 1), .act (.start 1),
        .act (.wait 1), .act (.generate 0)]
    ∃ d : Decoding (Logged ScriptedPlatform), d.IsRecorded ScriptedPlatform.platform ∧
      (let q := d.runLogged ScriptedPlatform.platform refused
        let b := q.session.engine.backend
        b.standard = .avc ∧ b.motion.stores.length = 0 ∧ b.buffers.idle.length = 2 ∧
          b.buffers.outstanding = 2 ∧
          ((b.owned ++ b.buffers.idle).map DeviceBuffer.handle).Nodup ∧ b.Sized) ∧
      let q := d.runLogged ScriptedPlatform.platform moved
      let b := q.session.engine.backend
      b.standard = .hevc ∧ b.motion.stores.length = 3 ∧ b.buffers.idle.length = 0 ∧
        b.buffers.outstanding = 5 ∧
        ((b.owned ++ b.buffers.idle).map DeviceBuffer.handle).Nodup ∧ b.Sized := by
  intro refused moved
  obtain ⟨d, hd, hresults⟩ := exists_recordedOpening mixedTasks mixedTasks_free
    (f := fun d => [refused, moved].map fun events =>
      let q := d.runLogged ScriptedPlatform.platform events
      let b := q.session.engine.backend
      (b.standard, decide (FreshAllocations q.session.engine.device.calls),
        [b.sets.size, b.aux.buffers.length, b.motion.stores.length, b.buffers.idle.length]))
    (x := [(.avc, true, [1, 1, 0, 2]), (.hevc, true, [1, 1, 3, 0])]) (by decide +kernel)
  simp only [List.map_cons, List.map_nil, List.cons.injEq, Prod.mk.injEq, decide_eq_true_eq,
    and_true] at hresults
  obtain ⟨⟨hstandard, hfresh, hsets, haux, hstores, hidle⟩,
    ⟨hstandard', hfresh', hsets', haux', hstores', hidle'⟩⟩ := hresults
  obtain ⟨_, _, _, hout, _, hdistinct, hsized⟩ := buffers_owned_of_run hd refused
  obtain ⟨_, _, _, hout', _, hdistinct', hsized'⟩ := buffers_owned_of_run hd moved
  rw [hsets, haux, hstores] at hout
  rw [hsets', haux', hstores'] at hout'
  exact ⟨d, hd,
    ⟨hstandard, hstores, hidle, hout, hdistinct hfresh, hsized (ScriptedPlatform.memory_isExact _)⟩,
    hstandard', hstores', hidle', hout', hdistinct' hfresh',
    hsized' (ScriptedPlatform.memory_isExact _)⟩

end Decoding

end VideoAccel
