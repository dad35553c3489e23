import VideoAccel.Proofs.Session.Moving

namespace VideoAccel

variable {σ : Type}

namespace Session

variable {platform : Platform σ} {s : Session σ} {t : Task}

theorem lift_generate_refused (h : t.state ≠ .idle) :
    s.lift (s.engine.generate (s.device platform) t) =
      ⟨.error (.invalidState t.state .idle), t, s, none⟩ := by
  simp only [Engine.generate, if_pos h, lift, ite_self]

theorem start_refused (h : t.state ≠ .registersGenerated) :
    s.start platform t = ⟨.error (.invalidState t.state .registersGenerated), t, s, none⟩ := by
  simp only [Session.start, Engine.start, if_pos h, lift, ite_self]

theorem wait_refused (h : t.state ≠ .submitted) :
    s.wait platform t = ⟨.error (.invalidState t.state .submitted), t, s, none⟩ := by
  simp only [Session.wait, Engine.wait, if_pos h, lift, ite_self]

/-- What is left of the generation of a task that is not idle is the move of the session. -/
theorem generate_refused (platform : Platform σ) (s : Session σ) (h : t.state ≠ .idle) :
    ∃ error, s.generate platform t =
      ⟨.error error, t,
        if t.picture.standard = s.accelerator.standard then s
        else (s.switchTo platform t.picture.standard).2, none⟩ := by
  simp only [Session.generate]
  split
  · exact ⟨_, lift_generate_refused h⟩
  split <;> rename_i hr <;> rw [hr]
  · exact ⟨_, rfl⟩
  · exact ⟨_, lift_generate_refused h⟩

/-- A request to move goes without any call only if something is in flight, or if there is no
accelerator to move to. -/
theorem switchTo_eq_self_iff {p : Platform σ} {s : Session (Logged σ)} {standard : CodingStandard}
    (hstandard : standard ≠ s.accelerator.standard) :
    (s.switchTo p.logged standard).2 = s ↔ 0 < s.tasksInFlight ∨ s.siblings standard = [] := by
  have hswitched := s.switched p.logged standard
  generalize s.switchTo p.logged standard = r at hswitched
  cases hswitched with
  | busy hbusy => exact iff_of_true rfl (.inl hbusy)
  | foreign _ hnone => exact iff_of_true rfl (.inr hnone)
  | stayed hidle hsome hfail =>
    -- everything is as before, but the attempts are on record
    obtain ⟨_, _, _, hlonger⟩ := hfail.undone
    refine iff_of_false (fun hsame => ?_) (fun h => h.elim (by omega) hsome)
    have hcalls := congrArg (fun s => s.engine.device.calls.length) hsame
    exact absurd hcalls (Nat.ne_of_gt (hlonger hsome))
  | moved hidle hlist =>
    obtain ⟨_, hmoved, _⟩ := mem_siblings (hlist ▸ List.mem_append_right _ List.mem_cons_self)
    refine iff_of_false (fun hsame => ?_) (fun h => h.elim (by omega) (by simp [hlist]))
    have haccelerator := congrArg Session.accelerator hsame
    rw [← haccelerator] at hstandard
    exact hstandard hmoved.symm

end Session

namespace Decoding

variable {p : Platform σ} {d : Decoding (Logged σ)}

/-- Wherever a run has led to, a task in the wrong state is refused and stays as it is, and nothing
is reported. Starting it or waiting for it makes no call and changes nothing. Generating its
registers does so exactly if the task is of the standard of the session, or something is in flight,
or there is no accelerator to move to; otherwise the session has tried to move. -/
theorem refused_of_run (hd : d.IsRecorded p) (events : List (SessionEvent σ)) (t : Task) :
    let s := (d.runLogged p events).session
    (t.state ≠ .registersGenerated →
      s.start p.logged t = ⟨.error (.invalidState t.state .registersGenerated), t, s, none⟩) ∧
    (t.state ≠ .submitted →
      s.wait p.logged t = ⟨.error (.invalidState t.state .submitted), t, s, none⟩) ∧
    (t.state ≠ .idle →
      ∃ error s', s.generate p.logged t = ⟨.error error, t, s', none⟩ ∧
        (s.Kept s' ∨ s.Moved t.picture.standard s') ∧
        (s' = s ↔ t.picture.standard = s.accelerator.standard ∨ 0 < s.tasksInFlight ∨
          s.siblings t.picture.standard = [])) := by
  intro s
  have hs : s.Accounted := runLogged_induction (accounted_stepLogged p) hd.accounted events
  refine ⟨fun h => Session.start_refused h, fun h => Session.wait_refused h, fun h => ?_⟩
  obtain ⟨error, hgenerate⟩ := s.generate_refused p.logged h
  refine ⟨error, _, hgenerate, ?_, ?_⟩
  · split
    · exact .inl ⟨rfl, .refl _⟩
    · have hswitched := s.switched p.logged t.picture.standard
      exact (hswitched.accounted hs).2.imp And.right And.right
  · split <;> rename_i hstandard
    · exact iff_of_true rfl (.inl hstandard)
    · rw [Session.switchTo_eq_self_iff hstandard, or_iff_right hstandard]

def mixedTasks (i : Nat) : Task :=
  if i = 0 then
    { picture := .hevc
        { params := { picWidthInLumaSamples := 16, picHeightInLumaSamples := 16 } }
      streamLength := 100 }
  else Bench.task 1

theorem mixedTasks_free (i : Nat) :
    (mixedTasks i).slot = none ∧ (mixedTasks i).inFlight = false := by
  unfold mixedTasks
  split <;> exact ⟨rfl, rfl⟩

/-- A task that has completed is refused by the session that has moved for it. -/
theorem refused_of_run_completed :
    let events : List (SessionEvent ScriptedPlatform) :=
      [.act (.generate 0), .act (.start 0), .act (.wait 0)]
    ∃ d : Decoding (Logged ScriptedPlatform), d.IsRecorded ScriptedPlatform.platform ∧
      let q := d.runLogged ScriptedPlatform.platform events
      let platform := ScriptedPlatform.platform.logged
      let t := q.tasks 0
      t.state = .completed ∧ q.session.accelerator = .vdpu34xHevc ∧
        (q.session.generate platform t).session = q.session ∧
        (q.session.start platform t).session = q.session ∧
        (q.session.wait platform t).session = q.session := by
  intro events
  obtain ⟨d, hd, hresults⟩ := exists_recordedOpening mixedTasks mixedTasks_free
    (f := fun d =>
      let q := d.runLogged ScriptedPlatform.platform events
      ((q.tasks 0).state, q.session.accelerator, (q.tasks 0).picture.standard))
    (x := (.completed, .vdpu34xHevc, .hevc)) (by decide +kernel)
  simp only [Prod.mk.injEq] at hresults
  obtain ⟨hstate, haccelerator, hstandard⟩ := hresults
  refine ⟨d, hd, hstate, haccelerator, ?_⟩
  obtain ⟨hstart, hwait, hgenerate⟩ :=
    refused_of_run hd events ((d.runLogged ScriptedPlatform.platform events).tasks 0)
  obtain ⟨error, s', hresult, _, hsame⟩ := hgenerate (by rw [hstate]; decide)
  refine ⟨?_, ?_, ?_⟩
  · rw [hresult]
    exact hsame.2 (.inl (by rw [hstandard, haccelerator]; rfl))
  · rw [hstart (by rw [hstate]; decide)]
  · rw [hwait (by rw [hstate]; decide)]

/-- A task that has completed is refused, and still the session moves for it: another channel is
opened, and the one in use is closed. -/
theorem completed_task_moves_session :
    let events : List (SessionEvent ScriptedPlatform) :=
      [.act (.generate 0), .act (.start 0), .act (.wait 0), .act (.generate 1), .act (.start 1),
        .act (.wait 1)]
    ∃ d : Decoding (Logged ScriptedPlatform), d.IsRecorded ScriptedPlatform.platform ∧
      let q := d.runLogged ScriptedPlatform.platform events
      let o := q.session.generate ScriptedPlatform.platform.logged (q.tasks 0)
      let platform := q.session.engine.device.state
      let platform' := o.session.engine.device.state
      (q.tasks 0).state = .completed ∧ o.result = .error (.invalidState .completed .idle) ∧
        q.session.accelerator = .vdpu34xAvc ∧ o.session.accelerator = .vdpu34xHevc ∧
        platform.opened.length = 3 ∧ platform.closed = 2 ∧
        platform'.opened.length = 4 ∧ platform'.closed = 3 := by
  intro events
  obtain ⟨d, hd, hresults⟩ := exists_recordedOpening mixedTasks mixedTasks_free
    (f := fun d =>
      let q := d.runLogged ScriptedPlatform.platform events
      let o := q.session.generate ScriptedPlatform.platform.logged (q.tasks 0)
      let platform := q.session.engine.device.state
      let platform' := o.session.engine.device.state
      ((q.tasks 0).state, o.result, [q.session.accelerator, o.session.accelerator],
        [[platform.opened.length, platform.closed], [platform'.opened.length, platform'.closed]]))
    (x := (.completed, .error (.invalidState .completed .idle), [.vdpu34xAvc, .vdpu34xHevc],
      [[3, 2], [4, 3]])) (by decide +kernel)
  simp only [Prod.mk.injEq, List.cons_eq_cons, and_true] at hresults
  obtain ⟨hstate, hresult, ⟨hbefore, hafter⟩, ⟨hopened, hclosed⟩, hopened', hclosed'⟩ := hresults
  exact ⟨d, hd, hstate, hresult, hbefore, hafter, hopened, hclosed, hopened', hclosed'⟩

end Decoding

end VideoAccel
