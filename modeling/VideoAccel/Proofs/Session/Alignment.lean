import VideoAccel.Proofs.Pipeline.Announcement
import VideoAccel.Proofs.Session.Moving

namespace VideoAccel

variable {σ : Type}

namespace Engine

theorem generate_frames (device : Device σ) (t : Task) (e : Engine σ) :
    (e.generate device t).engine.frames = e.frames := by
  have hgen := generated device t e
  generalize e.generate device t = o at hgen
  cases hgen with
  | refused | bypassed => rfl
  | failed _ _ _ hfill _ | filled _ _ _ hfill => exact (refill_of_fillPicture hfill).frames

theorem start_frames (device : Device σ) (t : Task) (e : Engine σ) :
    (e.start device t).engine.frames = e.frames := by
  have hstart := started device t e
  generalize e.start device t = o at hstart
  cases hstart <;> rfl

theorem wait_frames (device : Device σ) (t : Task) (e : Engine σ) :
    (e.wait device t).engine.frames = e.frames := by
  have hwait := waited device t e
  generalize e.wait device t = o at hwait
  cases hwait <;> rfl

end Engine

namespace Session

variable {platform : Platform σ} {s : Session σ} {info : Option Control}

/-- The alignment is the one that the accelerator chooses for this frame information, and the
session keeps the information. -/
structure Aligned (info : Option Control) (s : Session σ) : Prop where
  generation : s.engine.backend.generation = s.accelerator.generation
  alignment : s.engine.frames.alignment = s.accelerator.generation.alignmentOf info
  kept : s.frameInfo = info
  isFrameInfo : ∀ c, info = some c → c.isFrameInfo = true

theorem Aligned.operate (h : s.Aligned info) {engine : Engine σ}
    (hgeneration : engine.backend.generation = s.engine.backend.generation)
    (hframes : engine.frames.alignment = s.engine.frames.alignment) :
    Aligned info { s with engine } :=
  ⟨hgeneration.trans h.generation, hframes.trans h.alignment, h.kept, h.isFrameInfo⟩

theorem Aligned.switchTo (h : s.Aligned info) (platform : Platform σ) (standard : CodingStandard) :
    (s.switchTo platform standard).2.Aligned info := by
  have hswitched := s.switched platform standard
  generalize s.switchTo platform standard = r at hswitched
  cases hswitched with
  | busy | foreign => exact h
  -- whatever the refused attempts made of the alignment, it is set back
  | stayed => exact h.operate rfl rfl
  | moved _ _ _ hattempt =>
    rw [h.kept] at hattempt
    obtain ⟨_, hgeneration, _, hframes⟩ := Accelerator.attempt_backend h.isFrameInfo hattempt
    exact ⟨hgeneration, congrArg FrameTable.alignment hframes, h.kept, h.isFrameInfo⟩

theorem Aligned.generate (h : s.Aligned info) (platform : Platform σ) (t : Task) :
    (s.generate platform t).session.Aligned info := by
  have hlift : ∀ {s : Session σ}, s.Aligned info →
      (s.lift (s.engine.generate (s.device platform) t)).session.Aligned info := by
    intro s hs
    exact hs.operate (Engine.generate_settings ..).generation
      (congrArg FrameTable.alignment (Engine.generate_frames ..))
  have hswitch := h.switchTo platform t.picture.standard
  simp only [Session.generate]
  split
  · exact hlift h
  split <;> rename_i hr <;> rw [hr] at hswitch
  · exact hswitch
  · exact hlift hswitch

def acceptedInfo (s : Session σ) (c : Control) : Option Control :=
  if c.isFrameInfo ∧ (s.control c).1 = .ok () then some c else none

theorem Aligned.control (h : s.Aligned info) (c : Control) :
    (s.control c).2.Aligned ((s.acceptedInfo c).or info) := by
  rcases hr : s.engine.control c with ⟨_ | _, engine⟩
  · obtain rfl := Engine.control_eq_error hr
    simpa [acceptedInfo, Session.control, hr] using h
  cases c with
  | frameInfo width height depth layout =>
    have hengine := Engine.control_frameInfo rfl hr
    rw [h.generation] at hengine
    simp only [acceptedInfo, Session.control, hr, hengine]
    exact ⟨h.generation, rfl, rfl, fun c hc => by cases hc; rfl⟩
  | errorTolerance enabled =>
    cases hr
    exact h.operate rfl rfl

end Session

namespace Decoding

variable {platform : Platform σ} {d : Decoding σ} {info : Option Control}

def acceptedInfo (d : Decoding σ) : SessionEvent σ → Option Control
  | .act (.control c) => d.session.acceptedInfo c
  | _ => none

/-- The frame information that is accepted in a run, in order. -/
def acceptedInfos (platform : Platform σ) : Decoding σ → List (SessionEvent σ) → List Control
  | _, [] => []
  | d, event :: events =>
    (d.acceptedInfo event).toList ++ acceptedInfos platform (d.step platform event) events

/-- Whenever the caller replaces the frame table in a run, the alignment stays. -/
def LeavesAlignment (platform : Platform σ) : Decoding σ → List (SessionEvent σ) → Prop
  | _, [] => True
  | d, event :: events =>
    (∀ frames, event = .act (.frames frames) →
      frames.alignment = d.session.engine.frames.alignment) ∧
    LeavesAlignment platform (d.step platform event) events

theorem IsInitial.aligned (h : d.IsInitial platform) : d.session.Aligned none := by
  obtain ⟨registry, standard, config, caps, around, around', hopen⟩ := h.session
  obtain ⟨_, _, _, _, _, _, _, hattempt, hs⟩ := Registry.openSession_eq_ok hopen
  have hnone : ∀ c, (none : Option Control) = some c → c.isFrameInfo = true := nofun
  obtain ⟨_, hgeneration, _, hframes⟩ := Accelerator.attempt_backend hnone hattempt
  rw [hs]
  exact ⟨hgeneration, congrArg FrameTable.alignment hframes, rfl, nofun⟩

theorem aligned_step (platform : Platform σ) (h : d.session.Aligned info) (event : SessionEvent σ)
    (hleaves : ∀ frames, event = .act (.frames frames) →
      frames.alignment = d.session.engine.frames.alignment) :
    (d.step platform event).session.Aligned ((d.acceptedInfo event).or info) := by
  cases event with
  | act a =>
    cases a with
    | generate i => exact h.generate platform (d.tasks i)
    | start i =>
      exact h.operate (Engine.start_settings ..).generation
        (congrArg FrameTable.alignment (Engine.start_frames ..))
    | wait i =>
      exact h.operate (Engine.wait_settings ..).generation
        (congrArg FrameTable.alignment (Engine.wait_frames ..))
    | control c => exact h.control c
    | frames frames => exact h.operate rfl (hleaves frames rfl)
    | recycle | edit | flush | reset => exact h.operate rfl rfl
  | observe on => exact ⟨h.generation, h.alignment, h.kept, h.isFrameInfo⟩
  | elapse => exact h.operate rfl rfl

theorem aligned_run (h : d.session.Aligned info) {events : List (SessionEvent σ)}
    (hleaves : LeavesAlignment platform d events) :
    (d.run platform events).session.Aligned
      ((acceptedInfos platform d events).getLast?.or info) := by
  induction events generalizing d info with
  | nil => exact h
  | cons event events ih =>
    have hstep := aligned_step platform h event hleaves.1
    have hrun := ih hstep hleaves.2
    -- what is accepted in the rest of the run takes precedence
    have hlast : (acceptedInfos platform d (event :: events)).getLast?.or info =
        (acceptedInfos platform (d.step platform event) events).getLast?.or
          ((d.acceptedInfo event).or info) := by
      rw [acceptedInfos, List.getLast?_append, Option.or_assoc]
      cases d.acceptedInfo event <;> rfl
    rw [hlast]
    exact hrun

/-- After every run in which only the session changes the alignment, it is the one that the
generation in use chooses for the frame information accepted last, or the default of this
generation if none was accepted. -/
theorem alignment_follows_of_run (hd : d.IsInitial platform) {events : List (SessionEvent σ)}
    (hleaves : LeavesAlignment platform d events) :
    let s := (d.run platform events).session
    let info := (acceptedInfos platform d events).getLast?
    s.engine.frames.alignment = s.accelerator.generation.alignmentOf info ∧
      s.engine.backend.generation = s.accelerator.generation ∧ s.frameInfo = info := by
  intro s info
  have hrun := aligned_run hd.aligned hleaves
  rw [Option.or_none] at hrun
  exact ⟨hrun.alignment, hrun.generation, hrun.kept⟩

/-- Wide frames are announced, compressed ones are refused, and then a task of the other standard
moves the session. -/
theorem alignment_follows_of_run_wide :
    let events : List (SessionEvent ScriptedPlatform) :=
      [.act (.control (.frameInfo 3840 2160 8 .raster)),
        .act (.control (.frameInfo 1280 720 8 .compressed)), .act (.generate 0),
        .act (.frames { alignment := .odd256 })]
    ∃ d : Decoding ScriptedPlatform, d.IsInitial ScriptedPlatform.platform ∧
      LeavesAlignment ScriptedPlatform.platform d events ∧
      let s := (d.run ScriptedPlatform.platform events).session
      s.accelerator = .rkvHevc ∧
        acceptedInfos ScriptedPlatform.platform d events = [.frameInfo 3840 2160 8 .raster] ∧
        s.engine.frames.alignment = Generation.rkv.alignmentFor 3840 .raster ∧
        s.engine.frames.alignment ≠ Generation.rkv.defaultAlignment := by
  intro events
  obtain ⟨s, hopen, hresults⟩ := exists_ok_of_toOption_map (r := opening)
    (f := fun s =>
      let d : Decoding ScriptedPlatform := ⟨s, fun i => { picture := .hevc {}, output := i }⟩
      let before := d.run ScriptedPlatform.platform (events.take 3)
      (before.session.engine.frames.alignment,
        (d.run ScriptedPlatform.platform events).session.accelerator,
        acceptedInfos ScriptedPlatform.platform d events))
    (x := (.odd256, .rkvHevc, [.frameInfo 3840 2160 8 .raster])) (by decide +kernel)
  simp only [Prod.mk.injEq] at hresults
  obtain ⟨hbefore, haccelerator, hinfos⟩ := hresults
  let d : Decoding ScriptedPlatform := ⟨s, fun i => { picture := .hevc {}, output := i }⟩
  have hd : d.IsInitial ScriptedPlatform.platform :=
    ⟨⟨_, _, _, _, _, _, hopen⟩, fun _ => ⟨rfl, rfl⟩⟩
  have hleaves : LeavesAlignment ScriptedPlatform.platform d events := by
    refine ⟨nofun, nofun, nofun, fun frames hframes => ?_, trivial⟩
    cases hframes
    exact hbefore.symm
  obtain ⟨halignment, _⟩ := alignment_follows_of_run hd hleaves
  rw [hinfos, haccelerator] at halignment
  refine ⟨d, hd, hleaves, haccelerator, hinfos, halignment, ?_⟩
  rw [halignment]
  decide

end Decoding

end VideoAccel
