import VideoAccel.Proofs.Register.Settling
import VideoAccel.Proofs.Strategy.Offsets

namespace VideoAccel

/-- If one entry alone has an effect, and none a second time, all that counts is whether it is
there. -/
theorem foldl_of_only {α β : Type} [DecidableEq α] {f : β → α → β} {a : α} {l : List α}
    (hothers : ∀ x, x ≠ a → ∀ b, f b x = b) (hidem : a ∈ l → ∀ b, f (f b a) a = f b a) (b : β) :
    l.foldl f b = if a ∈ l then f b a else b := by
  induction l generalizing b with
  | nil => rfl
  | cons x l ih =>
    rw [List.foldl_cons, ih fun hmem => hidem (List.mem_cons_of_mem x hmem)]
    by_cases hx : x = a
    · subst hx
      rw [if_pos List.mem_cons_self, hidem List.mem_cons_self, ite_self]
    · rw [hothers x hx]
      simp only [List.mem_cons, Ne.symm hx, false_or]

/-- The step that writes to the registers of a zone. -/
def RegisterZone.step : RegisterZone → GenerationStep
  | .references => .references
  | .geometry => .geometry
  | .stream | .refBases | .motion | .tables | .regions => .addresses

namespace Edit

theorem Made.exists_zone {g : Generation} {picture : CodedPicture} {bind : Binding}
    {step : GenerationStep} {edit : Edit} {reg : Nat} (h : Made g picture bind step edit)
    (hreg : edit.reg? = some reg) : ∃ z, g.InZone z reg ∧ z.step = step := by
  cases h with
  | header | refTable | scaling => cases hreg
  | reference w h =>
    cases hreg
    exact ⟨_, h, rfl⟩
  | stream w h =>
    cases hreg
    exact ⟨_, h, rfl⟩
  | refBase i r _ hi =>
    cases hreg
    exact ⟨_, g.inZone_refBases hi, rfl⟩
  | motion _ motion _ h hg =>
    subst hg
    exact ⟨_, Generation.inZone_motion h hreg, rfl⟩
  | tableBase base offset h =>
    cases hreg
    exact ⟨_, Generation.inZone_tables h, rfl⟩
  | tablePatch base offset _ h hedit =>
    obtain ⟨rfl, -⟩ := mem_patchEdits hedit
    cases hreg
    exact ⟨_, Generation.inZone_tables h, rfl⟩
  | region _ _ hreg' h | geometry _ _ hreg' h =>
    obtain rfl := Option.some.inj (hreg.symm.trans hreg')
    exact ⟨_, h, rfl⟩

def byteAfter (i : Nat) (old : UInt8) : Edit → UInt8
  | .table offset bytes =>
    if offset ≤ i ∧ i < offset + bytes.length then bytes.getD (i - offset) 0 else old
  | .register _ | .patch _ => old

def bytesAfter (edits : List Edit) (i : Nat) (old : UInt8) : UInt8 :=
  edits.foldl (byteAfter i) old

theorem bytesAfter_cases (edits : List Edit) (i : Nat) :
    (∃ v, ∀ old, bytesAfter edits i old = v) ∨ ∀ old, bytesAfter edits i old = old := by
  induction edits with
  | nil => exact .inr fun _ => rfl
  | cons edit edits ih =>
    obtain ⟨v, hv⟩ | hkept := ih
    · exact .inl ⟨v, fun old => hv (byteAfter i old edit)⟩
    · have hfirst : ∀ old, bytesAfter (edit :: edits) i old = byteAfter i old edit :=
        fun old => hkept (byteAfter i old edit)
      cases edit with
      | register | patch => exact .inr hfirst
      | table offset bytes =>
        by_cases hin : offset ≤ i ∧ i < offset + bytes.length
        · exact .inl ⟨_, fun old => (hfirst old).trans (if_pos hin)⟩
        · exact .inr fun old => (hfirst old).trans (if_neg hin)

theorem bytesAfter_idem (edits : List Edit) (i : Nat) (old : UInt8) :
    bytesAfter edits i (bytesAfter edits i old) = bytesAfter edits i old := by
  obtain ⟨v, hv⟩ | hkept := bytesAfter_cases edits i
  · rw [hv, hv]
  · rw [hkept]

theorem bytesAfter_of_forall_kept {edits : List Edit} {i : Nat}
    (h : ∀ edit ∈ edits, ∀ old, byteAfter i old edit = old) (old : UInt8) :
    bytesAfter edits i old = old := by
  induction edits with
  | nil => rfl
  | cons edit edits ih =>
    obtain ⟨hfirst, hrest⟩ := List.forall_mem_cons.1 h
    rw [bytesAfter, List.foldl_cons, hfirst old]
    exact ih hrest

end Edit

namespace Emission

theorem byte_applyAll (e : Emission) (edits : List Edit) (i : Nat) :
    (e.applyAll edits).tables.byte i = Edit.bytesAfter edits i (e.tables.byte i) := by
  induction edits generalizing e with
  | nil => rfl
  | cons edit edits ih =>
    refine (ih (e.apply edit)).trans (congrArg (Edit.bytesAfter edits i) ?_)
    cases edit with
    | register | patch => rfl
    | table offset bytes => exact e.tables.byte_store offset bytes i

theorem fits_applyAll (e : Emission) (edits : List Edit) : (e.applyAll edits).fits = e.fits := by
  funext edit
  cases edit with
  | register w => simp only [fits, applyAll_image, RegisterImage.fits_writeAll]
  | table offset bytes => simp only [fits, applyAll_tables_size]
  | patch p => rfl

/-- The step does not fail, and its edits stay inside the image and the table buffer. -/
structure Admits (e : Emission) (r : StepResult) : Prop where
  succeeds : r.failure = none
  fits : r.edits.all e.fits = true

theorem admits_applyAll {e : Emission} {edits : List Edit} {r : StepResult} :
    (e.applyAll edits).Admits r ↔ e.Admits r :=
  ⟨fun ⟨hnone, hfits⟩ => ⟨hnone, e.fits_applyAll edits ▸ hfits⟩,
    fun ⟨hnone, hfits⟩ => ⟨hnone, (e.fits_applyAll edits).symm ▸ hfits⟩⟩

theorem run_eq_ok_iff {e e' : Emission} {r : StepResult} :
    e.run r = (.ok (), e') ↔ e.Admits r ∧ e' = e.applyAll r.edits := by
  constructor
  · intro h
    refine ⟨?_, run_ok h⟩
    simp only [run] at h
    split at h
    · rename_i hfits
      split at h
      · rename_i hnone
        exact ⟨hnone, hfits⟩
      · cases h
    · cases h
  · rintro ⟨⟨hnone, hfits⟩, rfl⟩
    simp only [run, hfits, hnone, if_true]

/-- The same registers and the same table bytes. -/
structure Agrees (e e' : Emission) : Prop where
  image : e.image = e'.image
  size : e.tables.size = e'.tables.size
  bytes : ∀ i, e.tables.byte i = e'.tables.byte i

end Emission

/-- No register bit and no table byte is written by both. -/
structure StepResult.Apart (r r' : StepResult) : Prop where
  bits : ∀ w w', .register w ∈ r.edits → .register w' ∈ r'.edits →
    ∀ reg b, w.bit? reg b = none ∨ w'.bit? reg b = none
  bytes : ∀ offset bytes offset' bytes', .table offset bytes ∈ r.edits →
    .table offset' bytes' ∈ r'.edits →
      offset + bytes.length ≤ offset' ∨ offset' + bytes'.length ≤ offset

namespace Generation

variable {g : Generation} {picture : CodedPicture} {bind : Binding} {size : Nat}
  {steps steps' : List GenerationStep} {e e' : Emission}

theorem step_unique {step step' : GenerationStep} {edit edit' : Edit} {reg : Nat}
    (hmem : edit ∈ (g.stepResult picture bind size step).edits) (hreg : edit.reg? = some reg)
    (hmem' : edit' ∈ (g.stepResult picture bind size step').edits)
    (hreg' : edit'.reg? = some reg) : step = step' := by
  obtain ⟨z, hzone, rfl⟩ := (g.made_of_mem picture bind size step edit hmem).exists_zone hreg
  obtain ⟨z', hzone', rfl⟩ := (g.made_of_mem picture bind size step' edit' hmem').exists_zone hreg'
  rw [hzone.unique hzone']

theorem apart_of_ne {step step' : GenerationStep} (hne : step ≠ step') :
    (g.stepResult picture bind size step).Apart (g.stepResult picture bind size step') where
  bits w w' hmem hmem' reg b := by
    by_contra hboth
    obtain ⟨hw, hw'⟩ := not_or.1 hboth
    obtain ⟨x, hx⟩ := Option.ne_none_iff_exists'.1 hw
    obtain ⟨x', hx'⟩ := Option.ne_none_iff_exists'.1 hw'
    exact hne (step_unique hmem (congrArg some (RegisterImage.reg_eq_of_bit? hx)) hmem'
      (congrArg some (RegisterImage.reg_eq_of_bit? hx')))
  bytes offset bytes offset' bytes' hmem hmem' := by
    obtain ⟨hheader, htable⟩ := g.parts_apart picture.standard
    obtain ⟨rfl, rfl, hlength⟩ | ⟨rfl, rfl, hlength⟩ | ⟨rfl, rfl, -⟩ :=
        (g.made_of_mem picture bind _ step _ hmem).table <;>
      obtain ⟨rfl, rfl, hlength'⟩ | ⟨rfl, rfl, hlength'⟩ | ⟨rfl, rfl, -⟩ :=
        (g.made_of_mem picture bind _ step' _ hmem').table <;>
      first | exact absurd rfl hne | omega

theorem exists_step_of_register (g : Generation) (picture : CodedPicture) (bind : Binding)
    (size reg : Nat) :
    ∃ owner, ∀ step, step ≠ owner → ∀ word,
      settle (g.stepWrites picture bind size [step]) reg word = word := by
  by_cases hwritten : ∃ owner, ∃ w ∈ g.stepWrites picture bind size [owner], w.reg = reg
  · obtain ⟨owner, w, hw, hreg⟩ := hwritten
    refine ⟨owner, fun step hne word => settle_of_forall_ne (fun w' hw' hreg' => hne ?_) word⟩
    obtain ⟨_, hstep, hmem⟩ := mem_stepWrites.1 hw
    obtain ⟨_, hstep', hmem'⟩ := mem_stepWrites.1 hw'
    obtain rfl := List.mem_singleton.1 hstep
    obtain rfl := List.mem_singleton.1 hstep'
    exact step_unique hmem' (congrArg some hreg') hmem (congrArg some hreg)
  · exact ⟨.parameters, fun step _ word => settle_of_forall_ne
      (fun w hw hreg => hwritten ⟨step, w, hw, hreg⟩) word⟩

theorem exists_step_of_byte (g : Generation) (picture : CodedPicture) (bind : Binding)
    (size i : Nat) :
    ∃ owner, ∀ step, step ≠ owner → ∀ old,
      Edit.bytesAfter (g.stepResult picture bind size step).edits i old = old := by
  by_cases hwritten : ∃ owner, ∃ offset bytes,
      .table offset bytes ∈ (g.stepResult picture bind size owner).edits ∧
        offset ≤ i ∧ i < offset + bytes.length
  · obtain ⟨owner, offset, bytes, hmem, hin⟩ := hwritten
    refine ⟨owner, fun step hne old => Edit.bytesAfter_of_forall_kept (fun edit hedit old => ?_) old⟩
    cases edit with
    | register | patch => rfl
    | table offset' bytes' =>
      have hapart := (apart_of_ne hne).bytes _ _ _ _ hedit hmem
      exact if_neg (by omega)
  · refine ⟨.parameters, fun step _ old => Edit.bytesAfter_of_forall_kept (fun edit hedit old => ?_)
      old⟩
    cases edit with
    | register | patch => rfl
    | table offset bytes => exact if_neg fun hin => hwritten ⟨step, offset, bytes, hedit, hin⟩

theorem settle_stepWrites (steps : List GenerationStep) (reg : Nat) (word : UInt32) :
    settle (g.stepWrites picture bind size steps) reg word =
      steps.foldl (fun word step => settle (g.stepWrites picture bind size [step]) reg word)
        word := by
  induction steps generalizing word with
  | nil => rfl
  | cons step steps ih =>
    rw [List.foldl_cons, ← ih]
    simp only [stepWrites, List.flatMap_cons, List.flatMap_nil, List.filterMap_append,
      List.append_nil, settle, List.foldl_append]

theorem bytesAfter_steps (steps : List GenerationStep) (i : Nat) (old : UInt8) :
    Edit.bytesAfter (steps.flatMap fun step => (g.stepResult picture bind size step).edits) i old =
      steps.foldl (fun old step =>
        Edit.bytesAfter (g.stepResult picture bind size step).edits i old) old := by
  induction steps generalizing old with
  | nil => rfl
  | cons step steps ih =>
    rw [List.foldl_cons, ← ih]
    simp only [List.flatMap_cons, Edit.bytesAfter, List.foldl_append]

/-- What the same steps leave does not depend on their order, or on how often each of them runs. -/
theorem agrees_of_mem_iff (hsame : ∀ step, step ∈ steps' ↔ step ∈ steps)
    (hshift : ∀ w ∈ g.stepWrites picture bind size steps, w.field.shift < 32) :
    (e.applyAll (steps'.flatMap fun step => (g.stepResult picture bind size step).edits)).Agrees
      (e.applyAll (steps.flatMap fun step => (g.stepResult picture bind size step).edits)) where
  image := by
    rw [Emission.applyAll_image, Emission.applyAll_image]
    refine RegisterImage.writeAll_congr _ fun reg word => ?_
    change settle (g.stepWrites picture bind size steps') reg word =
      settle (g.stepWrites picture bind size steps) reg word
    obtain ⟨owner, hothers⟩ := g.exists_step_of_register picture bind size reg
    have hidem : owner ∈ steps → ∀ word,
        settle (g.stepWrites picture bind size [owner]) reg
            (settle (g.stepWrites picture bind size [owner]) reg word) =
          settle (g.stepWrites picture bind size [owner]) reg word := by
      intro hmem word
      refine (overwrites_settle fun w hw => hshift w ?_).idem word
      obtain ⟨_, hstep, hedit⟩ := mem_stepWrites.1 hw
      obtain rfl := List.mem_singleton.1 hstep
      exact mem_stepWrites.2 ⟨_, hmem, hedit⟩
    rw [settle_stepWrites, settle_stepWrites, foldl_of_only hothers hidem,
      foldl_of_only hothers (fun hmem => hidem ((hsame owner).1 hmem))]
    simp only [hsame]
  size := by rw [Emission.applyAll_tables_size, Emission.applyAll_tables_size]
  bytes i := by
    obtain ⟨owner, hothers⟩ := g.exists_step_of_byte picture bind size i
    have hidem := Edit.bytesAfter_idem (g.stepResult picture bind size owner).edits i
    rw [Emission.byte_applyAll, Emission.byte_applyAll, bytesAfter_steps, bytesAfter_steps,
      foldl_of_only hothers fun _ => hidem, foldl_of_only hothers fun _ => hidem]
    simp only [hsame]

/-- Steps succeed exactly if each of them would, since none takes away from what another needs. -/
theorem runSteps_eq_ok_iff :
    g.runSteps picture bind steps e = (.ok (), e') ↔
      (∀ step ∈ steps, e.Admits (g.stepResult picture bind e.tables.size step)) ∧
        e' = e.applyAll (steps.flatMap fun step =>
          (g.stepResult picture bind e.tables.size step).edits) := by
  induction steps generalizing e with
  | nil =>
    have hnil : g.runSteps picture bind [] e = (.ok (), e) := by cases picture <;> rfl
    rw [hnil, Prod.mk.injEq]
    simp [Emission.applyAll, eq_comm]
  | cons step steps ih =>
    rw [runSteps_cons, List.forall_mem_cons, List.flatMap_cons, Emission.applyAll_append]
    rcases hrun : e.run (g.stepResult picture bind e.tables.size step) with ⟨failure | _, e₁⟩
    · constructor
      · intro h
        cases h
      · rintro ⟨⟨hfirst, _⟩, _⟩
        rw [Emission.run_eq_ok_iff.2 ⟨hfirst, rfl⟩] at hrun
        cases hrun
    · obtain ⟨hfirst, rfl⟩ := Emission.run_eq_ok_iff.1 hrun
      refine ih.trans ?_
      simp only [Emission.applyAll_tables_size, Emission.admits_applyAll, hfirst, true_and]

/-- Steps that succeed in one order succeed in every order, each as often as one likes, and leave the
same image and the same tables; if none runs more often than before, they leave the same address
offsets up to order. Running any of them once more changes no register and no byte, for no two
steps write to the same register bit or table byte. -/
theorem steps_commute (hrun : g.runSteps picture bind steps e = (.ok (), e')) :
    (∀ steps', (∀ step, step ∈ steps' ↔ step ∈ steps) →
      ∃ e'', g.runSteps picture bind steps' e = (.ok (), e'') ∧ e''.Agrees e' ∧
        (steps'.Perm steps → e''.patches.Perm e'.patches)) ∧
    (∀ step ∈ steps, ∃ e'', g.runSteps picture bind [step] e' = (.ok (), e'') ∧
      e''.Agrees e') ∧
    ∀ step step', step ≠ step' → (g.stepResult picture bind e.tables.size step).Apart
      (g.stepResult picture bind e.tables.size step') := by
  obtain ⟨hadmits, rfl⟩ := runSteps_eq_ok_iff.1 hrun
  have hshift : ∀ w ∈ g.stepWrites picture bind e.tables.size steps, w.field.shift < 32 := by
    intro w hw
    obtain ⟨step, hstep, hedit⟩ := mem_stepWrites.1 hw
    have hfits : e.fits (.register w) = true :=
      List.all_eq_true.1 (hadmits step hstep).fits _ hedit
    exact of_decide_eq_true (Bool.and_eq_true_iff.1 hfits).2
  refine ⟨fun steps' hsame => ⟨_, runSteps_eq_ok_iff.2 ⟨fun step hstep => ?_, rfl⟩,
    agrees_of_mem_iff hsame hshift, fun hperm => ?_⟩, fun step hstep => ?_,
    fun step step' hne => apart_of_ne hne⟩
  · exact hadmits step ((hsame step).1 hstep)
  · rw [Emission.applyAll_patches, Emission.applyAll_patches]
    exact ((hperm.flatMap_right _).filterMap _).append_left _
  · refine ⟨_, runSteps_eq_ok_iff.2 ⟨?_, rfl⟩, ?_⟩
    · rw [List.forall_mem_singleton, Emission.admits_applyAll, Emission.applyAll_tables_size]
      exact hadmits step hstep
    · -- the step once more is the same steps with this one twice
      rw [Emission.applyAll_tables_size, ← Emission.applyAll_append, ← List.flatMap_append]
      refine agrees_of_mem_iff (fun other => ?_) hshift
      rw [List.mem_append, List.mem_singleton]
      exact ⟨fun h => h.elim (fun h => h) fun h => h ▸ hstep, .inl⟩

end Generation

open Vdpu34x.FullHd in
/-- The steps from the last to the first, for a picture with everything bound. -/
theorem Generation.steps_commute_fullHd :
    ∃ e', Generation.vdpu34x.runSteps picture richBinding GenerationStep.all blank =
        (.ok (), e') ∧
      ∃ e'', Generation.vdpu34x.runSteps picture richBinding GenerationStep.all.reverse blank =
          (.ok (), e'') ∧
        e''.Agrees e' ∧ e''.patches.Perm e'.patches := by
  obtain ⟨e', hrun⟩ := Generation.exists_of_isOk
    (r := Generation.vdpu34x.runSteps picture richBinding GenerationStep.all blank)
    (by decide +kernel)
  obtain ⟨e'', hrun', hagrees, hpatches⟩ := (Generation.steps_commute hrun).1
    GenerationStep.all.reverse fun _ => List.mem_reverse
  exact ⟨e', hrun, e'', hrun', hagrees, hpatches (List.reverse_perm _)⟩

end VideoAccel
