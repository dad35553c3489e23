import Mathlib.Data.List.Perm.Basic
import VideoAccel.Registry

namespace VideoAccel

/-- The place of a generation in the order of trying: the forced one goes first, then the newer
one. -/
def Generation.rank (forced : Option Generation) (g : Generation) : Nat :=
  if forced = some g then 0
  else match g with
    | .vdpu34x => 1
    | .rkv => 2

namespace Registry

/-- What registration guarantees. -/
structure Admissible (r : Registry) : Prop where
  soc : ∀ a ∈ r.accelerators, r.soc ∈ a.socs
  limit : ∀ standard, (r.ofStandard standard).length ≤ 2

theorem register_eq_ok_iff {r r' : Registry} {a : Accelerator} :
    r.register a = .ok r' ↔
      r.soc ∈ a.socs ∧ (r.ofStandard a.standard).length < 2 ∧
        r' = { r with accelerators := r.accelerators ++ [a] } := by
  simp only [register, maxPerStandard]
  by_cases hsoc : r.soc ∈ a.socs
  · by_cases hroom : (r.ofStandard a.standard).length < 2
    · simp [hsoc, hroom, Nat.not_le.2 hroom, eq_comm]
    · simp [hsoc, hroom, Nat.not_lt.1 hroom]
  · simp [hsoc]

theorem Admissible.register {r r' : Registry} {a : Accelerator} (h : r.Admissible)
    (hregister : r.register a = .ok r') : r'.Admissible := by
  obtain ⟨hsoc, hroom, rfl⟩ := register_eq_ok_iff.1 hregister
  refine ⟨fun b hb => ?_, fun standard => ?_⟩
  · obtain hb | rfl := (List.mem_append.1 hb).imp_right List.mem_singleton.1
    · exact h.soc b hb
    · exact hsoc
  · have hlimit := h.limit standard
    simp only [ofStandard] at hlimit hroom
    simp only [ofStandard, List.filter_append, List.length_append, List.filter_singleton]
    by_cases hstandard : a.standard = standard
    · subst hstandard
      simp only [beq_self_eq_true, cond_true, List.length_singleton]
      omega
    · rw [beq_eq_false_iff_ne.2 hstandard]
      exact hlimit

theorem Admissible.registerEach {r : Registry} (h : r.Admissible)
    (accelerators : List Accelerator) :
    (r.registerEach accelerators).2.Admissible := by
  induction accelerators generalizing r with
  | nil => exact h
  | cons a rest ih =>
    simp only [Registry.registerEach]
    split
    · exact ih h
    · rename_i hregister
      exact ih (h.register hregister)

def accepted (accelerators : List Accelerator) (answers : List (Except RegisterError Unit)) :
    List Accelerator :=
  ((accelerators.zip answers).filter fun x => x.2.isOk).map Prod.fst

/-- Each registration is answered, with success exactly if the accelerator runs on the chip and
fewer than two of its standard were accepted before it. The registry keeps the accepted ones, in
their order. -/
structure Records (r : Registry) (accelerators : List Accelerator)
    (answers : List (Except RegisterError Unit)) (final : Registry) : Prop where
  answered : answers.length = accelerators.length
  kept : final.accelerators = r.accelerators ++ accepted accelerators answers
  accepts : ∀ before a after, accelerators = before ++ a :: after →
    (answers[before.length]? = some (.ok ()) ↔ r.soc ∈ a.socs ∧
      ((r.accelerators ++ accepted before answers).filter
        fun b => b.standard == a.standard).length < 2)

section

variable {r next final : Registry} {a : Accelerator} {rest : List Accelerator}
  {answers : List (Except RegisterError Unit)}

theorem Records.refuse {e : RegisterError} (hregister : r.register a = .error e)
    (h : r.Records rest answers final) : r.Records (a :: rest) (.error e :: answers) final where
  answered := congrArg (· + 1) h.answered
  kept := h.kept
  accepts before b after hlist := by
    cases before with
    | nil =>
      obtain ⟨rfl, -⟩ := List.cons.inj hlist
      refine iff_of_false (by simp) fun ⟨hsoc, hroom⟩ => ?_
      rw [accepted, List.zip_nil_left, List.filter_nil, List.map_nil, List.append_nil] at hroom
      cases hregister.symm.trans (register_eq_ok_iff.2 ⟨hsoc, hroom, rfl⟩)
    | cons c before =>
      obtain ⟨rfl, hrest⟩ := List.cons.inj hlist
      exact h.accepts before b after hrest

theorem Records.accept (hregister : r.register a = .ok next)
    (h : next.Records rest answers final) : r.Records (a :: rest) (.ok () :: answers) final := by
  obtain ⟨hsoc, hroom, rfl⟩ := register_eq_ok_iff.1 hregister
  refine ⟨congrArg (· + 1) h.answered, ?_, fun before b after hlist => ?_⟩
  · rw [h.kept, List.append_assoc]
    rfl
  cases before with
  | nil =>
    obtain ⟨rfl, -⟩ := List.cons.inj hlist
    refine iff_of_true rfl ⟨hsoc, ?_⟩
    rwa [accepted, List.zip_nil_left, List.filter_nil, List.map_nil, List.append_nil]
  | cons c before =>
    obtain ⟨rfl, hrest⟩ := List.cons.inj hlist
    have haccepts := h.accepts before b after hrest
    rw [List.append_assoc] at haccepts
    exact haccepts

end

theorem records_registerEach (r : Registry) (accelerators : List Accelerator) :
    r.Records accelerators (r.registerEach accelerators).1 (r.registerEach accelerators).2 := by
  induction accelerators generalizing r with
  | nil => exact ⟨rfl, (List.append_nil _).symm, fun before _ _ h => by simp at h⟩
  | cons a rest ih =>
    simp only [Registry.registerEach]
    split
    · rename_i hregister
      exact (ih r).refuse hregister
    · rename_i next hregister
      exact (ih next).accept hregister

theorem soc_registerEach (r : Registry) (accelerators : List Accelerator) :
    (r.registerEach accelerators).2.soc = r.soc := by
  induction accelerators generalizing r with
  | nil => rfl
  | cons a rest ih =>
    simp only [Registry.registerEach]
    split
    · exact ih r
    · rename_i next hregister
      obtain ⟨-, -, rfl⟩ := register_eq_ok_iff.1 hregister
      exact ih _

theorem admissible_empty (soc : Soc) : Admissible { soc } where
  soc _ h := nomatch h
  limit _ := Nat.zero_le _

def admitted (r : Registry) (standard : CodingStandard) (caps : Capabilities) : List Accelerator :=
  r.accelerators.filter fun a => a.standard == standard && caps.supports a.generation

theorem generationOrder_nodup (forced : Option Generation) : (generationOrder forced).Nodup := by
  obtain _ | _ | _ := forced <;> decide

theorem mem_generationOrder (forced : Option Generation) (g : Generation) :
    g ∈ generationOrder forced := by
  obtain _ | _ | _ := forced <;> cases g <;> decide

theorem generationOrder_sorted (forced : Option Generation) :
    (generationOrder forced).Pairwise fun g g' => g.rank forced ≤ g'.rank forced := by
  obtain _ | _ | _ := forced <;> decide

section

variable {gs : List Generation}

theorem flatMap_generation_perm (hgs : gs.Nodup) (l : List Accelerator) :
    (gs.flatMap fun g => l.filter fun a => a.generation == g).Perm
      (l.filter fun a => gs.contains a.generation) := by
  induction gs with
  | nil => simp
  | cons g rest ih =>
    obtain ⟨hg, hrest⟩ := List.nodup_cons.1 hgs
    -- the accelerators of the first generation go before all others
    have hsplit := List.filter_append_perm (fun a : Accelerator => a.generation == g)
      (l.filter fun a => (g :: rest).contains a.generation)
    have hfirst : (l.filter fun a => (g :: rest).contains a.generation).filter
        (fun a => a.generation == g) = l.filter fun a => a.generation == g := by
      rw [List.filter_filter]
      exact List.filter_congr fun a _ => by simp; tauto
    have hothers : (l.filter fun a => (g :: rest).contains a.generation).filter
        (fun a => !(a.generation == g)) = l.filter fun a => rest.contains a.generation := by
      rw [List.filter_filter]
      refine List.filter_congr fun a _ => ?_
      by_cases ha : a.generation = g
      · simp [ha, hg]
      · simp [ha]
    rw [hfirst, hothers] at hsplit
    exact ((ih hrest).append_left _).trans hsplit

theorem filter_flatMap_generation (hgs : gs.Nodup) (l : List Accelerator) (g : Generation) :
    (gs.flatMap fun g' => l.filter fun a => a.generation == g').filter (fun a => a.generation == g) =
      l.filter fun a => gs.contains g && a.generation == g := by
  induction gs with
  | nil => simp
  | cons first rest ih =>
    obtain ⟨hfirst, hrest⟩ := List.nodup_cons.1 hgs
    rw [List.flatMap_cons, List.filter_append, ih hrest, List.filter_filter]
    by_cases hg : g = first
    · subst hg
      simp [hfirst]
    · have hnone : (l.filter fun a => a.generation == g && a.generation == first) = [] := by
        rw [List.filter_eq_nil_iff]
        intro a _
        simp only [Bool.and_eq_true, beq_iff_eq, not_and]
        exact fun ha ha' => hg (ha.symm.trans ha')
      rw [hnone]
      simp [hg]

end

/-- A list has these accelerators, each as often as it was registered, in a stable order by their
generations. -/
structure InOrder (r : Registry) (standard : CodingStandard) (forced : Option Generation)
    (caps : Capabilities) (l : List Accelerator) : Prop where
  perm : l.Perm (r.admitted standard caps)
  sorted : l.Pairwise fun a b => a.generation.rank forced ≤ b.generation.rank forced
  stable : ∀ g, l.filter (fun a => a.generation == g) =
    (r.admitted standard caps).filter fun a => a.generation == g

theorem candidates_inOrder (r : Registry) (standard : CodingStandard)
    (forced : Option Generation) (caps : Capabilities) :
    r.InOrder standard forced caps (r.candidates standard forced caps) := by
  have hnodup : ((generationOrder forced).filter caps.supports).Nodup :=
    (generationOrder_nodup forced).filter _
  have hcontains : ∀ g, ((generationOrder forced).filter caps.supports).contains g =
      caps.supports g := by
    intro g
    rw [Bool.eq_iff_iff, List.contains_iff_mem, List.mem_filter]
    exact and_iff_right (mem_generationOrder forced g)
  refine ⟨?_, ?_, fun g => ?_⟩
  · have hperm := flatMap_generation_perm hnodup (r.ofStandard standard)
    simp only [hcontains] at hperm
    refine hperm.trans (.of_eq ?_)
    rw [ofStandard, admitted, List.filter_filter]
    exact List.filter_congr fun a _ => Bool.and_comm ..
  · simp only [candidates, List.pairwise_flatMap]
    refine ⟨fun g _ => ?_, ((generationOrder_sorted forced).filter _).imp fun h a ha b hb => ?_⟩
    · refine List.pairwise_of_forall_mem_list fun a ha b hb => ?_
      simp only [List.mem_filter, beq_iff_eq] at ha hb
      exact Nat.le_of_eq (by rw [ha.2, hb.2])
    · simp only [List.mem_filter, beq_iff_eq] at ha hb
      rwa [ha.2, hb.2]
  · rw [candidates, filter_flatMap_generation hnodup, hcontains, ofStandard, admitted,
      List.filter_filter, List.filter_filter]
    refine List.filter_congr fun a _ => ?_
    by_cases ha : a.generation = g
    · subst ha
      simp [Bool.and_comm]
    · simp [beq_eq_false_iff_ne.2 ha]

theorem mem_candidates {r : Registry} {standard : CodingStandard} {forced : Option Generation}
    {caps : Capabilities} {a : Accelerator} :
    a ∈ r.candidates standard forced caps ↔
      a ∈ r.accelerators ∧ a.standard = standard ∧ caps.supports a.generation = true := by
  rw [(candidates_inOrder r standard forced caps).perm.mem_iff]
  simp [admitted]

end Registry

end VideoAccel
