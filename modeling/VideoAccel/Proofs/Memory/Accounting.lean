import VideoAccel.Device
import VideoAccel.Proofs.Memory.Recycling
import VideoAccel.Proofs.Memory.Transfer

namespace VideoAccel

variable {σ : Type}

/-- Handles of fresh memory are none of those in use, which stay in use whatever the device does. -/
structure FreshHandles (device : Device σ) (inUse : σ → Set UInt32) : Prop where
  allocate : ∀ size s m, (device.memory.allocate size s).1 = .ok m →
    m.handle ∉ inUse s ∧ m.handle ∈ inUse (device.memory.allocate size s).2
  keep : ∀ size s, inUse s ⊆ inUse (device.memory.allocate size s).2
  submit : ∀ batch s, inUse s ⊆ inUse (device.channel.submit batch s).2
  poll : ∀ s, inUse s ⊆ inUse (device.channel.poll s).2
  reset : ∀ s, inUse s ⊆ inUse (device.channel.reset s).2
  flush : ∀ s, inUse s ⊆ inUse (device.channel.flush s).2

theorem BufferGroup.get_eq_ok {source : MemorySource σ} {purpose : Purpose} {size : Nat}
    {g g' : BufferGroup} {s s' : σ} {b : DeviceBuffer}
    (h : g.get source purpose size s = (.ok b, g', s')) :
    (∃ idle, g.idle.Perm (b :: idle) ∧
      g' = { g with idle, outstanding := g.outstanding + 1 } ∧ s' = s) ∨
    (∃ memory, source.allocate size s = (.ok memory, s') ∧ b.memory = memory ∧
      g' = { g with outstanding := g.outstanding + 1 }) := by
  have houtcome := g.get_outcome source purpose size s
  rw [h] at houtcome
  cases houtcome with
  | recycled before after _ _ hidle =>
    rw [hidle]
    exact .inl ⟨before ++ after, List.perm_middle, rfl, rfl⟩
  | allocated m _ _ _ hallocate => exact .inr ⟨m, hallocate, rfl, rfl⟩

theorem BufferGroup.get_eq_error {source : MemorySource σ} {purpose : Purpose} {size : Nat}
    {g g' : BufferGroup} {s s' : σ} {error : AllocError}
    (h : g.get source purpose size s = (.error error, g', s')) :
    g' = g ∧ (s' = s ∨ source.allocate size s = (.error error, s')) := by
  have houtcome := g.get_outcome source purpose size s
  rw [h] at houtcome
  cases houtcome with
  | zeroSize => exact ⟨rfl, .inl rfl⟩
  | refused _ _ _ _ hallocate => exact ⟨rfl, .inr hallocate⟩

/-- The group counts what its holder has. -/
structure Holding.Counted (h : Holding σ) : Prop where
  alive : h.group.isAlive = true
  outstanding : h.group.outstanding = h.held.length

theorem Deal.counted {source : MemorySource σ} {h h' : Holding σ} (hdeal : Deal source h h')
    (hcounted : h.Counted) : h'.Counted := by
  obtain ⟨halive, hout⟩ := hcounted
  cases hdeal with
  | get hget =>
    obtain ⟨idle, _, rfl, _⟩ | ⟨_, _, _, rfl⟩ := BufferGroup.get_eq_ok hget <;>
      exact ⟨halive, by simpa using hout⟩
  | refuse hget =>
    obtain ⟨rfl, _⟩ := BufferGroup.get_eq_error hget
    exact ⟨halive, hout⟩
  | give =>
    change BufferGroup.isAlive _ = true at halive
    simp only [List.length_cons] at hout
    simp only [BufferGroup.give, halive, if_true]
    exact ⟨halive, by simp [hout]⟩
  | sort hperm =>
    have hlength := hperm.length_eq
    simp only [List.length_map] at hlength
    exact ⟨halive, hout.trans hlength⟩

def Holding.handles (h : Holding σ) : List UInt32 :=
  (h.held ++ h.group.idle).map DeviceBuffer.handle

/-- No two buffers have one handle, and all handles are in use. -/
structure Holding.Distinct (inUse : σ → Set UInt32) (h : Holding σ) : Prop where
  nodup : h.handles.Nodup
  used : ∀ handle ∈ h.handles, handle ∈ inUse h.state

namespace Holding.Distinct

variable {inUse : σ → Set UInt32} {h h' : Holding σ}

theorem of_perm (hdistinct : h.Distinct inUse) (hperm : h'.handles.Perm h.handles)
    (hkeep : inUse h.state ⊆ inUse h'.state) : h'.Distinct inUse where
  nodup := hperm.nodup_iff.2 hdistinct.nodup
  used handle hmem := hkeep (hdistinct.used handle (hperm.subset hmem))

theorem of_answer {α : Type} {result : α} {state : σ} {r : α × σ} (hdistinct : h.Distinct inUse)
    (hkeep : inUse h.state ⊆ inUse r.2) (hr : r = (result, state)) :
    Distinct inUse { h with state } := by
  subst hr
  exact hdistinct.of_perm (.refl _) hkeep

end Holding.Distinct

theorem Deal.distinct {device : Device σ} {inUse : σ → Set UInt32}
    (hfresh : FreshHandles device inUse) {h h' : Holding σ} (hdeal : Deal device.memory h h')
    (halive : h.group.isAlive = true) (hdistinct : h.Distinct inUse) : h'.Distinct inUse := by
  cases hdeal with
  | @get held g s purpose size b g' s' hget =>
    obtain ⟨idle, hperm, rfl, rfl⟩ | ⟨memory, hallocate, hmemory, rfl⟩ := BufferGroup.get_eq_ok hget
    · refine hdistinct.of_perm ?_ fun _ hmem => hmem
      refine List.Perm.map _ ?_
      exact List.perm_middle.symm.trans (hperm.symm.append_left held)
    · obtain ⟨hnew, hnow⟩ := hfresh.allocate size s memory (by rw [hallocate])
      have hkeep := hfresh.keep size s
      rw [hallocate] at hnow hkeep
      have hhandle : memory.handle = b.handle := congrArg Memory.handle hmemory.symm
      rw [hhandle] at hnew hnow
      refine ⟨List.nodup_cons.2 ⟨fun hmem => hnew (hdistinct.used _ hmem), hdistinct.nodup⟩, ?_⟩
      exact List.forall_mem_cons.2 ⟨hnow, fun handle hmem => hkeep (hdistinct.used handle hmem)⟩
  | refuse hget =>
    obtain ⟨rfl, rfl | hallocate⟩ := BufferGroup.get_eq_error hget
    · exact hdistinct
    · exact hdistinct.of_answer (hfresh.keep _ _) hallocate
  | @give b held g s =>
    -- the group is alive, so the memory is kept idle and its handle stays in use
    change BufferGroup.isAlive _ = true at halive
    simp only [BufferGroup.give, halive, if_true]
    refine hdistinct.of_perm ?_ fun _ hmem => hmem
    simp only [Holding.handles, ← List.append_assoc, List.map_append, List.map_cons, List.map_nil]
    exact List.perm_append_singleton _ _
  | sort hperm =>
    have hhandles := (hperm.map Prod.fst).symm
    simp only [List.map_map] at hhandles
    refine hdistinct.of_perm ?_ fun _ hmem => hmem
    simp only [Holding.handles, List.map_append]
    exact hhandles.append_right _

/-- A deal with the memory source, or an operation of the channel, which moves no buffer. -/
inductive Device.Operation (device : Device σ) : Holding σ → Holding σ → Prop
  | deal {h h'} : Deal device.memory h h' → device.Operation h h'
  | submit {h batch result state} :
    device.channel.submit batch h.state = (result, state) → device.Operation h { h with state }
  | poll {h result state} :
    device.channel.poll h.state = (result, state) → device.Operation h { h with state }
  | reset {h result state} :
    device.channel.reset h.state = (result, state) → device.Operation h { h with state }
  | flush {h result state} :
    device.channel.flush h.state = (result, state) → device.Operation h { h with state }

abbrev Device.Operations (device : Device σ) : Holding σ → Holding σ → Prop :=
  Relation.ReflTransGen device.Operation

theorem Transfer.operations {device : Device σ} {h h' : Holding σ}
    (htransfer : Transfer device.memory h h') : device.Operations h h' :=
  Relation.ReflTransGen.mono (fun _ _ hdeal => Device.Operation.deal hdeal) _ _ htransfer

theorem Device.Operations.counted {device : Device σ} {h h' : Holding σ}
    (hops : device.Operations h h') (hcounted : h.Counted) : h'.Counted := by
  induction hops with
  | refl => exact hcounted
  | tail _ hop ih =>
    cases hop with
    | deal hdeal => exact hdeal.counted ih
    | submit | poll | reset | flush => exact ⟨ih.alive, ih.outstanding⟩

theorem Device.Operations.distinct {device : Device σ} {inUse : σ → Set UInt32}
    (hfresh : FreshHandles device inUse) {h h' : Holding σ} (hops : device.Operations h h')
    (hcounted : h.Counted) (hdistinct : h.Distinct inUse) : h'.Distinct inUse := by
  induction hops with
  | refl => exact hdistinct
  | tail hbefore hop ih =>
    cases hop with
    | deal hdeal => exact hdeal.distinct hfresh (Operations.counted hbefore hcounted).alive ih
    | submit hanswer => exact ih.of_answer (hfresh.submit _ _) hanswer
    | poll hanswer => exact ih.of_answer (hfresh.poll _) hanswer
    | reset hanswer => exact ih.of_answer (hfresh.reset _) hanswer
    | flush hanswer => exact ih.of_answer (hfresh.flush _) hanswer

theorem Holding.Distinct.nodup_of_subperm {inUse : σ → Set UInt32} {h : Holding σ}
    (hdistinct : h.Distinct inUse) {bs : List DeviceBuffer} (hsub : bs.Subperm h.held) :
    (bs.map DeviceBuffer.handle).Nodup := by
  obtain ⟨bs', hperm, hsublist⟩ := hsub
  have hheld : (h.held.map DeviceBuffer.handle).Nodup := by
    have hnodup := hdistinct.nodup
    rw [handles, List.map_append] at hnodup
    exact (List.nodup_append.1 hnodup).1
  exact (hperm.map _).nodup_iff.1 (hheld.sublist (hsublist.map _))

end VideoAccel
