import VideoAccel.Proofs.Backend.Custody
import VideoAccel.Proofs.Backend.Initial
import VideoAccel.Proofs.Platform.Calls
import VideoAccel.Session

namespace VideoAccel

variable {σ : Type}

/-- The memory of the buffers in hand and of the idle ones. -/
def Holding.memory (source : Nat) (h : Holding σ) : Multiset MemoryTag :=
  ↑((h.held ++ h.group.idle).map fun b => b.memory.tag source)

structure Holding.Accounted (source : Nat) (start : List PlatformCall) (channels : Multiset Nat)
    (others : Multiset MemoryTag) (h : Holding (Logged σ)) : Prop where
  sole : h.group.references = 1
  acquired : Acquired start h.state.calls channels (h.memory source + others)

section

variable {source : MemorySource σ} {id : Nat} {start : List PlatformCall} {channels : Multiset Nat}
  {others : Multiset MemoryTag}

theorem Deal.references_eq {h h' : Holding σ} (hdeal : Deal source h h') :
    h'.group.references = h.group.references := by
  cases hdeal with
  | get hget => obtain ⟨_, _, rfl, _⟩ | ⟨_, _, _, rfl⟩ := BufferGroup.get_eq_ok hget <;> rfl
  | refuse hget =>
    obtain ⟨rfl, _⟩ := BufferGroup.get_eq_error hget
    rfl
  | give =>
    simp only [BufferGroup.give]
    split <;> rfl
  | sort => rfl

theorem Deal.acquired {h h' : Holding (Logged σ)} (hdeal : Deal (source.logged id) h h')
    (hacquired : Acquired start h.state.calls channels (h.memory id + others)) :
    Acquired start h'.state.calls channels (h'.memory id + others) := by
  cases hdeal with
  | @get held g s purpose size b g' s' hget =>
    obtain ⟨idle, hperm, rfl, rfl⟩ | ⟨memory, hallocate, rfl, rfl⟩ := BufferGroup.get_eq_ok hget
    · have hsame : Holding.memory id ⟨held, g, s'⟩ =
          Holding.memory id ⟨b :: held, { g with idle }, s'⟩ :=
        Multiset.coe_eq_coe.2 (((hperm.append_left held).trans List.perm_middle).map _)
      rwa [hsame] at hacquired
    · simp only [calls_of_call hallocate]
      have hmore := hacquired.allocate id size b.memory
      rwa [← Multiset.cons_add] at hmore
  | refuse hget =>
    obtain ⟨rfl, rfl | hallocate⟩ := BufferGroup.get_eq_error hget
    · exact hacquired
    · simp only [calls_of_call hallocate]
      exact hacquired.idle _ (fun _ => rfl) fun _ => rfl
  | @give b held g s =>
    cases halive : g.isAlive with
    | true =>
      simp only [BufferGroup.give, halive, if_true]
      -- zeroing a buffer leaves its tag
      have hsame : Holding.memory id ⟨b :: held, g, s⟩ =
          Holding.memory id ⟨held, { g with idle := g.idle ++ [b.zeroed] }, s⟩ := by
        refine Multiset.coe_eq_coe.2 ?_
        simp only [List.cons_append, List.map_cons, List.map_append, List.map_nil,
          ← List.append_assoc]
        exact (List.perm_append_singleton _ _).symm
      rwa [hsame] at hacquired
    | false =>
      simp only [BufferGroup.give, halive, Bool.false_eq_true, if_false]
      refine Acquired.free (m := b.memory) ?_
      rw [← Multiset.cons_add]
      exact hacquired
  | @sort held held' g s hperm =>
    have htags := hperm.map fun i => (id, i.1, i.2.1)
    simp only [List.map_map] at htags
    have hsame : Holding.memory id ⟨held, g, s⟩ = Holding.memory id ⟨held', g, s⟩ := by
      refine Multiset.coe_eq_coe.2 ?_
      simp only [List.map_append]
      exact htags.append_right _
    rwa [hsame] at hacquired

theorem Transfer.acquired {h h' : Holding (Logged σ)} (htransfer : Transfer (source.logged id) h h')
    (hacquired : Acquired start h.state.calls channels (h.memory id + others)) :
    Acquired start h'.state.calls channels (h'.memory id + others) := by
  induction htransfer with
  | refl => exact hacquired
  | tail _ hdeal ih => exact hdeal.acquired ih

theorem BufferGroup.acquired_trim {held : List DeviceBuffer} {g : BufferGroup} {s : Logged σ}
    (hacquired : Acquired start s.calls channels (Holding.memory id ⟨held, g, s⟩ + others)) :
    let r := g.trim (source.logged id) s
    Acquired start r.2.calls channels (Holding.memory id ⟨held, r.1, r.2⟩ + others) := by
  have hsplit : Holding.memory id ⟨held, g, s⟩ =
      ↑(g.idle.map fun b => b.memory.tag id) + ↑(held.map fun b => b.memory.tag id) := by
    rw [Holding.memory, List.map_append, ← Multiset.coe_add, add_comm]
  rw [hsplit, add_assoc] at hacquired
  have hfreed := (Acquired.freeEach source g.idle s hacquired).1
  simpa only [BufferGroup.trim, Holding.memory, List.append_nil] using hfreed

end

section

variable {p : Platform σ} {source : Nat} {start : List PlatformCall} {channels : Multiset Nat}
  {others : Multiset MemoryTag} {h h' : Holding (Logged σ)}

theorem Deal.accounted (hdeal : Deal (p.logged.memory source) h h')
    (hbooks : h.Accounted source start channels others) :
    h'.Accounted source start channels others where
  sole := hdeal.references_eq.trans hbooks.sole
  acquired := by
    have hlogged : Deal ((p.memory source).logged source) h h' := hdeal
    exact hlogged.acquired hbooks.acquired

theorem Transfer.accounted (htransfer : Transfer (p.logged.memory source) h h')
    (hbooks : h.Accounted source start channels others) :
    h'.Accounted source start channels others := by
  induction htransfer with
  | refl => exact hbooks
  | tail _ hdeal ih => exact hdeal.accounted ih

theorem Device.Operations.accounted {link : Link}
    (hops : (p.logged.device link).Operations h h')
    (hbooks : h.Accounted link.memory start channels others) :
    h'.Accounted link.memory start channels others := by
  have hsent : ∀ {α : Type} {operation : σ → α × σ} {message : α → Message}
      {x : Holding (Logged σ)} {answer state}, x.Accounted link.memory start channels others →
      Logged.call operation (fun answer => .message link.channel (message answer)) x.state =
        (answer, state) → Holding.Accounted link.memory start channels others { x with state } := by
    intro α operation message x answer state hx hcall
    refine ⟨hx.sole, ?_⟩
    simp only [calls_of_call hcall]
    exact hx.acquired.idle _ (fun _ => rfl) fun _ => rfl
  induction hops with
  | refl => exact hbooks
  | tail _ hop ih =>
    cases hop with
    | deal hdeal => exact hdeal.accounted ih
    | submit hcall | poll hcall | reset hcall | flush hcall => exact hsent ih hcall

theorem Transfer.sentMessages_eq (htransfer : Transfer (p.logged.memory source) h h') :
    sentMessages h'.state.calls = sentMessages h.state.calls :=
  htransfer.keeps (P := fun l => sentMessages l.calls = sentMessages h.state.calls)
    (fun _ _ hl => hl) (fun _ _ hl => hl) rfl

end

/-- An accelerator that is closed gives up its channel and all its memory. -/
theorem Opened.close_acquired {p : Platform σ} {o : Opened (Logged σ)} {start : List PlatformCall}
    {channels : Multiset Nat} {others : Multiset MemoryTag}
    (h : o.engine.holding.Accounted o.link.memory start (o.link.channel ::ₘ channels) others) :
    let e := Opened.close p.logged o
    Acquired start e.device.calls channels others ∧ start.length < e.device.calls.length ∧
      sentMessages e.device.calls = sentMessages o.engine.device.calls ∧
      e.frames = o.engine.frames := by
  intro e
  have hgive := BufferGroup.giveMany_transfer (p.logged.memory o.link.memory)
    o.engine.backend.owned [] o.engine.backend.buffers o.engine.device
  rw [List.append_nil] at hgive
  have hsilent := Transfer.sentMessages_eq hgive
  obtain ⟨hsole, hacquired⟩ := Transfer.accounted hgive h
  have hclose : e.device = p.logged.closeChannel o.link.channel
      ((o.engine.backend.buffers.giveMany (p.logged.memory o.link.memory)
        o.engine.backend.owned o.engine.device).1.drop (p.logged.memory o.link.memory)
        (o.engine.backend.buffers.giveMany (p.logged.memory o.link.memory)
          o.engine.backend.owned o.engine.device).2).2 := rfl
  rw [hclose]
  generalize o.engine.backend.buffers.giveMany (p.logged.memory o.link.memory)
    o.engine.backend.owned o.engine.device = given at hsole hacquired hsilent
  obtain ⟨group, l⟩ := given
  change group.references = 1 at hsole
  simp only [BufferGroup.drop, BufferGroup.isAlive, hsole, BufferGroup.trim]
  obtain ⟨hfreed, hquiet⟩ := Acquired.freeEach (p.memory o.link.memory) group.idle l hacquired
  exact ⟨hfreed.closeChannel, Nat.lt_succ_of_le hfreed.length_le, hquiet.trans hsilent, rfl⟩

end VideoAccel
