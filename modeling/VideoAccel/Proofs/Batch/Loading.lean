import VideoAccel.Proofs.Strategy.Coded

namespace VideoAccel

abbrev RegisterFile := Nat → UInt32

namespace RegisterOp

/-- The word that an operation writes to a register, if it is a write that reaches it. -/
def word? (reg : Nat) : RegisterOp → Option UInt32
  | .write offset words => if offset / 4 ≤ reg then words[reg - offset / 4]? else none
  | .read .. | .address _ => none

def isWrite : RegisterOp → Bool
  | .write .. => true
  | .read .. | .address _ => false

theorem word?_of_not_isWrite {op : RegisterOp} (h : op.isWrite = false) (reg : Nat) :
    op.word? reg = none := by
  cases op with
  | write => cases h
  | read | address => rfl

end RegisterOp

namespace Batch

def writes (b : Batch) : List RegisterOp := b.filter RegisterOp.isWrite

theorem addressOffsets_append (b b' : Batch) :
    addressOffsets (b ++ b') = b.addressOffsets ++ b'.addressOffsets := List.filterMap_append

@[simp]
theorem addressOffsets_map_address (patches : List AddressOffset) :
    addressOffsets (patches.map .address) = patches := by
  rw [addressOffsets, List.filterMap_map]
  exact List.filterMap_some

def load (b : Batch) (file : RegisterFile) : RegisterFile :=
  b.foldl (fun file op reg => (op.word? reg).getD (file reg)) file

def writeCount (b : Batch) (reg : Nat) : Nat := b.countP fun op => (op.word? reg).isSome

theorem load_writes (b : Batch) (file : RegisterFile) : load b.writes file = b.load file := by
  induction b generalizing file with
  | nil => rfl
  | cons op b ih =>
    cases hop : op.isWrite with
    | true =>
      have hwrites : writes (op :: b) = op :: writes b := List.filter_cons_of_pos hop
      rw [hwrites]
      exact ih _
    | false =>
      have hwrites : writes (op :: b) = writes b :=
        List.filter_cons_of_neg (Bool.eq_false_iff.1 hop)
      rw [hwrites, ih]
      have hsame : (fun reg => (op.word? reg).getD (file reg)) = file := by
        funext reg
        rw [RegisterOp.word?_of_not_isWrite hop reg, Option.getD_none]
      exact congrArg (load b) hsame.symm

theorem writeCount_writes (b : Batch) (reg : Nat) : writeCount b.writes reg = b.writeCount reg := by
  simp only [writeCount, writes, List.countP_filter]
  refine List.countP_congr fun op _ => ?_
  cases hop : op.isWrite with
  | true => simp
  | false => simp [RegisterOp.word?_of_not_isWrite hop]

end Batch

namespace RegisterBlock

def op (b : RegisterBlock) : RegisterOp := .write b.offset b.words

def shape (b : RegisterBlock) : Nat × Nat := (b.first, b.words.length)

theorem word?_op (b : RegisterBlock) (reg : Nat) : b.op.word? reg = b.get? reg := by
  have hfirst : b.offset / 4 = b.first := Nat.mul_div_cancel b.first (by decide)
  simp only [op, RegisterOp.word?, get?, hfirst]

theorem isSome_get? (b : RegisterBlock) (reg : Nat) : (b.get? reg).isSome = b.contains reg := by
  simp only [get?, contains]
  by_cases hfirst : b.first ≤ reg
  · simp only [if_pos hfirst, decide_eq_true hfirst, Bool.true_and]
    by_cases hlast : reg - b.first < b.words.length
    · rw [List.getElem?_eq_getElem hlast, decide_eq_true hlast]
      rfl
    · rw [List.getElem?_eq_none (Nat.le_of_not_lt hlast), decide_eq_false hlast]
      rfl
  · simp only [if_neg hfirst, decide_eq_false hfirst, Bool.false_and]
    rfl

theorem get?_eq_none {b : RegisterBlock} {reg : Nat} (h : b.contains reg = false) :
    b.get? reg = none := by
  rwa [← isSome_get?, Option.isSome_eq_false_iff, Option.isNone_iff_eq_none] at h

variable {blocks : List RegisterBlock} {reg : Nat}

theorem writeCount_map_op (blocks : List RegisterBlock) (reg : Nat) :
    Batch.writeCount (blocks.map op) reg = blocks.countP fun b => b.contains reg := by
  simp only [Batch.writeCount, List.countP_map]
  refine List.countP_congr fun b _ => ?_
  simp only [Function.comp_apply, word?_op, isSome_get?]

theorem load_map_op_of_count_zero (h : (blocks.countP fun b => b.contains reg) = 0)
    (file : RegisterFile) : Batch.load (blocks.map op) file reg = file reg := by
  induction blocks generalizing file with
  | nil => rfl
  | cons b blocks ih =>
    obtain ⟨hb, hrest⟩ := List.forall_mem_cons.1 (List.countP_eq_zero.1 h)
    refine (ih (List.countP_eq_zero.2 hrest) _).trans ?_
    change (b.op.word? reg).getD (file reg) = file reg
    rw [word?_op, get?_eq_none (Bool.eq_false_iff.2 hb), Option.getD_none]

theorem load_map_op_of_count_one (h : (blocks.countP fun b => b.contains reg) = 1) :
    ∃ v, blocks.findSome? (fun b => b.get? reg) = some v ∧
      ∀ file, Batch.load (blocks.map op) file reg = v := by
  induction blocks with
  | nil => cases h
  | cons b blocks ih =>
    cases hb : b.contains reg with
    | true =>
      rw [List.countP_cons, if_pos hb, Nat.add_eq_right] at h
      obtain ⟨v, hv⟩ := Option.isSome_iff_exists.1 ((b.isSome_get? reg).trans hb)
      refine ⟨v, by rw [List.findSome?_cons, hv], fun file => ?_⟩
      -- no later block overwrites the word
      refine (load_map_op_of_count_zero h _).trans ?_
      change (b.op.word? reg).getD (file reg) = v
      rw [word?_op, hv, Option.getD_some]
    | false =>
      rw [List.countP_cons, if_neg (Bool.eq_false_iff.1 hb), Nat.add_zero] at h
      obtain ⟨v, hfind, hload⟩ := ih h
      refine ⟨v, ?_, fun file => hload _⟩
      rw [List.findSome?_cons, get?_eq_none hb]
      exact hfind

end RegisterBlock

def RegisterImage.shape (image : RegisterImage) : List (Nat × Nat) :=
  image.blocks.map RegisterBlock.shape

theorem RegisterImage.isSome_get?_eq_any (image : RegisterImage) (reg : Nat) :
    (image.get? reg).isSome = image.shape.any fun s => s.1 ≤ reg && reg - s.1 < s.2 := by
  rw [get?, List.isSome_findSome?, shape, List.any_map]
  refine congrArg (image.blocks.any ·) ?_
  funext b
  exact b.isSome_get? reg

theorem RegisterBlock.shape_write (b : RegisterBlock) (reg : Nat) (f : RegisterField)
    (v : UInt32) : (b.write reg f v).shape = b.shape := by
  simp only [shape, write]
  split
  · simp only [List.length_modify]
  · rfl

theorem RegisterImage.shape_write (image : RegisterImage) (w : RegisterWrite) :
    (image.write w).shape = image.shape := by
  simp only [shape, write, List.map_map]
  exact List.map_congr_left fun b _ => b.shape_write w.reg w.field w.value

theorem RegisterImage.shape_writeAll (image : RegisterImage) (ws : List RegisterWrite) :
    (image.writeAll ws).shape = image.shape := by
  induction ws generalizing image with
  | nil => rfl
  | cons w ws ih => exact (ih (image.write w)).trans (image.shape_write w)

/-- The image has the registers of the hardware. -/
def RegisterImage.Suits (image : RegisterImage) (g : Generation) : Prop :=
  image.shape = g.blankImage.shape

namespace Generation

def configuration : Generation → List (Nat × Nat)
  | .rkv => [(1, 77)]
  | .vdpu34x => [(8, 31), (64, 111), (128, 199), (256, 271)]

def Configures (g : Generation) (reg : Nat) : Prop :=
  ∃ range ∈ g.configuration, range.1 ≤ reg ∧ reg ≤ range.2

instance (g : Generation) (reg : Nat) : Decidable (g.Configures reg) :=
  inferInstanceAs (Decidable (∃ range ∈ g.configuration, range.1 ≤ reg ∧ reg ≤ range.2))

def startRegister : Generation → Nat
  | .rkv => Rkv.Reg.interrupt
  | .vdpu34x => Vdpu34x.Reg.decodeEnable

def sentBlocks (g : Generation) (image : RegisterImage) : List RegisterBlock :=
  match g with
  | .rkv =>
    [⟨Rkv.Reg.control, Rkv.imageRange image Rkv.Reg.control Rkv.Reg.streamDetect⟩,
      ⟨Rkv.Reg.interrupt, Rkv.imageRange image Rkv.Reg.interrupt Rkv.Reg.interrupt⟩]
  | .vdpu34x => image.blocks

variable {g : Generation} {image : RegisterImage} {reg : Nat}

theorem writes_queue (g : Generation) (image : RegisterImage) (patches : Batch) :
    (g.queue image patches).writes = (g.sentBlocks image).map RegisterBlock.op := by
  have haddresses :
      (patches.addressOffsets.map RegisterOp.address).filter RegisterOp.isWrite = [] := by
    simp [RegisterOp.isWrite]
  have hblocks : ∀ blocks : List RegisterBlock,
      (blocks.map RegisterBlock.op).filter RegisterOp.isWrite = blocks.map RegisterBlock.op := by
    intro blocks
    refine List.filter_eq_self.2 fun op hop => ?_
    obtain ⟨b, -, rfl⟩ := List.mem_map.1 hop
    rfl
  cases g with
  | rkv =>
    simp only [queue, Rkv.queue, Batch.writes, List.filter_append, haddresses]
    rfl
  | vdpu34x =>
    have hsent : (image.blocks.map fun b => RegisterOp.write b.offset b.words) =
        image.blocks.map RegisterBlock.op := rfl
    simp only [queue, Vdpu34x.queue, Batch.writes, List.filter_append, hsent, haddresses, hblocks]
    exact (List.append_nil _).trans (List.append_nil _)

theorem addressOffsets_queue (g : Generation) (image : RegisterImage) (patches : Batch) :
    (g.queue image patches).addressOffsets = patches.addressOffsets := by
  cases g with
  | rkv =>
    rw [queue, Rkv.queue, Batch.addressOffsets_append, Batch.addressOffsets_append,
      Batch.addressOffsets_map_address]
    exact List.append_nil _
  | vdpu34x =>
    have hblocks : Batch.addressOffsets
        (image.blocks.map fun b => RegisterOp.write b.offset b.words) = [] := by
      simp [Batch.addressOffsets, RegisterOp.address?]
    rw [queue, Vdpu34x.queue, Batch.addressOffsets_append, Batch.addressOffsets_append, hblocks,
      Batch.addressOffsets_map_address]
    exact List.append_nil _

theorem map_shape_sentBlocks (h : image.Suits g) :
    (g.sentBlocks image).map RegisterBlock.shape =
      (g.sentBlocks g.blankImage).map RegisterBlock.shape := by
  cases g with
  | rkv => simp [sentBlocks, RegisterBlock.shape, Rkv.imageRange]
  | vdpu34x => exact h

/-- A register of the configuration is in one of the blocks, and no other register is in any. -/
theorem countP_sentBlocks (h : image.Suits g) (reg : Nat) :
    ((g.sentBlocks image).countP fun b => b.contains reg) = if g.Configures reg then 1 else 0 := by
  have hshape : ∀ blocks : List RegisterBlock, (blocks.countP fun b => b.contains reg) =
      (blocks.map RegisterBlock.shape).countP fun s => s.1 ≤ reg && reg - s.1 < s.2 := by
    intro blocks
    rw [List.countP_map]
    rfl
  rw [hshape, map_shape_sentBlocks h]
  cases g with
  | rkv =>
    have hsent : (rkv.sentBlocks rkv.blankImage).map RegisterBlock.shape = [(2, 76), (1, 1)] := by
      decide
    rw [hsent]
    simp only [List.countP_cons, List.countP_nil, Configures, configuration, List.mem_singleton,
      exists_eq_left, Bool.and_eq_true, decide_eq_true_eq]
    split <;> split <;> split <;> omega
  | vdpu34x =>
    have hsent : (vdpu34x.sentBlocks vdpu34x.blankImage).map RegisterBlock.shape =
        [(256, 16), (64, 48), (128, 72), (8, 24)] := by
      decide
    rw [hsent]
    simp only [List.countP_cons, List.countP_nil, Configures, configuration, List.mem_cons,
      List.not_mem_nil, or_false, exists_eq_or_imp, exists_eq_left, Bool.and_eq_true,
      decide_eq_true_eq]
    split <;> split <;> split <;> split <;> split <;> omega

theorem get?_imageRange (image : RegisterImage) {first last reg : Nat} (hfirst : first ≤ reg)
    (hlast : reg ≤ last) :
    RegisterBlock.get? ⟨first, Rkv.imageRange image first last⟩ reg =
      some ((image.get? reg).getD 0) := by
  have hlt : reg - first < last + 1 - first := by omega
  simp only [RegisterBlock.get?, Rkv.imageRange, if_pos hfirst, List.getElem?_map,
    List.getElem?_range hlt, Option.map_some, Nat.add_sub_cancel' hfirst]

theorem findSome?_sentBlocks (h : image.Suits g) (hreg : g.Configures reg) :
    (g.sentBlocks image).findSome? (fun b => b.get? reg) = image.get? reg := by
  cases g with
  | rkv =>
    obtain ⟨hfirst, hlast⟩ : 1 ≤ reg ∧ reg ≤ 77 := by
      simpa only [Configures, configuration, List.mem_singleton, exists_eq_left] using hreg
    have hsome : (image.get? reg).isSome = true := by
      have hshape : image.shape = [(0, 96)] := h
      rw [image.isSome_get?_eq_any, hshape]
      simpa using Nat.lt_of_le_of_lt hlast (by decide)
    obtain ⟨v, hv⟩ := Option.isSome_iff_exists.1 hsome
    by_cases hcontrol : Rkv.Reg.control ≤ reg
    · have hrange : RegisterBlock.get?
          ⟨Rkv.Reg.control, Rkv.imageRange image Rkv.Reg.control Rkv.Reg.streamDetect⟩ reg =
            some v :=
        (get?_imageRange image hcontrol hlast).trans (by rw [hv, Option.getD_some])
      simp only [sentBlocks, List.findSome?_cons, hrange, hv]
    · have hinterrupt : reg = Rkv.Reg.interrupt := by
        simp only [Rkv.Reg.control] at hcontrol
        simp only [Rkv.Reg.interrupt]
        omega
      subst hinterrupt
      have hbefore : RegisterBlock.get?
          ⟨Rkv.Reg.control, Rkv.imageRange image Rkv.Reg.control Rkv.Reg.streamDetect⟩
          Rkv.Reg.interrupt = none := by
        rfl
      simp only [sentBlocks, List.findSome?_cons, hbefore,
        get?_imageRange image (Nat.le_refl _) (Nat.le_refl _), hv, Option.getD_some]
  | vdpu34x => rfl

theorem getLast?_sentBlocks (h : image.Suits g) :
    ∃ b, (g.sentBlocks image).getLast? = some b ∧ b.contains g.startRegister = true := by
  have hlast := congrArg List.getLast? (map_shape_sentBlocks h)
  have hstart : ∃ s, ((g.sentBlocks g.blankImage).map RegisterBlock.shape).getLast? = some s ∧
      s.1 ≤ g.startRegister ∧ g.startRegister - s.1 < s.2 := by
    cases g with
    | rkv => exact ⟨(1, 1), by decide, by decide⟩
    | vdpu34x => exact ⟨(8, 24), by decide, by decide⟩
  obtain ⟨s, hs, hfirst, hlt⟩ := hstart
  rw [hs, List.getLast?_map] at hlast
  obtain ⟨b, hb, rfl⟩ := Option.map_eq_some_iff.1 hlast
  refine ⟨b, hb, ?_⟩
  exact Bool.and_eq_true_iff.2 ⟨decide_eq_true hfirst, decide_eq_true hlt⟩

end Generation

/-- The batch gives the hardware the configuration of an image, every register once and the start
bit last, and has the address offsets that were asked for. -/
structure Batch.Sends (b : Batch) (g : Generation) (image : RegisterImage) (patches : Batch) :
    Prop where
  configured : ∀ (file : RegisterFile) (reg : Nat), g.Configures reg →
    image.get? reg = some (b.load file reg)
  others : ∀ (file : RegisterFile) (reg : Nat), ¬ g.Configures reg → b.load file reg = file reg
  once : ∀ reg, b.writeCount reg = if g.Configures reg then 1 else 0
  startLast : ∃ op, b.writes.getLast? = some op ∧ (op.word? g.startRegister).isSome
  offsets : b.addressOffsets = patches.addressOffsets

theorem Generation.sends_queue {g : Generation} {image : RegisterImage} (h : image.Suits g)
    (patches : Batch) : (g.queue image patches).Sends g image patches := by
  refine ⟨fun file reg hreg => ?_, fun file reg hreg => ?_, fun reg => ?_, ?_,
    addressOffsets_queue g image patches⟩
  · have hcount := countP_sentBlocks h reg
    rw [if_pos hreg] at hcount
    obtain ⟨v, hfind, hload⟩ := RegisterBlock.load_map_op_of_count_one hcount
    rw [← Batch.load_writes, writes_queue, hload, ← hfind, findSome?_sentBlocks h hreg]
  · have hcount := countP_sentBlocks h reg
    rw [if_neg hreg] at hcount
    rw [← Batch.load_writes, writes_queue, RegisterBlock.load_map_op_of_count_zero hcount]
  · rw [← Batch.writeCount_writes, writes_queue, RegisterBlock.writeCount_map_op,
      countP_sentBlocks h reg]
  · obtain ⟨b, hlast, hstart⟩ := getLast?_sentBlocks h
    refine ⟨b.op, ?_, ?_⟩
    · rw [writes_queue, List.getLast?_map, hlast, Option.map_some]
    · rw [RegisterBlock.word?_op, RegisterBlock.isSome_get?, hstart]

end VideoAccel
