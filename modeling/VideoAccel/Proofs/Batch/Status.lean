import VideoAccel.Proofs.Batch.Loading
import VideoAccel.Proofs.Register.Fields

namespace VideoAccel

def ReachedBy (reg : Nat) (read : Nat × Nat) : Prop :=
  read.1 / 4 ≤ reg ∧ reg < read.1 / 4 + read.2

instance (reg : Nat) (read : Nat × Nat) : Decidable (ReachedBy reg read) :=
  inferInstanceAs (Decidable (_ ∧ _))

/-- What the reads of a batch answer, one block for each. -/
def RegisterFile.readback (m : RegisterFile) (reads : List (Nat × Nat)) : Readback :=
  reads.map fun read => (List.range read.2).map fun i => m (read.1 / 4 + i)

/-- The registers as a readback of any shape has them: a word that is absent is zero, and a word
beyond the end of its read is no register. -/
def Readback.file : List (Nat × Nat) → Readback → RegisterFile
  | [], _ => fun _ => 0
  | read :: reads, r => fun reg =>
    if ReachedBy reg read then ((r.head?.getD [])[reg - read.1 / 4]?).getD 0
    else file reads r.tail reg

theorem Readback.file_readback (m : RegisterFile) {reads : List (Nat × Nat)} {reg : Nat}
    (h : ∃ read ∈ reads, ReachedBy reg read) : file reads (m.readback reads) reg = m reg := by
  induction reads with
  | nil =>
    obtain ⟨_, hread, _⟩ := h
    cases hread
  | cons read reads ih =>
    simp only [file]
    by_cases hread : ReachedBy reg read
    · obtain ⟨hfirst, hlast⟩ := hread
      have hlt : reg - read.1 / 4 < read.2 := by omega
      rw [if_pos ⟨hfirst, hlast⟩]
      simp only [RegisterFile.readback, List.map_cons, List.head?_cons, Option.getD_some,
        List.getElem?_map, List.getElem?_range hlt, Option.map_some, Nat.add_sub_cancel' hfirst]
    · rw [if_neg hread]
      apply ih
      obtain ⟨read', hmem, hreached⟩ := h
      obtain rfl | hmem := List.mem_cons.1 hmem
      · exact absurd hreached hread
      · exact ⟨read', hmem, hreached⟩

namespace Generation

def statusReads : Generation → List (Nat × Nat)
  | .rkv => [(4, 1), (296, 6)]
  | .vdpu34x => [(896, 1), (1024, 16)]

theorem reads_queue (g : Generation) (image : RegisterImage) (patches : Batch) :
    (g.queue image patches).reads = g.statusReads := by
  have haddresses : Batch.reads (patches.addressOffsets.map RegisterOp.address) = [] := by
    simp [Batch.reads]
  have hwrites : ∀ blocks : List RegisterBlock,
      Batch.reads (blocks.map fun b => RegisterOp.write b.offset b.words) = [] := by
    simp [Batch.reads]
  simp only [Batch.reads] at haddresses hwrites
  cases g with
  | rkv =>
    simp only [queue, Rkv.queue, Batch.reads, List.filterMap_append, haddresses]
    rfl
  | vdpu34x =>
    simp only [queue, Vdpu34x.queue, Batch.reads, List.filterMap_append, haddresses, hwrites]
    rfl

def statusRegister : Generation → Nat
  | .rkv => 1
  | .vdpu34x => 224

def readyBit : Generation → Nat
  | .rkv => 8
  | .vdpu34x => 1

def errorBits : Generation → Nat × Nat
  | .rkv => (9, 13)
  | .vdpu34x => (2, 6)

def streamErrorBits : Generation → List (Nat × Nat)
  | .rkv => [(75, 0), (77, 0)]
  | .vdpu34x => [(262, 0), (262, 1)]

def Failed (g : Generation) (m : RegisterFile) : Prop :=
  (m g.statusRegister).toNat.testBit g.readyBit = false ∨
    (∃ i, g.errorBits.1 ≤ i ∧ i ≤ g.errorBits.2 ∧
      (m g.statusRegister).toNat.testBit i = true) ∨
    ∃ x ∈ g.streamErrorBits, (m x.1).toNat.testBit x.2 = true

def referencesUsed : Generation → RegisterFile → Option UInt32
  | .rkv, _ => none
  | .vdpu34x, m => some (m 260 % 65536)

def outcomeRegisters : Generation → List Nat
  | .rkv => [1, 75, 77]
  | .vdpu34x => [224, 260, 262]

end Generation

/-- The status says what the registers say. -/
structure HardwareStatus.Reports (g : Generation) (m : RegisterFile) (status : HardwareStatus) :
    Prop where
  hardError : status.hardError = true ↔ g.Failed m
  refUsed : status.refUsed = g.referencesUsed m

theorem HardwareStatus.Reports.congr {g : Generation} {m m' : RegisterFile} {s : HardwareStatus}
    (h : s.Reports g m) (hsame : ∀ reg ∈ g.outcomeRegisters, m reg = m' reg) : s.Reports g m' := by
  cases g with
  | rkv =>
    simp only [Generation.outcomeRegisters, List.forall_mem_cons] at hsame
    obtain ⟨hstatus, herror, hdetect, -⟩ := hsame
    refine ⟨h.hardError.trans ?_, h.refUsed⟩
    simp only [Generation.Failed, Generation.statusRegister, Generation.streamErrorBits,
      List.mem_cons, List.not_mem_nil, or_false, exists_eq_or_imp, exists_eq_left, hstatus, herror,
      hdetect]
  | vdpu34x =>
    simp only [Generation.outcomeRegisters, List.forall_mem_cons] at hsame
    obtain ⟨hstatus, hused, herror, -⟩ := hsame
    refine ⟨h.hardError.trans ?_, h.refUsed.trans ?_⟩
    · simp only [Generation.Failed, Generation.statusRegister, Generation.streamErrorBits,
        List.mem_cons, List.not_mem_nil, or_false, exists_eq_or_imp, exists_eq_left, hstatus,
        herror]
    · simp only [Generation.referencesUsed, hused]

theorem any_hasBit {bits : List Nat} {first last : Nat} (hlast : last < 32)
    (hbits : ∀ i, i ∈ bits ↔ first ≤ i ∧ i ≤ last) (w : UInt32) :
    bits.any (hasBit w) = true ↔ ∃ i, first ≤ i ∧ i ≤ last ∧ w.toNat.testBit i = true := by
  rw [List.any_eq_true]
  apply exists_congr
  intro i
  rw [hbits, and_assoc]
  refine and_congr_right fun _ => and_congr_right fun hle => ?_
  rw [hasBit_eq w (Nat.lt_of_le_of_lt hle hlast)]

theorem and_lowHalf (w : UInt32) : w &&& 0xffff = w % 65536 := by
  apply UInt32.toNat_inj.1
  rw [UInt32.toNat_and, UInt32.toNat_mod]
  exact Nat.and_two_pow_sub_one_eq_mod w.toNat 16

namespace Rkv

theorem file_statusReads (r : Readback) :
    r.file Generation.rkv.statusReads 1 = r.word 0 0 ∧
      r.file Generation.rkv.statusReads 75 = r.word 1 1 ∧
      r.file Generation.rkv.statusReads 77 = r.word 1 3 := by
  simp [Generation.statusReads, Readback.file, Readback.word, ReachedBy, List.head?_eq_getElem?]

theorem mem_errorBits (i : Nat) :
    i ∈ [Bit.busError, Bit.error, Bit.timeout, Bit.bufferEmpty, Bit.motionError] ↔
      9 ≤ i ∧ i ≤ 13 := by
  simp only [Bit.busError, Bit.error, Bit.timeout, Bit.bufferEmpty, Bit.motionError, List.mem_cons,
    List.not_mem_nil, or_false]
  omega

theorem reports_decodeStatus (r : Readback) :
    (decodeStatus r).Reports .rkv (r.file Generation.rkv.statusReads) := by
  obtain ⟨hstatus, herror, hdetect⟩ := file_statusReads r
  refine ⟨?_, rfl⟩
  simp only [decodeStatus, Bool.or_eq_true, Bool.not_eq_true',
    any_hasBit (by decide) mem_errorBits, Generation.Failed, Generation.statusRegister,
    Generation.readyBit, Generation.errorBits, Generation.streamErrorBits, List.mem_cons,
    List.not_mem_nil, or_false, exists_eq_or_imp, exists_eq_left, hstatus, herror, hdetect,
    or_assoc]
  rw [hasBit_eq _ (by decide), hasBit_eq _ (by decide), hasBit_eq _ (by decide)]
  exact Iff.rfl

end Rkv

namespace Vdpu34x

theorem file_statusReads (r : Readback) :
    r.file Generation.vdpu34x.statusReads 224 = r.word 0 0 ∧
      r.file Generation.vdpu34x.statusReads 260 = r.word 1 4 ∧
      r.file Generation.vdpu34x.statusReads 262 = r.word 1 6 := by
  simp [Generation.statusReads, Readback.file, Readback.word, ReachedBy, List.head?_eq_getElem?]

theorem mem_errorBits (i : Nat) :
    i ∈ [Bit.busError, Bit.error, Bit.timeout, Bit.bufferEmpty, Bit.motionError] ↔
      2 ≤ i ∧ i ≤ 6 := by
  simp only [Bit.busError, Bit.error, Bit.timeout, Bit.bufferEmpty, Bit.motionError, List.mem_cons,
    List.not_mem_nil, or_false]
  omega

theorem reports_decodeStatus (r : Readback) :
    (decodeStatus r).Reports .vdpu34x (r.file Generation.vdpu34x.statusReads) := by
  obtain ⟨hstatus, hused, herror⟩ := file_statusReads r
  refine ⟨?_, ?_⟩
  · simp only [decodeStatus, Bool.or_eq_true, Bool.not_eq_true',
      any_hasBit (by decide) mem_errorBits, Generation.Failed, Generation.statusRegister,
      Generation.readyBit, Generation.errorBits, Generation.streamErrorBits, List.mem_cons,
      List.not_mem_nil, or_false, exists_eq_or_imp, exists_eq_left, hstatus, herror, or_assoc]
    rw [hasBit_eq _ (by decide), hasBit_eq _ (by decide), hasBit_eq _ (by decide)]
    exact Iff.rfl
  · rw [Generation.referencesUsed, hused, ← and_lowHalf]
    rfl

end Vdpu34x

namespace Generation

theorem reports_decodeStatus (g : Generation) (r : Readback) :
    (g.decodeStatus r).Reports g (r.file g.statusReads) := by
  cases g with
  | rkv => exact Rkv.reports_decodeStatus r
  | vdpu34x => exact Vdpu34x.reports_decodeStatus r

theorem reached_outcomeRegisters (g : Generation) :
    ∀ reg ∈ g.outcomeRegisters, ∃ read ∈ g.statusReads, ReachedBy reg read := by
  cases g <;> decide

theorem file_statusRegister {r : Readback} (h : (r[0]?.bind fun block => block[0]?) = none)
    (g : Generation) : r.file g.statusReads g.statusRegister = 0 := by
  have hword : r.word 0 0 = 0 := by
    rw [Readback.word]
    cases hblock : r[0]? with
    | none => rfl
    | some block =>
      rw [hblock, Option.bind_some] at h
      rw [Option.getD_some, h, Option.getD_none]
  cases g with
  | rkv => exact (Rkv.file_statusReads r).1.trans hword
  | vdpu34x => exact (Vdpu34x.file_statusReads r).1.trans hword

/-- The decoded status is that of the registers which the reads of the batch name, a readback of
another shape is decoded with zeros for the words it has not, and without the status word the task
has failed. -/
theorem decodeStatus_reports (g : Generation) :
    (∀ m image patches,
        (g.decodeStatus (m.readback (g.queue image patches).reads)).Reports g m) ∧
      (∀ r image patches,
        (g.decodeStatus r).Reports g (r.file (g.queue image patches).reads)) ∧
      ∀ r : Readback, (r[0]?.bind fun block => block[0]?) = none →
        (g.decodeStatus r).hardError = true := by
  refine ⟨fun m image patches => ?_, fun r image patches => ?_, fun r hmissing => ?_⟩
  · rw [reads_queue]
    refine (g.reports_decodeStatus _).congr fun reg hreg => ?_
    exact Readback.file_readback m (g.reached_outcomeRegisters reg hreg)
  · rw [reads_queue]
    exact g.reports_decodeStatus r
  · refine (g.reports_decodeStatus r).hardError.2 (.inl ?_)
    rw [file_statusRegister hmissing]
    exact Nat.zero_testBit _

/-- A readback whose first block is empty. -/
theorem decodeStatus_reports_missing :
    (([[], [0, 0, 0, 0, 0, 0]] : Readback)[0]?.bind fun block => block[0]?) = none ∧
      (rkv.decodeStatus [[], [0, 0, 0, 0, 0, 0]]).hardError = true :=
  ⟨rfl, (decodeStatus_reports .rkv).2.2 _ rfl⟩

end Generation

end VideoAccel
