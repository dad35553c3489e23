import Mathlib.Order.Monotone.Defs
import VideoAccel.Frame.Table
import VideoAccel.Proofs.Auxiliary.Scratch
import VideoAccel.Proofs.Frame.Strides

namespace VideoAccel

theorem or_one_eq (n : Nat) : n ||| 1 = 2 * (n / 2) + 1 := by
  have hdiv : (n ||| 1) / 2 = n / 2 := by
    rw [Nat.or_div_two]
    exact Nat.or_zero _
  have hmod : (n ||| 1) % 2 = 1 := Nat.or_mod_two_eq_one.2 (.inr rfl)
  rw [← Nat.div_add_mod (n ||| 1) 2, hdiv, hmod]

namespace AlignmentClass

/-- The strides that a class asks for. -/
def Admits (c : AlignmentClass) (stride : Nat) : Prop :=
  match c with
  | .align16 => 16 ∣ stride
  | .align64 => 64 ∣ stride
  | .odd256 => ∃ k, stride = 256 * (2 * k + 1)

theorem stride_odd256 (width : Nat) :
    odd256.stride width = 256 * (2 * (ceilDiv width 256 / 2) + 1) := by
  have hunits : ceilDiv width 256 * 256 ||| 256 = (ceilDiv width 256 ||| 1) * 256 := by
    have hshift : (ceilDiv width 256 ||| 1) <<< 8 = ceilDiv width 256 <<< 8 ||| 1 <<< 8 :=
      Nat.shiftLeft_or_distrib
    simpa only [Nat.shiftLeft_eq] using hshift.symm
  rw [Nat.mul_comm, ← or_one_eq, ← hunits]
  rfl

theorem isLeast_stride (c : AlignmentClass) (width : Nat) :
    IsLeast {stride | c.Admits stride ∧ width ≤ stride} (c.stride width) := by
  cases c with
  | align16 => exact isLeast_alignUp width (by decide)
  | align64 => exact isLeast_alignUp width (by decide)
  | odd256 =>
    refine ⟨⟨⟨_, stride_odd256 width⟩, le_stride .odd256 width⟩, ?_⟩
    rintro _ ⟨⟨k, rfl⟩, hfits⟩
    -- an odd number of units that is enough is not below the even number next to the least
    have hunits : ceilDiv width 256 ≤ 2 * k + 1 :=
      (isLeast_ceilDiv width (by decide)).2 (hfits.trans_eq (Nat.mul_comm ..))
    rw [stride_odd256]
    omega

theorem stride_mono (c : AlignmentClass) : Monotone c.stride := by
  intro width width' h
  obtain ⟨hadmits, hfits⟩ := (c.isLeast_stride width').1
  exact (c.isLeast_stride width).2 ⟨hadmits, Nat.le_trans h hfits⟩

theorem stride_stride (c : AlignmentClass) (width : Nat) :
    c.stride (c.stride width) = c.stride width := by
  apply Nat.le_antisymm
  · exact (c.isLeast_stride _).2 ⟨(c.isLeast_stride width).1.1, Nat.le_refl _⟩
  · exact c.le_stride _

end AlignmentClass

/-- The strides of the frame hold its samples, and its sizes are whole numbers. -/
structure Frame.Measured (f : Frame) : Prop where
  row : f.resolution.width * f.bytesPerSample ≤ f.horStride
  samples : f.bitDepth ≤ 16 → f.resolution.width * f.bitDepth.toNat ≤ 8 * f.horStride
  units : 256 ∣ f.lumaSize
  rows : f.resolution.height * f.horStride ≤ f.lumaSize
  exact : f.pictureSize * f.chroma.sampleRatio.2 = f.lumaSize * f.chroma.sampleRatio.1

theorem Frame.measured_aligned (f : Frame) (c : AlignmentClass) : (f.aligned c).Measured where
  row := c.le_stride _
  samples := by
    intro hdepth
    have hbytes : f.bitDepth.toNat ≤ 8 * f.bytesPerSample := by
      have hle : f.bitDepth.toNat ≤ 16 := hdepth
      unfold bytesPerSample
      split
      · omega
      · rename_i hshallow
        exact Nat.le_of_not_lt hshallow
    have hrow := Nat.mul_le_mul_left f.resolution.width hbytes
    have hstride := c.le_stride (f.resolution.width * f.bytesPerSample)
    calc f.resolution.width * f.bitDepth.toNat
        ≤ f.resolution.width * (8 * f.bytesPerSample) := hrow
      _ = 8 * (f.resolution.width * f.bytesPerSample) := Nat.mul_left_comm ..
      _ ≤ 8 * (f.aligned c).horStride := Nat.mul_le_mul_left 8 hstride
  units := f.dvd_lumaSize_aligned c
  rows := by
    rw [Nat.mul_comm]
    exact Nat.mul_le_mul_left _ (le_alignUp f.resolution.height (by decide))
  exact := by
    have heven : 2 ∣ (f.aligned c).lumaSize :=
      Nat.dvd_trans (by decide) (f.dvd_lumaSize_aligned c)
    have hratio : ∀ chroma : ChromaFormat, chroma.sampleRatio.2 ∣ 2 := by
      rintro (_ | _ | _ | _) <;> decide
    exact Nat.div_mul_cancel (Nat.dvd_mul_right_of_dvd (Nat.dvd_trans (hratio _) heven) _)

/-- What callers do with a frame table. -/
inductive TableEvent
  | insertFrame (slot : Nat) (f : Frame)
  | removeFrame (slot : Nat)
  | insertPacket (slot : Nat) (p : Packet)
  | withAlignment (c : AlignmentClass)

namespace FrameTable

/-- One event. A slot that no array can have stays without an entry. -/
def step (t : FrameTable) : TableEvent → FrameTable
  | .insertFrame slot f => (t.insertFrame? slot f).getD t
  | .removeFrame slot => t.removeFrame slot
  | .insertPacket slot p => (t.insertPacket? slot p).getD t
  | .withAlignment c => t.withAlignment c

def run (events : List TableEvent) (t : FrameTable) : FrameTable := events.foldl step t

/-- All frames of the table have strides that hold them. -/
def Measured (t : FrameTable) : Prop := ∀ entry ∈ t.frames.entries, entry.2.Measured

theorem Measured.step {t : FrameTable} (h : t.Measured) (event : TableEvent) :
    (t.step event).Measured := by
  have hremove : ∀ slot, (t.removeFrame slot).Measured :=
    fun slot entry hentry => h entry (List.mem_of_mem_filter hentry)
  cases event with
  | insertFrame slot f =>
    rw [FrameTable.step, insertFrame?]
    split
    · exact List.forall_mem_cons.2 ⟨f.measured_aligned t.alignment, hremove slot⟩
    · exact h
  | removeFrame slot => exact hremove slot
  | insertPacket slot p =>
    rw [FrameTable.step, insertPacket?]
    split <;> exact h
  | withAlignment c => exact h

theorem measured_run (events : List TableEvent) {t : FrameTable} (h : t.Measured) :
    (t.run events).Measured := by
  induction events generalizing t with
  | nil => exact h
  | cons event events ih => exact ih (h.step event)

/-- The stride of a row is the least one that the class admits, so it grows with the row and a row
of that length keeps it; every frame that is stored, under whatever classes, has strides that hold
it and sizes without a remainder. -/
theorem strides_tight :
    (∀ (c : AlignmentClass) (width : Nat),
      IsLeast {stride | c.Admits stride ∧ width ≤ stride} (c.stride width)) ∧
      (∀ c : AlignmentClass, Monotone c.stride) ∧
      (∀ (c : AlignmentClass) (width : Nat), c.stride (c.stride width) = c.stride width) ∧
      ∀ (events : List TableEvent) (slot : Nat) (f : Frame),
        (run events {}).frame? slot = some f → f.Measured := by
  refine ⟨AlignmentClass.isLeast_stride, AlignmentClass.stride_mono, AlignmentClass.stride_stride,
    fun events slot f hf => ?_⟩
  have hmeasured : (run events {}).Measured := measured_run events nofun
  exact hmeasured (slot, f) (mem_of_lookup hf)

def sampleEvents : List TableEvent :=
  [.insertFrame 2 { resolution := ⟨1920, 1080⟩, bitDepth := 10, chroma := .yuv422 },
    .withAlignment .odd256, .insertFrame 2 { resolution := ⟨1920, 1080⟩ }, .insertPacket 0 {}]

theorem strides_tight_fullHd :
    ∃ f, (run sampleEvents {}).frame? 2 = some f ∧ f.horStride = 2304 ∧ f.Measured ∧
      f.pictureSize = 3760128 := by
  obtain ⟨-, -, -, hmeasured⟩ := strides_tight
  have hfound : ((run sampleEvents {}).frame? 2).isSome = true := by decide
  obtain ⟨f, hf⟩ := Option.isSome_iff_exists.1 hfound
  have hsizes : ((run sampleEvents {}).frame? 2).map (fun f => (f.horStride, f.pictureSize)) =
      some (2304, 3760128) := by decide +kernel
  rw [hf] at hsizes
  obtain ⟨hstride, hsize⟩ := Prod.mk.inj (Option.some.inj hsizes)
  exact ⟨f, hf, hstride, hmeasured sampleEvents 2 f hf, hsize⟩

end FrameTable

end VideoAccel
