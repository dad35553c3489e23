import Mathlib.Algebra.Ring.Nat
import VideoAccel.Frame.Basic
import VideoAccel.Proofs.Rounding

namespace VideoAccel

namespace AlignmentClass

variable (c : AlignmentClass) (width : Nat)

theorem dvd_stride : 16 ∣ c.stride width := by
  cases c with
  | align16 => exact dvd_alignUp width 16
  | align64 => exact Nat.dvd_trans (by decide) (dvd_alignUp width 64)
  | odd256 =>
    -- both operands end in four zero bits
    have hlow : alignUp width 256 % 2 ^ 4 = 0 :=
      Nat.mod_eq_zero_of_dvd (Nat.dvd_trans (by decide) (dvd_alignUp width 256))
    refine Nat.dvd_of_mod_eq_zero ?_
    change (alignUp width 256 ||| 256) % 2 ^ 4 = 0
    rw [Nat.or_mod_two_pow, hlow]
    rfl

theorem le_stride : width ≤ c.stride width := by
  cases c with
  | align16 => exact le_alignUp width (by decide)
  | align64 => exact le_alignUp width (by decide)
  | odd256 => exact Nat.le_trans (le_alignUp width (by decide)) Nat.left_le_or

theorem stride_lt {k : Nat} (hk : 8 < k) (h : width + 255 < 2 ^ k) : c.stride width < 2 ^ k := by
  cases c with
  | align16 => exact Nat.lt_of_le_of_lt (alignUp_le width 16) (by omega)
  | align64 => exact Nat.lt_of_le_of_lt (alignUp_le width 64) (by omega)
  | odd256 =>
    have hround := Nat.lt_of_le_of_lt (alignUp_le width 256) h
    exact Nat.or_lt_two_pow hround (Nat.pow_lt_pow_right (by decide : 1 < 2) hk)

end AlignmentClass

namespace Frame

variable (f : Frame) (c : AlignmentClass)

theorem dvd_horStride_aligned : 16 ∣ (f.aligned c).horStride := c.dvd_stride _

theorem dvd_lumaSize_aligned : 256 ∣ (f.aligned c).lumaSize :=
  Nat.mul_dvd_mul (f.dvd_horStride_aligned c) (dvd_alignUp f.resolution.height 16)

theorem pictureSize_aligned :
    ∃ halves, 2 ≤ halves ∧ halves ≤ 6 ∧
      (f.aligned c).pictureSize = (f.aligned c).lumaSize / 2 * halves := by
  obtain ⟨n, hn⟩ := f.dvd_lumaSize_aligned c
  simp only [pictureSize, hn]
  cases (f.aligned c).chroma with
  | monochrome => exact ⟨2, by simp [ChromaFormat.sampleRatio]; omega⟩
  | yuv420 => exact ⟨3, by simp [ChromaFormat.sampleRatio]; omega⟩
  | yuv422 => exact ⟨4, by simp [ChromaFormat.sampleRatio]; omega⟩
  | yuv444 => exact ⟨6, by simp [ChromaFormat.sampleRatio]; omega⟩

theorem dvd_pictureSize_aligned : 16 ∣ (f.aligned c).pictureSize := by
  obtain ⟨halves, -, -, heq⟩ := f.pictureSize_aligned c
  obtain ⟨n, hn⟩ := f.dvd_lumaSize_aligned c
  rw [heq, hn]
  exact Nat.dvd_mul_right_of_dvd (by omega) halves

theorem pictureSize_aligned_le : (f.aligned c).pictureSize ≤ (f.aligned c).lumaSize * 3 := by
  obtain ⟨halves, -, hle, heq⟩ := f.pictureSize_aligned c
  have hhalf := Nat.mul_le_mul_left ((f.aligned c).lumaSize / 2) hle
  omega

theorem horStride_aligned_lt (h : f.resolution.width < 2 ^ 32) :
    (f.aligned c).horStride < 2 ^ 34 := by
  have hbytes : f.bytesPerSample ≤ 2 := by
    unfold bytesPerSample
    split <;> omega
  have hrow := Nat.mul_le_mul_left f.resolution.width hbytes
  exact c.stride_lt _ (by decide) (by omega)

end Frame

end VideoAccel
