import VideoAccel.Emission
import VideoAccel.Proofs.Bits.Packing

namespace VideoAccel

open BitField

def packRegion (capacity : Nat) (fields : List BitField) (size offset : Nat) :
    Except StepError (List Edit) :=
  match (BitWriter.ofCapacity capacity).putAll fields with
  | .error e => .error (.bits e)
  | .ok w => packedTable w size offset

section

variable {capacity size offset : Nat} {fields : List BitField} {edits : List Edit}

theorem packedTable_eq_ok {w : BitWriter} (h : packedTable w size offset = .ok edits) :
    edits = [.table offset w.bytes] := by
  simp only [packedTable, BitWriter.bytesFor] at h
  split at h
  · cases h
  split at h
  · cases h
  · rename_i hbytes
    split at hbytes
    · cases hbytes
    · cases hbytes
      exact (Except.ok.inj h).symm

theorem packedTable_mono {w : BitWriter} (h : packedTable w size offset = .ok edits)
    {size' : Nat} (hsize : size ≤ size') : packedTable w size' offset = .ok edits := by
  have hedits := packedTable_eq_ok h
  have hroom : ¬ size < offset ∧ ¬ size - offset < w.wordCount * 8 := by
    refine ⟨fun hlt => ?_, fun hlt => ?_⟩
    · rw [packedTable, if_pos hlt] at h
      cases h
    · simp only [packedTable, BitWriter.bytesFor, if_pos hlt] at h
      split at h <;> cases h
  rw [packedTable, BitWriter.bytesFor, if_neg (by omega), if_neg (by omega), hedits]

theorem packRegion_eq_ok (h : packRegion capacity fields size offset = .ok edits) :
    ∃ bytes, edits = [.table offset bytes] ∧ bytes.length = (capacity + 63) / 64 * 8 := by
  simp only [packRegion] at h
  split at h
  · cases h
  · rename_i w hw
    refine ⟨w.bytes, packedTable_eq_ok h, ?_⟩
    rw [BitWriter.length_bytes, BitWriter.wordCount_putAll hw, BitWriter.wordCount_ofCapacity]

section

variable (hchecked : ∀ f ∈ fields, f.shape.isChecked = true)
  (hroom : totalWidth fields ≤ (capacity + 63) / 64 * 64)

include hchecked hroom

theorem putAll_ofCapacity (hfits : ∀ f ∈ fields, f.Fits) :
    (BitWriter.ofCapacity capacity).putAll fields =
      .ok ((BitWriter.ofCapacity capacity).extend fields) := by
  apply BitWriter.putAll_of_fits hchecked hfits
  rwa [BitWriter.position_ofCapacity, Nat.zero_add, BitWriter.capacity,
    BitWriter.wordCount_ofCapacity]

theorem putAll_ofCapacity_of_not_fits (hfits : ¬ ∀ f ∈ fields, f.Fits) :
    ∃ f ∈ fields, ¬ f.Fits ∧
      (BitWriter.ofCapacity capacity).putAll fields = .error (.valueTooWide f.shown f.width) := by
  apply BitWriter.putAll_of_not_fits hchecked hfits
  rwa [BitWriter.position_ofCapacity, Nat.zero_add, BitWriter.capacity,
    BitWriter.wordCount_ofCapacity]

theorem bitString_extend (hfits : ∀ f ∈ fields, f.Fits) :
    bitString ((BitWriter.ofCapacity capacity).extend fields).bytes = packed fields := by
  have hput := putAll_ofCapacity hchecked hroom hfits
  obtain ⟨hvalue, -⟩ :=
    (BitWriter.isClear_ofCapacity capacity).value_of_putAll hchecked hput
  rw [BitWriter.bitString_bytes, hvalue, BitWriter.value_ofCapacity, BitWriter.position_ofCapacity,
    Nat.pow_zero, Nat.one_mul, Nat.zero_add]

theorem packedTable_of_fits (hfits : ∀ f ∈ fields, f.Fits)
    (hsize : offset + (capacity + 63) / 64 * 8 ≤ size) :
    ∃ bytes, packedTable ((BitWriter.ofCapacity capacity).extend fields) size offset =
        .ok [.table offset bytes] ∧
      bytes.length = (capacity + 63) / 64 * 8 ∧ bitString bytes = packed fields := by
  have hcount : ((BitWriter.ofCapacity capacity).extend fields).wordCount = (capacity + 63) / 64 := by
    rw [BitWriter.wordCount_extend, BitWriter.wordCount_ofCapacity]
  refine ⟨((BitWriter.ofCapacity capacity).extend fields).bytes, ?_, ?_,
    bitString_extend hchecked hroom hfits⟩
  · rw [packedTable, if_neg (by omega), BitWriter.bytesFor, hcount, if_neg (by omega)]
  · rw [BitWriter.length_bytes, hcount]

theorem packRegion_of_fits (hfits : ∀ f ∈ fields, f.Fits)
    (hsize : offset + (capacity + 63) / 64 * 8 ≤ size) :
    ∃ bytes, packRegion capacity fields size offset = .ok [.table offset bytes] ∧
      bytes.length = (capacity + 63) / 64 * 8 ∧ bitString bytes = packed fields := by
  rw [packRegion, putAll_ofCapacity hchecked hroom hfits]
  exact packedTable_of_fits hchecked hroom hfits hsize

theorem packRegion_of_not_fits (hfits : ¬ ∀ f ∈ fields, f.Fits) :
    ∃ f ∈ fields, ¬ f.Fits ∧ packRegion capacity fields size offset =
      .error (.bits (.valueTooWide f.shown f.width)) := by
  obtain ⟨f, hf, hnot, hput⟩ := putAll_ofCapacity_of_not_fits hchecked hroom hfits
  refine ⟨f, hf, hnot, ?_⟩
  rw [packRegion, hput]

theorem bitString_of_packRegion {bytes : List UInt8}
    (h : packRegion capacity fields size offset = .ok [.table offset bytes]) :
    (∀ f ∈ fields, f.Fits) ∧ bitString bytes = packed fields := by
  have hput : ∃ w, (BitWriter.ofCapacity capacity).putAll fields = .ok w ∧
      packedTable w size offset = .ok [.table offset bytes] := by
    simp only [packRegion] at h
    split at h
    · cases h
    · exact ⟨_, ‹_›, h⟩
  obtain ⟨w, hput, htable⟩ := hput
  obtain ⟨hfits, rfl⟩ := BitWriter.extend_of_putAll hchecked hput
  obtain rfl : bytes = ((BitWriter.ofCapacity capacity).extend fields).bytes := by
    simpa using packedTable_eq_ok htable
  exact ⟨hfits, bitString_extend hchecked hroom hfits⟩

end

end

end VideoAccel
