import VideoAccel.Proofs.Demand.Basic
import VideoAccel.Proofs.Header.Region

namespace VideoAccel

namespace BitWriter

def wordDemands (w : BitWriter) (bits : Nat) : List Demand :=
  [.index w.wordCount (w.position / 64), .shift 64 (w.position % 64),
    .word 32 (w.position % 64 + bits)]
  ++ if 64 < w.position % 64 + bits then
      [.word 64 (w.position / 64 + 1), .index w.wordCount (w.position / 64 + 1),
        .difference 64 (w.position % 64), .shift 64 (64 - w.position % 64)]
    else []

def putBitsDemands (w : BitWriter) (bits : Nat) : List Demand :=
  if 64 < bits then []
  else
    [.word 64 w.capacity, .word 64 (w.position + bits)]
    ++ if w.capacity < w.position + bits ∨ bits = 0 then []
      else
        (if bits < 64 then [.shift 64 bits, .difference (2 ^ bits) 1] else [])
        ++ w.wordDemands bits

end BitWriter

def BitField.demands (w : BitWriter) : BitField → List Demand
  | .unsigned bits value =>
    (if bits < 64 then [.shift 64 bits] else [])
    ++ if bits < 64 ∧ 2 ^ bits ≤ value then [] else w.putBitsDemands bits
  | .signed bits value =>
    if bits = 0 ∨ 64 < bits then []
    else
      (if bits < 64 then
        [.difference bits 1, .shift 64 (bits - 1), .signed 64 (-(2 ^ (bits - 1) : Nat)),
          .signed 64 ((2 ^ (bits - 1) : Nat) - 1)]
      else [])
      ++ if bits < 64 ∧ (value < -(2 ^ (bits - 1) : Nat) ∨ (2 ^ (bits - 1) : Nat) ≤ value) then []
        else w.putBitsDemands bits
  | .flag _ => w.putBitsDemands 1

namespace BitWriter

def putAllDemands (w : BitWriter) : List BitField → List Demand
  | [] => []
  | f :: fs =>
    f.demands w ++
      match f.put w with
      | .error _ => []
      | .ok w => w.putAllDemands fs

def InRoom (w : BitWriter) : Prop := w.position ≤ w.capacity ∧ w.capacity < 2 ^ 32

theorem inRoom_ofCapacity {capacity : Nat} (h : capacity ≤ 1024) :
    (ofCapacity capacity).InRoom := by
  constructor
  · exact Nat.zero_le _
  · rw [BitWriter.capacity, wordCount_ofCapacity]
    omega

variable {w w' : BitWriter}

theorem allMet_wordDemands {bits : Nat} (hroom : w.position + bits ≤ w.capacity)
    (hbits : bits ≤ 64) (hpos : bits ≠ 0) (hw : w.InRoom) : AllMet (w.wordDemands bits) := by
  obtain ⟨_, hcapacity⟩ := hw
  simp only [capacity] at hroom hcapacity
  simp only [wordDemands, allMet_append, allMet_cons, allMet_nil, and_true, Demand.Met]
  refine ⟨⟨by omega, by omega, by omega⟩, allMet_ite (fun hnext => ?_) fun _ => allMet_nil⟩
  simp only [allMet_cons, allMet_nil, and_true, Demand.Met]
  exact ⟨by omega, by omega, by omega, by omega⟩

theorem allMet_putBits (hw : w.InRoom) (bits : Nat) : AllMet (w.putBitsDemands bits) := by
  have hcapacity := hw.2
  refine allMet_ite (fun _ => allMet_nil) fun hbits => ?_
  simp only [allMet_append, allMet_cons, allMet_nil, and_true, Demand.Met]
  have hposition := hw.1
  refine ⟨⟨by omega, by omega⟩, allMet_ite (fun _ => allMet_nil) fun hroom => ?_⟩
  obtain ⟨hroom, hpos⟩ := not_or.1 hroom
  rw [allMet_append]
  constructor
  · refine allMet_ite (fun hlt => ?_) fun _ => allMet_nil
    simp only [allMet_cons, allMet_nil, and_true, Demand.Met]
    exact ⟨hlt, Nat.one_le_two_pow⟩
  · exact allMet_wordDemands (Nat.le_of_not_lt hroom) (Nat.le_of_not_lt hbits) hpos hw

theorem InRoom.put {f : BitField} (hw : w.InRoom) (h : f.put w = .ok w') : w'.InRoom := by
  obtain ⟨-, hroom, rfl⟩ := BitField.putBits_eq_ok (BitField.putBits_of_put h)
  rw [InRoom, position_append, capacity_append]
  exact ⟨hroom, hw.2⟩

end BitWriter

theorem BitField.allMet_demands {w : BitWriter} (hw : w.InRoom) (f : BitField) :
    AllMet (f.demands w) := by
  cases f with
  | unsigned bits value =>
    simp only [demands, allMet_append]
    constructor
    · exact allMet_ite (fun hlt => by simpa [Demand.Met] using hlt) fun _ => allMet_nil
    · exact allMet_ite (fun _ => allMet_nil) fun _ => BitWriter.allMet_putBits hw bits
  | signed bits value =>
    refine allMet_ite (fun _ => allMet_nil) fun hbits => ?_
    rw [allMet_append]
    constructor
    · refine allMet_ite (fun hlt => ?_) fun _ => allMet_nil
      have hpow : 2 ^ (bits - 1) ≤ 2 ^ 62 := Nat.pow_le_pow_right (by decide) (by omega)
      have hone : 1 ≤ 2 ^ (bits - 1) := Nat.one_le_two_pow
      simp only [allMet_cons, allMet_nil, and_true, Demand.Met]
      generalize 2 ^ (bits - 1) = half at hpow hone
      exact ⟨by omega, by omega, by omega, by omega⟩
    · exact allMet_ite (fun _ => allMet_nil) fun _ => BitWriter.allMet_putBits hw bits
  | flag value => exact BitWriter.allMet_putBits hw 1

theorem BitWriter.allMet_putAll {w : BitWriter} (hw : w.InRoom) (fs : List BitField) :
    AllMet (w.putAllDemands fs) := by
  induction fs generalizing w with
  | nil => exact allMet_nil
  | cons f fs ih =>
    rw [putAllDemands, allMet_append]
    refine ⟨BitField.allMet_demands hw f, ?_⟩
    split
    · exact allMet_nil
    · rename_i hput
      exact ih (hw.put hput)

theorem BitWriter.InRoom.putAll {w w' : BitWriter} {fs : List BitField} (hw : w.InRoom)
    (h : w.putAll fs = .ok w') : w'.InRoom := by
  induction fs generalizing w with
  | nil =>
    cases h
    exact hw
  | cons f fs ih =>
    simp only [BitWriter.putAll] at h
    split at h
    · cases h
    · rename_i hput
      exact ih (hw.put hput) h

def packedTableDemands (w : BitWriter) (size offset : Nat) : List Demand :=
  [.range size offset size, .word 64 (w.wordCount * 8)]
  ++ if size - offset < w.wordCount * 8 then []
    else [.range (size - offset) 0 (w.wordCount * 8)]

theorem allMet_packedTable {w : BitWriter} (hw : w.InRoom) {size offset : Nat}
    (h : offset ≤ size) : AllMet (packedTableDemands w size offset) := by
  have hcapacity := hw.2
  simp only [BitWriter.capacity] at hcapacity
  simp only [packedTableDemands, allMet_append, allMet_cons, allMet_nil, and_true, Demand.Met]
  refine ⟨⟨⟨h, Nat.le_refl size⟩, by omega⟩, allMet_ite (fun _ => allMet_nil) fun hfits => ?_⟩
  simpa [Demand.Met] using hfits

def packRegionDemands (capacity : Nat) (fields : List BitField) (size offset : Nat) :
    List Demand :=
  ceilDivDemands 64 capacity 64 ++ (BitWriter.ofCapacity capacity).putAllDemands fields ++
    match (BitWriter.ofCapacity capacity).putAll fields with
    | .error _ => []
    | .ok w => packedTableDemands w size offset

theorem allMet_packRegion {capacity size offset : Nat} (hcapacity : capacity ≤ 1024)
    (hoffset : offset ≤ size) (fields : List BitField) :
    AllMet (packRegionDemands capacity fields size offset) := by
  have hw := BitWriter.inRoom_ofCapacity hcapacity
  simp only [packRegionDemands, allMet_append]
  refine ⟨⟨allMet_ceilDiv (by decide) (by omega), BitWriter.allMet_putAll hw fields⟩, ?_⟩
  split
  · exact allMet_nil
  · rename_i hput
    exact allMet_packedTable (hw.putAll hput) hoffset

end VideoAccel
