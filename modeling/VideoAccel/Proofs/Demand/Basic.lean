import Mathlib.Algebra.Ring.Nat
import VideoAccel.AddressSpace
import VideoAccel.Fault
import VideoAccel.Proofs.Rounding

namespace VideoAccel

inductive Demand
  /-- The value is an unsigned number of so many bits. -/
  | word (bits value : Nat)
  /-- The value is a signed number of so many bits. -/
  | signed (bits : Nat) (value : Int)
  | difference (minuend subtrahend : Nat)
  | divisor (n : Nat)
  /-- A word of so many bits is shifted by the amount. -/
  | shift (bits amount : Nat)
  | index (length i : Nat)
  /-- The elements from `start` on and before `stop` are all there. -/
  | range (length start stop : Nat)
  /-- There can be an array of `count` elements of `width` bytes each. -/
  | array (count width : Nat)
  deriving DecidableEq, Repr

namespace Demand

def Met : Demand → Prop
  | .word bits value => value < 2 ^ bits
  | .signed bits value => -(2 ^ (bits - 1) : Nat) ≤ value ∧ value < (2 ^ (bits - 1) : Nat)
  | .difference minuend subtrahend => subtrahend ≤ minuend
  | .divisor n => n ≠ 0
  | .shift bits amount => amount < bits
  | .index length i => i < length
  | .range length start stop => start ≤ stop ∧ stop ≤ length
  | .array count width => isAddressable count width = true

instance (d : Demand) : Decidable d.Met :=
  match d with
  | .word bits value => inferInstanceAs (Decidable (value < 2 ^ bits))
  | .signed bits value =>
    inferInstanceAs (Decidable (-(2 ^ (bits - 1) : Nat) ≤ value ∧ value < (2 ^ (bits - 1) : Nat)))
  | .difference minuend subtrahend => inferInstanceAs (Decidable (subtrahend ≤ minuend))
  | .divisor n => inferInstanceAs (Decidable (n ≠ 0))
  | .shift bits amount => inferInstanceAs (Decidable (amount < bits))
  | .index length i => inferInstanceAs (Decidable (i < length))
  | .range length start stop => inferInstanceAs (Decidable (start ≤ stop ∧ stop ≤ length))
  | .array count width => inferInstanceAs (Decidable (isAddressable count width = true))

def fault : Demand → Fault
  | .word .. | .signed .. | .difference .. | .shift .. => .overflow
  | .divisor _ => .divisionByZero
  | .index .. | .range .. | .array .. => .outOfRange

end Demand

/-- The fault of the first operation that has no result. -/
def firstFault : List Demand → Option Fault
  | [] => none
  | d :: ds => if d.Met then firstFault ds else some d.fault

def AllMet (ds : List Demand) : Prop := ∀ d ∈ ds, d.Met

section

variable {d : Demand} {ds ds' : List Demand}

@[simp]
theorem allMet_nil : AllMet [] := nofun

@[simp]
theorem allMet_cons : AllMet (d :: ds) ↔ d.Met ∧ AllMet ds := List.forall_mem_cons

@[simp]
theorem allMet_append : AllMet (ds ++ ds') ↔ AllMet ds ∧ AllMet ds' := List.forall_mem_append

theorem allMet_flatMap {α : Type} {l : List α} {f : α → List Demand}
    (h : ∀ a ∈ l, AllMet (f a)) : AllMet (l.flatMap f) := by
  intro d hd
  obtain ⟨a, ha, hmem⟩ := List.mem_flatMap.1 hd
  exact h a ha d hmem

theorem allMet_map {α : Type} {l : List α} {f : α → Demand} (h : ∀ a ∈ l, (f a).Met) :
    AllMet (l.map f) := List.forall_mem_map.2 h

theorem allMet_ite {p : Prop} [Decidable p] (h : p → AllMet ds) (h' : ¬ p → AllMet ds') :
    AllMet (if p then ds else ds') := by
  by_cases hp : p
  · rw [if_pos hp]
    exact h hp
  · rw [if_neg hp]
    exact h' hp

theorem firstFault_eq_none_iff : firstFault ds = none ↔ AllMet ds := by
  induction ds with
  | nil => simp [firstFault]
  | cons d ds ih =>
    by_cases hd : d.Met
    · simp [firstFault, hd, ih]
    · simp [firstFault, hd]

theorem firstFault_of_allMet (h : AllMet ds) (ds' : List Demand) :
    firstFault (ds ++ ds') = firstFault ds' := by
  induction ds with
  | nil => rfl
  | cons d ds ih =>
    obtain ⟨hd, hds⟩ := allMet_cons.1 h
    rw [List.cons_append, firstFault, if_pos hd, ih hds]

end

def ceilDivDemands (bits n d : Nat) : List Demand := [.divisor d, .word bits (ceilDiv n d)]

def alignUpDemands (value alignment : Nat) : List Demand :=
  ceilDivDemands 64 value alignment ++ [.word 64 (alignUp value alignment)]

theorem ceilDiv_le_self (n : Nat) {d : Nat} (hd : d ≠ 0) : ceilDiv n d ≤ n := by
  cases n with
  | zero =>
    have hsmall : 0 + (d - 1) < d := by omega
    exact Nat.le_of_eq (Nat.div_eq_of_lt hsmall)
  | succ n =>
    apply Nat.div_le_of_le_mul
    have hmul : n * 1 ≤ n * d := Nat.mul_le_mul_left n (Nat.pos_of_ne_zero hd)
    rw [Nat.mul_succ, Nat.mul_comm d n]
    omega

theorem allMet_ceilDiv {bits n d : Nat} (hd : d ≠ 0) (hn : n < 2 ^ bits) :
    AllMet (ceilDivDemands bits n d) := by
  simp only [ceilDivDemands, allMet_cons, allMet_nil, and_true]
  exact ⟨hd, Nat.lt_of_le_of_lt (ceilDiv_le_self n hd) hn⟩

theorem allMet_alignUp {value alignment : Nat} (ha : alignment ≠ 0)
    (h : value + alignment ≤ 2 ^ 64) : AllMet (alignUpDemands value alignment) := by
  have hle := alignUp_le value alignment
  simp only [alignUpDemands, allMet_append, allMet_cons, allMet_nil, and_true]
  refine ⟨allMet_ceilDiv ha ?_, ?_⟩
  · omega
  · simp only [Demand.Met]
    omega

end VideoAccel
