import Mathlib.Data.List.TakeWhile
import MockUas.Clib.Result

namespace clib

/-- A fixed array of pointers, in which `none` is `NULL`. -/
structure Slots (capacity : Nat) where
  items : List (Option Nat)
  size : items.length = capacity
  deriving DecidableEq

namespace Slots

variable {capacity : Nat}

def empty (capacity : Nat) : Slots capacity where
  items := List.replicate capacity none
  size := List.length_replicate

/-- The loop of an `add` function over the slots from index `i` on. It gives up when the
pointer is there already, and else answers with the first slot it saw free. -/
def reserve (pointer : Nat) : List (Option Nat) → Nat → Option Nat → Option (Option Nat)
  | [], _, reserved => some reserved
  | slot :: slots, i, reserved =>
    let reserved := if reserved = none ∧ slot = none then some i else reserved
    if slot = some pointer then none else reserve pointer slots (i + 1) reserved

def store (s : Slots capacity) (i : Nat) (slot : Option Nat) : Slots capacity where
  items := s.items.set i slot
  size := by rw [List.length_set, s.size]

/-- An `add` function: nothing happens when no slot is free. -/
def add (s : Slots capacity) (pointer : Nat) : Slots capacity :=
  match reserve pointer s.items 0 none with
  | some (some reserved) => s.store reserved (some pointer)
  | _ => s

/-- A `remove` function: the first slot with the pointer is set to `NULL`. -/
def remove (s : Slots capacity) (pointer : Nat) : Slots capacity :=
  match s.items.findIdx? (· == some pointer) with
  | some i => s.store i none
  | none => s

/-- How many slots hold a pointer. -/
def count (s : Slots capacity) (pointer : Nat) : Nat := s.items.count (some pointer)

/-- No slot is free. -/
def Full (s : Slots capacity) : Prop := none ∉ s.items

instance (s : Slots capacity) : Decidable s.Full := inferInstanceAs (Decidable (_ ∉ _))

private theorem reserve_eq (pointer : Nat) (slots : List (Option Nat)) (i : Nat) (reserved : Option Nat) :
    reserve pointer slots i reserved =
      if some pointer ∈ slots then none
      else some (reserved.or ((slots.findIdx? (· == none)).map (i + ·))) := by
  induction slots generalizing i reserved with
  | nil => simp [reserve]
  | cons slot slots ih =>
    rw [reserve]
    by_cases hslot : slot = some pointer
    · simp [hslot]
    · rw [if_neg hslot, ih, List.findIdx?_cons]
      have hmem : some pointer ∈ slot :: slots ↔ some pointer ∈ slots := by
        simp [List.mem_cons, Ne.symm hslot]
      simp only [hmem]
      cases reserved <;> cases slot <;>
        simp [Function.comp_def, Nat.add_assoc, Nat.add_comm 1]

theorem add_of_mem {s : Slots capacity} {pointer : Nat} (h : some pointer ∈ s.items) :
    s.add pointer = s := by
  simp [add, reserve_eq, h]

/-- An array that is full refuses a new pointer silently. -/
theorem add_of_full {s : Slots capacity} {pointer : Nat} (h : s.Full) : s.add pointer = s := by
  have hnone : s.items.findIdx? (· == none) = none := by
    rw [List.findIdx?_eq_none_iff]
    intro slot hslot
    cases slot with
    | none => exact absurd hslot h
    | some a => rfl
  rw [add, reserve_eq, hnone]
  split <;> simp_all

theorem count_eq_zero_iff {s : Slots capacity} {pointer : Nat} :
    s.count pointer = 0 ↔ some pointer ∉ s.items := List.count_eq_zero

theorem count_pos_iff {s : Slots capacity} {pointer : Nat} :
    0 < s.count pointer ↔ some pointer ∈ s.items := List.count_pos_iff

@[simp] theorem count_empty (pointer : Nat) : (empty capacity).count pointer = 0 := by
  simp [count, empty, List.count_replicate]

theorem not_full_empty (h : 0 < capacity) : ¬ (empty capacity).Full := by
  simp [Full, empty]
  omega

/-- A new pointer gets one slot, and the others keep theirs. -/
theorem count_add {s : Slots capacity} {pointer : Nat} (hfree : ¬ s.Full)
    (hnew : s.count pointer = 0) (other : Nat) :
    (s.add pointer).count other = s.count other + if other = pointer then 1 else 0 := by
  have hmem := count_eq_zero_iff.mp hnew
  have hnone : none ∈ s.items := by
    unfold Full at hfree
    exact Decidable.not_not.mp hfree
  cases hfind : s.items.findIdx? (· == none) with
  | none =>
    have hall := List.findIdx?_eq_none_iff.mp hfind none hnone
    simp at hall
  | some i =>
    obtain ⟨hi, hget, -⟩ := List.findIdx?_eq_some_iff_getElem.mp hfind
    have hslot : s.items[i] = none := by simpa using hget
    rw [add, reserve_eq, if_neg hmem, hfind]
    simp only [Option.none_or, Option.map_some, Nat.zero_add, count, store]
    rw [List.count_set hi, hslot]
    by_cases ho : other = pointer
    · simp [ho]
    · simp [ho, Ne.symm ho]

theorem count_add_of_ne {s : Slots capacity} {pointer other : Nat} (hne : other ≠ pointer) :
    (s.add pointer).count other = s.count other := by
  by_cases hmem : some pointer ∈ s.items
  · rw [add_of_mem hmem]
  · by_cases hfull : s.Full
    · rw [add_of_full hfull]
    · rw [count_add hfull (count_eq_zero_iff.mpr hmem), if_neg hne, Nat.add_zero]

theorem count_add_le_one {s : Slots capacity} {pointer : Nat} (h : s.count pointer ≤ 1) :
    (s.add pointer).count pointer ≤ 1 := by
  by_cases hmem : some pointer ∈ s.items
  · rwa [add_of_mem hmem]
  · by_cases hfull : s.Full
    · rwa [add_of_full hfull]
    · have hzero := count_eq_zero_iff.mpr hmem
      rw [count_add hfull hzero, hzero, if_pos rfl]

/-- One slot of the pointer is cleared, and the others keep theirs. -/
theorem count_remove (s : Slots capacity) (pointer other : Nat) :
    (s.remove pointer).count other = s.count other - if other = pointer then 1 else 0 := by
  unfold remove
  cases hfind : s.items.findIdx? (· == some pointer) with
  | none =>
    have hzero : some pointer ∉ s.items := by
      intro hmem
      have hall := List.findIdx?_eq_none_iff.mp hfind _ hmem
      simp at hall
    by_cases ho : other = pointer
    · simp [ho, count_eq_zero_iff.mpr hzero]
    · simp [ho]
  | some i =>
    obtain ⟨hi, hget, -⟩ := List.findIdx?_eq_some_iff_getElem.mp hfind
    have hslot : s.items[i] = some pointer := by simpa using hget
    simp only [count, store]
    rw [List.count_set hi, hslot]
    by_cases ho : other = pointer
    · simp [ho]
    · simp [ho, Ne.symm ho]

end Slots

end clib
