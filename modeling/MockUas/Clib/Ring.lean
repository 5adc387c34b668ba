import Mathlib.Tactic.Ring

namespace clib

variable {A : Type}

/-- The `count` entries of a circular array from index `front` on. -/
def window (entries : List A) (front count : Nat) : List (Option A) :=
  (List.range count).map fun i => entries[(front + i) % entries.length]?

@[simp] theorem window_zero (entries : List A) (front : Nat) : window entries front 0 = [] := rfl

@[simp] theorem length_window (entries : List A) (front count : Nat) : (window entries front count).length = count := by
  simp [window]

theorem window_succ (entries : List A) (front count : Nat) :
    window entries front (count + 1) = window entries front count ++ [entries[(front + count) % entries.length]?] := by
  simp [window, List.range_succ]

/-- The first entry of a window is followed by the window that starts behind it. -/
theorem window_succ_first (entries : List A) (front count : Nat) :
    window entries front (count + 1) =
      entries[front % entries.length]? :: window entries ((front + 1) % entries.length) count := by
  rw [window, List.range_succ_eq_map, List.map_cons, List.map_map, Nat.add_zero]
  refine congrArg _ (List.map_congr_left fun i _ => ?_)
  rw [Function.comp_apply, Nat.mod_add_mod, Nat.succ_eq_add_one, Nat.add_assoc, Nat.add_comm i]

private theorem ring_index_ne {n front i count : Nat} (hi : i < count) (hcount : count < n) :
    (front + i) % n ≠ (front + count) % n := by
  intro heq
  have hzero := Nat.sub_mod_eq_zero_of_mod_eq heq.symm
  have hdiff : front + count - (front + i) = count - i := by omega
  rw [hdiff, Nat.mod_eq_of_lt (by omega)] at hzero
  omega

/-- Writing behind a window leaves the window as it is. -/
theorem window_set (entries : List A) (front count : Nat) (a : A) (hroom : count < entries.length) :
    window (entries.set ((front + count) % entries.length) a) front count = window entries front count := by
  refine List.map_congr_left fun i hi => ?_
  rw [List.length_set, List.getElem?_set_ne (ring_index_ne (List.mem_range.mp hi) hroom).symm]

/-- Writing behind a window makes it one entry longer. -/
theorem window_push (entries : List A) (front count : Nat) (a : A) (hroom : count < entries.length) :
    window (entries.set ((front + count) % entries.length) a) front (count + 1) =
      window entries front count ++ [some a] := by
  have hin : (front + count) % entries.length < entries.length := Nat.mod_lt _ (by omega)
  rw [window_succ, window_set entries front count a hroom, List.length_set, List.getElem?_set_self hin]

end clib
