import MockUas.Clib.Run

namespace clib

/-- A first-in first-out buffer, with all it was ever given and all it ever handed out. -/
structure Fifo (A : Type) where
  accepted : List A
  handed_out : List A
  stored : List A

namespace Fifo

inductive Operation (A : Type) where
  | put (a : A)
  | take

variable {A : Type}

def empty : Fifo A := ⟨[], [], []⟩

def step (capacity : Nat) (fifo : Fifo A) : Operation A → Result (Fifo A)
  | .put a =>
    if fifo.stored.length = capacity then ok fifo
    else ok { fifo with accepted := fifo.accepted ++ [a], stored := fifo.stored ++ [a] }
  | .take =>
    match fifo.stored with
    | [] => ok fifo
    | a :: rest => ok { fifo with handed_out := fifo.handed_out ++ [a], stored := rest }

def enabled (fifo : Fifo A) : Operation A → Prop
  | .put _ => True
  | .take => fifo.stored ≠ []

/-- A buffer that holds at most `capacity` entries and refuses what comes when it is full. -/
def bounded (capacity : Nat) : Transitions (Fifo A) (Operation A) where
  initial := (· = empty)
  enabled := enabled
  step := step capacity

/-- Nothing is lost, repeated or reordered, and there is never too much. -/
structure InOrder (capacity : Nat) (fifo : Fifo A) : Prop where
  order : fifo.handed_out ++ fifo.stored = fifo.accepted
  room : fifo.stored.length ≤ capacity

theorem step_inOrder {capacity : Nat} {fifo fifo' : Fifo A} {operation : Operation A}
    (hstep : step capacity fifo operation = ok fifo') (h : InOrder capacity fifo) : InOrder capacity fifo' := by
  cases operation with
  | put a =>
    rw [step] at hstep
    split at hstep
    · exact Except.ok.inj hstep ▸ h
    · rename_i hroom
      obtain rfl := Except.ok.inj hstep
      have hle := h.room
      refine ⟨?_, ?_⟩
      · rw [← List.append_assoc, h.order]
      · rw [List.length_append, List.length_singleton]
        omega
  | take =>
    rw [step] at hstep
    split at hstep
    · exact Except.ok.inj hstep ▸ h
    · rename_i a rest hstored
      obtain rfl := Except.ok.inj hstep
      have horder := h.order
      have hle := h.room
      rw [hstored] at horder hle
      refine ⟨?_, ?_⟩
      · rwa [List.append_assoc, List.singleton_append]
      · exact Nat.le_of_succ_le hle

theorem reachable_inOrder {capacity : Nat} {fifo : Fifo A} (h : (bounded capacity).Reachable fifo) :
    InOrder capacity fifo := by
  refine h.invariant (P := InOrder capacity) ?_ fun _ _ _ _ _ hstep => step_inOrder hstep
  rintro _ rfl
  exact ⟨rfl, Nat.zero_le _⟩

end Fifo

end clib
