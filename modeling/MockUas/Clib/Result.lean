import Mathlib.Tactic.Ring

namespace clib

/-- The ways a C execution leaves the language's defined behaviour. A loop whose
fuel runs out is kept apart, so that a result also says the loop ended. -/
inductive Fault where
  | outOfBounds
  | useAfterFree
  | nullPointer
  | outOfFuel
  deriving DecidableEq, Repr

/-- The outcome of running a C function: a value, or the first fault. -/
abbrev Result := Except Fault

export Except (ok error)

theorem bind_eq_ok_iff {A B : Type} {x : Result A} {f : A → Result B} {y : B} :
    (x >>= f) = ok y ↔ ∃ a, x = ok a ∧ f a = ok y := by
  cases x <;> simp [Bind.bind, Except.bind]

@[simp] theorem bind_ok {A B : Type} (a : A) (f : A → Result B) : ((ok a : Result A) >>= f) = f a := rfl

@[simp] theorem bind_error {A B : Type} (e : Fault) (f : A → Result B) :
    ((error e : Result A) >>= f) = error e := rfl

@[simp] theorem pure_eq_ok {A : Type} (a : A) : (pure a : Result A) = ok a := rfl

/-- How a computation ends: with a value that satisfies `post`, or with a fault, which
then implies `cause`. -/
def Ends {A : Type} (x : Result A) (cause : Prop) (post : A → Prop) : Prop :=
  match x with
  | ok a => post a
  | error _ => cause

theorem Ends.of_eq_ok {A : Type} {x : Result A} {cause : Prop} {post : A → Prop} {a : A}
    (h : Ends x cause post) (hx : x = ok a) : post a := by
  rw [hx] at h
  exact h

theorem Ends.of_eq_error {A : Type} {x : Result A} {cause : Prop} {post : A → Prop} {fault : Fault}
    (h : Ends x cause post) (hx : x = error fault) : cause := by
  rw [hx] at h
  exact h

theorem Ends.imp {A : Type} {x : Result A} {cause : Prop} {post post' : A → Prop} (h : Ends x cause post)
    (hpost : ∀ a, post a → post' a) : Ends x cause post' := by
  cases x with
  | ok a => exact hpost a h
  | error fault => exact h

/-- The fault of a computation that has one. -/
def faultOf {A : Type} : Result A → Option Fault
  | ok _ => none
  | error fault => some fault

theorem faultOf_eq_some_iff {A : Type} {x : Result A} {fault : Fault} :
    faultOf x = some fault ↔ x = error fault := by
  cases x <;> simp [faultOf]

theorem eq_ok_of_toOption {A : Type} {x : Result A} {a : A} (h : x.toOption = some a) : x = ok a := by
  cases x with
  | ok b => exact congrArg ok (Option.some.inj h)
  | error fault => cases h

/-- A pointer that C tests for `NULL` only where the source does. -/
def deref {A : Type} : Option A → Result A
  | some a => ok a
  | none => error .nullPointer

@[simp] theorem deref_some {A : Type} (a : A) : deref (some a) = ok a := rfl

theorem deref_eq_ok_iff {A : Type} {o : Option A} {a : A} : deref o = ok a ↔ o = some a := by
  cases o <;> simp [deref]

/-- `size_t` arithmetic wraps at the word size of the target. -/
def sizeMax : Nat := 2 ^ 64

/-- The unsigned difference of two addresses in one array, as C stores it in a `size_t`. -/
def sizeSub (a b : Nat) : Nat := (a + (sizeMax - b % sizeMax)) % sizeMax

theorem sizeSub_eq {a b : Nat} (hle : b ≤ a) (hbound : a < sizeMax) : sizeSub a b = a - b := by
  unfold sizeSub sizeMax at *
  omega

theorem sizeSub_wrap {a b : Nat} (hlt : a < b) (hbound : b < sizeMax) :
    sizeSub a b = sizeMax - (b - a) := by
  unfold sizeSub sizeMax at *
  omega

/-- The cast `(int)n` of an unsigned word, which keeps the low 32 bits. -/
def intCast (n : Nat) : Int :=
  if n % 2 ^ 32 < 2 ^ 31 then (n % 2 ^ 32 : Nat) else (n % 2 ^ 32 : Nat) - (2 ^ 32 : Nat)

theorem intCast_of_small {n : Nat} (hsmall : n < 2 ^ 31) : intCast n = n := by
  unfold intCast
  rw [Nat.mod_eq_of_lt (by omega), if_pos hsmall]

/-- A length that the difference of two places in a small array can give: a small one, or
one that wrapped. -/
def Recorded (n : Nat) : Prop := n < 2 ^ 31 ∨ (sizeMax - 2 ^ 31 ≤ n ∧ n < sizeMax)

theorem recorded_sizeSub {a b : Nat} (ha : a < 2 ^ 31) (hb : b < 2 ^ 31) : Recorded (sizeSub a b) := by
  unfold Recorded
  by_cases hle : b ≤ a
  · rw [sizeSub_eq hle (by unfold sizeMax; omega)]
    omega
  · rw [sizeSub_wrap (Nat.lt_of_not_le hle) (by unfold sizeMax; omega)]
    unfold sizeMax
    omega

theorem intCast_of_wrapped {n : Nat} (hlow : sizeMax - 2 ^ 31 ≤ n) (hhigh : n < sizeMax) : intCast n < 0 := by
  unfold sizeMax at hlow hhigh
  unfold intCast
  split <;> omega

end clib
