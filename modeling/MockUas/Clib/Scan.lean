import Mathlib.Data.List.TakeWhile
import MockUas.Clib.Result

namespace clib

/-- A character array. A pointer into it is an offset. -/
abbrev Bytes := List UInt8

/-- The bytes of a source text literal. -/
def ascii (s : String) : Bytes := s.toList.map fun c => UInt8.ofNat c.toNat

def NUL : UInt8 := 0
def CR : UInt8 := 13
def LF : UInt8 := 10
def CRLF : Bytes := [CR, LF]

/-- The C string at an offset: the bytes up to the first NUL. -/
def cstr (array : Bytes) (i : Nat) : Bytes := (array.drop i).takeWhile (· != NUL)

/-- A scan from the offset meets a NUL before the array ends. -/
def Terminated (array : Bytes) (i : Nat) : Prop := NUL ∈ array.drop i

/-- `strchr` over the bytes at hand, the first of which has offset `i`. -/
def strchrFrom (c : UInt8) : Bytes → Nat → Result (Option Nat)
  | [], _ => error .outOfBounds
  | b :: bytes, i => if b = c then ok (some i) else if b = NUL then ok none else strchrFrom c bytes (i + 1)

/-- `strchr(array + i, c)`. -/
def strchr (array : Bytes) (i : Nat) (c : UInt8) : Result (Option Nat) := strchrFrom c (array.drop i) i

def strstrFrom (needle : Bytes) : Bytes → Nat → Result (Option Nat)
  | [], _ => error .outOfBounds
  | b :: bytes, i =>
    if needle.isPrefixOf (b :: bytes) then ok (some i)
    else if b = NUL then ok none else strstrFrom needle bytes (i + 1)

/-- `strstr(array + i, needle)` for a non-empty needle without NUL. -/
def strstr (array : Bytes) (i : Nat) (needle : Bytes) : Result (Option Nat) :=
  strstrFrom needle (array.drop i) i

/-- `while (test(*p)) p++` over the bytes at hand. -/
def skipWhileFrom (test : UInt8 → Bool) : Bytes → Nat → Result Nat
  | [], _ => error .outOfBounds
  | b :: bytes, i => if test b then skipWhileFrom test bytes (i + 1) else ok i

/-- `while (test(*p)) p++` from offset `i`. -/
def skipWhile (test : UInt8 → Bool) (array : Bytes) (i : Nat) : Result Nat :=
  skipWhileFrom test (array.drop i) i

def skipUntilFrom (test : UInt8 → Bool) (stop : Nat) : Bytes → Nat → Result Nat
  | [], i => if i < stop then error .outOfBounds else ok i
  | b :: bytes, i => if i < stop ∧ test b then skipUntilFrom test stop bytes (i + 1) else ok i

/-- `while (p < stop && test(*p)) p++` from offset `i`. -/
def skipUntil (test : UInt8 → Bool) (stop : Nat) (array : Bytes) (i : Nat) : Result Nat :=
  skipUntilFrom test stop (array.drop i) i

/-- `tolower` in the C locale. -/
def tolower (b : UInt8) : UInt8 := if 65 ≤ b ∧ b ≤ 90 then b + 32 else b

def strncasecmpFrom : Bytes → Bytes → Result Bool
  | _, [] => ok true
  | [], _ :: _ => error .outOfBounds
  | b :: bytes, c :: name => if tolower b = tolower c then strncasecmpFrom bytes name else ok false

/-- `strncasecmp(array + i, name, strlen(name)) == 0`. -/
def strncasecmpEq (array : Bytes) (i : Nat) (name : Bytes) : Result Bool :=
  strncasecmpFrom (array.drop i) name

def strncmpFrom : Bytes → Bytes → Result Bool
  | _, [] => ok true
  | [], _ :: _ => error .outOfBounds
  | b :: bytes, c :: text => if b = c then strncmpFrom bytes text else ok false

/-- `strncmp(array + i, text, strlen(text)) == 0` for a text literal. -/
def strncmpEq (array : Bytes) (i : Nat) (text : Bytes) : Result Bool :=
  strncmpFrom (array.drop i) text

/-- `isspace` in the C locale. -/
def isspace (b : UInt8) : Bool := b == 32 || (9 ≤ b && b ≤ 13)

def isdigit (b : UInt8) : Bool := 48 ≤ b && b ≤ 57

/-- The number a run of decimal digits denotes. -/
def decimal (digits : Bytes) : Nat := digits.foldl (fun n b => 10 * n + (b.toNat - 48)) 0

/-- `atoi(array + i)`, which is `(int)strtol(array + i, NULL, 10)`: a value out of the
range of `long` is clamped to it, and the cast keeps the low 32 bits. -/
def atoi (array : Bytes) (i : Nat) : Result Int := do
  let start ← skipWhile isspace array i
  let sign ← deref array[start]?
  let first := if sign = 45 ∨ sign = 43 then start + 1 else start
  let stop ← skipWhile isdigit array first
  let n := decimal ((array.drop first).take (stop - first))
  ok (if sign = 45 then intCast (sizeMax - min n (2 ^ 63)) else intCast (min n (2 ^ 63 - 1)))

theorem Terminated.lt_length {array : Bytes} {i : Nat} (h : Terminated array i) : i < array.length := by
  by_contra hle
  have hnil : array.drop i = [] := List.drop_eq_nil_of_le (by omega)
  simp [Terminated, hnil] at h

theorem length_cstr_lt {array : Bytes} {i : Nat} (h : Terminated array i) :
    i + (cstr array i).length < array.length := by
  have hlt : ((array.drop i).takeWhile (· != NUL)).length < (array.drop i).length := by
    have hdecomp := List.takeWhile_append_dropWhile (p := (· != NUL)) (l := array.drop i)
    have hne : (array.drop i).dropWhile (· != NUL) ≠ [] := by
      intro hnil
      have hall := List.dropWhile_eq_nil_iff.mp hnil NUL h
      simp at hall
    have hlen := congrArg List.length hdecomp
    have hpos := List.length_pos_iff.mpr hne
    rw [List.length_append] at hlen
    omega
  rw [List.length_drop] at hlt
  unfold cstr
  omega

/-- Moving a pointer inside its own string leaves the rest of that string. -/
theorem cstr_add {array : Bytes} {i k : Nat} (hle : k ≤ (cstr array i).length) :
    cstr array (i + k) = (cstr array i).drop k := by
  unfold cstr at *
  rw [← List.drop_drop]
  generalize array.drop i = bytes at *
  induction bytes generalizing k with
  | nil => simp
  | cons b bytes ih =>
    cases k with
    | zero => simp
    | succ k =>
      by_cases hb : b = NUL
      · simp [hb] at hle
      · have hb' : (b != NUL) = true := by simpa using hb
        simp only [List.takeWhile_cons, hb', if_true, List.length_cons, List.drop_succ_cons] at hle ⊢
        exact ih (by omega)

theorem getElem?_cstr {array : Bytes} {i k : Nat} (hlt : k < (cstr array i).length) :
    array[i + k]? = (cstr array i)[k]? := by
  have hstarts : cstr array i <+: array.drop i := List.takeWhile_prefix _
  rw [← List.getElem?_drop]
  obtain ⟨rest, hrest⟩ := hstarts
  rw [← hrest, List.getElem?_append_left hlt]

theorem Terminated.add {array : Bytes} {i k : Nat} (h : Terminated array i)
    (hle : k ≤ (cstr array i).length) : Terminated array (i + k) := by
  unfold Terminated cstr at *
  rw [← List.drop_drop]
  generalize array.drop i = bytes at *
  induction bytes generalizing k with
  | nil => simp at h
  | cons b bytes ih =>
    cases k with
    | zero => simpa using h
    | succ k =>
      by_cases hb : b = NUL
      · simp [hb] at hle
      · have hb' : (b != NUL) = true := by simpa using hb
        have hne : NUL ≠ b := fun he => hb he.symm
        simp only [List.takeWhile_cons, hb', if_true, List.length_cons, List.drop_succ_cons] at hle ⊢
        exact ih (by simpa [hne] using h) (by omega)

end clib
