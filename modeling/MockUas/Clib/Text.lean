import MockUas.Clib.Scan

namespace clib

/-- The C string a pointer into an array points to. A scan that leaves the array faults. -/
def text (array : Bytes) (i : Nat) : Result Bytes :=
  if NUL ∈ array.drop i then ok (cstr array i) else error .outOfBounds

/-- The C string a pointer that may be `NULL` points to. -/
def textAt (array : Bytes) : Option Nat → Result Bytes
  | none => error .nullPointer
  | some i => text array i

/-- The C string of an optional argument, kept apart from `NULL` for the callee to test. -/
def textArg (array : Bytes) : Option Nat → Result (Option Bytes)
  | none => ok none
  | some i => do ok (some (← text array i))

/-- `strncmp(a, b, n) == 0`, on the contents of two C strings. -/
def strncmp (a b : Bytes) (n : Nat) : Bool := a.take n == b.take n

/-- What `%.*s` prints of a C string. A negative precision counts as none. -/
def precision (p : Int) (s : Bytes) : Bytes := if p < 0 then s else s.take p.toNat

/-- What `%d` prints of a number that is not negative. -/
def digits (n : Nat) : Bytes := (Nat.toDigits 10 n).map fun c => UInt8.ofNat c.toNat

/-- The contents of a `char[capacity + 1]` that holds a C string. -/
structure Text (capacity : Nat) where
  bytes : Bytes
  fits : bytes.length ≤ capacity
  clean : NUL ∉ bytes
  deriving DecidableEq

/-- What `snprintf` leaves of an output in a `char[capacity + 1]`. -/
def printed (capacity : Nat) (output : Bytes) : Text capacity where
  bytes := (output.takeWhile (· != NUL)).take capacity
  fits := List.length_take_le _ _
  clean h := absurd (List.mem_takeWhile_imp (List.mem_of_mem_take h)) (by simp)

/-- `snprintf(array, array.length, ...)`: the output is cut to leave room for the NUL
that ends it, and the bytes behind that NUL stay. -/
def snprintf (array output : Bytes) : Bytes :=
  output.take (array.length - 1) ++ NUL :: array.drop (min output.length (array.length - 1) + 1)

theorem text_eq {array : Bytes} {i : Nat} (h : Terminated array i) : text array i = ok (cstr array i) :=
  if_pos h

private theorem toNat_of_isDigit {c : Char} (h : c.isDigit = true) :
    (UInt8.ofNat c.toNat).toNat = c.toNat ∧ 48 ≤ c.toNat ∧ c.toNat ≤ 57 := by
  simp only [Char.isDigit, Bool.and_eq_true, decide_eq_true_eq] at h
  obtain ⟨hlow, hhigh⟩ := h
  have hlow' : 48 ≤ c.toNat := hlow
  have hhigh' : c.toNat ≤ 57 := hhigh
  exact ⟨by rw [UInt8.toNat_ofNat']; omega, hlow', hhigh'⟩

theorem isdigit_digits {n : Nat} {b : UInt8} (h : b ∈ digits n) : isdigit b = true := by
  obtain ⟨c, hc, rfl⟩ := List.mem_map.mp h
  obtain ⟨hsame, hlow, hhigh⟩ := toNat_of_isDigit (Nat.isDigit_of_mem_toDigits (by decide) (by decide) hc)
  simp only [isdigit, Bool.and_eq_true, decide_eq_true_eq, UInt8.le_iff_toNat_le, hsame]
  exact ⟨hlow, hhigh⟩

/-- What `%d` prints is read as the number again. -/
theorem decimal_digits (n : Nat) : decimal (digits n) = n := by
  have hread : ∀ (cs : List Char) (k : Nat), (∀ c ∈ cs, c.isDigit = true) →
      (cs.map fun c => UInt8.ofNat c.toNat).foldl (fun n b => 10 * n + (b.toNat - 48)) k = Nat.ofDigitChars 10 cs k := by
    intro cs
    induction cs with
    | nil => exact fun _ _ => rfl
    | cons c cs ih =>
      intro k hcs
      have hsame := (toNat_of_isDigit (hcs c List.mem_cons_self)).1
      rw [List.map_cons, List.foldl_cons, hsame, ih _ fun c hc => hcs c (List.mem_cons_of_mem _ hc)]
      rfl
  rw [decimal, digits, hread _ 0 fun c hc => Nat.isDigit_of_mem_toDigits (by decide) (by decide) hc]
  exact Nat.ofDigitChars_ten_toDigits

theorem nul_not_mem_cstr (array : Bytes) (i : Nat) : NUL ∉ cstr array i := by
  intro h
  exact absurd (List.mem_takeWhile_imp h) (by simp)

theorem strncmp_eq_true_iff {a b : Bytes} {n : Nat} : strncmp a b n = true ↔ a.take n = b.take n := by
  simp [strncmp]

@[simp] theorem strncmp_self (a : Bytes) (n : Nat) : strncmp a a n = true := by
  simp [strncmp]

/-- A C string cut by a precision is the start of that string. -/
theorem precision_eq_take (p : Int) (s : Bytes) : ∃ n, precision p s = s.take n := by
  unfold precision
  split
  · exact ⟨s.length, (List.take_length).symm⟩
  · exact ⟨_, rfl⟩

theorem nul_not_mem_precision {p : Int} {s : Bytes} (h : NUL ∉ s) : NUL ∉ precision p s := by
  obtain ⟨n, hn⟩ := precision_eq_take p s
  rw [hn]
  exact fun hmem => h (List.mem_of_mem_take hmem)

/-- A precision that is a small word prints that many bytes of a longer string. -/
theorem precision_of_small {n : Nat} {s : Bytes} (h : n < 2 ^ 31) : precision (intCast n) s = s.take n := by
  rw [precision, intCast_of_small h, if_neg (by omega), Int.toNat_natCast]

/-- A precision that wrapped prints the whole of a string that is shorter than it. -/
theorem precision_of_recorded {n : Nat} {s : Bytes} (h : Recorded n) (hs : s.length < 2 ^ 31) :
    precision (intCast n) s = s.take n := by
  rcases h with hsmall | ⟨hlow, hhigh⟩
  · exact precision_of_small hsmall
  · rw [precision, if_pos (intCast_of_wrapped hlow hhigh), List.take_of_length_le]
    unfold sizeMax at hlow
    omega

theorem bytes_printed (capacity : Nat) {output : Bytes} (h : NUL ∉ output) :
    (printed capacity output).bytes = output.take capacity := by
  have hall : output.takeWhile (· != NUL) = output := by
    rw [List.takeWhile_eq_self_iff]
    intro b hb
    have hne : b ≠ NUL := fun he => h (he ▸ hb)
    simpa using hne
  simp [printed, hall]

theorem Text.ext {capacity : Nat} {a b : Text capacity} (h : a.bytes = b.bytes) : a = b := by
  obtain ⟨bytes, fits, clean⟩ := a
  obtain ⟨bytes', fits', clean'⟩ := b
  obtain rfl : bytes = bytes' := h
  rfl

/-- Printing what was printed, with the same precision, changes nothing. -/
theorem printed_printed (capacity : Nat) (p : Int) {s : Bytes} (h : NUL ∉ s) :
    printed capacity (precision p (printed capacity (precision p s)).bytes) =
      printed capacity (precision p s) := by
  apply Text.ext
  have hinner := bytes_printed capacity (nul_not_mem_precision (p := p) h)
  have houter := bytes_printed capacity
    (nul_not_mem_precision (p := p) (printed capacity (precision p s)).clean)
  rw [houter, hinner]
  unfold precision
  split
  · rw [List.take_take, Nat.min_self]
  · simp only [List.take_take]
    congr 1
    omega

theorem length_snprintf {array output : Bytes} (h : array ≠ []) :
    (snprintf array output).length = array.length := by
  have hpos := List.length_pos_iff.mpr h
  simp only [snprintf, List.length_append, List.length_take, List.length_cons, List.length_drop]
  omega

/-- An output that fits is in the array in full. -/
theorem take_snprintf {array output : Bytes} (h : output.length < array.length) :
    (snprintf array output).take output.length = output := by
  rw [snprintf, List.take_of_length_le (l := output) (by omega)]
  simp

/-- Of an output the array holds what leaves room for the NUL, as a string. -/
theorem cstr_snprintf (array : Bytes) {output : Bytes} (hclean : NUL ∉ output) :
    cstr ((snprintf array output).take output.length) 0 = output.take (array.length - 1) := by
  have hfront : ∀ b ∈ output.take (array.length - 1), (b != NUL) = true := by
    intro b hb
    have hne : b ≠ NUL := fun he => hclean (he ▸ List.mem_of_mem_take hb)
    simpa using hne
  rw [snprintf, List.take_append, List.take_of_length_le (List.length_take_le' _ _), cstr, List.drop_zero,
    List.takeWhile_append_of_pos hfront]
  cases output.length - (output.take (array.length - 1)).length with
  | zero => simp
  | succ k => simp

end clib
