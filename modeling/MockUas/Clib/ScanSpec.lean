import MockUas.Clib.Scan

namespace clib

/-- Where a needle first occurs in a string. -/
def infixIdx (needle : Bytes) : Bytes → Option Nat
  | [] => none
  | b :: bytes => if needle.isPrefixOf (b :: bytes) then some 0 else (infixIdx needle bytes).map (· + 1)

/-- The string starts with the name, up to letter case. -/
def startsWithCase (name s : Bytes) : Bool := (name.map tolower).isPrefixOf (s.map tolower)

private theorem takeWhile_nul_cons {b : UInt8} {bytes : Bytes} (hb : b ≠ NUL) :
    (b :: bytes).takeWhile (· != NUL) = b :: bytes.takeWhile (· != NUL) := by
  simp [hb]

private theorem mem_tail_of_ne {b : UInt8} {bytes : Bytes} (hb : b ≠ NUL) (h : NUL ∈ b :: bytes) :
    NUL ∈ bytes := by
  rcases List.mem_cons.mp h with he | htail
  · exact absurd he.symm hb
  · exact htail

/-- On a terminated array `strchr` finds the first occurrence in the C string. -/
theorem strchr_eq {array : Bytes} {i : Nat} {c : UInt8} (h : Terminated array i) (hc : c ≠ NUL) :
    strchr array i c = ok (((cstr array i).findIdx? (· == c)).map (i + ·)) := by
  unfold strchr cstr Terminated at *
  generalize array.drop i = bytes at h ⊢
  induction bytes generalizing i with
  | nil => simp at h
  | cons b bytes ih =>
    by_cases hbc : b = c
    · subst hbc
      simp [strchrFrom, takeWhile_nul_cons hc, List.findIdx?_cons]
    · by_cases hb : b = NUL
      · simp [strchrFrom, hb, Ne.symm hc]
      · rw [takeWhile_nul_cons hb, strchrFrom, if_neg hbc, if_neg hb, ih (mem_tail_of_ne hb h),
          List.findIdx?_cons]
        simp only [beq_iff_eq, hbc, if_false, Option.map_map]
        congr 2
        funext k
        simp only [Function.comp_apply]
        omega

private theorem isPrefixOf_takeWhile_nul {needle : Bytes} (bytes : Bytes) (hneedle : NUL ∉ needle) :
    needle.isPrefixOf (bytes.takeWhile (· != NUL)) = needle.isPrefixOf bytes := by
  induction needle generalizing bytes with
  | nil => simp
  | cons c needle ih =>
    cases bytes with
    | nil => simp
    | cons b bytes =>
      have hc : c ≠ NUL := fun he => hneedle (by simp [he])
      by_cases hb : b = NUL
      · have hcb : (c == NUL) = false := by simpa using hc
        rw [hb, List.isPrefixOf_cons_cons, hcb]
        simp
      · rw [takeWhile_nul_cons hb, List.isPrefixOf_cons_cons, List.isPrefixOf_cons_cons,
          ih _ (fun hmem => hneedle (by simp [hmem]))]

/-- On a terminated array `strstr` finds the first occurrence in the C string. -/
theorem strstr_eq {array needle : Bytes} {i : Nat} (h : Terminated array i)
    (hneedle : NUL ∉ needle) (hne : needle ≠ []) :
    strstr array i needle = ok ((infixIdx needle (cstr array i)).map (i + ·)) := by
  unfold strstr cstr Terminated at *
  generalize array.drop i = bytes at h ⊢
  induction bytes generalizing i with
  | nil => simp at h
  | cons b bytes ih =>
    by_cases hb : b = NUL
    · obtain ⟨c, rest, rfl⟩ := List.exists_cons_of_ne_nil hne
      have hc : c ≠ NUL := fun he => hneedle (by simp [he])
      simp [strstrFrom, hb, hc, infixIdx]
    · have hsame := isPrefixOf_takeWhile_nul (b :: bytes) hneedle
      rw [takeWhile_nul_cons hb] at hsame ⊢
      by_cases hp : needle.isPrefixOf (b :: bytes)
      · simp [strstrFrom, infixIdx, hsame, hp]
      · rw [strstrFrom, if_neg hp, if_neg hb, ih (mem_tail_of_ne hb h), infixIdx, hsame, if_neg hp]
        simp only [Option.map_map]
        congr 2
        funext k
        simp only [Function.comp_apply]
        omega

theorem skipWhile_eq {test : UInt8 → Bool} {array : Bytes} {i : Nat} (h : Terminated array i)
    (htest : test NUL = false) :
    skipWhile test array i = ok (i + ((cstr array i).takeWhile test).length) := by
  unfold skipWhile cstr Terminated at *
  generalize array.drop i = bytes at h ⊢
  induction bytes generalizing i with
  | nil => simp at h
  | cons b bytes ih =>
    by_cases hb : b = NUL
    · simp [skipWhileFrom, hb, htest]
    · rw [takeWhile_nul_cons hb, skipWhileFrom]
      cases hskip : test b with
      | false => simp [hskip]
      | true =>
        simp only [if_true, List.takeWhile_cons, hskip, List.length_cons]
        rw [ih (mem_tail_of_ne hb h)]
        congr 1
        omega

/-- A bounded skip that starts and may stop inside the C string looks at that string only. -/
theorem skipUntil_eq {test : UInt8 → Bool} {array : Bytes} {i stop : Nat} (h : Terminated array i)
    (hstop : stop ≤ i + (cstr array i).length) :
    skipUntil test stop array i = ok (i + (((cstr array i).take (stop - i)).takeWhile test).length) := by
  unfold skipUntil cstr Terminated at *
  generalize array.drop i = bytes at *
  induction bytes generalizing i with
  | nil => simp at h
  | cons b bytes ih =>
    by_cases hlt : i < stop
    · by_cases hb : b = NUL
      · simp [hb] at hstop
        omega
      · rw [takeWhile_nul_cons hb] at hstop ⊢
        have hpred : stop - i = (stop - (i + 1)) + 1 := by omega
        rw [hpred, List.take_succ_cons, skipUntilFrom]
        cases hskip : test b with
        | false => simp [hskip]
        | true =>
          simp only [hlt, true_and, if_true, List.takeWhile_cons, hskip, List.length_cons] at hstop ⊢
          rw [ih (mem_tail_of_ne hb h) (by omega)]
          congr 1
          omega
    · have hzero : stop - i = 0 := by omega
      simp [skipUntilFrom, hlt, hzero]

@[simp] theorem startsWithCase_nil (s : Bytes) : startsWithCase [] s = true := by
  simp [startsWithCase]

@[simp] theorem startsWithCase_cons_nil (c : UInt8) (name : Bytes) :
    startsWithCase (c :: name) [] = false := by
  simp [startsWithCase]

@[simp] theorem startsWithCase_cons_cons (c b : UInt8) (name s : Bytes) :
    startsWithCase (c :: name) (b :: s) = (tolower c == tolower b && startsWithCase name s) := by
  simp [startsWithCase, List.isPrefixOf_cons_cons]

private theorem strncasecmpFrom_eq {bytes name : Bytes} (h : NUL ∈ bytes) (hname : NUL ∉ name.map tolower) :
    strncasecmpFrom bytes name = ok (startsWithCase name (bytes.takeWhile (· != NUL))) := by
  induction name generalizing bytes with
  | nil => cases bytes <;> simp [strncasecmpFrom]
  | cons c name ih =>
    have hc : tolower c ≠ NUL := fun he => hname (by simp [he])
    cases bytes with
    | nil => simp at h
    | cons b bytes =>
      by_cases hb : b = NUL
      · have hne : tolower b ≠ tolower c := by
          rw [hb]
          exact fun he => hc he.symm
        rw [strncasecmpFrom, if_neg hne]
        simp [hb]
      · rw [takeWhile_nul_cons hb, strncasecmpFrom]
        by_cases hbc : tolower b = tolower c
        · rw [if_pos hbc, ih (mem_tail_of_ne hb h) (fun hmem => hname (List.mem_cons_of_mem _ hmem))]
          simp [hbc]
        · have hcb : (tolower c == tolower b) = false := by simpa using fun he => hbc he.symm
          rw [if_neg hbc, startsWithCase_cons_cons, hcb, Bool.false_and]

theorem strncasecmpEq_eq {array name : Bytes} {i : Nat} (h : Terminated array i)
    (hname : NUL ∉ name.map tolower) :
    strncasecmpEq array i name = ok (startsWithCase name (cstr array i)) :=
  strncasecmpFrom_eq h hname

private theorem strncmpFrom_eq {bytes text : Bytes} (h : NUL ∈ bytes) (htext : NUL ∉ text) :
    strncmpFrom bytes text = ok (text.isPrefixOf (bytes.takeWhile (· != NUL))) := by
  induction text generalizing bytes with
  | nil => cases bytes <;> simp [strncmpFrom]
  | cons c text ih =>
    have hc : c ≠ NUL := fun he => htext (by simp [he])
    cases bytes with
    | nil => simp at h
    | cons b bytes =>
      by_cases hb : b = NUL
      · have hne : b ≠ c := by
          rw [hb]
          exact fun he => hc he.symm
        rw [strncmpFrom, if_neg hne]
        simp [hb]
      · rw [takeWhile_nul_cons hb, strncmpFrom]
        by_cases hbc : b = c
        · rw [if_pos hbc, ih (mem_tail_of_ne hb h) (fun hmem => htext (by simp [hmem]))]
          simp [hbc]
        · have hcb : (c == b) = false := by simpa using fun he => hbc he.symm
          rw [if_neg hbc, List.isPrefixOf_cons_cons, hcb, Bool.false_and]

theorem strncmpEq_eq {array text : Bytes} {i : Nat} (h : Terminated array i) (htext : NUL ∉ text) :
    strncmpEq array i text = ok (text.isPrefixOf (cstr array i)) :=
  strncmpFrom_eq h htext

/-- The number `atoi` reads at the start of a string. -/
def number (s : Bytes) : Int :=
  let sign := (s.dropWhile isspace).head?
  let digits := if sign = some 45 ∨ sign = some 43 then (s.dropWhile isspace).tail else s.dropWhile isspace
  let n := decimal (digits.takeWhile isdigit)
  if sign = some 45 then intCast (sizeMax - min n (2 ^ 63)) else intCast (min n (2 ^ 63 - 1))

theorem drop_length_takeWhile (test : UInt8 → Bool) (s : Bytes) : s.drop (s.takeWhile test).length = s.dropWhile test := by
  have hcut := congrArg (List.drop (s.takeWhile test).length) (List.takeWhile_append_dropWhile (p := test) (l := s))
  rwa [List.drop_left, eq_comm] at hcut

/-- The byte a pointer into a C string points at. -/
theorem getElem?_of_terminated {array : Bytes} {i : Nat} (h : Terminated array i) :
    array[i]? = some ((cstr array i).head?.getD NUL) := by
  have hlt := h.lt_length
  rw [List.getElem?_eq_getElem hlt, cstr, List.drop_eq_getElem_cons hlt, List.takeWhile_cons]
  by_cases hnul : array[i] = NUL
  · simp [hnul]
  · simp [hnul]

theorem take_drop_eq_take_cstr {array : Bytes} {i k : Nat} (hle : k ≤ (cstr array i).length) :
    (array.drop i).take k = (cstr array i).take k := by
  obtain ⟨behind, hbehind⟩ : cstr array i <+: array.drop i := List.takeWhile_prefix _
  rw [← hbehind, List.take_append_of_le_length hle]

/-- Reading a number never leaves a terminated array, whatever is read. -/
theorem atoi_eq_number {array : Bytes} {i : Nat} (h : Terminated array i) :
    atoi array i = ok (number (cstr array i)) := by
  have hspace := skipWhile_eq h (by decide : isspace NUL = false)
  have hstarts := (List.takeWhile_prefix (l := cstr array i) isspace).length_le
  have hstart := h.add hstarts
  have htext : cstr array (i + ((cstr array i).takeWhile isspace).length) = (cstr array i).dropWhile isspace := by
    rw [cstr_add hstarts, drop_length_takeWhile]
  have hsign := getElem?_of_terminated hstart
  rw [htext] at hsign
  simp only [atoi, hspace, bind_ok, hsign, deref_some, number]
  generalize i + ((cstr array i).takeWhile isspace).length = start at *
  generalize (cstr array i).dropWhile isspace = text at *
  have hdigits : ∀ {first : Nat}, Terminated array first →
      ∃ stop, skipWhile isdigit array first = ok stop ∧
        (array.drop first).take (stop - first) = (cstr array first).takeWhile isdigit := by
    intro first hfirst
    refine ⟨_, skipWhile_eq hfirst (by decide), ?_⟩
    have hdigits_first := List.takeWhile_prefix (l := cstr array first) isdigit
    rw [Nat.add_sub_cancel_left, take_drop_eq_take_cstr hdigits_first.length_le]
    exact (List.prefix_iff_eq_take.mp hdigits_first).symm
  cases text with
  | nil =>
    obtain ⟨stop, hstop, hread⟩ := hdigits hstart
    have hminus : ¬ NUL = 45 := by decide
    have hplus : ¬ NUL = 43 := by decide
    simp [hminus, hplus, hstop, hread, htext]
  | cons b tail =>
    by_cases hsigned : b = 45 ∨ b = 43
    · have htail : cstr array (start + 1) = tail := by
        rw [cstr_add (by rw [htext]; simp), htext]
        rfl
      obtain ⟨stop, hstop, hread⟩ := hdigits (hstart.add (k := 1) (by rw [htext]; simp))
      simp [hsigned, hstop, hread, htail]
    · obtain ⟨stop, hstop, hread⟩ := hdigits hstart
      simp [hsigned, hstop, hread, htext]

theorem atoi_succeeds {array : Bytes} {i : Nat} (h : Terminated array i) :
    ∃ value, atoi array i = ok value :=
  ⟨_, atoi_eq_number h⟩

theorem takeWhile_append_of_all {test : UInt8 → Bool} {front rest : Bytes}
    (hfront : ∀ b ∈ front, test b = true) (hrest : ∀ b ∈ rest.head?, test b = false) :
    (front ++ rest).takeWhile test = front := by
  rw [List.takeWhile_append_of_pos hfront]
  cases rest with
  | nil => simp
  | cons b rest =>
    have hstop : test b = false := hrest b rfl
    simp [hstop]

/-- What ends a run of bytes also ends it where more bytes follow. -/
theorem takeWhile_append_stop {test : UInt8 → Bool} (front rest : Bytes) {c : UInt8} (hc : test c = false) :
    (front ++ c :: rest).takeWhile test = front.takeWhile test := by
  induction front with
  | nil => simp [hc]
  | cons b front ih => simp only [List.cons_append, List.takeWhile_cons, ih]

/-- A number ends in front of the CR that ends its line. -/
theorem number_before_cr {front : Bytes} (rest : Bytes) (hfront : front.dropWhile isspace ≠ []) :
    number (front ++ CR :: rest) = number front := by
  obtain ⟨b, tail, hcons⟩ := List.exists_cons_of_ne_nil hfront
  have hdrop : (front ++ CR :: rest).dropWhile isspace = b :: (tail ++ CR :: rest) := by
    rw [List.dropWhile_append, hcons]
    rfl
  have hdigit : isdigit CR = false := rfl
  rw [number, number, hdrop, hcons]
  by_cases hsign : some b = some 45 ∨ some b = some 43
  · simp only [List.head?_cons, eq_true hsign, if_true, List.tail_cons, takeWhile_append_stop tail rest hdigit]
  · have hdigits := takeWhile_append_stop (b :: tail) rest hdigit
    rw [List.cons_append] at hdigits
    simp only [List.head?_cons, eq_false hsign, if_false, hdigits]

/-- Where there is only space, the number is looked for behind it. -/
theorem number_skip {front : Bytes} (rest : Bytes) (hfront : front.dropWhile isspace = []) :
    number (front ++ rest) = number rest := by
  have hdrop : (front ++ rest).dropWhile isspace = rest.dropWhile isspace := by
    rw [List.dropWhile_append, hfront]
    rfl
  rw [number, number, hdrop]

private theorem plain_of_isdigit {b : UInt8} (h : isdigit b = true) : isspace b = false ∧ ¬ (b = 45 ∨ b = 43) := by
  simp only [isdigit, Bool.and_eq_true, decide_eq_true_eq, UInt8.le_iff_toNat_le] at h
  have hlow : 48 ≤ b.toNat := h.1
  refine ⟨?_, ?_⟩
  · simp only [isspace, Bool.or_eq_false_iff, Bool.and_eq_false_iff, beq_eq_false_iff_ne, decide_eq_false_iff_not,
      UInt8.le_iff_toNat_le]
    refine ⟨?_, .inr fun hle => ?_⟩
    · rintro rfl
      exact absurd hlow (by decide)
    · have hhigh : b.toNat ≤ 13 := hle
      omega
  · rintro (rfl | rfl)
    · exact absurd hlow (by decide)
    · exact absurd hlow (by decide)

/-- What is read of a string that starts with digits. -/
theorem number_of_digits {front rest : Bytes} (hne : front ≠ []) (hfront : ∀ b ∈ front, isdigit b = true)
    (hrest : ∀ b ∈ rest.head?, isdigit b = false) :
    number (front ++ rest) = intCast (min (decimal front) (2 ^ 63 - 1)) := by
  obtain ⟨b, tail, hcons⟩ := List.exists_cons_of_ne_nil hne
  have hplain := plain_of_isdigit (hfront b (by simp [hcons]))
  have hdrop : (front ++ rest).dropWhile isspace = front ++ rest := by
    rw [hcons, List.cons_append, List.dropWhile_cons, hplain.1, if_neg Bool.false_ne_true]
  have hhead : (front ++ rest).head? = some b := by rw [hcons, List.cons_append, List.head?_cons]
  have hsign : ¬ (some b = some 45 ∨ some b = some 43) := by simpa using hplain.2
  simp only [number, hdrop, hhead, if_neg hsign, takeWhile_append_of_all hfront hrest]
  rw [if_neg fun h45 => hsign (.inl h45)]

/-- What `atoi` reads of a string that starts with digits. -/
theorem atoi_eq {array front rest : Bytes} {i : Nat} (h : Terminated array i) (hcstr : cstr array i = front ++ rest)
    (hne : front ≠ []) (hfront : ∀ b ∈ front, isdigit b = true) (hrest : ∀ b ∈ rest.head?, isdigit b = false) :
    atoi array i = ok (intCast (min (decimal front) (2 ^ 63 - 1))) := by
  rw [atoi_eq_number h, hcstr, number_of_digits hne hfront hrest]

/-- A number is less than the power of ten with as many zeros as it has digits. -/
theorem decimal_lt {front : Bytes} (h : ∀ b ∈ front, isdigit b = true) : decimal front < 10 ^ front.length := by
  suffices hfold : ∀ n, front.foldl (fun n b => 10 * n + (b.toNat - 48)) n < (n + 1) * 10 ^ front.length by
    have hzero := hfold 0
    rwa [Nat.zero_add, Nat.one_mul] at hzero
  induction front with
  | nil => simp
  | cons b front ih =>
    intro n
    have hb : b.toNat ≤ 57 := by
      have hdigit := h b List.mem_cons_self
      simp only [isdigit, Bool.and_eq_true, decide_eq_true_eq, UInt8.le_iff_toNat_le] at hdigit
      exact hdigit.2
    have hrest := ih (fun c hc => h c (List.mem_cons_of_mem b hc)) (10 * n + (b.toNat - 48))
    have hstep : (10 * n + (b.toNat - 48) + 1) * 10 ^ front.length ≤ (10 * (n + 1)) * 10 ^ front.length :=
      Nat.mul_le_mul_right _ (by omega)
    rw [List.foldl_cons, List.length_cons, Nat.pow_succ']
    calc front.foldl (fun n b => 10 * n + (b.toNat - 48)) (10 * n + (b.toNat - 48))
        < (10 * n + (b.toNat - 48) + 1) * 10 ^ front.length := hrest
      _ ≤ (10 * (n + 1)) * 10 ^ front.length := hstep
      _ = (n + 1) * (10 * 10 ^ front.length) := by rw [Nat.mul_comm 10, Nat.mul_assoc]

end clib
