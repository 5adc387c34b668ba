import MockUas.Message.Types

open clib

namespace mock_uas.sip_message

/-- The bytes skipped between a header's name and its value. -/
def is_separator (b : UInt8) : Bool := b == 58 || b == 32 || b == 9

/-- The line loop of `get_header_value`, from the line that starts at `line_start`.
Every turn moves past a CRLF, so the buffer's length is fuel enough. -/
def header_loop (buffer header_name : Bytes) : Nat → Nat → Result (Option (Nat × Nat))
  | 0, _ => error .outOfFuel
  | fuel + 1, line_start => do
    match ← strstr buffer line_start CRLF with
    | none => ok none
    | some line_end =>
      if ← strncasecmpEq buffer line_start header_name then
        let value_start ← skipWhile is_separator buffer (line_start + header_name.length)
        ok (some (value_start, sizeSub line_end value_start))
      else
        header_loop buffer header_name fuel (line_end + 2)

/-- The start and the `*length` of a header's value, `none` for `NULL`. -/
def get_header_value (buffer header_name : Bytes) : Result (Option (Nat × Nat)) :=
  header_loop buffer header_name (buffer.length + 1) 0

/-- The body shared by the `get_message_*` functions: a value found before is kept. -/
def get_message_header (buffer header_name : Bytes) (value : Option Nat) (value_length : Nat) :
    Result (Option (Nat × Nat)) :=
  match value with
  | some start => if 0 < value_length then ok (some (start, value_length)) else get_header_value buffer header_name
  | none => get_header_value buffer header_name

def get_message_call_id (message : sip_message_t) : Result (Option (Nat × Nat) × sip_message_t) := do
  match ← get_message_header message.buffer HEADER_NAME_CALL_ID message.call_id message.call_id_length with
  | none => ok (none, message)
  | some (call_id, length) =>
    ok (some (call_id, length), { message with call_id := some call_id, call_id_length := length })

def get_message_from (message : sip_message_t) : Result (Option (Nat × Nat) × sip_message_t) := do
  match ← get_message_header message.buffer HEADER_NAME_FROM message.from_ message.from_length with
  | none => ok (none, message)
  | some (from_, length) =>
    ok (some (from_, length), { message with from_ := some from_, from_length := length })

def get_message_to (message : sip_message_t) : Result (Option (Nat × Nat) × sip_message_t) := do
  match ← get_message_header message.buffer HEADER_NAME_TO message.to_ message.to_length with
  | none => ok (none, message)
  | some (to_, length) => ok (some (to_, length), { message with to_ := some to_, to_length := length })

def get_message_via (message : sip_message_t) : Result (Option (Nat × Nat) × sip_message_t) := do
  match ← get_message_header message.buffer HEADER_NAME_VIA message.via message.via_length with
  | none => ok (none, message)
  | some (via, length) => ok (some (via, length), { message with via := some via, via_length := length })

def get_message_cseq (message : sip_message_t) : Result (Option (Nat × Nat) × sip_message_t) := do
  match ← get_message_header message.buffer HEADER_NAME_CSEQ message.cseq message.cseq_length with
  | none => ok (none, message)
  | some (cseq, length) =>
    ok (some (cseq, length), { message with cseq := some cseq, cseq_length := length })

/-- The value of the first line that starts with the name, over lines of which the
first has offset `start`. -/
def headerIn (header_name : Bytes) : Nat → List Bytes → Option (Nat × Nat)
  | _, [] => none
  | start, line :: lines =>
    if startsWithCase header_name line then
      let skipped := header_name.length + ((line.drop header_name.length).takeWhile is_separator).length
      some (start + skipped, line.length - skipped)
    else headerIn header_name (start + line.length + 2) lines

/-- The header names the server asks for have no byte that ends a line or a string. -/
structure PlainName (header_name : Bytes) : Prop where
  nul : NUL ∉ header_name.map tolower
  cr : tolower CR ∉ header_name.map tolower

/-- A byte that is not in the name ends what is compared with it. -/
theorem startsWithCase_before {header_name line rest : Bytes} {c : UInt8}
    (hc : tolower c ∉ header_name.map tolower) :
    startsWithCase header_name (line ++ c :: rest) = startsWithCase header_name line := by
  induction header_name generalizing line with
  | nil => simp
  | cons a name ih =>
    simp only [List.map_cons, List.mem_cons, not_or] at hc
    cases line with
    | nil =>
      have hne : (tolower a == tolower c) = false := by simpa using fun he => hc.1 he.symm
      simp [hne]
    | cons b line => simp only [List.cons_append, startsWithCase_cons_cons, ih hc.2]

theorem length_le_of_startsWithCase {header_name line : Bytes} (h : startsWithCase header_name line = true) :
    header_name.length ≤ line.length := by
  have hle := (List.isPrefixOf_iff_prefix.mp h).length_le
  simpa using hle

/-- Two names are equal but for upper and lower case. -/
def same_name (name name' : Bytes) : Bool := name.map tolower == name'.map tolower

/-- A text starts with a name exactly if the part of it that is as long is the name. -/
theorem same_name_iff {name name' rest : Bytes} (hlength : name.length = name'.length) :
    same_name name name' = true ↔ startsWithCase name (name' ++ rest) = true := by
  rw [startsWithCase, List.isPrefixOf_iff_prefix, List.map_append, same_name, beq_iff_eq]
  constructor
  · intro hsame
    rw [hsame]
    exact List.prefix_append _ _
  · intro hstarts
    have hle : (name.map tolower).length = (name'.map tolower).length := by simpa using hlength
    exact (List.prefix_of_prefix_length_le hstarts (List.prefix_append _ _) hle.le).eq_of_length hle

theorem headerIn_skip {header_name : Bytes} {before : List Bytes} (start : Nat) (lines : List Bytes)
    (h : ∀ line ∈ before, startsWithCase header_name line = false) :
    headerIn header_name start (before ++ lines) = headerIn header_name (start + (joined before).length) lines := by
  induction before generalizing start with
  | nil => rfl
  | cons line before ih =>
    have hline := h line List.mem_cons_self
    rw [List.cons_append, headerIn, hline, if_neg Bool.false_ne_true,
      ih _ fun l hl => h l (List.mem_cons_of_mem _ hl)]
    congr 1
    simp only [joined_cons, List.length_append, CRLF, List.length_cons, List.length_nil]
    omega

theorem headerIn_eq_none_iff {header_name : Bytes} {start : Nat} {lines : List Bytes} :
    headerIn header_name start lines = none ↔ ∀ line ∈ lines, startsWithCase header_name line = false := by
  induction lines generalizing start with
  | nil => simp [headerIn]
  | cons line lines ih =>
    rw [headerIn, List.forall_mem_cons, ← @ih (start + line.length + 2)]
    cases startsWithCase header_name line with
    | false => simp
    | true => simp

/-- The line a value was found in: it starts with the name, no line before it does, and the
value is what the name and the separators leave of it. -/
theorem headerIn_eq_some {header_name : Bytes} {start value length : Nat} {lines : List Bytes}
    (h : headerIn header_name start lines = some (value, length)) :
    ∃ before line after, lines = before ++ line :: after ∧
      (∀ l ∈ before, startsWithCase header_name l = false) ∧ startsWithCase header_name line = true ∧
      start + (joined before).length + header_name.length ≤ value ∧
      value + length = start + (joined before).length + line.length ∧
      line.drop (value - (start + (joined before).length)) = (line.drop header_name.length).dropWhile is_separator := by
  induction lines generalizing start with
  | nil => cases h
  | cons line lines ih =>
    rw [headerIn] at h
    cases hstarts : startsWithCase header_name line with
    | false =>
      rw [hstarts, if_neg Bool.false_ne_true] at h
      obtain ⟨before, found, after, rfl, hbefore, hfound, hname, hend, htext⟩ := ih h
      have hjoined : start + (joined (line :: before)).length = start + line.length + 2 + (joined before).length := by
        simp only [joined_cons, List.length_append, CRLF, List.length_cons, List.length_nil]
        omega
      refine ⟨line :: before, found, after, rfl, ?_, hfound, ?_, ?_, ?_⟩
      · exact List.forall_mem_cons.mpr ⟨hstarts, hbefore⟩
      · omega
      · omega
      · rw [hjoined]
        exact htext
    | true =>
      rw [hstarts, if_pos rfl, Option.some.injEq, Prod.mk.injEq] at h
      obtain ⟨rfl, rfl⟩ := h
      have hname := length_le_of_startsWithCase hstarts
      have hskip := (List.takeWhile_prefix (l := line.drop header_name.length) is_separator).length_le
      rw [List.length_drop] at hskip
      refine ⟨[], line, lines, rfl, List.forall_mem_nil _, hstarts, ?_, ?_, ?_⟩
      · rw [joined, List.flatMap_nil, List.length_nil]
        omega
      · rw [joined, List.flatMap_nil, List.length_nil]
        omega
      · have hcut := congrArg (List.drop ((line.drop header_name.length).takeWhile is_separator).length)
          (List.takeWhile_append_dropWhile (p := is_separator) (l := line.drop header_name.length))
        rw [List.drop_left, List.drop_drop] at hcut
        rw [hcut, joined, List.flatMap_nil, List.length_nil]
        congr 1
        omega

/-- The line of a text that a value was found in. -/
structure FoundIn (text header_name : Bytes) (value length : Nat) (before : List Bytes) (line behind : Bytes) : Prop where
  text : text = joined before ++ (line ++ CRLF ++ behind)
  earlier : ∀ l ∈ before, infixIdx CRLF l = none ∧ startsWithCase header_name l = false
  one_line : infixIdx CRLF line = none
  starts : startsWithCase header_name line = true
  name : (joined before).length + header_name.length ≤ value
  ends : value + length = (joined before).length + line.length
  value : line.drop (value - (joined before).length) = (line.drop header_name.length).dropWhile is_separator

theorem foundIn_of_headerIn {s header_name : Bytes} {value length : Nat}
    (h : headerIn header_name 0 (crlfLines s) = some (value, length)) :
    ∃ before line behind, FoundIn s header_name value length before line behind := by
  obtain ⟨tail, htext, hlines⟩ := exists_eq_joined s
  obtain ⟨before, line, after, hcut, hbefore, hstarts, hname, hends, hvalue⟩ := headerIn_eq_some h
  rw [Nat.zero_add] at hname hends hvalue
  rw [hcut] at hlines
  refine ⟨before, line, joined after ++ tail, ?_, ?_, ?_, hstarts, hname, hends, hvalue⟩
  · rw [htext, hcut, joined_append, joined_cons]
    simp only [List.append_assoc]
  · intro l hl
    exact ⟨hlines l (List.mem_append_left _ hl), hbefore l hl⟩
  · exact hlines line (List.mem_append_right _ List.mem_cons_self)

theorem FoundIn.lengths {text header_name : Bytes} {value length : Nat} {before : List Bytes} {line behind : Bytes}
    (h : FoundIn text header_name value length before line behind) :
    text.length = value + length + 2 + behind.length := by
  have hends := h.ends
  rw [h.text]
  simp only [List.length_append, CRLF, List.length_cons, List.length_nil]
  omega

/-- The text from the value on. -/
theorem FoundIn.drop {text header_name : Bytes} {value length : Nat} {before : List Bytes} {line behind : Bytes}
    (h : FoundIn text header_name value length before line behind) :
    text.drop value = (line.drop header_name.length).dropWhile is_separator ++ (CRLF ++ behind) ∧
      ((line.drop header_name.length).dropWhile is_separator).length = length := by
  have hname := h.name
  have hends := h.ends
  have hlength := congrArg List.length h.value
  rw [List.length_drop] at hlength
  refine ⟨?_, by omega⟩
  rw [h.text, List.drop_append, List.drop_eq_nil_of_le (by omega), List.nil_append, List.append_assoc,
    List.drop_append_of_le_length (by omega), h.value]

/-- From any line on, the loop answers with the first matching line after it. -/
theorem header_loop_eq {buffer header_name : Bytes} (hname : PlainName header_name)
    (hbound : buffer.length < sizeMax) {fuel line_start : Nat}
    (hterm : Terminated buffer line_start) (hfuel : (cstr buffer line_start).length < fuel) :
    header_loop buffer header_name fuel line_start =
      ok (headerIn header_name line_start (crlfLines (cstr buffer line_start))) := by
  induction fuel generalizing line_start with
  | zero => omega
  | succ fuel ih =>
    have hsearch := strstr_eq hterm (by decide : NUL ∉ CRLF) (by decide)
    cases hidx : infixIdx CRLF (cstr buffer line_start) with
    | none => simp [header_loop, hsearch, hidx, crlfLines_of_none hidx, headerIn]
    | some k =>
      have hle := infixIdx_le hidx
      simp only [CRLF, List.length_cons, List.length_nil] at hle
      have hlines := crlfLines_of_some hidx
      have hcut := eq_line_append_of_some hidx
      have hlen : ((cstr buffer line_start).take k).length = k := by
        rw [List.length_take]
        omega
      have hmatch : startsWithCase header_name (cstr buffer line_start) =
          startsWithCase header_name ((cstr buffer line_start).take k) := by
        rw [hcut, startsWithCase_before hname.cr, ← hcut]
      have hcompare := strncasecmpEq_eq hterm hname.nul
      simp only [header_loop, hsearch, hidx, Option.map_some, bind_ok, hcompare, hmatch, hlines, headerIn]
      cases hfound : startsWithCase header_name ((cstr buffer line_start).take k) with
      | false =>
        have hnext : cstr buffer (line_start + (k + 2)) = (cstr buffer line_start).drop (k + 2) :=
          cstr_add (by omega)
        have hrec := ih (hterm.add (by omega) : Terminated buffer (line_start + (k + 2)))
          (by rw [hnext, List.length_drop]; omega)
        rw [hnext] at hrec
        simp only [Bool.false_eq_true, if_false, hlen]
        exact hrec
      | true =>
        have hname_le := length_le_of_startsWithCase hfound
        rw [hlen] at hname_le
        have hvalue := skipWhile_eq (hterm.add (k := header_name.length) (by omega))
          (by decide : is_separator NUL = false)
        have hskip : (cstr buffer (line_start + header_name.length)).takeWhile is_separator =
            (((cstr buffer line_start).take k).drop header_name.length).takeWhile is_separator := by
          rw [cstr_add (by omega), hcut, List.drop_append_of_le_length (by omega),
            takeWhile_append_stop _ _ (by decide), ← hcut]
        have hskipped := (List.takeWhile_prefix (l := ((cstr buffer line_start).take k).drop header_name.length)
          is_separator).length_le
        rw [List.length_drop, hlen] at hskipped
        have hin := length_cstr_lt hterm
        simp only [if_true, hvalue, bind_ok, hskip, hlen]
        rw [sizeSub_eq (by omega) (by omega)]
        congr 3
        · omega
        · omega

/-- The scanner ends inside the text and finds the first line that starts with the name. -/
theorem get_header_value_eq {buffer header_name : Bytes} (hname : PlainName header_name)
    (hbound : buffer.length < sizeMax) (hterm : Terminated buffer 0) :
    get_header_value buffer header_name = ok (headerIn header_name 0 (crlfLines (cstr buffer 0))) := by
  have hin := length_cstr_lt hterm
  exact header_loop_eq hname hbound hterm (by omega)

end mock_uas.sip_message
