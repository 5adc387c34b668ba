import MockUas.Message.Scanner

open clib

namespace mock_uas.sip_message

def COLON : UInt8 := 58

/-- The header names the server asks for. -/
def HEADER_NAMES : List Bytes :=
  [HEADER_NAME_CALL_ID, HEADER_NAME_FROM, HEADER_NAME_TO, HEADER_NAME_VIA, HEADER_NAME_CSEQ,
    HEADER_NAME_MAX_FORWARDS, HEADER_NAME_CONTENT_LENGTH]

/-- A header line: a name, blanks, a colon, blanks and a value. -/
structure Field where
  name : Bytes
  before : Bytes
  after : Bytes
  value : Bytes
  field_name : FieldName name
  blanks : ∀ b ∈ before ++ after, is_blank b = true
  no_nul : NUL ∉ value
  one_line : ¬ CRLF <:+: value
  start : ∀ b ∈ value.head?, is_blank b = false

def Field.line (field : Field) : Bytes := field.name ++ field.before ++ COLON :: (field.after ++ field.value)

/-- Where the value starts in a line that starts at an offset. -/
def Field.value_start (field : Field) (start : Nat) : Nat :=
  start + (field.name.length + field.before.length + 1 + field.after.length)

/-- A message: a first line, header lines, a blank line and a body. -/
structure SipText where
  first : Bytes
  fields : List Field
  body : Bytes
  first_line : ¬ CRLF <:+: first
  no_nul : NUL ∉ first ∧ NUL ∉ body

def SipText.bytes (message : SipText) : Bytes :=
  joined (message.first :: message.fields.map Field.line ++ [[]]) ++ message.body

/-- The value of the first header line with the name, over lines of which the first has offset
`start`: its offset and its length. -/
def value_in (header_name : Bytes) : Nat → List Field → Option (Nat × Nat)
  | _, [] => none
  | start, field :: fields =>
    if same_name header_name field.name then some (field.value_start start, field.value.length)
    else value_in header_name (start + field.line.length + 2) fields

/-- What a header lookup is to answer. -/
def SipText.value (message : SipText) (header_name : Bytes) : Option (Nat × Nat) :=
  value_in header_name (message.first.length + 2) message.fields

/-- Nothing in front of the header asked for starts with its name, nor does anything at all where
there is no such header, and its value starts with no colon. -/
structure Unmistakable (message : SipText) (header_name : Bytes) : Prop where
  first : startsWithCase header_name message.first = false
  fields : ∀ field ∈ message.fields.takeWhile (fun field => !same_name header_name field.name),
    startsWithCase header_name field.name = false
  value : ∀ field ∈ message.fields.find? (fun field => same_name header_name field.name),
    field.value.head? ≠ some COLON
  body : message.fields.find? (fun field => same_name header_name field.name) = none →
    ∀ line ∈ crlfLines message.body, startsWithCase header_name line = false

theorem fieldName_of_mem {header_name : Bytes} (h : header_name ∈ HEADER_NAMES) : FieldName header_name := by
  have hall : HEADER_NAMES.all (fun name => name != [] &&
      name.all (fun b => b != NUL && b != CR && b != LF && !is_separator b)) = true := by decide
  have hplain := List.all_eq_true.mp hall header_name h
  rw [Bool.and_eq_true] at hplain
  exact fieldName_of_all (by simpa using hplain.1) hplain.2

private theorem separators {gap : Bytes} (h : ∀ b ∈ gap, is_blank b = true) :
    ∀ b ∈ gap, is_separator b = true := by
  intro b hb
  have hblank := h b hb
  simp only [is_blank, SPACE, Bool.or_eq_true, beq_iff_eq] at hblank
  rcases hblank with rfl | rfl <;> rfl

private theorem Field.line_eq (field : Field) :
    ∃ gap, field.line = field.name ++ gap ++ field.value ∧ (∀ b ∈ gap, is_separator b = true) ∧
      gap.length = field.before.length + 1 + field.after.length ∧ gap ≠ [] := by
  refine ⟨field.before ++ COLON :: field.after, ?_, ?_, ?_, ?_⟩
  · simp [line]
  · have hblanks := separators field.blanks
    intro b hb
    rcases List.mem_append.mp hb with hb | hb
    · exact hblanks b (List.mem_append_left _ hb)
    · rcases List.mem_cons.mp hb with rfl | hb
      · rfl
      · exact hblanks b (List.mem_append_right _ hb)
  · simp only [List.length_append, List.length_cons]
    omega
  · simp

private theorem starts_line_iff {header_name : Bytes} (hname : FieldName header_name) (field : Field) :
    startsWithCase header_name field.line = startsWithCase header_name field.name := by
  obtain ⟨gap, hline, hgap, -, hne⟩ := field.line_eq
  obtain ⟨b, gap', rfl⟩ := List.exists_cons_of_ne_nil hne
  rw [hline, List.append_assoc]
  exact hname.startsWithCase_before (hgap b List.mem_cons_self)

private theorem length_of_same_name {name name' : Bytes} (h : same_name name name' = true) :
    name.length = name'.length ∧ startsWithCase name name' = true := by
  have heq : name.map tolower = name'.map tolower := by simpa [same_name] using h
  have hlength : name.length = name'.length := by simpa using congrArg List.length heq
  have hstarts := (@same_name_iff _ _ [] hlength).mp h
  rw [List.append_nil] at hstarts
  exact ⟨hlength, hstarts⟩

private theorem le_of_value_in {header_name : Bytes} {fields : List Field} {start value length : Nat}
    (h : value_in header_name start fields = some (value, length)) : start ≤ value := by
  induction fields generalizing start with
  | nil => cases h
  | cons field fields ih =>
    rw [value_in] at h
    split at h
    · obtain ⟨rfl, rfl⟩ := Prod.mk.inj (Option.some.inj h)
      rw [Field.value_start]
      omega
    · have hle := ih h
      omega

/-- What a line that starts with the name takes from the lines behind it. -/
private theorem headerIn_ne_behind {header_name line : Bytes} (hstarts : startsWithCase header_name line = true)
    (start : Nat) (lines : List Bytes) (fields : List Field) :
    headerIn header_name start (line :: lines) ≠ value_in header_name (start + line.length + 2) fields := by
  intro heq
  have hlength := length_le_of_startsWithCase hstarts
  have hskip := (List.takeWhile_prefix (l := line.drop header_name.length) is_separator).length_le
  rw [List.length_drop] at hskip
  rw [headerIn, if_pos hstarts] at heq
  have hle := le_of_value_in heq.symm
  omega

/-- The line of the header asked for gives its value, unless this starts with a colon. -/
private theorem headerIn_same_iff {header_name : Bytes} {field : Field}
    (hname : FieldName header_name) (hsame : same_name header_name field.name = true) (start : Nat) (lines : List Bytes) :
    headerIn header_name start (field.line :: lines) = some (field.value_start start, field.value.length) ↔
      field.value.head? ≠ some COLON := by
  obtain ⟨hlength, hstarts⟩ := length_of_same_name hsame
  obtain ⟨gap, hline, hgap, hgap_length, -⟩ := field.line_eq
  have hskip : (field.line.drop header_name.length).takeWhile is_separator =
      gap ++ field.value.takeWhile is_separator := by
    rw [hline, hlength, List.append_assoc, List.drop_left, List.takeWhile_append_of_pos hgap]
  have hline_length : field.line.length = header_name.length + gap.length + field.value.length := by
    rw [hline, hlength, List.length_append, List.length_append]
  rw [headerIn, if_pos ((starts_line_iff hname field).trans hstarts), hskip, List.length_append, hline_length,
    Option.some.injEq, Prod.mk.injEq, Field.value_start]
  have hstart := field.start
  cases hvalue : field.value with
  | nil => simp; omega
  | cons b value =>
    rw [hvalue] at hstart
    have hblank := hstart b rfl
    by_cases hcolon : b = COLON
    · subst hcolon
      simp [is_separator, COLON]
      omega
    · have hplain : is_separator b = false := by
        simp only [is_blank, SPACE, Bool.or_eq_false_iff] at hblank
        have hne : (b == 58) = false := by simpa [COLON] using hcolon
        simp [is_separator, hne, hblank]
      simp [hplain, hcolon]
      omega

/-- The scanner's answer over the header lines, the blank line and the lines of the body. -/
private theorem headerIn_fields_iff {header_name : Bytes} (hname : FieldName header_name) (fields : List Field)
    (start : Nat) (body : List Bytes) :
    headerIn header_name start (fields.map Field.line ++ [] :: body) = value_in header_name start fields ↔
      (∀ field ∈ fields.takeWhile (fun field => !same_name header_name field.name),
        startsWithCase header_name field.name = false) ∧
      (∀ field ∈ fields.find? (fun field => same_name header_name field.name), field.value.head? ≠ some COLON) ∧
      (fields.find? (fun field => same_name header_name field.name) = none →
        ∀ line ∈ body, startsWithCase header_name line = false) := by
  induction fields generalizing start with
  | nil =>
    obtain ⟨c, name, hcons⟩ := List.exists_cons_of_ne_nil hname.nonempty
    have hblank : startsWithCase header_name [] = false := by rw [hcons, startsWithCase_cons_nil]
    rw [List.map_nil, List.nil_append, value_in, headerIn_eq_none_iff, List.forall_mem_cons]
    simp [hblank]
  | cons field fields ih =>
    rw [List.map_cons, List.cons_append, value_in]
    cases hsame : same_name header_name field.name with
    | true =>
      rw [if_pos rfl, headerIn_same_iff hname hsame]
      simp [hsame]
    | false =>
      rw [if_neg Bool.false_ne_true, List.takeWhile_cons, List.find?_cons]
      simp only [hsame, Bool.not_false, if_true, List.forall_mem_cons]
      cases hstarts : startsWithCase header_name field.name with
      | true =>
        have hne := headerIn_ne_behind ((starts_line_iff hname field).trans hstarts) start
          (fields.map Field.line ++ [] :: body) fields
        simp [hne]
      | false =>
        have hline := (starts_line_iff hname field).trans hstarts
        have hskip : headerIn header_name start (field.line :: (fields.map Field.line ++ [] :: body)) =
            headerIn header_name (start + field.line.length + 2) (fields.map Field.line ++ [] :: body) := by
          rw [headerIn, hline, if_neg Bool.false_ne_true]
        rw [hskip, ih]
        simp

private theorem Field.one_line_line (field : Field) : infixIdx CRLF field.line = none := by
  obtain ⟨gap, hline, hgap, -, -⟩ := field.line_eq
  have hcr : CR ∉ field.name ++ gap := by
    intro hmem
    rcases List.mem_append.mp hmem with hmem | hmem
    · exact (field.field_name.plain CR hmem).2.1 rfl
    · exact absurd (hgap CR hmem) (by decide)
  rw [hline]
  refine infixIdx_append (infixIdx_of_not_mem hcr) ?_ (.inl fun hlast => hcr (List.mem_of_getLast? hlast))
  exact (infixIdx_eq_none_iff (by decide)).mpr field.one_line

private theorem Field.no_nul_line (field : Field) : NUL ∉ field.line := by
  obtain ⟨gap, hline, hgap, -, -⟩ := field.line_eq
  rw [hline]
  intro hmem
  rcases List.mem_append.mp hmem with hmem | hmem
  · rcases List.mem_append.mp hmem with hmem | hmem
    · exact (field.field_name.plain NUL hmem).1 rfl
    · exact absurd (hgap NUL hmem) (by decide)
  · exact field.no_nul hmem

theorem SipText.nul_not_mem (message : SipText) : NUL ∉ message.bytes := by
  have hcrlf : NUL ∉ CRLF := by decide
  intro hmem
  rcases List.mem_append.mp hmem with hmem | hmem
  · obtain ⟨line, hline, hmem⟩ := List.mem_flatMap.mp hmem
    have hnul : NUL ∈ line := by
      rcases List.mem_append.mp hmem with hmem | hmem
      · exact hmem
      · exact (hcrlf hmem).elim
    rcases List.mem_cons.mp hline with rfl | hline
    · exact message.no_nul.1 hnul
    · rcases List.mem_append.mp hline with hline | hline
      · obtain ⟨field, -, rfl⟩ := List.mem_map.mp hline
        exact field.no_nul_line hnul
      · rw [List.mem_singleton.mp hline] at hnul
        cases hnul
  · exact message.no_nul.2 hmem

/-- The lines of a message: those it is made of, and those of its body. -/
theorem SipText.crlfLines_bytes (message : SipText) :
    crlfLines message.bytes = message.first :: (message.fields.map Field.line ++ [] :: crlfLines message.body) := by
  rw [bytes, crlfLines_joined_append]
  · simp
  · intro line hline
    rcases List.mem_cons.mp hline with rfl | hline
    · exact (infixIdx_eq_none_iff (by decide)).mpr message.first_line
    · rcases List.mem_append.mp hline with hline | hline
      · obtain ⟨field, -, rfl⟩ := List.mem_map.mp hline
        exact field.one_line_line
      · rw [List.mem_singleton.mp hline]
        rfl

/-- A header lookup answers with the header's own value exactly for an unmistakable message. -/
theorem header_lookup_iff (message : SipText) (rest header_name : Bytes) (hmem : header_name ∈ HEADER_NAMES)
    (hbound : (message.bytes ++ NUL :: rest).length < sizeMax) :
    get_header_value (message.bytes ++ NUL :: rest) header_name = ok (message.value header_name) ↔
      Unmistakable message header_name := by
  have hname := fieldName_of_mem hmem
  obtain ⟨hcstr, hterm⟩ := cstr_text message.nul_not_mem rest
  rw [get_header_value_eq hname.plainName hbound hterm, hcstr, message.crlfLines_bytes, Except.ok.injEq, SipText.value]
  cases hfirst : startsWithCase header_name message.first with
  | true =>
    have hne := headerIn_ne_behind hfirst 0 (message.fields.map Field.line ++ [] :: crlfLines message.body) message.fields
    rw [Nat.zero_add] at hne
    constructor
    · exact fun heq => absurd heq hne
    · intro hunmistakable
      rw [hunmistakable.first] at hfirst
      cases hfirst
  | false =>
    rw [headerIn, hfirst, if_neg Bool.false_ne_true, Nat.zero_add, headerIn_fields_iff hname]
    constructor
    · rintro ⟨hfields, hvalue, hbody⟩
      exact ⟨hfirst, hfields, hvalue, hbody⟩
    · intro hunmistakable
      exact ⟨hunmistakable.fields, hunmistakable.value, hunmistakable.body⟩

/-- A header line 'name: value' with a value of visible characters. -/
def plain_field (name value : Bytes)
    (hname : name.all (fun b => b != NUL && b != CR && b != LF && !is_separator b) = true) (hne : name ≠ [])
    (hvalue : value.all (33 ≤ ·) = true) : Field where
  name := name
  before := []
  after := [SPACE]
  value := value
  field_name := fieldName_of_all hne hname
  blanks b hb := by
    rw [List.nil_append, List.mem_singleton] at hb
    rw [hb]
    rfl
  no_nul hmem := absurd (List.all_eq_true.mp hvalue NUL hmem) (by decide)
  one_line := by
    rw [← infixIdx_eq_none_iff (by decide)]
    exact infixIdx_of_not_mem fun hmem => absurd (List.all_eq_true.mp hvalue CR hmem) (by decide)
  start b hb := by
    have hvisible := List.all_eq_true.mp hvalue b (List.mem_of_head? hb)
    cases hblank : is_blank b with
    | false => rfl
    | true =>
      simp only [is_blank, SPACE, Bool.or_eq_true, beq_iff_eq] at hblank
      rcases hblank with rfl | rfl <;> cases hvisible

/-- A message with a To header behind one for another name. -/
def addressed (other : Bytes) (hname : other.all (fun b => b != NUL && b != CR && b != LF && !is_separator b) = true)
    (hne : other ≠ []) : SipText where
  first := ascii "BYE sip:a SIP/2.0"
  fields := [plain_field other (ascii "x") hname hne (by decide),
    plain_field HEADER_NAME_TO (ascii "b") (by decide) (by decide) (by decide)]
  body := ascii "To: c\r\n"
  first_line := by
    rw [← infixIdx_eq_none_iff (by decide)]
    rfl
  no_nul := by decide

theorem to_behind_from_found :
    get_header_value ((addressed HEADER_NAME_FROM (by decide) (by decide)).bytes ++ [NUL]) HEADER_NAME_TO =
      ok ((addressed HEADER_NAME_FROM (by decide) (by decide)).value HEADER_NAME_TO) := by
  refine (header_lookup_iff (addressed HEADER_NAME_FROM (by decide) (by decide)) [] HEADER_NAME_TO (by decide)
    (by decide +kernel)).mpr ⟨by decide, ?_, ?_, ?_⟩
  · intro field hfield
    rw [List.mem_singleton.mp (show field ∈ [plain_field HEADER_NAME_FROM (ascii "x") _ _ _] from hfield)]
    rfl
  · rintro field ⟨⟩
    decide
  · intro hnone
    cases hnone

theorem to_behind_topology_lost :
    ¬ ∀ (message : SipText) (rest header_name : Bytes), header_name ∈ HEADER_NAMES →
      (message.bytes ++ NUL :: rest).length < sizeMax →
      get_header_value (message.bytes ++ NUL :: rest) header_name = ok (message.value header_name) := by
  intro hall
  have hexact := hall (addressed (ascii "Topology") (by decide) (by decide)) [] HEADER_NAME_TO (by decide)
    (by decide +kernel)
  have htaken : get_header_value ((addressed (ascii "Topology") (by decide) (by decide)).bytes ++ [NUL])
      HEADER_NAME_TO = ok (some (21, 9)) := by decide +kernel
  rw [htaken] at hexact
  exact absurd hexact (by decide)

end mock_uas.sip_message
