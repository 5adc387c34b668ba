import MockUas.Message.Responses

open clib

namespace mock_uas.sip_message

/-- A value as the scanner cuts it out of a line: it has no CRLF and starts with no separator. -/
structure HeaderText (s : Bytes) : Prop where
  one_line : infixIdx CRLF s = none
  start : s.takeWhile is_separator = []

/-- What is appended to a To value: nothing, or a parameter without the bytes that end a line
or a string. -/
structure Appendable (to_tag : Bytes) : Prop where
  plain : Plain to_tag
  start : to_tag.takeWhile is_separator = []

theorem HeaderText.append {s t : Bytes} (h : HeaderText s) (ht : Appendable t) : HeaderText (s ++ t) where
  one_line := infixIdx_append h.one_line (infixIdx_of_not_mem ht.plain.1)
    (.inr fun hhead => ht.plain.2.1 (List.mem_of_head? hhead))
  start := by
    cases s with
    | nil => exact ht.start
    | cons b s =>
      have hstart := h.start
      rw [List.takeWhile_cons] at hstart
      split at hstart
      · cases hstart
      · rename_i hb
        rw [List.cons_append, List.takeWhile_cons, if_neg hb]

theorem headerText_of_line {line : Bytes} (h : infixIdx CRLF line = none) (n : Nat) :
    HeaderText ((line.drop n).dropWhile is_separator) where
  one_line := by
    rw [infixIdx_eq_none_iff (by decide)] at h ⊢
    intro hin
    exact h (hin.trans ((List.dropWhile_suffix _).trans (List.drop_suffix _ _)).isInfix)
  start := by
    rw [List.takeWhile_eq_nil_iff]
    intro hl
    have hhead := List.head_dropWhile_not is_separator (List.length_pos_iff.mp hl)
    rw [← List.getElem_zero_eq_head hl] at hhead
    simp [hhead]

/-- A header value stands in the text it was found in. -/
theorem cstr_of_header_value {buffer header_name : Bytes} {value length : Nat}
    (h : header_value buffer header_name = some (value, length)) :
    cstr buffer value = (cstr buffer 0).drop value := by
  obtain ⟨-, hend, -⟩ := header_value_bounds h
  have hadd := @cstr_add buffer 0 value (by omega)
  rwa [Nat.zero_add] at hadd

/-- The bytes of a header value, and how many there are. -/
theorem header_value_text {buffer header_name : Bytes} {value length : Nat}
    (h : header_value buffer header_name = some (value, length)) :
    HeaderText ((cstr buffer value).take length) ∧ ((cstr buffer value).take length).length = length ∧
      slice_text buffer (some value) length = some ((cstr buffer value).take length) := by
  obtain ⟨before, line, behind, hfound⟩ := foundIn_of_header_value h
  obtain ⟨hdrop, hlength⟩ := hfound.drop
  have hfrom := (cstr_of_header_value h).trans hdrop
  have htake : (cstr buffer value).take length = (line.drop header_name.length).dropWhile is_separator := by
    rw [hfrom, ← hlength, List.take_left]
  have htext : HeaderText ((cstr buffer value).take length) := by
    rw [htake]
    exact headerText_of_line hfound.one_line _
  have hlength : length ≤ (cstr buffer value).length := by
    rw [hfrom, List.length_append]
    omega
  have hstarts : cstr buffer value <+: buffer.drop value := List.takeWhile_prefix _
  obtain ⟨rest, hrest⟩ := hstarts
  refine ⟨htext, by rw [List.length_take]; omega, ?_⟩
  rw [slice_text, Option.map_some, ← hrest, List.take_append_of_le_length hlength]

/-- Two texts agree as far as both go, upper and lower case aside. -/
def agree : Bytes → Bytes → Bool
  | a :: s, b :: t => tolower a == tolower b && agree s t
  | _, _ => true

theorem agree_of_startsWithCase {header_name front rest : Bytes}
    (h : startsWithCase header_name (front ++ rest) = true) : agree header_name front = true := by
  induction header_name generalizing front with
  | nil => rfl
  | cons a name ih =>
    cases front with
    | nil => rfl
    | cons b front =>
      rw [List.cons_append, startsWithCase_cons_cons, Bool.and_eq_true] at h
      rw [agree, Bool.and_eq_true]
      exact ⟨h.1, ih h.2⟩

/-- A header line, without its CRLF. -/
def field_line (gap : Bytes) (field : Bytes × Bytes) : Bytes := field.1 ++ gap ++ field.2

private theorem startsWithCase_append (header_name rest : Bytes) :
    startsWithCase header_name (header_name ++ rest) = true := by
  rw [startsWithCase, List.isPrefixOf_iff_prefix, List.map_append]
  exact List.prefix_append _ _

private theorem headerIn_found {gap : Bytes} (hgap : ∀ b ∈ gap, is_separator b = true) {header_name value : Bytes}
    (hvalue : value.takeWhile is_separator = []) (start : Nat) (lines : List Bytes) :
    headerIn header_name start (field_line gap (header_name, value) :: lines) =
      some (start + (header_name.length + gap.length), value.length) := by
  have hskipped : ((field_line gap (header_name, value)).drop header_name.length).takeWhile is_separator = gap := by
    rw [field_line, List.append_assoc, List.drop_left, List.takeWhile_append_of_pos hgap, hvalue, List.append_nil]
  have hstarts : startsWithCase header_name (field_line gap (header_name, value)) = true := by
    rw [field_line, List.append_assoc]
    exact startsWithCase_append _ _
  have hlength : (field_line gap (header_name, value)).length - (header_name.length + gap.length) = value.length := by
    simp only [field_line, List.length_append]
    omega
  rw [headerIn, if_pos hstarts, hskipped]
  simp only [hlength]

/-- The scanner finds a header's value in a text. -/
def FindsHeader (buffer header_name : Bytes) (value : Option Bytes) : Prop :=
  ∃ start length, get_header_value buffer header_name = ok (some (start, length)) ∧
    slice_text buffer (some start) length = value ∧ value.map List.length = some length

theorem FindsHeader.unique {buffer header_name : Bytes} {value value' : Option Bytes}
    (h : FindsHeader buffer header_name value) (h' : FindsHeader buffer header_name value') : value = value' := by
  obtain ⟨start, length, hget, hslice, -⟩ := h
  obtain ⟨start', length', hget', hslice', -⟩ := h'
  rw [hget, Except.ok.injEq, Option.some.injEq, Prod.mk.injEq] at hget'
  obtain ⟨rfl, rfl⟩ := hget'
  exact hslice.symm.trans hslice'

/-- In a text made of header lines, of which none could be taken for a later one, the scanner
finds each header's value. -/
theorem findsHeader_of_fields {buffer front first gap : Bytes} {fields : List (Bytes × Bytes)}
    (hbuffer : Buffered buffer) (hgap : ∀ b ∈ gap, is_separator b = true)
    (htext : cstr buffer 0 = joined (first :: fields.map (field_line gap) ++ [[]]))
    (hlines : ∀ line ∈ first :: fields.map (field_line gap), infixIdx CRLF line = none) (hfront : front <+: first)
    (hfirst : ∀ field ∈ fields, agree field.1 front = false)
    (hnames : fields.Pairwise fun earlier later => agree later.1 (earlier.1 ++ gap) = false)
    {header_name value : Bytes} (hplain : PlainName header_name) (hvalue : value.takeWhile is_separator = [])
    (hmem : (header_name, value) ∈ fields) : FindsHeader buffer header_name (some value) := by
  obtain ⟨before, after, rfl⟩ := List.append_of_mem hmem
  have hearlier : ∀ line ∈ first :: before.map (field_line gap), startsWithCase header_name line = false := by
    intro line hline
    cases hstarts : startsWithCase header_name line with
    | false => rfl
    | true =>
      rcases List.mem_cons.mp hline with rfl | hline
      · obtain ⟨rest, rfl⟩ := hfront
        exact (Bool.eq_false_iff.mp (hfirst _ hmem) (agree_of_startsWithCase hstarts)).elim
      · obtain ⟨field, hfield, rfl⟩ := List.mem_map.mp hline
        have hclash := (List.pairwise_append.mp hnames).2.2 field hfield _ List.mem_cons_self
        exact (Bool.eq_false_iff.mp hclash (agree_of_startsWithCase hstarts)).elim
  have hcut : first :: (before ++ (header_name, value) :: after).map (field_line gap) ++ [[]] =
      (first :: before.map (field_line gap)) ++
        field_line gap (header_name, value) :: (after.map (field_line gap) ++ [[]]) := by
    simp
  rw [hcut] at htext
  have hjoined : crlfLines (cstr buffer 0) = (first :: before.map (field_line gap)) ++
      field_line gap (header_name, value) :: (after.map (field_line gap) ++ [[]]) := by
    rw [htext, crlfLines_joined]
    rw [← hcut]
    intro line hline
    rcases List.mem_append.mp hline with hline | hline
    · exact hlines line hline
    · rw [List.mem_singleton.mp hline]
      rfl
  have hfound : header_value buffer header_name = some
      ((joined (first :: before.map (field_line gap))).length + (header_name.length + gap.length),
        value.length) := by
    rw [header_value, hjoined, headerIn_skip 0 _ hearlier, Nat.zero_add, headerIn_found hgap hvalue]
  refine ⟨_, _, (hbuffer.get_header_value hplain).trans (congrArg ok hfound), ?_, rfl⟩
  obtain ⟨-, -, hslice⟩ := header_value_text hfound
  have hsplit : cstr buffer 0 = joined (first :: before.map (field_line gap)) ++ (header_name ++ gap) ++
      (value ++ (CRLF ++ joined (after.map (field_line gap) ++ [[]]))) := by
    rw [htext, joined_append, joined_cons (field_line gap (header_name, value)), field_line]
    simp only [List.append_assoc]
  have hwhere : cstr buffer ((joined (first :: before.map (field_line gap))).length +
      (header_name.length + gap.length)) = value ++ (CRLF ++ joined (after.map (field_line gap) ++ [[]])) := by
    have hadd := @cstr_add buffer 0 (joined (first :: before.map (field_line gap)) ++
      (header_name ++ gap)).length (by rw [hsplit]; exact (List.prefix_append _ _).length_le)
    rw [hsplit, List.drop_left, Nat.zero_add, List.length_append, List.length_append] at hadd
    exact hadd
  rw [hslice, hwhere, List.take_left]

/-- A header value is followed by the CR that ends its line. -/
theorem cstr_at_value {buffer header_name : Bytes} {value length : Nat}
    (h : header_value buffer header_name = some (value, length)) :
    ∃ rest, cstr buffer value = (cstr buffer value).take length ++ CR :: rest := by
  obtain ⟨before, line, behind, hfound⟩ := foundIn_of_header_value h
  obtain ⟨hdrop, hlength⟩ := hfound.drop
  refine ⟨LF :: behind, ?_⟩
  rw [(cstr_of_header_value h).trans hdrop, ← hlength, List.take_left]
  rfl

private theorem findIdx?_takeWhile (front rest : Bytes) (c : UInt8) :
    (front ++ c :: rest).findIdx? (· == c) = some (front.takeWhile (· != c)).length := by
  induction front with
  | nil => rw [List.nil_append, List.findIdx?_cons, beq_self_eq_true, if_pos rfl, List.takeWhile_nil, List.length_nil]
  | cons b front ih =>
    rw [List.cons_append, List.findIdx?_cons, ih, List.takeWhile_cons]
    cases hb : b == c with
    | true => simp [hb, bne]
    | false => simp [hb, bne]

/-- A tag stands behind the first semicolon of its header's value, and is read up to a CR. -/
theorem tag_of_value {buffer header_name : Bytes} {slice parameter : Option Nat} {length parameter_length : Nat}
    {front tag : Bytes} (hbuffer : Buffered buffer) (hslice : HeaderSlice buffer header_name slice length)
    (hparameter : ParameterSlice buffer header_name 4 parameter parameter_length)
    (htext : slice_text buffer slice length = some (front ++ ascii ";tag=" ++ tag)) (hfront : SEMICOLON ∉ front) :
    ∃ position, parameter = some position ∧ parameter_length = (tag.takeWhile (· != CR)).length ∧
      (cstr buffer position).take parameter_length = tag.takeWhile (· != CR) := by
  obtain ⟨value, rfl, hvalue, -⟩ := hslice
  obtain ⟨value', length', hvalue', rfl, hin⟩ := hparameter
  obtain ⟨rfl, rfl⟩ := Prod.mk.inj (Option.some.inj (hvalue.symm.trans hvalue'))
  obtain ⟨-, hend, -⟩ := header_value_bounds hvalue
  obtain ⟨rest, hrest⟩ := cstr_at_value hvalue
  have hwhole : cstr buffer value = front ++ SEMICOLON :: (ascii "tag=" ++ (tag ++ CR :: rest)) := by
    rw [(header_value_text hvalue).2.2, Option.some.injEq] at htext
    rw [hrest, htext, show ascii ";tag=" = SEMICOLON :: ascii "tag=" from rfl]
    simp only [List.append_assoc, List.cons_append]
  have hname : cstr buffer (value + front.length + 1) = ascii "tag=" ++ (tag ++ CR :: rest) := by
    have hadd := @cstr_add buffer value (front.length + 1) (by rw [hwhole]; simp)
    rw [← Nat.add_assoc, hwhole, ← List.drop_drop, List.drop_left] at hadd
    exact hadd
  have htag : cstr buffer (value + front.length + 1 + 4) = tag ++ CR :: rest := by
    have hfour : (ascii "tag=").length = 4 := rfl
    rw [cstr_add (by rw [hname, List.length_append, hfour]; omega), hname]
    rfl
  have hstart : parameter_start buffer value 4 = some (value + front.length + 1 + 4) := by
    have hall : front.takeWhile (· != SEMICOLON) = front := by
      rw [List.takeWhile_eq_self_iff]
      intro b hb
      have hne : b ≠ SEMICOLON := fun he => hfront (he ▸ hb)
      simpa using hne
    rw [parameter_start, hwhole, findIdx?_takeWhile, hall, Option.map_some, hname]
    rfl
  obtain ⟨hlt, hlength⟩ := hin _ hstart
  have hnext : next_cr buffer (value + front.length + 1 + 4) =
      some (value + front.length + 1 + 4 + (tag.takeWhile (· != CR)).length) := by
    rw [next_cr, htag, findIdx?_takeWhile, Option.map_some]
  have hterm := length_cstr_lt (hbuffer.terminated _ hlt)
  have hshort := (List.takeWhile_prefix (l := tag) (· != CR)).length_le
  rw [htag, List.length_append, List.length_cons] at hterm
  have hbound := hbuffer.bound
  have hsame : parameter_length = (tag.takeWhile (· != CR)).length := by
    rw [hlength, sip_message.parameter_length, hnext, Option.getD_some, sizeSub_eq (by omega) (by omega)]
    omega
  refine ⟨_, hstart, hsame, ?_⟩
  rw [htag, hsame, List.take_append_of_le_length hshort]
  exact (List.prefix_iff_eq_take.mp (List.takeWhile_prefix _)).symm

end mock_uas.sip_message
