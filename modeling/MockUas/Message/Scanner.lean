import MockUas.Message.Readback

open clib

namespace mock_uas.sip_message

/-- A name the scanner may be asked for: no byte that ends a line, a name or a string. -/
structure FieldName (header_name : Bytes) : Prop where
  nonempty : header_name ≠ []
  plain : ∀ b ∈ header_name, b ≠ NUL ∧ b ≠ CR ∧ b ≠ LF ∧ is_separator b = false

theorem fieldName_of_all {header_name : Bytes} (hne : header_name ≠ [])
    (hall : header_name.all (fun b => b != NUL && b != CR && b != LF && !is_separator b) = true) :
    FieldName header_name where
  nonempty := hne
  plain b hb := by
    have hplain := List.all_eq_true.mp hall b hb
    simpa [and_assoc] using hplain

/-- A value lies behind the name in one line of the text, the first that starts with the name,
and ends where that line's CRLF stands. -/
structure LiesInLine (text header_name : Bytes) (value length : Nat) (before : List Bytes) (line behind : Bytes) :
    Prop where
  cut : text = joined (before ++ [line]) ++ behind
  one_line : ∀ l ∈ before ++ [line], ¬ CRLF <:+: l
  first : ∀ l ∈ before, startsWithCase header_name l = false
  starts : startsWithCase header_name line = true
  name : (joined before).length + header_name.length ≤ value
  ends : value + length = (joined before).length + line.length
  no_crlf : ¬ CRLF <:+: (text.drop value).take length
  no_separator : ∀ b ∈ ((text.drop value).take length).head?, is_separator b = false

/-- No line of the text starts with the name. -/
def StartsNoLine (text header_name : Bytes) : Prop :=
  ∀ before line behind, text = joined (before ++ [line]) ++ behind → (∀ l ∈ before ++ [line], ¬ CRLF <:+: l) →
    startsWithCase header_name line = false

/-- Only a capital letter becomes another byte, and it becomes a letter. -/
private theorem eq_of_tolower {b c : UInt8} (hc : c < 65) (h : tolower b = c) : b = c := by
  rw [tolower] at h
  split at h
  · rename_i hupper
    have hlow : 65 ≤ b.toNat := UInt8.le_iff_toNat_le.mp hupper.1
    have hhigh : b.toNat ≤ 90 := UInt8.le_iff_toNat_le.mp hupper.2
    have hsum : (b + 32).toNat = (b.toNat + 32) % 2 ^ 8 := UInt8.toNat_add b 32
    have hless : c.toNat < 65 := UInt8.lt_iff_toNat_lt.mp hc
    rw [h] at hsum
    omega
  · exact h

private theorem tolower_not_mem {header_name : Bytes} {c : UInt8} (hc : c < 65) (h : c ∉ header_name) :
    tolower c ∉ header_name.map tolower := by
  intro hmem
  obtain ⟨b, hb, heq⟩ := List.mem_map.mp hmem
  have hsame : tolower c = c := by
    rw [tolower, if_neg]
    rintro ⟨hlow, -⟩
    have hcap : (65 : UInt8).toNat ≤ c.toNat := UInt8.le_iff_toNat_le.mp hlow
    have hless : c.toNat < (65 : UInt8).toNat := UInt8.lt_iff_toNat_lt.mp hc
    omega
  rw [hsame] at heq
  exact h (eq_of_tolower hc heq ▸ hb)

theorem FieldName.plainName {header_name : Bytes} (h : FieldName header_name) : PlainName header_name where
  nul := tolower_not_mem (c := NUL) (by decide) fun hmem => (h.plain NUL hmem).1 rfl
  cr := tolower_not_mem (by decide) fun hmem => (h.plain CR hmem).2.1 rfl

/-- A separator ends what is compared with a field name. -/
theorem FieldName.startsWithCase_before {header_name line rest : Bytes} (h : FieldName header_name) {c : UInt8}
    (hc : is_separator c = true) :
    startsWithCase header_name (line ++ c :: rest) = startsWithCase header_name line := by
  apply sip_message.startsWithCase_before
  apply tolower_not_mem
  · simp only [is_separator, Bool.or_eq_true, beq_iff_eq] at hc
    rcases hc with (rfl | rfl) | rfl <;> decide
  · intro hmem
    rw [(h.plain c hmem).2.2.2] at hc
    cases hc

/-- The C string at the start of a buffer that holds a text. -/
theorem cstr_text {text : Bytes} (htext : NUL ∉ text) (rest : Bytes) :
    cstr (text ++ NUL :: rest) 0 = text ∧ Terminated (text ++ NUL :: rest) 0 := by
  refine ⟨?_, by simp [Terminated]⟩
  rw [cstr, List.drop_zero]
  apply takeWhile_append_of_all
  · intro b hb
    have hne : b ≠ NUL := fun he => htext (he ▸ hb)
    simpa using hne
  · rintro b ⟨⟩
    rfl

theorem FoundIn.liesInLine {text header_name : Bytes} {value length : Nat} {before : List Bytes} {line behind : Bytes}
    (h : FoundIn text header_name value length before line behind) :
    LiesInLine text header_name value length before line behind := by
  obtain ⟨hdrop, hlength⟩ := h.drop
  have htake : (text.drop value).take length = (line.drop header_name.length).dropWhile is_separator := by
    rw [hdrop, ← hlength, List.take_left]
  have hline : HeaderText ((line.drop header_name.length).dropWhile is_separator) := headerText_of_line h.one_line _
  constructor
  · rw [h.text, joined_append]
    simp [joined]
  · intro l hl
    rw [← infixIdx_eq_none_iff (by decide)]
    rcases List.mem_append.mp hl with hl | hl
    · exact (h.earlier l hl).1
    · rw [List.mem_singleton.mp hl]
      exact h.one_line
  · exact fun l hl => (h.earlier l hl).2
  · exact h.starts
  · exact h.name
  · exact h.ends
  · rw [htake, ← infixIdx_eq_none_iff (by decide)]
    exact hline.one_line
  · rw [htake]
    have hstart := hline.start
    intro b hb
    cases hvalue : (line.drop header_name.length).dropWhile is_separator with
    | nil =>
      rw [hvalue] at hb
      cases hb
    | cons c tail =>
      rw [hvalue] at hb hstart
      obtain rfl := Option.some.inj hb
      cases hseparator : is_separator c with
      | false => rfl
      | true => simp [hseparator] at hstart

/-- Whatever a NUL-terminated buffer holds, the scanner reads nothing behind the NUL and finds
the value of the first line that starts with the name, if there is one. -/
theorem get_header_value_in_range (text rest header_name : Bytes) (htext : NUL ∉ text)
    (hbound : (text ++ NUL :: rest).length < sizeMax) (hname : FieldName header_name) :
    ∃ result, get_header_value (text ++ NUL :: rest) header_name = ok result ∧
      get_header_value (text ++ [NUL]) header_name = ok result ∧
      (∀ value length, result = some (value, length) →
        ∃ before line behind, LiesInLine text header_name value length before line behind) ∧
      (result = none → StartsNoLine text header_name) := by
  obtain ⟨hcstr, hterm⟩ := cstr_text htext rest
  obtain ⟨hcstr', hterm'⟩ := cstr_text htext []
  have hbound' : (text ++ [NUL]).length < sizeMax := by
    simp only [List.length_append, List.length_cons, List.length_nil] at hbound ⊢
    omega
  have hlong := get_header_value_eq hname.plainName hbound hterm
  have hshort := get_header_value_eq hname.plainName hbound' hterm'
  rw [hcstr] at hlong
  rw [hcstr'] at hshort
  refine ⟨_, hlong, hshort, ?_, ?_⟩
  · intro value length hfound
    obtain ⟨before, line, behind, hfound⟩ := foundIn_of_headerIn hfound
    exact ⟨before, line, behind, hfound.liesInLine⟩
  · intro hnone before line behind hcut hlines
    rw [headerIn_eq_none_iff] at hnone
    apply hnone
    have hjoined := @crlfLines_joined_append (before ++ [line]) (fun l hl =>
      (infixIdx_eq_none_iff (by decide)).mpr (hlines l hl)) behind
    rw [hcut, hjoined]
    simp

/-- The value of a To line between two others. -/
theorem to_in_range :
    get_header_value (ascii "x\r\nTo : a\r\r\nb" ++ NUL :: CRLF) (ascii "to") = ok (some (8, 2)) ∧
      get_header_value (ascii "x\r\nTo : a\r\r\nb" ++ [NUL]) (ascii "to") = ok (some (8, 2)) ∧
      ∃ before line behind, LiesInLine (ascii "x\r\nTo : a\r\r\nb") (ascii "to") 8 2 before line behind := by
  obtain ⟨result, hlong, hshort, hfound, -⟩ := get_header_value_in_range (ascii "x\r\nTo : a\r\r\nb") CRLF (ascii "to")
    (by decide) (by decide) (fieldName_of_all (by decide) (by decide))
  have hvalue : get_header_value (ascii "x\r\nTo : a\r\r\nb" ++ NUL :: CRLF) (ascii "to") = ok (some (8, 2)) := by
    decide +kernel
  obtain rfl := Except.ok.inj (hlong.symm.trans hvalue)
  exact ⟨hlong, hshort, hfound 8 2 rfl⟩

end mock_uas.sip_message
