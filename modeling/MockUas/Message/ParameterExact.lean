import MockUas.Message.FirstLineSlices

open clib

namespace mock_uas.sip_message

def PARAM_NAME_BRANCH : Bytes := ascii "branch"
def EQUALS : UInt8 := 61
def LAQUOT : UInt8 := 60
def RAQUOT : UInt8 := 62

/-- A byte that may stand in a header. -/
def TextByte (b : UInt8) : Prop := b ≠ NUL ∧ b ≠ CR ∧ b ≠ LF

instance (b : UInt8) : Decidable (TextByte b) := inferInstanceAs (Decidable (b ≠ NUL ∧ b ≠ CR ∧ b ≠ LF))

theorem visible_text {b : UInt8} (h : 33 ≤ b) : TextByte b := by
  refine ⟨?_, ?_, ?_⟩ <;> rintro rfl <;> exact absurd h (by decide)

/-- A header parameter, with a value or without. -/
structure Param where
  name : Bytes
  value : Option Bytes
  name_plain : ∀ b ∈ name, TextByte b ∧ b ≠ SEMICOLON ∧ b ≠ EQUALS ∧ is_blank b = false
  name_nonempty : name ≠ []
  value_plain : ∀ v ∈ value, ∀ b ∈ v, TextByte b ∧ b ≠ SEMICOLON

/-- An address: a URI in angle brackets, which may have parameters of its own, behind a display
name, or a bare one, which has none. -/
inductive Address : Bytes → Prop where
  | name_addr {display uri : Bytes} (hdisplay : ∀ b ∈ display, TextByte b)
    (huri : ∀ b ∈ uri, TextByte b ∧ b ≠ LAQUOT ∧ b ≠ RAQUOT) : Address (display ++ LAQUOT :: uri ++ [RAQUOT])
  | addr_spec {spec : Bytes} (hne : spec ≠ [])
    (hspec : ∀ b ∈ spec, TextByte b ∧ b ≠ LAQUOT ∧ b ≠ RAQUOT ∧ b ≠ SEMICOLON) : Address spec

/-- The value of a From, To or Via header: an address and header parameters. -/
structure HeaderValue where
  address : Bytes
  params : List Param
  is_address : Address address

def Param.bytes (param : Param) : Bytes :=
  SEMICOLON :: (param.name ++ match param.value with
    | none => []
    | some value => EQUALS :: value)

def HeaderValue.bytes (value : HeaderValue) : Bytes := value.address ++ value.params.flatMap Param.bytes

/-- The value of the first parameter with the name, over parameters of which the first has offset
`start`: its offset and its length. -/
def own_parameter (name : Bytes) : Nat → List Param → Option (Nat × Nat)
  | _, [] => none
  | start, param :: params =>
    if same_name name param.name then param.value.map fun value => (start + (param.name.length + 2), value.length)
    else own_parameter name (start + param.bytes.length) params

/-- What an extractor is to answer for a header whose value has offset `start`. -/
def HeaderValue.own (value : HeaderValue) (name : Bytes) (start : Nat) : Option (Nat × Nat) :=
  own_parameter name (start + value.address.length) value.params

/-- The header's first semicolon starts the parameter asked for, which is its only one, or there
is no semicolon in the header nor behind it. -/
structure Alone (value : HeaderValue) (name behind : Bytes) : Prop where
  address : SEMICOLON ∉ value.address
  params : (∃ param text, value.params = [param] ∧ same_name name param.name = true ∧ param.value = some text) ∨
    (value.params = [] ∧ SEMICOLON ∉ behind)

theorem Address.plain {address : Bytes} (h : Address address) : address ≠ [] ∧ ∀ b ∈ address, TextByte b := by
  cases h with
  | name_addr hdisplay huri =>
    refine ⟨by simp, fun b hb => ?_⟩
    rcases List.mem_append.mp hb with hb | hb
    · rcases List.mem_append.mp hb with hb | hb
      · exact hdisplay b hb
      · rcases List.mem_cons.mp hb with rfl | hb
        · decide
        · exact (huri b hb).1
    · rw [List.mem_singleton.mp hb]
      decide
  | addr_spec hne hspec => exact ⟨hne, fun b hb => (hspec b hb).1⟩

theorem Param.plain (param : Param) : ∀ b ∈ param.bytes, TextByte b := by
  intro b hb
  rcases List.mem_cons.mp hb with rfl | hb
  · decide
  · rcases List.mem_append.mp hb with hb | hb
    · exact (param.name_plain b hb).1
    · cases hvalue : param.value with
      | none =>
        rw [hvalue] at hb
        cases hb
      | some value =>
        rw [hvalue] at hb
        rcases List.mem_cons.mp hb with rfl | hb
        · decide
        · exact (param.value_plain value hvalue b hb).1

theorem HeaderValue.plain (value : HeaderValue) : ∀ b ∈ value.bytes, TextByte b := by
  intro b hb
  rcases List.mem_append.mp hb with hb | hb
  · exact value.is_address.plain.2 b hb
  · obtain ⟨param, -, hb⟩ := List.mem_flatMap.mp hb
    exact param.plain b hb

/-- A parameter that is found stands behind others with other names. -/
private theorem own_parameter_eq_some {name : Bytes} {start position length : Nat} {params : List Param}
    (h : own_parameter name start params = some (position, length)) :
    ∃ before param after text, params = before ++ param :: after ∧ same_name name param.name = true ∧
      param.value = some text ∧ position = start + (before.flatMap Param.bytes).length + (name.length + 2) ∧
      length = text.length := by
  induction params generalizing start with
  | nil => cases h
  | cons param params ih =>
    rw [own_parameter] at h
    split at h
    · rename_i hsame
      obtain ⟨text, htext, heq⟩ := Option.map_eq_some_iff.mp h
      obtain ⟨rfl, rfl⟩ := Prod.mk.inj heq
      have hlength : name.length = param.name.length := by
        have hmap : name.map tolower = param.name.map tolower := by simpa [same_name] using hsame
        simpa using congrArg List.length hmap
      refine ⟨[], param, params, text, rfl, hsame, htext, ?_, rfl⟩
      rw [hlength]
      rfl
    · obtain ⟨before, found, after, text, rfl, hsame, htext, hposition, hlength⟩ := ih h
      refine ⟨param :: before, found, after, text, rfl, hsame, htext, ?_, hlength⟩
      rw [hposition, List.flatMap_cons, List.length_append]
      omega

/-- What a pointer to a header value sees: the value, its CRLF and what is behind it. -/
private structure PointsAt (buffer : Bytes) (start : Nat) (value : HeaderValue) (behind : Bytes) : Prop where
  terminated : Terminated buffer start
  text : cstr buffer start = value.bytes ++ (CRLF ++ behind)

private theorem pointsAt {buffer front behind rest : Bytes} {value : HeaderValue}
    (hbuffer : buffer = front ++ (value.bytes ++ (CRLF ++ behind)) ++ NUL :: rest) (hbehind : NUL ∉ behind) :
    PointsAt buffer front.length value behind := by
  have hnul : NUL ∉ value.bytes ++ (CRLF ++ behind) := by
    simp only [List.mem_append, not_or]
    exact ⟨fun hmem => (value.plain NUL hmem).1 rfl, by decide, hbehind⟩
  have hdrop : buffer.drop front.length = (value.bytes ++ (CRLF ++ behind)) ++ NUL :: rest := by
    rw [hbuffer, List.append_assoc, List.drop_left]
  constructor
  · rw [Terminated, hdrop]
    exact List.mem_append_right _ List.mem_cons_self
  · obtain ⟨hcstr, -⟩ := cstr_text hnul rest
    rw [cstr, List.drop_zero] at hcstr
    rw [cstr, hdrop, hcstr]

private theorem findIdx?_first {front rest : Bytes} {c : UInt8} (h : c ∉ front) :
    (front ++ c :: rest).findIdx? (· == c) = some front.length := by
  have hfound := @next_in_of_cut c [] front rest h
  simpa [next_in] using hfound

/-- The CR behind a part of the header at its end is the header's own. -/
private theorem next_cr_at {buffer : Bytes} {position : Nat} {part behind : Bytes} (hpart : ∀ b ∈ part, TextByte b)
    (hbound : buffer.length < sizeMax) (hterm : Terminated buffer position)
    (hcstr : cstr buffer position = part ++ (CRLF ++ behind)) :
    strchr buffer position CR = ok (some (position + part.length)) ∧
      sizeSub (position + part.length) position = part.length := by
  have hcr : CR ∉ part := fun hmem => (hpart CR hmem).2.1 rfl
  have hroom := length_cstr_lt hterm
  rw [hcstr, List.length_append] at hroom
  refine ⟨?_, ?_⟩
  · rw [strchr_eq hterm (by decide), hcstr, show part ++ (CRLF ++ behind) = part ++ CR :: (LF :: behind) from rfl,
      findIdx?_first hcr]
    rfl
  · rw [sizeSub_eq (by omega) (by omega), Nat.add_sub_cancel_left]

private theorem PointsAt.add {buffer : Bytes} {start : Nat} {value : HeaderValue} {behind before part : Bytes}
    (h : PointsAt buffer start value behind) (hcut : value.bytes = before ++ part) :
    Terminated buffer (start + before.length) ∧ cstr buffer (start + before.length) = part ++ (CRLF ++ behind) := by
  have hle : before.length ≤ (cstr buffer start).length := by
    rw [h.text, hcut, List.length_append, List.length_append]
    omega
  refine ⟨h.terminated.add hle, ?_⟩
  rw [cstr_add hle, h.text, hcut, List.append_assoc, List.drop_left]

private theorem semicolon_mem_bytes (param : Param) : SEMICOLON ∈ param.bytes := List.mem_cons_self

private theorem params_eq_nil_of {params : List Param} (h : SEMICOLON ∉ params.flatMap Param.bytes) : params = [] := by
  cases params with
  | nil => rfl
  | cons param params =>
    rw [List.flatMap_cons, List.mem_append, not_or] at h
    exact (h.1 (semicolon_mem_bytes param)).elim

/-- Where the extractor takes the parameter to start, for a header with a semicolon. -/
private theorem PointsAt.parameter_start {buffer : Bytes} {start : Nat} {value : HeaderValue} {behind before tail : Bytes}
    (h : PointsAt buffer start value behind) (hcut : value.bytes = before ++ SEMICOLON :: tail)
    (hbefore : SEMICOLON ∉ before) (skip : Nat) :
    parameter_start buffer start skip =
      some (start + before.length + 1 + ((tail ++ (CRLF ++ behind)).takeWhile is_blank).length + skip) := by
  have hfirst : (cstr buffer start).findIdx? (· == SEMICOLON) = some before.length := by
    rw [h.text, hcut, List.append_assoc, List.cons_append]
    exact findIdx?_first hbefore
  have hbehind : cstr buffer (start + before.length + 1) = tail ++ (CRLF ++ behind) := by
    have hlength : (before ++ [SEMICOLON]).length = before.length + 1 := by rw [List.length_append]; rfl
    rw [Nat.add_assoc, ← hlength]
    exact (h.add (by rw [hcut, List.append_assoc]; rfl)).2
  rw [sip_message.parameter_start, hfirst, Option.map_some, hbehind]

/-- A semicolon does not stand among the blanks behind another. -/
private theorem no_blanks_before_semicolon {before tail front rest : Bytes} {blanks : Nat}
    (hcut : before ++ SEMICOLON :: tail = front ++ SEMICOLON :: rest) {behind : Bytes}
    (hblanks : blanks = ((tail ++ behind).takeWhile is_blank).length) (hlength : before.length + blanks = front.length) :
    blanks = 0 := by
  by_contra hne
  have hat : (before ++ SEMICOLON :: tail)[front.length]? = some SEMICOLON := by
    rw [hcut, List.getElem?_append_right (Nat.le_refl _), Nat.sub_self]
    rfl
  rw [← hlength, List.getElem?_append_right (by omega), Nat.add_sub_cancel_left,
    show blanks = (blanks - 1) + 1 by omega, List.getElem?_cons_succ] at hat
  have hmem : SEMICOLON ∈ (tail ++ behind).takeWhile is_blank := by
    obtain ⟨hlt, -⟩ := List.getElem?_eq_some_iff.mp hat
    have hpart := List.takeWhile_prefix (l := tail ++ behind) is_blank
    rw [← @List.getElem?_append_left _ _ behind _ hlt, List.prefix_iff_getElem?.mp hpart (blanks - 1) (by omega)] at hat
    exact Option.some.inj hat ▸ List.getElem_mem _
  exact absurd (List.mem_takeWhile_imp hmem) (by decide)

private theorem Param.bytes_of_value {param : Param} {text : Bytes} (h : param.value = some text) :
    param.bytes = SEMICOLON :: (param.name ++ EQUALS :: text) := by
  rw [bytes, h]

/-- The extractor's answer for a parameter is the parameter's own value only where it is the
header's only one and no semicolon stands in front of it. -/
private theorem alone_of_get_parameter {buffer name behind : Bytes} {start : Nat} {value : HeaderValue}
    (h : PointsAt buffer start value behind) (hbound : buffer.length < sizeMax) (hsemicolon : SEMICOLON ∈ value.bytes)
    (hget : get_parameter buffer (some start) value.bytes.length (name.length + 1) = ok (value.own name start)) :
    Alone value name behind := by
  have hne : value.bytes.length ≠ 0 := (List.length_pos_of_mem hsemicolon).ne'
  obtain ⟨front, tail, hcut, hfront⟩ := List.eq_append_cons_of_mem hsemicolon
  have hstart := h.parameter_start hcut hfront (name.length + 1)
  rw [parameter_scan h.terminated hne hstart] at hget
  obtain ⟨tag_end, hscan, hget⟩ := bind_eq_ok_iff.mp hget
  obtain ⟨before, param, after, text, hparams, hsame, htext, hposition, hlength⟩ :=
    own_parameter_eq_some (Except.ok.inj hget).symm
  generalize hblanks : ((tail ++ (CRLF ++ behind)).takeWhile is_blank).length = blanks at *
  have hbytes : value.bytes = (value.address ++ before.flatMap Param.bytes) ++
      SEMICOLON :: (param.name ++ EQUALS :: text ++ after.flatMap Param.bytes) := by
    rw [HeaderValue.bytes, hparams, List.flatMap_append, List.flatMap_cons, Param.bytes_of_value htext]
    simp
  have hnone : blanks = 0 := no_blanks_before_semicolon (hcut.symm.trans hbytes) hblanks.symm (by
    rw [List.length_append]
    omega)
  obtain ⟨rfl, -⟩ := List.append_inj (hcut.symm.trans hbytes) (by
    rw [List.length_append]
    omega)
  rw [List.mem_append, not_or] at hfront
  obtain rfl := params_eq_nil_of hfront.2
  -- the value ends where the header does
  have hname : name.length = param.name.length := by
    have hmap : name.map tolower = param.name.map tolower := by simpa [same_name] using hsame
    simpa using congrArg List.length hmap
  have hvalue : value.bytes = (value.address ++ SEMICOLON :: (param.name ++ [EQUALS])) ++
      (text ++ after.flatMap Param.bytes) := by
    rw [hbytes]
    simp
  obtain ⟨hterm, hrest⟩ := h.add hvalue
  have hat : start + (value.address ++ SEMICOLON :: (param.name ++ [EQUALS])).length =
      start + value.address.length + ([].flatMap Param.bytes).length + (name.length + 2) := by
    simp only [List.length_append, List.length_cons, List.length_nil, List.flatMap_nil, hname]
    omega
  rw [hat, ← hposition] at hterm hrest
  have hplain : ∀ b ∈ text ++ after.flatMap Param.bytes, TextByte b := by
    intro b hb
    exact value.plain b (hvalue ▸ List.mem_append_right _ hb)
  obtain ⟨hend, hdistance⟩ := next_cr_at hplain hbound hterm hrest
  rw [hend] at hscan
  obtain rfl := Except.ok.inj hscan
  rw [Option.getD_some, hdistance, List.length_append] at hlength
  have hafter : after.flatMap Param.bytes = [] := List.length_eq_zero_iff.mp (by omega)
  have hparams_after := params_eq_nil_of (by rw [hafter]; exact List.not_mem_nil)
  rw [hparams_after, List.nil_append] at hparams
  exact ⟨hfront.1, .inl ⟨param, text, hparams, hsame, htext⟩⟩

private theorem get_parameter_alone {buffer name behind : Bytes} {start : Nat} {value : HeaderValue}
    (h : PointsAt buffer start value behind) (hbound : buffer.length < sizeMax) (halone : Alone value name behind) :
    get_parameter buffer (some start) value.bytes.length (name.length + 1) = ok (value.own name start) := by
  have hne : value.bytes.length ≠ 0 := by
    rw [HeaderValue.bytes, List.length_append]
    have haddress := List.length_pos_iff.mpr value.is_address.plain.1
    omega
  obtain ⟨haddress, hparams⟩ := halone
  rcases hparams with ⟨param, text, hparams, hsame, htext⟩ | ⟨hparams, hbehind⟩
  · have hname : name.length = param.name.length := by
      have hmap : name.map tolower = param.name.map tolower := by simpa [same_name] using hsame
      simpa using congrArg List.length hmap
    have hcut : value.bytes = value.address ++ SEMICOLON :: (param.name ++ EQUALS :: text) := by
      rw [HeaderValue.bytes, hparams, List.flatMap_singleton, Param.bytes_of_value htext]
    have hno_blanks : ((param.name ++ EQUALS :: text ++ (CRLF ++ behind)).takeWhile is_blank).length = 0 := by
      obtain ⟨b, name', hcons⟩ := List.exists_cons_of_ne_nil param.name_nonempty
      have hb := (param.name_plain b (by simp [hcons])).2.2.2
      rw [hcons, List.cons_append, List.cons_append, List.takeWhile_cons, hb, if_neg Bool.false_ne_true]
      rfl
    have hstart := h.parameter_start hcut haddress (name.length + 1)
    rw [hno_blanks] at hstart
    have hvalue : value.bytes = (value.address ++ SEMICOLON :: (param.name ++ [EQUALS])) ++ text := by
      rw [hcut]
      simp
    obtain ⟨hterm, hrest⟩ := h.add hvalue
    have hat : start + (value.address ++ SEMICOLON :: (param.name ++ [EQUALS])).length =
        start + value.address.length + 1 + 0 + (name.length + 1) := by
      simp only [List.length_append, List.length_cons, List.length_nil, hname]
      omega
    rw [hat] at hterm hrest
    obtain ⟨hend, hdistance⟩ := next_cr_at (fun b hb => (param.value_plain text htext b hb).1) hbound hterm hrest
    rw [parameter_scan h.terminated hne hstart, hend]
    simp only [bind_ok, Option.getD_some]
    rw [hdistance, HeaderValue.own, hparams, own_parameter, if_pos hsame, htext, ← hname, Option.map_some]
    congr 3
    omega
  · have hbytes : value.bytes = value.address := by rw [HeaderValue.bytes, hparams, List.flatMap_nil, List.append_nil]
    have hnowhere : SEMICOLON ∉ cstr buffer start := by
      rw [h.text, hbytes]
      simp only [List.mem_append, not_or]
      exact ⟨haddress, by decide, hbehind⟩
    have hnone : sip_message.parameter_start buffer start (name.length + 1) = none := by
      rw [sip_message.parameter_start, List.findIdx?_eq_none_iff.mpr]
      · rfl
      · intro b hb
        have hne : b ≠ SEMICOLON := fun he => hnowhere (he ▸ hb)
        simpa using hne
    rw [get_parameter_none h.terminated hne hnone, HeaderValue.own, hparams]
    rfl

private theorem get_parameter_iff {buffer name behind : Bytes} {start : Nat} {value : HeaderValue}
    (h : PointsAt buffer start value behind) (hbound : buffer.length < sizeMax) :
    get_parameter buffer (some start) value.bytes.length (name.length + 1) = ok (value.own name start) ↔
      Alone value name behind := by
  refine ⟨fun hget => ?_, get_parameter_alone h hbound⟩
  by_cases hsemicolon : SEMICOLON ∈ value.bytes
  · exact alone_of_get_parameter h hbound hsemicolon hget
  · have hparts := hsemicolon
    rw [HeaderValue.bytes, List.mem_append, not_or] at hparts
    have hparams := params_eq_nil_of hparts.2
    refine ⟨hparts.1, .inr ⟨hparams, fun hbehind => ?_⟩⟩
    have hne : value.bytes.length ≠ 0 := by
      rw [HeaderValue.bytes, List.length_append]
      have haddress := List.length_pos_iff.mpr value.is_address.plain.1
      omega
    have hfound : ∃ position, sip_message.parameter_start buffer start (name.length + 1) = some position := by
      rw [sip_message.parameter_start, h.text]
      cases hfind : (value.bytes ++ (CRLF ++ behind)).findIdx? (· == SEMICOLON) with
      | some k => exact ⟨_, rfl⟩
      | none =>
        have hall := List.findIdx?_eq_none_iff.mp hfind SEMICOLON
          (List.mem_append_right _ (List.mem_append_right _ hbehind))
        simp at hall
    obtain ⟨position, hposition⟩ := hfound
    rw [parameter_scan h.terminated hne hposition, HeaderValue.own, hparams] at hget
    obtain ⟨tag_end, -, hget⟩ := bind_eq_ok_iff.mp hget
    cases Except.ok.inj hget

/-- The message once a From tag was extracted, or not found. -/
def with_from_tag (message : sip_message_t) : Option (Nat × Nat) → sip_message_t
  | none => message
  | some (tag, length) => { message with from_tag := some tag, from_tag_length := length }

def with_to_tag (message : sip_message_t) : Option (Nat × Nat) → sip_message_t
  | none => message
  | some (tag, length) => { message with to_tag := some tag, to_tag_length := length }

def with_branch (message : sip_message_t) : Option (Nat × Nat) → sip_message_t
  | none => message
  | some (branch, length) => { message with branch := some branch, branch_length := length }

/-- An extractor returns what it found and records it. -/
private theorem extracted_iff {found : Result (Option (Nat × Nat))} {record : Option (Nat × Nat) → sip_message_t}
    {expected : Option (Nat × Nat)} :
    (found >>= fun parameter => ok (parameter, record parameter)) = ok (expected, record expected) ↔
      found = ok expected := by
  constructor
  · intro h
    obtain ⟨parameter, hfound, heq⟩ := bind_eq_ok_iff.mp h
    rw [hfound, (Prod.mk.inj (Except.ok.inj heq)).1]
  · intro h
    rw [h, bind_ok]

private theorem get_from_tag_eq (message : sip_message_t) : get_from_tag message =
    get_parameter message.buffer message.from_ message.from_length 4 >>= fun tag =>
      ok (tag, with_from_tag message tag) := by
  rw [get_from_tag]
  congr 1
  funext tag
  cases tag with
  | none => rfl
  | some tag => rfl

private theorem get_to_tag_eq (message : sip_message_t) : get_to_tag message =
    get_parameter message.buffer message.to_ message.to_length 4 >>= fun tag => ok (tag, with_to_tag message tag) := by
  rw [get_to_tag]
  congr 1
  funext tag
  cases tag with
  | none => rfl
  | some tag => rfl

private theorem get_branch_param_eq (message : sip_message_t) : get_branch_param message =
    get_parameter message.buffer message.via message.via_length 7 >>= fun branch =>
      ok (branch, with_branch message branch) := by
  rw [get_branch_param]
  congr 1
  funext branch
  cases branch with
  | none => rfl
  | some branch => rfl

/-- Wherever a header value stands in a message, the extractors return and record the header's
own parameter exactly where it stands alone. -/
theorem parameter_extraction_iff (message : sip_message_t) (front behind rest : Bytes) (value : HeaderValue)
    (hbuffer : message.buffer = front ++ (value.bytes ++ (CRLF ++ behind)) ++ NUL :: rest) (hbehind : NUL ∉ behind)
    (hbound : message.buffer.length < sizeMax) :
    (message.from_ = some front.length → message.from_length = value.bytes.length →
      (get_from_tag message = ok (value.own PARAM_NAME_TAG front.length,
          with_from_tag message (value.own PARAM_NAME_TAG front.length)) ↔ Alone value PARAM_NAME_TAG behind)) ∧
    (message.to_ = some front.length → message.to_length = value.bytes.length →
      (get_to_tag message = ok (value.own PARAM_NAME_TAG front.length,
          with_to_tag message (value.own PARAM_NAME_TAG front.length)) ↔ Alone value PARAM_NAME_TAG behind)) ∧
    (message.via = some front.length → message.via_length = value.bytes.length →
      (get_branch_param message = ok (value.own PARAM_NAME_BRANCH front.length,
          with_branch message (value.own PARAM_NAME_BRANCH front.length)) ↔ Alone value PARAM_NAME_BRANCH behind)) := by
  have hpoints := pointsAt hbuffer hbehind
  have htag := @get_parameter_iff _ PARAM_NAME_TAG _ _ _ hpoints hbound
  have hbranch := @get_parameter_iff _ PARAM_NAME_BRANCH _ _ _ hpoints hbound
  refine ⟨fun hstart hlength => ?_, fun hstart hlength => ?_, fun hstart hlength => ?_⟩
  · rw [get_from_tag_eq, extracted_iff, hstart, hlength]
    exact htag
  · rw [get_to_tag_eq, extracted_iff, hstart, hlength]
    exact htag
  · rw [get_branch_param_eq, extracted_iff, hstart, hlength]
    exact hbranch

/-- A parameter whose name and value are made of visible characters. -/
def plain_param (name value : Bytes) (hne : name ≠ [])
    (hname : name.all (fun b => 33 ≤ b && b != SEMICOLON && b != EQUALS) = true)
    (hvalue : value.all (fun b => 33 ≤ b && b != SEMICOLON) = true) : Param where
  name := name
  value := some value
  name_plain b hb := by
    have hplain := List.all_eq_true.mp hname b hb
    simp only [Bool.and_eq_true, bne_iff_ne, ne_eq, decide_eq_true_eq] at hplain
    obtain ⟨⟨hvisible, hsemicolon⟩, hequals⟩ := hplain
    refine ⟨visible_text hvisible, hsemicolon, hequals, ?_⟩
    cases hblank : is_blank b with
    | false => rfl
    | true =>
      simp only [is_blank, SPACE, Bool.or_eq_true, beq_iff_eq] at hblank
      rcases hblank with rfl | rfl <;> exact absurd hvisible (by decide)
  name_nonempty := hne
  value_plain v hv b hb := by
    obtain rfl := Option.some.inj hv
    have hplain := List.all_eq_true.mp hvalue b hb
    simp only [Bool.and_eq_true, bne_iff_ne, ne_eq, decide_eq_true_eq] at hplain
    exact ⟨visible_text hplain.1, hplain.2⟩

def tag_b : Param := plain_param PARAM_NAME_TAG (ascii "b") (by decide) (by decide) (by decide)

/-- A bare address with parameters. -/
def bare (params : List Param) : HeaderValue where
  address := ascii "sip:a"
  params := params
  is_address := by
    refine .addr_spec (by decide) fun b hb => ?_
    have hplain := List.all_eq_true.mp (show (ascii "sip:a").all
      (fun b => 33 ≤ b && b != LAQUOT && b != RAQUOT && b != SEMICOLON) = true by decide) b hb
    simp only [Bool.and_eq_true, bne_iff_ne, ne_eq, decide_eq_true_eq] at hplain
    obtain ⟨⟨⟨hvisible, hlaquot⟩, hraquot⟩, hsemicolon⟩ := hplain
    exact ⟨visible_text hvisible, hlaquot, hraquot, hsemicolon⟩

/-- A message with a From header that was looked up. -/
def from_header (value : HeaderValue) : sip_message_t :=
  { zeroed (ascii "From: " ++ (value.bytes ++ (CRLF ++ CRLF)) ++ [NUL]) with
    from_ := some 6
    from_length := value.bytes.length }

theorem lone_tag_extracted :
    get_from_tag (from_header (bare [tag_b])) = ok ((bare [tag_b]).own PARAM_NAME_TAG 6,
      with_from_tag (from_header (bare [tag_b])) ((bare [tag_b]).own PARAM_NAME_TAG 6)) :=
  ((parameter_extraction_iff (from_header (bare [tag_b])) (ascii "From: ") CRLF [] (bare [tag_b]) rfl (by decide)
    (by decide)).1 rfl rfl).mpr ⟨by decide, .inl ⟨tag_b, ascii "b", rfl, by decide, rfl⟩⟩

theorem second_parameter_taken :
    ¬ ∀ (message : sip_message_t) (front behind rest : Bytes) (value : HeaderValue),
      message.buffer = front ++ (value.bytes ++ (CRLF ++ behind)) ++ NUL :: rest → NUL ∉ behind →
      message.buffer.length < sizeMax → message.from_ = some front.length → message.from_length = value.bytes.length →
      get_from_tag message = ok (value.own PARAM_NAME_TAG front.length,
        with_from_tag message (value.own PARAM_NAME_TAG front.length)) := by
  intro hall
  let line := plain_param (ascii "line") (ascii "c") (by decide) (by decide) (by decide)
  have hexact := hall (from_header (bare [tag_b, line])) (ascii "From: ") CRLF [] (bare [tag_b, line]) rfl (by decide)
    (by decide) rfl rfl
  exact absurd hexact (by decide +kernel)

end mock_uas.sip_message
