import MockUas.Message.ParseOutcome

open clib

namespace mock_uas.sip_message

theorem buffered_spec (datagram : Datagram) : Buffered (buffered datagram) where
  terminated i hi := buffered_terminated datagram (by simpa using hi)
  nonempty := by simp [BUFFER_SIZE]
  bound := by simp [BUFFER_SIZE, sizeMax]

theorem length_text_le (datagram : Datagram) : (cstr (buffered datagram) 0).length ≤ datagram.bytes.length := by
  have hfits := datagram.fits
  by_contra hlt
  have hget := @getElem?_cstr (buffered datagram) 0 datagram.bytes.length (by omega)
  rw [Nat.zero_add, getElem?_buffered_of_le datagram (Nat.le_refl _) hfits] at hget
  have hmem := List.mem_of_getElem? hget.symm
  exact absurd (List.mem_takeWhile_imp hmem) (by simp)

/-- A CR of the buffer is a byte of the datagram. -/
theorem next_cr_lt_length {datagram : Datagram} {i k : Nat} (h : next_cr (buffered datagram) i = some k) :
    k < datagram.bytes.length := by
  obtain ⟨hle, hlt⟩ := next_cr_bounds h
  obtain ⟨j, hj, rfl⟩ := Option.map_eq_some_iff.mp h
  obtain ⟨hjlt, hcr, -⟩ := List.findIdx?_eq_some_iff_getElem.mp hj
  have hget := getElem?_cstr hjlt
  rw [List.getElem?_eq_getElem hjlt, beq_iff_eq.mp hcr] at hget
  by_contra hnot
  have hsize : i + j < BUFFER_SIZE := by
    have h := List.getElem?_eq_some_iff.mp hget
    simpa using h.1
  rw [getElem?_buffered_of_le datagram (by omega) hsize] at hget
  exact absurd hget (by decide)

/-- The first line is accepted, as the line of a request. -/
def RequestLineAccepted (message : sip_message_t) : Prop :=
  ∃ line, parse_first_line message = ok (.ERROR_NONE, line) ∧ line.is_request = true

/-- What an accepted message is: its first line's fields, its headers' slices and,
besides, the message as it was received. -/
structure RequestRead (message after : sip_message_t) : Prop where
  line : ∃ line, parse_first_line message = ok (.ERROR_NONE, line) ∧ FirstLineRead message .ERROR_NONE line ∧
    line.is_request = true ∧ withoutHeaders after = withoutHeaders line
  headers : HeadersRecorded message.buffer after

private theorem withoutFirstLine_fields {message after : sip_message_t}
    (h : withoutFirstLine after = withoutFirstLine message) :
    after.buffer = message.buffer ∧ after.from_ = message.from_ ∧ after.to_ = message.to_ ∧
      after.to_tag = message.to_tag ∧ after.via = message.via ∧ after.cseq = message.cseq :=
  ⟨congrArg (·.buffer) h, congrArg (·.from_) h, congrArg (·.to_) h, congrArg (·.to_tag) h,
    congrArg (·.via) h, congrArg (·.cseq) h⟩

/-- The whole parser on a received datagram, whatever Call-ID was recorded for it before:
when it reads outside the buffer, when it accepts, and what it then records. -/
theorem parse_message_outcome {datagram : Datagram} {client_addr : sockaddr_in} (message : sip_message_t)
    (hmessage : { message with call_id := none, call_id_length := 0 } = received datagram client_addr) :
    Outcome (parse_message message)
      (RequestLineAccepted message → ReadsFrom (buffered datagram))
      (RequestLineAccepted message ∧ Complete (buffered datagram))
      (RequestRead message) := by
  have hbuffer := buffered_spec datagram
  have harray : message.buffer = buffered datagram := congrArg (·.buffer) hmessage
  obtain ⟨err, line, hparse, hread⟩ := parse_first_line_spec message
    (by rw [harray]; exact hbuffer.terminated 0 hbuffer.nonempty) (by rw [harray]; exact hbuffer.bound)
  obtain ⟨hsame, hfrom, hto, hto_tag, hvia, hcseq⟩ := withoutFirstLine_fields hread.frame
  rw [harray] at hsame
  unfold parse_message
  rw [hparse]
  simp only [bind_ok]
  by_cases herr : err = .ERROR_NONE
  · subst herr
    simp only [ne_eq, not_true_eq_false, if_false]
    cases hrequest : line.is_request with
    | false =>
      have hnot : ¬ RequestLineAccepted message := by
        rintro ⟨line', hline', hrequest'⟩
        rw [hparse] at hline'
        cases hline'
        rw [hrequest] at hrequest'
        cases hrequest'
      simp only [get_message_method, hrequest, if_true, bind_ok]
      exact ⟨fun h => absurd h hnot, ⟨nofun, fun h => absurd h.1 hnot⟩, nofun⟩
    | true =>
      obtain ⟨hknown, -⟩ := hread.request rfl hrequest
      have haccepted : RequestLineAccepted message := ⟨line, hparse, hrequest⟩
      have hmethod : get_message_method line = ok (line.method_type, line) := by
        rw [get_message_method, if_neg (by simp [hrequest]), if_pos hknown]
      simp only [hmethod, bind_ok, if_neg hknown]
      have hrest := parse_from_outcome line (by rw [hsame]; exact hbuffer) hrequest
        (hfrom.trans (congrArg (·.from_) hmessage)) (hto.trans (congrArg (·.to_) hmessage))
        (hto_tag.trans (congrArg (·.to_tag) hmessage)) (hvia.trans (congrArg (·.via) hmessage))
        (hcseq.trans (congrArg (·.cseq) hmessage))
      rw [hsame] at hrest
      cases hresult : parse_from line with
      | error fault =>
        rw [hresult] at hrest
        exact ⟨hrest.1, fun h => hrest.2 (h haccepted)⟩
      | ok result =>
        rw [hresult] at hrest
        refine ⟨fun _ => hrest.1, hrest.2.1.trans ⟨fun h => ⟨haccepted, h⟩, fun h => h.2⟩, fun h => ?_⟩
        obtain ⟨hframe, hheaders⟩ := hrest.2.2 h
        exact ⟨⟨line, hparse, hread, hrequest, hframe⟩, harray ▸ hheaders⟩
  · have hnot : ¬ RequestLineAccepted message := by
      rintro ⟨line', hline', -⟩
      rw [hparse] at hline'
      cases hline'
      exact herr rfl
    simp only [ne_eq, herr, not_false_eq_true, if_true]
    exact ⟨fun h => absurd h hnot, ⟨fun h => absurd h herr, fun h => absurd h.1 hnot⟩, fun h => absurd h herr⟩

/-- A slice starts in the received text and does not pass its end. -/
def InText (text_length : Nat) (slice : Option Nat) (length : Nat) : Prop :=
  ∃ start, slice = some start ∧ start < text_length ∧ start + length ≤ text_length

/-- Every slice an accepted message records lies in the received text. -/
structure SlicesInText (message : sip_message_t) : Prop where
  from_ : InText message.buffer_length message.from_ message.from_length
  from_tag : InText message.buffer_length message.from_tag message.from_tag_length
  to_ : InText message.buffer_length message.to_ message.to_length
  to_tag : message.to_tag ≠ none → InText message.buffer_length message.to_tag message.to_tag_length
  via : InText message.buffer_length message.via message.via_length
  branch : InText message.buffer_length message.branch message.branch_length
  cseq : InText message.buffer_length message.cseq message.cseq_length
  method : InText message.buffer_length message.method message.method_length
  uri : InText message.buffer_length message.uri message.uri_length

/-- The parser reads inside the buffer only and what it accepts is sliced in range. -/
def ParserSafe (datagram : Datagram) (client_addr : sockaddr_in) : Prop :=
  ∃ err after, parse_message (received datagram client_addr) = ok (err, after) ∧
    (err = .ERROR_NONE → SlicesInText after)

/-- The parameter searches the parser gets to start inside the buffer and, in a text with
every mandatory part, meet a CR before the next NUL. -/
structure ParametersInText (datagram : Datagram) (client_addr : sockaddr_in) : Prop where
  reads : RequestLineAccepted (received datagram client_addr) → ReadsFrom (buffered datagram)
  ends : RequestLineAccepted (received datagram client_addr) → Complete (buffered datagram) →
    EndsInText (buffered datagram) HEADER_NAME_FROM 4 ∧ EndsInText (buffered datagram) HEADER_NAME_TO 4 ∧
    EndsInText (buffered datagram) HEADER_NAME_VIA 7

private theorem HeaderSlice.inText {datagram : Datagram} {header_name : Bytes} {slice : Option Nat}
    {length : Nat} (h : HeaderSlice (buffered datagram) header_name slice length) :
    InText datagram.bytes.length slice length := by
  obtain ⟨value, rfl, hvalue, -⟩ := h
  obtain ⟨-, hend, -⟩ := header_value_bounds hvalue
  have htext := length_text_le datagram
  exact ⟨value, rfl, by omega, by omega⟩

/-- A recorded parameter lies in the text exactly when a CR follows its start. -/
private theorem ParameterSlice.inText_iff {datagram : Datagram} {header_name : Bytes} {skip : Nat}
    {slice : Option Nat} {length : Nat}
    (h : ParameterSlice (buffered datagram) header_name skip slice length) :
    (slice ≠ none → InText datagram.bytes.length slice length) ↔
      EndsInText (buffered datagram) header_name skip := by
  obtain ⟨value, value_length, hvalue, hslice, hlength⟩ := h
  have hat : parameter_at (buffered datagram) header_name skip = slice := by
    rw [hslice, parameter_at, hvalue]
    rfl
  cases hposition : slice with
  | none => simp [EndsInText, hat, hposition]
  | some position =>
    obtain ⟨hin, hrecorded⟩ := hlength position hposition
    rw [length_buffered] at hin
    have hfits := datagram.fits
    have hsize : BUFFER_SIZE < sizeMax := by decide
    constructor
    · intro hslice_in found hfound
      rw [hat, hposition, Option.some.injEq] at hfound
      subst hfound
      obtain ⟨start, hstart, hlt, hend⟩ := hslice_in (Option.some_ne_none _)
      cases hstart
      cases hnext : next_cr (buffered datagram) position with
      | some k => rfl
      | none =>
        have hbehind : value + value_length < position := by
          by_contra hle
          obtain ⟨k, hk⟩ := next_cr_of_le hvalue (i := position) (by omega)
          rw [hnext] at hk
          cases hk
        rw [parameter_length, hnext, Option.getD_none, sizeSub_wrap hbehind (by omega)] at hrecorded
        omega
    · intro hends _
      obtain ⟨k, hk⟩ := Option.isSome_iff_exists.mp (hends position (hat.trans hposition))
      obtain ⟨hle, -⟩ := next_cr_bounds hk
      have hlt := next_cr_lt_length hk
      rw [parameter_length, hk, Option.getD_some, sizeSub_eq hle (by omega)] at hrecorded
      exact ⟨position, rfl, by omega, by omega⟩

private theorem slicesInText_iff {datagram : Datagram} {client_addr : sockaddr_in} {after : sip_message_t}
    (hread : RequestRead (received datagram client_addr) after) :
    SlicesInText after ↔
      EndsInText (buffered datagram) HEADER_NAME_FROM 4 ∧ EndsInText (buffered datagram) HEADER_NAME_TO 4 ∧
      EndsInText (buffered datagram) HEADER_NAME_VIA 7 := by
  obtain ⟨⟨line, -, hline, hrequest, hframe⟩, hheaders⟩ := hread
  obtain ⟨-, hmethod, uri, huri, horder, hend⟩ := hline.request rfl hrequest
  have htext := length_text_le datagram
  rw [buffer_received] at hend hheaders
  have hlength : after.buffer_length = datagram.bytes.length :=
    (congrArg (·.buffer_length) hframe).trans (congrArg (·.buffer_length) hline.frame)
  have hmethod_slice : InText datagram.bytes.length after.method after.method_length :=
    ⟨0, (congrArg (·.method) hframe).trans hmethod, by omega, by
      have h : after.method_length = line.method_length := congrArg (·.method_length) hframe
      omega⟩
  have huri_slice : InText datagram.bytes.length after.uri after.uri_length :=
    ⟨uri, (congrArg (·.uri) hframe).trans huri, by omega, by
      have h : after.uri_length = line.uri_length := congrArg (·.uri_length) hframe
      omega⟩
  constructor
  · intro h
    refine ⟨hheaders.from_tag.inText_iff.mp fun _ => ?_, hheaders.to_tag.inText_iff.mp fun hset => ?_,
      hheaders.branch.inText_iff.mp fun _ => ?_⟩
    · exact hlength ▸ h.from_tag
    · exact hlength ▸ h.to_tag hset
    · exact hlength ▸ h.branch
  · rintro ⟨hfrom, hto, hvia⟩
    constructor <;> rw [hlength]
    · exact hheaders.from_.inText
    · exact hheaders.from_tag.inText_iff.mpr hfrom hheaders.from_tag_found.1
    · exact hheaders.to_.inText
    · exact hheaders.to_tag.inText_iff.mpr hto
    · exact hheaders.via.inText
    · exact hheaders.branch.inText_iff.mpr hvia hheaders.branch_found.1
    · exact hheaders.cseq.inText
    · exact hmethod_slice
    · exact huri_slice

/-- The parser is safe on a datagram exactly when its parameter searches stay in the text.
Every other read and every other recorded slice is in range for all datagrams. -/
theorem parse_message_safe_iff (datagram : Datagram) (client_addr : sockaddr_in) :
    ParserSafe datagram client_addr ↔ ParametersInText datagram client_addr := by
  have houtcome := parse_message_outcome (received datagram client_addr) rfl
  cases hparse : parse_message (received datagram client_addr) with
  | error fault =>
    rw [hparse] at houtcome
    constructor
    · rintro ⟨err, after, h, -⟩
      rw [hparse] at h
      cases h
    · exact fun h => absurd h.reads houtcome.2
  | ok result =>
    obtain ⟨err, after⟩ := result
    rw [hparse] at houtcome
    obtain ⟨hreads, haccept, hfinal⟩ := houtcome
    constructor
    · rintro ⟨err', after', h, hslices⟩
      rw [hparse] at h
      cases h
      refine ⟨hreads, fun hline hcomplete => ?_⟩
      have herr := haccept.mpr ⟨hline, hcomplete⟩
      exact (slicesInText_iff (hfinal herr)).mp (hslices herr)
    · intro h
      refine ⟨err, after, hparse, fun herr => (slicesInText_iff (hfinal herr)).mpr ?_⟩
      obtain ⟨hline, hcomplete⟩ := haccept.mp herr
      exact h.ends hline hcomplete

/-- A datagram of 1023 bytes whose only semicolon is its last byte. -/
def semicolon_at_end : Datagram where
  bytes := ascii "INVITE sip:b SIP/2.0\r\nFrom: a\r\n" ++ List.replicate 991 120 ++ [SEMICOLON]
  fits := by decide +kernel

/-- A request whose From and To carry no parameter, with a semicolon as its body. -/
def semicolon_in_body : Datagram where
  bytes := ascii "INVITE sip:b SIP/2.0\r\nVia: SIP/2.0/UDP h;branch=z9\r\nFrom: a\r\nTo: b\r\n" ++
    ascii "Call-ID: c\r\nCSeq: 1 INVITE\r\nMax-Forwards: 70\r\nContent-Length: 1\r\n\r\n;"
  fits := by decide +kernel

private theorem semicolon_at_end_fault :
    parse_message (received semicolon_at_end ⟨2, 5060, 1⟩) = error .outOfBounds := by
  decide +kernel

private theorem semicolon_in_body_tag :
    ((parse_message (received semicolon_in_body ⟨2, 5060, 1⟩)).toOption.map fun result =>
      (result.1, result.2.buffer_length, result.2.from_tag, result.2.from_tag_length)) =
      some (.ERROR_NONE, 136, some 140, 2 ^ 64 - 81) := by
  decide +kernel

/-- On the first datagram the From tag is searched for behind the buffer; the second is
accepted with a From tag that starts behind the text and a length that wrapped. -/
theorem parse_message_unsafe :
    ¬ ParserSafe semicolon_at_end ⟨2, 5060, 1⟩ ∧ ¬ ParserSafe semicolon_in_body ⟨2, 5060, 1⟩ := by
  constructor
  · rintro ⟨err, after, hparse, -⟩
    rw [semicolon_at_end_fault] at hparse
    cases hparse
  · rintro ⟨err, after, hparse, hslices⟩
    have hresult := semicolon_in_body_tag
    rw [hparse] at hresult
    simp only [Except.toOption, Option.map_some, Option.some.injEq, Prod.mk.injEq] at hresult
    obtain ⟨rfl, hlength, htag, -⟩ := hresult
    obtain ⟨start, hstart, hlt, -⟩ := (hslices rfl).from_tag
    rw [htag, Option.some.injEq] at hstart
    omega

end mock_uas.sip_message
