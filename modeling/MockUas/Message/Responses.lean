import MockUas.Message.ParserSafety
import MockUas.Message.StatusLine

open clib

namespace mock_uas.sip_message

/-- The bytes of a slice. -/
def slice_text (buffer : Bytes) (slice : Option Nat) (length : Nat) : Option Bytes :=
  slice.map fun start => (buffer.drop start).take length

structure HeaderLine where
  name : Bytes
  blanks : Bytes
  value : Bytes
  deriving DecidableEq

def HeaderLine.text (line : HeaderLine) : Bytes := line.name ++ ascii ":" ++ line.blanks ++ line.value ++ CRLF

/-- The parts of a response. The header lines stand in any order. -/
structure ResponseParts where
  status_code : Bytes
  reason : Bytes
  via : Bytes
  branch : Bytes
  from_ : Bytes
  from_tag : Bytes
  to_ : Bytes
  call_id : Bytes
  cseq : Bytes
  content_length : Bytes
  headers : List HeaderLine

namespace ResponseParts

variable (parts : ResponseParts)

def via_value : Bytes := parts.via ++ ascii ";branch=" ++ parts.branch

def from_value : Bytes := parts.from_ ++ ascii ";tag=" ++ parts.from_tag

/-- The mandatory headers of a response. -/
def mandatory : List (Bytes × Bytes) :=
  [(HEADER_NAME_VIA, parts.via_value), (HEADER_NAME_FROM, parts.from_value), (HEADER_NAME_TO, parts.to_),
    (HEADER_NAME_CALL_ID, parts.call_id), (HEADER_NAME_CSEQ, parts.cseq),
    (HEADER_NAME_CONTENT_LENGTH, parts.content_length)]

def text : Bytes :=
  status_line parts.status_code parts.reason ++ CRLF ++ (parts.headers.flatMap HeaderLine.text ++ CRLF)

end ResponseParts

/-- A text without the bytes that end a line or a string. -/
def Plain (s : Bytes) : Prop := CR ∉ s ∧ LF ∉ s ∧ NUL ∉ s

instance (s : Bytes) : Decidable (Plain s) := inferInstanceAs (Decidable (_ ∧ _ ∧ _))

def is_token_char (b : UInt8) : Bool :=
  isdigit b || (65 ≤ b && b ≤ 90) || (97 ≤ b && b ≤ 122) || (ascii "-.!%*_+`'~").contains b

def Token (s : Bytes) : Prop := s ≠ [] ∧ ∀ b ∈ s, is_token_char b = true

instance (s : Bytes) : Decidable (Token s) := @instDecidableAnd _ _ inferInstance (List.decidableBAll _ _)

/-- A response as a client may receive one. -/
structure Response extends ResponseParts where
  code : status_code.length = 3 ∧ ∀ b ∈ status_code, isdigit b = true
  plain_reason : Plain reason
  branch_token : Token branch
  tag_token : Token from_tag
  complete : (headers.map fun line => (line.name, line.value)).Perm toResponseParts.mandatory
  blanks : ∀ line ∈ headers, ∀ b ∈ line.blanks, is_blank b = true
  values : ∀ line ∈ headers, line.value ≠ [] ∧ Plain line.value
  fits : toResponseParts.text.length < BUFFER_SIZE

def Response.datagram (response : Response) : Datagram := ⟨response.text, response.fits⟩

/-- The parser accepts the response and records its first line and its headers. -/
def ReadAsResponse (response : Response) (client_addr : sockaddr_in) : Prop :=
  ∃ after, parse_message (received response.datagram client_addr) = ok (.ERROR_NONE, after) ∧
    after.is_request = false ∧ after.status_code = decimal response.status_code ∧
    slice_text after.buffer after.reason after.reason_length = some response.reason ∧
    slice_text after.buffer after.from_ after.from_length = some response.from_value ∧
    slice_text after.buffer after.via after.via_length = some response.via_value ∧
    slice_text after.buffer after.cseq after.cseq_length = some response.cseq

/-- A datagram without a NUL is the text of its buffer. -/
theorem cstr_buffered {datagram : Datagram} (h : NUL ∉ datagram.bytes) :
    cstr (buffered datagram) 0 = datagram.bytes := by
  have hfits := datagram.fits
  obtain ⟨k, hk⟩ : ∃ k, BUFFER_SIZE - datagram.bytes.length = k + 1 := ⟨BUFFER_SIZE - datagram.bytes.length - 1, by omega⟩
  rw [cstr, List.drop_zero, buffered, hk, List.replicate_succ]
  refine List.takeWhile_append_of_pos ?_ |>.trans ?_
  · intro b hb
    have hne : b ≠ NUL := fun he => h (he ▸ hb)
    simpa using hne
  · simp

private theorem nul_not_mem_header (response : Response) {line : HeaderLine} (h : line ∈ response.headers) :
    NUL ∉ line.text := by
  have hmandatory : (line.name, line.value) ∈ response.mandatory :=
    response.complete.mem_iff.mp (List.mem_map.mpr ⟨line, h, rfl⟩)
  have hname : line.name ∈ response.mandatory.map (·.1) := List.mem_map_of_mem hmandatory
  have hnames : ∀ name ∈ response.mandatory.map (·.1), NUL ∉ name := by
    simp only [ResponseParts.mandatory, List.map_cons, List.map_nil]
    decide
  have hblanks : NUL ∉ line.blanks := fun hmem => absurd (response.blanks line h NUL hmem) (by decide)
  have hcolon : NUL ∉ ascii ":" := by decide
  have hcrlf : NUL ∉ CRLF := by decide
  simp only [HeaderLine.text, List.mem_append, not_or]
  exact ⟨⟨⟨⟨hnames _ hname, hcolon⟩, hblanks⟩, (response.values line h).2.2.2⟩, hcrlf⟩

private theorem nul_not_mem_text (response : Response) : NUL ∉ response.text := by
  have hdigits : NUL ∉ response.status_code := fun hmem => absurd (response.code.2 NUL hmem) (by decide)
  have hversion : NUL ∉ SIP_PROTOCOL_AND_VERSION := by decide
  have hspace : NUL ∉ [SPACE] := by decide
  have hcrlf : NUL ∉ CRLF := by decide
  have hheaders : NUL ∉ response.headers.flatMap HeaderLine.text := by
    intro hmem
    obtain ⟨line, hline, hin⟩ := List.mem_flatMap.mp hmem
    exact nul_not_mem_header response hline hin
  simp only [ResponseParts.text, status_line, List.mem_append, not_or]
  exact ⟨⟨⟨⟨⟨⟨hversion, hspace⟩, hdigits⟩, hspace⟩, response.plain_reason.2.2⟩, hcrlf⟩, hheaders, hcrlf⟩

/-- A first line that is no request line is read and then refused for its method. -/
theorem parse_message_of_response {message line : sip_message_t}
    (hline : parse_first_line message = ok (.ERROR_NONE, line)) (hrequest : line.is_request = false) :
    parse_message message = ok (.ERROR_UNKNOWN_METHOD, line) := by
  simp [parse_message, hline, get_message_method, hrequest]

/-- The first line of a text that starts with a status line is read as that status line. -/
theorem parse_first_line_reads {datagram : Datagram} {status_code reason rest : Bytes} (client_addr : sockaddr_in)
    (hbytes : datagram.bytes = status_line status_code reason ++ CRLF ++ rest) (hnul : NUL ∉ datagram.bytes)
    (hne : status_code ≠ []) (hdigits : ∀ b ∈ status_code, isdigit b = true) (hcode : decimal status_code < 2 ^ 31)
    (hreason : infixIdx CRLF reason = none) :
    ∃ after, parse_first_line (received datagram client_addr) = ok (.ERROR_NONE, after) ∧ after.is_request = false ∧
      after.status_code = decimal status_code ∧
      slice_text after.buffer after.reason after.reason_length = some reason := by
  have hbuffer := buffered_spec datagram
  have htext := (cstr_buffered hnul).trans hbytes
  refine ⟨_, @parse_first_line_status (received datagram client_addr) _ _ _ (hbuffer.terminated 0 hbuffer.nonempty)
    hbuffer.bound htext hne hdigits hreason, rfl, ?_, ?_⟩
  · change intCast (min (decimal status_code) (2 ^ 63 - 1)) = _
    rw [Nat.min_eq_left (by omega), intCast_of_small (by omega)]
  · have hfront : buffered datagram = status_line status_code reason ++
        (CRLF ++ (rest ++ List.replicate (BUFFER_SIZE - datagram.bytes.length) NUL)) := by
      rw [buffered, hbytes]
      simp only [List.append_assoc]
    change some (((buffered datagram).drop (9 + status_code.length)).take reason.length) = some reason
    rw [hfront, reason_of_status_line]

/-- The parser reads the first line of a response and then refuses it, since only requests
have a method. -/
theorem response_refused (response : Response) (client_addr : sockaddr_in) :
    ∃ after, parse_message (received response.datagram client_addr) = ok (.ERROR_UNKNOWN_METHOD, after) ∧
      after.is_request = false ∧ after.status_code = decimal response.status_code ∧
      slice_text after.buffer after.reason after.reason_length = some response.reason := by
  have hne : response.status_code ≠ [] := List.ne_nil_of_length_eq_add_one response.code.1
  have hlt := decimal_lt response.code.2
  rw [response.code.1] at hlt
  obtain ⟨after, hline, hrequest, hcode, hreason⟩ := @parse_first_line_reads response.datagram _ _ _ client_addr
    rfl (nul_not_mem_text response) hne response.code.2 (by omega) (infixIdx_of_not_mem response.plain_reason.1)
  exact ⟨after, parse_message_of_response hline hrequest, hrequest, hcode, hreason⟩

/-- No response is ever accepted. -/
theorem responses_never_accepted (response : Response) (client_addr : sockaddr_in) :
    ¬ ReadAsResponse response client_addr := by
  rintro ⟨after, haccepted, -⟩
  obtain ⟨line, hrefused, -⟩ := response_refused response client_addr
  rw [haccepted] at hrefused
  cases hrefused

def ok_response : Response where
  status_code := ascii "200"
  reason := ascii "OK"
  via := ascii "SIP/2.0/UDP h"
  branch := ascii "z9hG4bK1"
  from_ := ascii "<sip:a@h>"
  from_tag := ascii "a"
  to_ := ascii "<sip:b@h>;tag=b"
  call_id := ascii "c@h"
  cseq := ascii "1 INVITE"
  content_length := ascii "0"
  headers :=
    [⟨HEADER_NAME_VIA, ascii " ", ascii "SIP/2.0/UDP h;branch=z9hG4bK1"⟩,
      ⟨HEADER_NAME_FROM, ascii " ", ascii "<sip:a@h>;tag=a"⟩, ⟨HEADER_NAME_TO, ascii " ", ascii "<sip:b@h>;tag=b"⟩,
      ⟨HEADER_NAME_CALL_ID, ascii " ", ascii "c@h"⟩, ⟨HEADER_NAME_CSEQ, ascii " ", ascii "1 INVITE"⟩,
      ⟨HEADER_NAME_CONTENT_LENGTH, ascii " ", ascii "0"⟩]
  code := ⟨by decide, List.all_eq_true.mp (by decide)⟩
  plain_reason := by decide
  branch_token := by decide
  tag_token := by decide
  complete := by decide
  blanks := by
    intro line hline
    apply List.all_eq_true.mp
    revert line hline
    decide
  values := by decide
  fits := by decide +kernel

private theorem ok_response_error :
    ((parse_message (received ok_response.datagram ⟨2, 5060, 1⟩)).toOption.map (·.1)) = some .ERROR_UNKNOWN_METHOD := by
  decide +kernel

/-- A 200 to an INVITE is refused. -/
theorem ok_response_refused : ¬ ReadAsResponse ok_response ⟨2, 5060, 1⟩ := by
  rintro ⟨after, haccepted, -⟩
  have herr := ok_response_error
  rw [haccepted] at herr
  cases herr

end mock_uas.sip_message
