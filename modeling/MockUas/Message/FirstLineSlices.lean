import MockUas.Message.FirstLineText
import MockUas.Message.Scanner

open clib

namespace mock_uas.sip_message

/-- A text's first line, and what follows its CRLF. -/
def FirstLine (text line behind : Bytes) : Prop := text = line ++ CRLF ++ behind ∧ ¬ CRLF <:+: line

/-- The method and the URI of a request line: two slices, one behind the other and before the
line's end, without a space. -/
structure RequestSlices (text line : Bytes) (method method_length uri uri_length : Nat) : Prop where
  method_nonempty : 0 < method_length
  uri_nonempty : 0 < uri_length
  apart : method + method_length < uri
  before_end : uri + uri_length < line.length
  method_plain : SPACE ∉ (text.drop method).take method_length
  uri_plain : SPACE ∉ (text.drop uri).take uri_length

/-- What an accepted first line leaves in the message. -/
structure SlicesInLine (text line : Bytes) (message : sip_message_t) : Prop where
  request : message.is_request = true → ∃ method uri, message.method = some method ∧ message.uri = some uri ∧
    RequestSlices text line method message.method_length uri message.uri_length
  response : message.is_request = false → ∃ reason, message.reason = some reason ∧ reason ≤ line.length ∧
    reason + message.reason_length = line.length

theorem holding_text {text : Bytes} (htext : NUL ∉ text) (rest : Bytes) : Holding (text ++ NUL :: rest) text := by
  obtain ⟨hcstr, hterm⟩ := cstr_text htext rest
  have hholding := holding_cstr hterm
  rwa [hcstr] at hholding

private theorem status_line_in_buffer (message : sip_message_t) (buffer text : Bytes) (line_end : Nat) :
    status_line_in { message with buffer := buffer } text line_end =
      ((status_line_in message text line_end).1,
        { (status_line_in message text line_end).2 with buffer := buffer }) := by
  rw [status_line_in, status_line_in]
  cases next_in SLASH text 0 with
  | none => rfl
  | some dash_pos =>
    simp only
    split
    · rfl
    split
    · rfl
    split
    · rfl
    split
    · rfl
    · rfl

private theorem uri_in_buffer (message : sip_message_t) (buffer text : Bytes) (line_end space_pos : Nat) :
    uri_in { message with buffer := buffer } text line_end space_pos =
      ((uri_in message text line_end space_pos).1,
        { (uri_in message text line_end space_pos).2 with buffer := buffer }) := by
  rw [uri_in, uri_in]
  simp only
  split
  · rfl
  cases next_in SPACE text (skipped_to is_space text (space_pos + 1) line_end) with
  | none => rfl
  | some uri_end =>
    simp only
    split
    · rfl
    cases next_in SLASH text uri_end with
    | none => rfl
    | some dash_pos =>
      simp only
      split
      · rfl
      split
      · rfl
      · rfl

/-- The parser leaves the buffer alone. -/
theorem first_line_in_buffer (message : sip_message_t) (buffer text : Bytes) :
    first_line_in { message with buffer := buffer } text =
      ((first_line_in message text).1, { (first_line_in message text).2 with buffer := buffer }) := by
  rw [first_line_in, first_line_in]
  cases infixIdx CRLF text with
  | none => rfl
  | some line_end =>
    simp only
    split
    · exact status_line_in_buffer { message with is_request := false } buffer text line_end
    · rw [request_line_in, request_line_in]
      cases next_in SPACE text 0 with
      | none => rfl
      | some space_pos =>
        simp only
        generalize sizeSub space_pos 0 = method_length
        generalize method_in text method_length = method_type
        split
        · rfl
        split
        · rfl
        · exact uri_in_buffer { message with
            is_request := true
            method := some 0
            method_length := method_length
            method_type := method_type } buffer text line_end space_pos

theorem firstLine_of_infixIdx {text : Bytes} {line_end : Nat} (h : infixIdx CRLF text = some line_end) :
    FirstLine text (text.take line_end) (text.drop (line_end + 2)) ∧ (text.take line_end).length = line_end ∧
      line_end + 2 ≤ text.length := by
  have hle := infixIdx_le h
  simp only [CRLF, List.length_cons, List.length_nil] at hle
  refine ⟨⟨?_, ?_⟩, ?_, hle⟩
  · rw [List.append_assoc]
    exact eq_line_append_of_some h
  · rw [← infixIdx_eq_none_iff (by decide)]
    exact infixIdx_take h
  · rw [List.length_take]
    omega

/-- A known method is one of the names, up to letter case. -/
theorem method_in_ne_unknown_iff {text : Bytes} {n : Nat} : method_in text n ≠ .UNKNOWN ↔
    ∃ entry ∈ METHOD_NAMES, n = entry.1.length ∧ startsWithCase entry.1 text = true := by
  have hknown : METHOD_NAMES.all (fun entry => entry.2 != .UNKNOWN) = true := by decide
  rw [method_in]
  cases hfind : METHOD_NAMES.find? (fun entry => n == entry.1.length && startsWithCase entry.1 text) with
  | none =>
    rw [List.find?_eq_none] at hfind
    constructor
    · intro hne
      exact absurd rfl hne
    · rintro ⟨entry, hmem, hlength, hstarts⟩
      exact absurd (by simpa using ⟨hlength, hstarts⟩) (hfind entry hmem)
  | some entry =>
    have hmem := List.mem_of_find?_eq_some hfind
    have hentry := List.find?_some hfind
    have hne := List.all_eq_true.mp hknown entry hmem
    simp only [Bool.and_eq_true, beq_iff_eq] at hentry
    constructor
    · exact fun _ => ⟨entry, hmem, hentry⟩
    · intro _
      simpa using hne

private theorem method_nonempty {text : Bytes} {n : Nat} (h : method_in text n ≠ .UNKNOWN) : 0 < n := by
  have hnames : METHOD_NAMES.all (fun entry => 0 < entry.1.length) = true := by decide
  obtain ⟨entry, hmem, rfl, -⟩ := method_in_ne_unknown_iff.mp h
  simpa using List.all_eq_true.mp hnames entry hmem

private theorem RequestText.slices {text : Bytes} {line_end : Nat} {method spaces uri front version : Bytes}
    (h : RequestText text line_end method spaces uri front version) (hline : (text.take line_end).length = line_end) :
    RequestSlices text (text.take line_end) 0 method.length (method.length + 1 + spaces.length) uri.length := by
  have hinside := h.rest.inside
  constructor
  · exact method_nonempty h.known
  · exact List.length_pos_iff.mpr h.rest.uri_plain.1
  · omega
  · omega
  · rw [List.drop_zero, h.cut, List.take_left]
    exact h.method_plain
  · have hbefore : (method ++ SPACE :: spaces).length = method.length + 1 + spaces.length := by
      rw [List.length_append, List.length_cons]
      omega
    have hcut : text = (method ++ SPACE :: spaces) ++ (uri ++ SPACE :: (front ++ SLASH :: version)) := by
      rw [h.cut]
      simp
    rw [hcut, ← hbefore, List.drop_left, List.take_left]
    exact h.rest.uri_plain.2

/-- A first line that is accepted is a status line or a request line as the parser takes them. -/
theorem accepted_first_line {message : sip_message_t} {text : Bytes} (hbound : text.length < sizeMax)
    (h : (first_line_in message text).1 = .ERROR_NONE) : ∃ line_end, infixIdx CRLF text = some line_end ∧
      ((∃ front version spaces code reason, StatusText text line_end front version spaces code reason ∧
          (ascii "SIP").isPrefixOf text = true ∧
          first_line_in message text = status_line_in { message with is_request := false } text line_end) ∨
        ∃ method spaces uri front version, RequestText text line_end method spaces uri front version ∧
          (ascii "SIP").isPrefixOf text = false ∧
          first_line_in message text = request_line_in { message with is_request := true } text line_end) := by
  rw [first_line_in] at h ⊢
  cases hline : infixIdx CRLF text with
  | none => simp [hline] at h
  | some line_end =>
    obtain ⟨-, -, hend⟩ := firstLine_of_infixIdx hline
    refine ⟨line_end, rfl, ?_⟩
    simp only [hline] at h ⊢
    cases hsip : (ascii "SIP").isPrefixOf text with
    | true =>
      rw [hsip, if_pos rfl] at h
      obtain ⟨front, version, spaces, code, reason, htaken⟩ := statusText_of_status_line_in (by omega) h
      exact .inl ⟨front, version, spaces, code, reason, htaken, rfl, if_pos rfl⟩
    | false =>
      rw [hsip, if_neg Bool.false_ne_true] at h
      obtain ⟨method, spaces, uri, front, version, htaken⟩ := requestText_of_request_line_in (by omega) hbound h
      exact .inr ⟨method, spaces, uri, front, version, htaken, rfl, if_neg Bool.false_ne_true⟩

/-- Whatever a NUL-terminated buffer holds, the parser reads nothing behind the NUL, and the
slices of a first line that it accepts are in order and in the line. -/
theorem first_line_slices (message : sip_message_t) (text rest : Bytes) (hbuffer : message.buffer = text ++ NUL :: rest)
    (htext : NUL ∉ text) (hbound : message.buffer.length < sizeMax) (hunknown : message.method_type = .UNKNOWN) :
    ∃ err after, parse_first_line message = ok (err, after) ∧
      parse_first_line { message with buffer := text ++ [NUL] } = ok (err, { after with buffer := text ++ [NUL] }) ∧
      (err = .ERROR_NONE → ∃ line behind, FirstLine text line behind ∧ SlicesInLine text line after) := by
  have hholding := holding_text htext rest
  rw [← hbuffer] at hholding
  have hparse := parse_first_line_eq hholding hunknown
  have hshort := @parse_first_line_eq { message with buffer := text ++ [NUL] } text (holding_text htext []) hunknown
  rw [first_line_in_buffer] at hshort
  refine ⟨(first_line_in message text).1, (first_line_in message text).2, hparse, hshort, fun haccepted => ?_⟩
  rw [hbuffer, List.length_append] at hbound
  obtain ⟨line_end, hline, htaken⟩ := accepted_first_line (by omega) haccepted
  obtain ⟨hfirst, hlength, hend⟩ := firstLine_of_infixIdx hline
  refine ⟨_, _, hfirst, ?_⟩
  rcases htaken with ⟨front, version, spaces, code, reason, htaken, -, hafter⟩ |
    ⟨method, spaces, uri, front, version, htaken, -, hafter⟩
  · have hinside := htaken.code_inside
    rw [hafter, status_line_in_of_statusText _ htaken]
    refine ⟨nofun, fun _ => ⟨_, rfl, by omega, ?_⟩⟩
    simp only [hlength]
    rw [sizeSub_eq (by omega) (by omega)]
    omega
  · rw [hafter, request_line_in_of_requestText _ (by omega) htaken]
    exact ⟨fun _ => ⟨0, _, rfl, rfl, htaken.slices hlength⟩, nofun⟩

/-- A zeroed message with a buffer. -/
def zeroed (buffer : Bytes) : sip_message_t :=
  { received ⟨[], by decide⟩ ⟨0, 0, 0⟩ with buffer := buffer, client_addr_len := 0 }

private theorem bye_accepted :
    (parse_first_line (zeroed (ascii "BYE sip:a SIP/2.0\r\n" ++ NUL :: CRLF))).toOption.map (·.1) =
      some .ERROR_NONE := by
  decide +kernel

/-- The first line of a BYE is accepted, and its slices are in it. -/
theorem bye_slices :
    ∃ after, parse_first_line (zeroed (ascii "BYE sip:a SIP/2.0\r\n" ++ NUL :: CRLF)) = ok (.ERROR_NONE, after) ∧
      parse_first_line (zeroed (ascii "BYE sip:a SIP/2.0\r\n" ++ [NUL])) =
        ok (.ERROR_NONE, { after with buffer := ascii "BYE sip:a SIP/2.0\r\n" ++ [NUL] }) ∧
      ∃ line behind, FirstLine (ascii "BYE sip:a SIP/2.0\r\n") line behind ∧
        SlicesInLine (ascii "BYE sip:a SIP/2.0\r\n") line after := by
  obtain ⟨err, after, hparse, hshort, hslices⟩ := first_line_slices
    (zeroed (ascii "BYE sip:a SIP/2.0\r\n" ++ NUL :: CRLF)) _ CRLF rfl (by decide) (by decide) rfl
  have haccepted := bye_accepted
  rw [hparse] at haccepted
  obtain rfl : err = .ERROR_NONE := Option.some.inj haccepted
  exact ⟨after, hparse, hshort, hslices rfl⟩

end mock_uas.sip_message
