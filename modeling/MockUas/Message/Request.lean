import MockUas.Clib.Text
import MockUas.Message.ParserSafety

open clib

namespace mock_uas.sip_message

/-- The message `handle_new_message` hands to a worker for a datagram, if any: one without
a Call-ID is dropped. -/
def dispatched (datagram : Datagram) (client_addr : sockaddr_in) : Result (Option sip_message_t) := do
  let (call_id, message) ← get_message_call_id (received datagram client_addr)
  ok (call_id.map fun _ => message)

/-- A pointer into a buffer from which a C string can be read. -/
def Points (buffer : Bytes) (pointer : Option Nat) : Prop := ∃ i, pointer = some i ∧ Terminated buffer i

/-- A slice whose bytes all belong to the C string at its start. -/
def Slice (buffer : Bytes) (pointer : Option Nat) (length : Nat) : Prop :=
  ∃ i, pointer = some i ∧ Terminated buffer i ∧ length ≤ (cstr buffer i).length ∧ length < 2 ^ 31

/-- What the server relies on in a request it has parsed. The tags and the branch can be
read from, but their lengths need not be those of slices. -/
structure Request (message : sip_message_t) : Prop where
  buffer : message.buffer.length = BUFFER_SIZE
  via : Slice message.buffer message.via message.via_length
  from_ : Slice message.buffer message.from_ message.from_length
  to_ : Slice message.buffer message.to_ message.to_length
  call_id : Slice message.buffer message.call_id message.call_id_length
  cseq : Slice message.buffer message.cseq message.cseq_length
  from_tag : Points message.buffer message.from_tag ∧ message.from_tag_length ≠ 0
  to_tag : message.to_tag = none ∨ Points message.buffer message.to_tag
  branch : Points message.buffer message.branch ∧ message.branch_length ≠ 0
  branch_length : Recorded message.branch_length
  is_request : message.is_request = true
  method_type : message.method_type ≠ .UNKNOWN
  response : message.response.length = BUFFER_SIZE
  client_addr_len : message.client_addr_len ≠ 0

/-- What a parsed message still has of the message that was received. -/
structure Unanswered (datagram : Datagram) (client_addr : sockaddr_in) (message : sip_message_t) : Prop where
  buffer : message.buffer = buffered datagram
  buffer_length : message.buffer_length = datagram.bytes.length
  client_addr : message.client_addr = client_addr
  response : message.response = List.replicate BUFFER_SIZE NUL
  response_length : message.response_length = 0

/-- A request a worker is given and its parser accepts. -/
def Accepted (datagram : Datagram) (client_addr : sockaddr_in) (message : sip_message_t) : Prop :=
  ∃ handed, dispatched datagram client_addr = ok (some handed) ∧
    parse_message handed = ok (.ERROR_NONE, message) ∧ message.is_request = true

/-- The request a worker gets from a datagram, if it gets one. -/
def accepted_message (datagram : Datagram) (client_addr : sockaddr_in) : Option sip_message_t := do
  let handed ← (dispatched datagram client_addr).toOption.join
  let (err, message) ← (parse_message handed).toOption
  if err = .ERROR_NONE ∧ message.is_request = true then some message else none

theorem accepted_iff {datagram : Datagram} {client_addr : sockaddr_in} {message : sip_message_t} :
    Accepted datagram client_addr message ↔ accepted_message datagram client_addr = some message := by
  unfold Accepted accepted_message
  cases hdispatched : dispatched datagram client_addr with
  | error fault => simp [Except.toOption]
  | ok found =>
    cases found with
    | none => simp [Except.toOption]
    | some handed =>
      cases hparse : parse_message handed with
      | error fault => simp [Except.toOption, hparse]
      | ok result =>
        obtain ⟨err, parsed⟩ := result
        simp only [Except.ok.injEq, Option.some.injEq, exists_eq_left', hparse, Except.toOption, Option.join_some,
          Option.bind_eq_bind, Option.bind_some, Prod.mk.injEq, Option.ite_none_right_eq_some]
        constructor
        · rintro ⟨⟨rfl, rfl⟩, hrequest⟩
          exact ⟨⟨rfl, hrequest⟩, rfl⟩
        · rintro ⟨⟨rfl, hrequest⟩, rfl⟩
          exact ⟨⟨rfl, rfl⟩, hrequest⟩

theorem accepted_unique {datagram : Datagram} {client_addr : sockaddr_in} {message message' : sip_message_t}
    (h : Accepted datagram client_addr message) (h' : Accepted datagram client_addr message') :
    message = message' := by
  rw [accepted_iff] at h h'
  rw [h, Option.some.injEq] at h'
  exact h'

theorem Points.readable {buffer : Bytes} {pointer : Option Nat} (h : Points buffer pointer) :
    ∃ s, textAt buffer pointer = ok s ∧ textArg buffer pointer = ok (some s) ∧ NUL ∉ s := by
  obtain ⟨i, rfl, hterm⟩ := h
  exact ⟨_, text_eq hterm, by simp [textArg, text_eq hterm], nul_not_mem_cstr _ _⟩

theorem Slice.points {buffer : Bytes} {pointer : Option Nat} {length : Nat} (h : Slice buffer pointer length) :
    Points buffer pointer := by
  obtain ⟨i, hi, hterm, -⟩ := h
  exact ⟨i, hi, hterm⟩

private theorem slice_of_header_value {buffer header_name : Bytes} {value length : Nat}
    (hbuffer : Buffered buffer) (hsize : buffer.length < 2 ^ 31)
    (h : header_value buffer header_name = some (value, length)) :
    Slice buffer (some value) length := by
  obtain ⟨-, hend, -⟩ := header_value_bounds h
  have hterm := hbuffer.terminated 0 hbuffer.nonempty
  have hlt := length_cstr_lt hterm
  have hat := hterm.add (k := value) (by omega)
  rw [Nat.zero_add] at hat
  have hlength := @length_cstr_of_le buffer value (by omega)
  exact ⟨value, rfl, hat, by omega, by omega⟩

private theorem slice_of_headerSlice {buffer header_name : Bytes} {slice : Option Nat} {length : Nat}
    (hbuffer : Buffered buffer) (hsize : buffer.length < 2 ^ 31)
    (h : HeaderSlice buffer header_name slice length) : Slice buffer slice length := by
  obtain ⟨value, rfl, hvalue, -⟩ := h
  exact slice_of_header_value hbuffer hsize hvalue

private theorem points_of_parameterSlice {buffer header_name : Bytes} {skip : Nat} {slice : Option Nat}
    {length : Nat} (hbuffer : Buffered buffer) (h : ParameterSlice buffer header_name skip slice length) :
    slice = none ∨ Points buffer slice := by
  obtain ⟨value, value_length, -, -, hin⟩ := h
  cases slice with
  | none => exact .inl rfl
  | some position => exact .inr ⟨position, rfl, hbuffer.terminated _ (hin position rfl).1⟩

theorem recorded_of_parameterSlice {buffer header_name : Bytes} {skip : Nat} {slice : Option Nat}
    {length : Nat} (hbuffer : Buffered buffer) (hsize : buffer.length < 2 ^ 31)
    (h : ParameterSlice buffer header_name skip slice length) (hfound : slice ≠ none) : Recorded length := by
  obtain ⟨value, value_length, hvalue, -, hin⟩ := h
  obtain ⟨position, hposition⟩ := Option.ne_none_iff_exists'.mp hfound
  obtain ⟨hlt, rfl⟩ := hin position hposition
  obtain ⟨-, hend, -⟩ := header_value_bounds hvalue
  have hstart := length_cstr_lt (hbuffer.terminated 0 hbuffer.nonempty)
  have hposition_end := length_cstr_lt (hbuffer.terminated position hlt)
  have hbound : (next_cr buffer position).getD (value + value_length) < 2 ^ 31 := by
    cases hnext : next_cr buffer position with
    | none =>
      rw [Option.getD_none]
      omega
    | some k =>
      obtain ⟨-, hk⟩ := next_cr_bounds hnext
      rw [Option.getD_some]
      omega
  exact recorded_sizeSub hbound (hlt.trans hsize)

/-- The dispatcher reads inside the buffer, and changes nothing but the Call-ID. -/
theorem dispatched_eq (datagram : Datagram) (client_addr : sockaddr_in) :
    dispatched datagram client_addr = ok ((header_value (buffered datagram) HEADER_NAME_CALL_ID).map
      fun call_id => { received datagram client_addr with
        call_id := some call_id.1
        call_id_length := call_id.2 }) := by
  have hvalue := (buffered_spec datagram).get_header_value plain_header_names.1
  unfold dispatched get_message_call_id get_message_header
  rw [buffer_received]
  simp only [received, hvalue, bind_ok]
  cases header_value (buffered datagram) HEADER_NAME_CALL_ID <;> rfl

/-- What the parser leaves of the message it was given. -/
private theorem unparsed_fields {handed line message : sip_message_t}
    (hline : withoutFirstLine line = withoutFirstLine handed)
    (hafter : withoutHeaders message = withoutHeaders line) :
    message.buffer = handed.buffer ∧ message.buffer_length = handed.buffer_length ∧
      message.response = handed.response ∧ message.response_length = handed.response_length ∧
      message.client_addr = handed.client_addr ∧ message.client_addr_len = handed.client_addr_len ∧
      message.call_id = handed.call_id ∧ message.call_id_length = handed.call_id_length :=
  ⟨(congrArg (·.buffer) hafter).trans (congrArg (·.buffer) hline),
    (congrArg (·.buffer_length) hafter).trans (congrArg (·.buffer_length) hline),
    (congrArg (·.response) hafter).trans (congrArg (·.response) hline),
    (congrArg (·.response_length) hafter).trans (congrArg (·.response_length) hline),
    (congrArg (·.client_addr) hafter).trans (congrArg (·.client_addr) hline),
    (congrArg (·.client_addr_len) hafter).trans (congrArg (·.client_addr_len) hline),
    (congrArg (·.call_id) hafter).trans (congrArg (·.call_id) hline),
    (congrArg (·.call_id_length) hafter).trans (congrArg (·.call_id_length) hline)⟩

/-- An accepted request is what the parser made of the datagram and its Call-ID. -/
private theorem Accepted.read {datagram : Datagram} {client_addr : sockaddr_in} {message : sip_message_t}
    (h : Accepted datagram client_addr message) :
    ∃ value length, header_value (buffered datagram) HEADER_NAME_CALL_ID = some (value, length) ∧
      RequestRead { received datagram client_addr with call_id := some value, call_id_length := length } message := by
  obtain ⟨handed, hhanded, hparse, -⟩ := h
  rw [dispatched_eq, Except.ok.injEq] at hhanded
  obtain ⟨⟨value, length⟩, hvalue, rfl⟩ := Option.map_eq_some_iff.mp hhanded
  have houtcome := parse_message_outcome { received datagram client_addr with
    call_id := some value, call_id_length := length } rfl
  rw [hparse] at houtcome
  exact ⟨value, length, hvalue, houtcome.2.2 rfl⟩

/-- The headers an accepted request records, with its Call-ID. -/
structure AllRecorded (buffer : Bytes) (message : sip_message_t) : Prop extends HeadersRecorded buffer message where
  call_id : ∃ value, message.call_id = some value ∧
    header_value buffer HEADER_NAME_CALL_ID = some (value, message.call_id_length)

theorem Accepted.recorded {datagram : Datagram} {client_addr : sockaddr_in} {message : sip_message_t}
    (h : Accepted datagram client_addr message) :
    message.buffer = buffered datagram ∧ AllRecorded (buffered datagram) message := by
  obtain ⟨value, length, hvalue, ⟨line, -, hline, -, hafter⟩, hheaders⟩ := h.read
  obtain ⟨hbuf, -, -, -, -, -, hid, hid_length⟩ := unparsed_fields hline.frame hafter
  exact ⟨hbuf, hheaders, value, hid, by rw [hid_length, hvalue]⟩

/-- An accepted request has everything the server relies on. -/
theorem Accepted.request {datagram : Datagram} {client_addr : sockaddr_in} {message : sip_message_t}
    (h : Accepted datagram client_addr message) :
    Request message ∧ Unanswered datagram client_addr message := by
  obtain ⟨value, length, hvalue, ⟨line, -, hline, hline_request, hafter⟩, hheaders⟩ := h.read
  obtain ⟨-, -, -, hrequest⟩ := h
  obtain ⟨hbuf, hlen, hresponse, hresponse_length, haddr, haddr_len, hid, hid_length⟩ :=
    unparsed_fields hline.frame hafter
  simp only [buffer_received] at hbuf hheaders
  have hbuffer := buffered_spec datagram
  have hsize : (buffered datagram).length < 2 ^ 31 := by
    rw [length_buffered]
    decide
  refine ⟨?_, hbuf, hlen, haddr, hresponse, hresponse_length⟩
  constructor <;> try rw [hbuf]
  · exact length_buffered datagram
  · exact slice_of_headerSlice hbuffer hsize hheaders.via
  · exact slice_of_headerSlice hbuffer hsize hheaders.from_
  · exact slice_of_headerSlice hbuffer hsize hheaders.to_
  · rw [hid, hid_length]
    exact slice_of_header_value hbuffer hsize hvalue
  · exact slice_of_headerSlice hbuffer hsize hheaders.cseq
  · exact ⟨(points_of_parameterSlice hbuffer hheaders.from_tag).resolve_left hheaders.from_tag_found.1,
      hheaders.from_tag_found.2⟩
  · exact points_of_parameterSlice hbuffer hheaders.to_tag
  · exact ⟨(points_of_parameterSlice hbuffer hheaders.branch).resolve_left hheaders.branch_found.1,
      hheaders.branch_found.2⟩
  · exact recorded_of_parameterSlice hbuffer hsize hheaders.branch hheaders.branch_found.1
  · exact hrequest
  · have hmethod : message.method_type = line.method_type := congrArg (·.method_type) hafter
    rw [hmethod]
    exact (hline.request rfl hline_request).1
  · rw [hresponse]
    exact List.length_replicate
  · rw [haddr_len]
    exact Nat.succ_ne_zero 15

end mock_uas.sip_message
