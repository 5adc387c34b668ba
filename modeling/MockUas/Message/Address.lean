import MockUas.Message.FirstLineSlices
import MockUas.Message.Request

open clib

namespace mock_uas.sip_message

/-- Whether a request line is accepted is up to the text in the buffer. -/
private theorem RequestLineAccepted.of_text {message message' : sip_message_t} {text : Bytes}
    (h : RequestLineAccepted message) (hbound : text.length < sizeMax) (hholding : Holding message.buffer text)
    (hunknown : message.method_type = .UNKNOWN) (hholding' : Holding message'.buffer text)
    (hunknown' : message'.method_type = .UNKNOWN) : RequestLineAccepted message' := by
  obtain ⟨line, hparse, hrequest⟩ := h
  rw [parse_first_line_eq hholding hunknown, Except.ok.injEq] at hparse
  have herr : (first_line_in message text).1 = .ERROR_NONE := by rw [hparse]
  obtain ⟨line_end, hend, ⟨front, version, spaces, code, reason, htaken, -, hline⟩ |
    ⟨method, spaces, uri, front, version, htaken, hsip, -⟩⟩ := accepted_first_line hbound herr
  · rw [hparse, status_line_in_of_statusText _ htaken, Prod.mk.injEq] at hline
    rw [hline.2] at hrequest
    cases hrequest
  · have hline' : first_line_in message' text =
        request_line_in { message' with is_request := true } text line_end := by
      rw [first_line_in, hend]
      simp only [hsip, Bool.false_eq_true, if_false]
    rw [request_line_in_of_requestText _ hbound htaken] at hline'
    exact ⟨_, (parse_first_line_eq hholding' hunknown').trans (congrArg ok hline'), rfl⟩

private theorem ParameterSlice.unique {buffer header_name : Bytes} {skip : Nat} {slice slice' : Option Nat}
    {length length' : Nat} (h : ParameterSlice buffer header_name skip slice length)
    (h' : ParameterSlice buffer header_name skip slice' length') (hfound : slice ≠ none) :
    slice' = slice ∧ length' = length := by
  obtain ⟨value, value_length, hvalue, hslice, hin⟩ := h
  obtain ⟨value', value_length', hvalue', hslice', hin'⟩ := h'
  rw [hvalue, Option.some.injEq, Prod.mk.injEq] at hvalue'
  obtain ⟨rfl, rfl⟩ := hvalue'
  obtain ⟨position, hposition⟩ := Option.ne_none_iff_exists'.mp hfound
  have hsame : slice' = slice := hslice'.trans hslice.symm
  exact ⟨hsame, (hin' position (hsame.trans hposition)).2.trans (hin position hposition).2.symm⟩

/-- A request is accepted from whatever address it comes, with the same branch. -/
theorem Accepted.from_address {datagram : Datagram} {client_addr : sockaddr_in} {message : sip_message_t}
    (h : Accepted datagram client_addr message) (client_addr' : sockaddr_in) :
    ∃ message', Accepted datagram client_addr' message' ∧ message'.buffer = message.buffer ∧
      message'.branch = message.branch ∧ message'.branch_length = message.branch_length := by
  have hrecorded := h.recorded
  obtain ⟨handed, hhanded, hparse, -⟩ := h
  rw [dispatched_eq, Except.ok.injEq] at hhanded
  obtain ⟨⟨value, length⟩, hvalue, rfl⟩ := Option.map_eq_some_iff.mp hhanded
  have hterm := (buffered_spec datagram).terminated 0 (buffered_spec datagram).nonempty
  have hbound := (length_cstr_lt hterm).trans (buffered_spec datagram).bound
  rw [Nat.zero_add] at hbound
  have houtcome := parse_message_outcome { received datagram client_addr with
    call_id := some value, call_id_length := length } rfl
  have houtcome' := parse_message_outcome { received datagram client_addr' with
    call_id := some value, call_id_length := length } rfl
  rw [hparse] at houtcome
  obtain ⟨hline, hcomplete⟩ := houtcome.2.1.mp rfl
  have hline' : RequestLineAccepted { received datagram client_addr' with
      call_id := some value, call_id_length := length } :=
    hline.of_text hbound (holding_cstr hterm) rfl (holding_cstr hterm) rfl
  cases hparse' : parse_message { received datagram client_addr' with
      call_id := some value, call_id_length := length } with
  | error fault =>
    rw [hparse'] at houtcome'
    exact absurd (fun _ => houtcome.1 hline) houtcome'.2
  | ok result =>
    obtain ⟨err, message'⟩ := result
    rw [hparse'] at houtcome'
    obtain rfl := houtcome'.2.1.mpr ⟨hline', hcomplete⟩
    obtain ⟨⟨line, -, -, hrequest, hafter⟩, -⟩ := houtcome'.2.2 rfl
    have haccepted : Accepted datagram client_addr' message' := by
      refine ⟨_, ?_, hparse', (congrArg (·.is_request) hafter).trans hrequest⟩
      rw [dispatched_eq, hvalue, Option.map_some]
    have hrecorded' := haccepted.recorded
    obtain ⟨hbranch, hlength⟩ := hrecorded.2.branch.unique hrecorded'.2.branch hrecorded.2.branch_found.1
    exact ⟨message', haccepted, hrecorded'.1.trans hrecorded.1.symm, hbranch, hlength⟩

end mock_uas.sip_message
