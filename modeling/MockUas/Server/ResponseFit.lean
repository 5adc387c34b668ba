import MockUas.Server.Loop
import MockUas.Server.Outcome

open clib
open mock_uas.sip_message
open mock_uas.sip_utils

namespace mock_uas.sip_server

/-- The `message_length` handed to `send_message` for a datagram. -/
def Sent.message_length (s : Sent) : Nat := s.bytes.length + s.beyond

/-- A datagram is a complete response and was read from the response array alone. -/
structure Complete (response : Bytes) (s : Sent) : Prop where
  message_length : s.message_length ≤ BUFFER_SIZE - 1
  bytes : s.bytes = response
  blank_line : CRLF ++ CRLF <:+ s.bytes
  beyond : s.beyond = 0

/-- The builders of responses over a transaction, with the status lines they print. -/
inductive Builder : (Machine → Nat → Result (Int × Machine)) → Nat → Bytes → Prop where
  | error (status_code : Nat) (reason : Bytes) : Builder
    (fun m transaction => send_sip_error_response_over_transaction m transaction status_code reason) status_code reason
  | trying : Builder send_100_trying_response_over_transaction RESPONSE_CODE_100 RESPONSE_TEXT_100_TRYING
  | ringing : Builder send_180_ring_response_over_transaction RESPONSE_CODE_180 RESPONSE_TEXT_180_RINGING
  | success : Builder send_sip_200_ok_response_over_transaction RESPONSE_CODE_200 RESPONSE_TEXT_200_OK

/-- The length of a response: its fixed text, what the status line adds, the five values it
repeats and the tag appended to the To value. -/
def response_size (request : sip_message_t) (status_code : Nat) (reason to_tag : Bytes) : Nat :=
  72 + (digits status_code).length + reason.length + request.via_length + request.from_length +
    request.to_length + to_tag.length + request.call_id_length + request.cseq_length

theorem SameRequest.formatted_eq {answered original : sip_message_t} (h : SameRequest answered original)
    (status_code : Nat) (reason to_tag : Bytes) :
    formatted answered status_code reason to_tag = formatted original status_code reason to_tag := by
  rw [← h.same]
  rfl

theorem SameRequest.tag_of_eq {answered original : sip_message_t} (h : SameRequest answered original) (m : Machine)
    (t : sip_transaction_t) : tag_of m t answered = tag_of m t original := by
  rw [← h.same]
  rfl

theorem blank_line_formatted (request : sip_message_t) (status_code : Nat) (reason to_tag : Bytes) :
    CRLF ++ CRLF <:+ formatted request status_code reason to_tag := by
  have hends : ∀ head line : Bytes, CRLF ++ CRLF <:+ head ++ (line ++ CRLF) ++ CRLF := by
    intro head line
    exact ⟨head ++ line, by simp only [List.append_assoc]⟩
  exact hends _ _

/-- A datagram is what `sendto` reads when a response was printed into the response array. -/
structure Carries (s : Sent) (response : Bytes) : Prop where
  message_length : s.message_length = response.length
  whole : response.length ≤ BUFFER_SIZE - 1 → s.bytes = response ∧ s.beyond = 0
  text : NUL ∉ response → cstr s.bytes 0 = response.take (BUFFER_SIZE - 1)

theorem carries_printed {array : Bytes} (harray : array.length = BUFFER_SIZE) {response : Bytes} {s : Sent}
    (hbytes : s.bytes = (snprintf array response).take response.length)
    (hbeyond : s.beyond = response.length - (snprintf array response).length) : Carries s response := by
  have hpositive : 0 < BUFFER_SIZE := by decide
  have hne : array ≠ [] := by
    rw [← List.length_pos_iff, harray]
    exact hpositive
  have hsize : (snprintf array response).length = BUFFER_SIZE := (length_snprintf hne).trans harray
  constructor
  · rw [Sent.message_length, hbytes, hbeyond, List.length_take]
    omega
  · intro hfits
    exact ⟨hbytes.trans (take_snprintf (by omega)), by omega⟩
  · intro hclean
    rw [hbytes, cstr_snprintf array hclean, harray]

/-- What `sendto` reads of a response is complete exactly when the response and its NUL fit
into the array. -/
private theorem complete_iff {response : Bytes} (hblank : CRLF ++ CRLF <:+ response) {s : Sent}
    (h : Carries s response) : Complete response s ↔ response.length ≤ BUFFER_SIZE - 1 := by
  constructor
  · intro hcomplete
    exact h.message_length ▸ hcomplete.message_length
  · intro hfits
    obtain ⟨hwhole, hbeyond⟩ := h.whole hfits
    exact ⟨h.message_length ▸ hfits, hwhole, hwhole ▸ hblank, hbeyond⟩

theorem Builder.sends {builder : Machine → Nat → Result (Int × Machine)} {status_code : Nat} {reason : Bytes}
    (h : Builder builder status_code reason) (m : Machine) (transaction : Nat) :
    builder m transaction = send_response_over_transaction m transaction status_code reason := by
  cases h <;> rfl

theorem send_sip_error_response_carries {m : Machine} {message : sip_message_t} (hsocket : 0 ≤ m.worker.server_socket)
    (hrequest : Request message) (status_code : Nat) (reason : Bytes) :
    ∃ s, send_sip_error_response m message status_code reason = ok (sending m s) ∧
      Carries s (formatted message status_code reason []) := by
  have hlength : (formatted message status_code reason []).length ≠ 0 := by
    rw [Ne, List.length_eq_zero_iff]
    exact formatted_ne_nil _ _ _ _
  rw [send_sip_error_response, if_neg (Int.not_lt.mpr hsocket), response_text_eq hrequest, bind_ok]
  exact ⟨_, congrArg (fun sent => ok sent.2) (send_message_eq _ _ _ hsocket hlength hrequest.client_addr_len),
    carries_printed hrequest.response rfl rfl⟩

theorem send_response_carries {m : Machine} {transaction : Nat} {t : sip_transaction_t} {held : Owned sip_message_t}
    {message : sip_message_t} (hready : Ready m transaction t held) (hsame : SameRequest held.contents message)
    (status_code : Nat) (reason : Bytes) :
    ∃ rc m' s, send_response_over_transaction m transaction status_code reason = ok (rc, m') ∧
      m'.sent = m.sent ++ [s] ∧ Carries s (formatted message status_code reason (tag_of m t message)) := by
  obtain ⟨m', hrun, hconversed, -⟩ := send_response_spec hready status_code reason
  have houtput : output_of m t held status_code reason =
      formatted message status_code reason (tag_of m t message) := by
    rw [output_of, hsame.formatted_eq, hsame.tag_of_eq]
  obtain ⟨s, hs, hcarries⟩ : ∃ s, m'.sent = m.sent ++ [s] ∧ Carries s (output_of m t held status_code reason) :=
    ⟨_, hconversed.sent, carries_printed hready.request.response rfl rfl⟩
  exact ⟨_, m', s, hrun, hs, houtput ▸ hcarries⟩

/-- A response to an accepted request is sent complete, and nothing but the response is
read, exactly when its length leaves room for the NUL. This is so for the error response
without a transaction, and for every builder over a transaction that holds the request. -/
theorem responses_complete_iff (datagram : Datagram) (client_addr : sockaddr_in) (message : sip_message_t)
    (haccepted : Accepted datagram client_addr message) :
    (∀ m status_code reason, 0 ≤ m.worker.server_socket →
      ∃ s, send_sip_error_response m message status_code reason = ok (sending m s) ∧
        (Complete (formatted message status_code reason []) s ↔
          response_size message status_code reason [] ≤ BUFFER_SIZE - 1)) ∧
    ∀ m transaction t held builder status_code reason, Ready m transaction t held →
      SameRequest held.contents message → Builder builder status_code reason →
      ∃ rc m' s, builder m transaction = ok (rc, m') ∧ m'.sent = m.sent ++ [s] ∧
        (Complete (formatted message status_code reason (tag_of m t message)) s ↔
          response_size message status_code reason (tag_of m t message) ≤ BUFFER_SIZE - 1) := by
  obtain ⟨hrequest, hunanswered⟩ := haccepted.request
  constructor
  · intro m status_code reason hsocket
    obtain ⟨s, hrun, hcarries⟩ := send_sip_error_response_carries hsocket hrequest status_code reason
    refine ⟨s, hrun, ?_⟩
    rw [complete_iff (blank_line_formatted _ _ _ _) hcarries, length_formatted hrequest, response_size]
  · intro m transaction t held builder status_code reason hready hsame hbuilder
    obtain ⟨rc, m', s, hrun, hsent, hcarries⟩ := send_response_carries hready hsame status_code reason
    refine ⟨rc, m', s, (hbuilder.sends m transaction).trans hrun, hsent, ?_⟩
    rw [complete_iff (blank_line_formatted _ _ _ _) hcarries, length_formatted hrequest, response_size]

/-- A worker that has just opened a transaction for a message. -/
private def opening (message : sip_message_t) : Machine :=
  (Run.started.start .obliging).with_transactions
    (Store.empty.push { new_transaction (branch_text message) message.branch_length with message := some ⟨0, message⟩ })

theorem first_responses_complete :
    ∃ message, Accepted first_invite ⟨2, 5060, 1⟩ message ∧
      (∃ s, send_sip_error_response (Run.started.start .obliging) message RESPONSE_CODE_500
          RESPONSE_TEXT_500_INTERNAL_SERVER_ERROR = ok (sending (Run.started.start .obliging) s) ∧
        (Complete (formatted message RESPONSE_CODE_500 RESPONSE_TEXT_500_INTERNAL_SERVER_ERROR []) s ↔
          response_size message RESPONSE_CODE_500 RESPONSE_TEXT_500_INTERNAL_SERVER_ERROR [] ≤ BUFFER_SIZE - 1)) ∧
      ∃ m t rc m' s, Ready m 0 t ⟨0, message⟩ ∧ send_180_ring_response_over_transaction m 0 = ok (rc, m') ∧
        m'.sent = m.sent ++ [s] ∧
        (Complete (formatted message RESPONSE_CODE_180 RESPONSE_TEXT_180_RINGING (tag_of m t message)) s ↔
          response_size message RESPONSE_CODE_180 RESPONSE_TEXT_180_RINGING (tag_of m t message) ≤
            BUFFER_SIZE - 1) := by
  obtain ⟨message, haccepted⟩ := first_invite_accepted
  obtain ⟨herror, hbuilders⟩ := responses_complete_iff first_invite ⟨2, 5060, 1⟩ message haccepted
  have hready : Ready (opening message) 0 _ ⟨0, message⟩ :=
    ⟨(by decide : (0 : Int) ≤ 3), Heap.cells_alloc_self _ _, rfl, haccepted.request.1, nofun⟩
  obtain ⟨rc, m', s, hrun, hsent, hiff⟩ :=
    hbuilders _ _ _ _ _ _ _ hready (SameRequest.refl message) Builder.ringing
  exact ⟨message, haccepted, herror _ _ _ (by decide), _, _, rc, m', s, hready, hrun, hsent, hiff⟩

/-- An INVITE of 1023 bytes, most of them its From value. -/
def long_invite : Datagram where
  bytes := ascii "INVITE sip:b SIP/2.0\r\nVia: SIP/2.0/UDP h;branch=z9hG4bK1\r\nFrom: <sip:" ++
    List.replicate 859 97 ++ ascii "@h>;tag=a\r\nTo: <sip:b@h>\r\nCall-ID: c@h\r\nCSeq: 1 INVITE\r\n" ++
    ascii "Max-Forwards: 70\r\nContent-Length: 0\r\n\r\n"
  fits := by decide +kernel

/-- Of each datagram a worker sends for `long_invite`: its code, its length, the bytes read
behind the response array, and whether it ends in a blank line. -/
private theorem long_invite_run :
    (program.follow Run.started [arrival long_invite .obliging]).map (fun run : Run =>
      run.sent.map fun s => (s.status_code, s.message_length, s.beyond, decide (CRLF ++ CRLF <:+ s.bytes))) =
      some [(100, 1003, 0, true), (180, 1025, 1, false), (200, 1020, 0, true)] := by
  decide +kernel

/-- The 180 to `long_invite` is longer than the response array: it is sent without its blank
line and with the byte behind the array. -/
theorem ringing_overruns :
    long_invite.bytes.length = 1023 ∧ ∃ run, program.Reachable run ∧ ∃ s ∈ run.sent,
      s.status_code = RESPONSE_CODE_180 ∧ s.message_length = 1025 ∧ s.beyond = 1 ∧
        ∀ response, ¬ Complete response s := by
  obtain ⟨run, hrun, hsent⟩ := Option.map_eq_some_iff.mp long_invite_run
  refine ⟨by decide +kernel, run, reachable_of_follow hrun, ?_⟩
  have hmem : (((180 : Int), 1025, 1, false) : Int × Nat × Nat × Bool) ∈ run.sent.map fun s =>
      (s.status_code, s.message_length, s.beyond, decide (CRLF ++ CRLF <:+ s.bytes)) := by
    rw [hsent]
    decide
  obtain ⟨s, hs, heq⟩ := List.mem_map.mp hmem
  simp only [Prod.mk.injEq] at heq
  obtain ⟨hcode, hlength, hbeyond, -⟩ := heq
  refine ⟨s, hs, hcode, hlength, hbeyond, fun response hcomplete => ?_⟩
  have hread := hcomplete.beyond
  omega

end mock_uas.sip_server
