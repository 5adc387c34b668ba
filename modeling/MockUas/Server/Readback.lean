import MockUas.Message.Readback
import MockUas.Server.Tags

open clib
open mock_uas.sip_message
open mock_uas.sip_utils

namespace mock_uas.sip_server

/-- The headers of a response. -/
def response_fields (request : sip_message_t) (to_tag : Bytes) : List (Bytes × Bytes) :=
  [(HEADER_NAME_VIA, value_at request.buffer request.via request.via_length),
    (HEADER_NAME_FROM, value_at request.buffer request.from_ request.from_length),
    (HEADER_NAME_TO, value_at request.buffer request.to_ request.to_length ++ to_tag),
    (HEADER_NAME_CALL_ID, value_at request.buffer request.call_id request.call_id_length),
    (HEADER_NAME_CSEQ, value_at request.buffer request.cseq request.cseq_length),
    (HEADER_NAME_CONTENT_LENGTH, ascii "0")]

/-- A status line and six header lines. -/
def response_lines (request : sip_message_t) (status_code : Nat) (reason to_tag : Bytes) : List Bytes :=
  status_line (digits status_code) reason :: (response_fields request to_tag).map (field_line COLON_SPACE)

/-- What the parser reads in a response to a request, and which lines it sees there. -/
structure ReadsBack (request : sip_message_t) (status_code : Nat) (reason to_tag : Bytes) (response : Datagram) :
    Prop where
  lines : crlfLines response.bytes = response_lines request status_code reason to_tag ++ [[]]
  whole : response.bytes = joined (crlfLines response.bytes)
  first_line : ∀ client_addr, ∃ after, parse_first_line (received response client_addr) = ok (.ERROR_NONE, after) ∧
    after.is_request = false ∧ after.status_code = status_code ∧
    slice_text after.buffer after.reason after.reason_length = some reason
  via : FindsHeader (buffered response) HEADER_NAME_VIA (slice_text request.buffer request.via request.via_length)
  from_ : FindsHeader (buffered response) HEADER_NAME_FROM
    (slice_text request.buffer request.from_ request.from_length)
  to_ : FindsHeader (buffered response) HEADER_NAME_TO
    ((slice_text request.buffer request.to_ request.to_length).map (· ++ to_tag))
  call_id : FindsHeader (buffered response) HEADER_NAME_CALL_ID
    (slice_text request.buffer request.call_id request.call_id_length)
  cseq : FindsHeader (buffered response) HEADER_NAME_CSEQ
    (slice_text request.buffer request.cseq request.cseq_length)

theorem formatted_eq_joined (request : sip_message_t) (status_code : Nat) (reason to_tag : Bytes) :
    formatted request status_code reason to_tag =
      joined (response_lines request status_code reason to_tag ++ [[]]) := by
  simp only [formatted, response_lines, response_fields, status_line, field_line, joined, List.map_cons, List.map_nil,
    List.cons_append, List.nil_append, List.flatMap_cons, List.flatMap_nil, List.append_assoc, List.append_nil]

/-- A value of a request is read back by the scanner as it stands. -/
structure Echoed (buffer : Bytes) (pointer : Option Nat) (length : Nat) : Prop where
  text : HeaderText (value_at buffer pointer length)
  slice : slice_text buffer pointer length = some (value_at buffer pointer length)

private theorem echoed_of_header_value {buffer header_name : Bytes} {value length : Nat}
    (h : header_value buffer header_name = some (value, length)) : Echoed buffer (some value) length := by
  obtain ⟨htext, -, hslice⟩ := header_value_text h
  exact ⟨htext, hslice⟩

private theorem echoed_of_headerSlice {buffer header_name : Bytes} {slice : Option Nat} {length : Nat}
    (h : HeaderSlice buffer header_name slice length) : Echoed buffer slice length := by
  obtain ⟨value, rfl, hvalue, -⟩ := h
  exact echoed_of_header_value hvalue

theorem nul_not_mem_value_at (buffer : Bytes) (pointer : Option Nat) (length : Nat) :
    NUL ∉ value_at buffer pointer length := by
  cases pointer with
  | none => exact List.not_mem_nil
  | some i => exact fun hmem => nul_not_mem_cstr buffer i (List.mem_of_mem_take hmem)

/-- Every value a response repeats. -/
structure Echoes (request : sip_message_t) : Prop where
  via : Echoed request.buffer request.via request.via_length
  from_ : Echoed request.buffer request.from_ request.from_length
  to_ : Echoed request.buffer request.to_ request.to_length
  call_id : Echoed request.buffer request.call_id request.call_id_length
  cseq : Echoed request.buffer request.cseq request.cseq_length

theorem echoes_of_accepted {datagram : Datagram} {client_addr : sockaddr_in} {message : sip_message_t}
    (h : Accepted datagram client_addr message) : Echoes message := by
  obtain ⟨hbuf, hrecorded⟩ := h.recorded
  rw [← hbuf] at hrecorded
  obtain ⟨value, hid, hvalue⟩ := hrecorded.call_id
  refine ⟨echoed_of_headerSlice hrecorded.via, echoed_of_headerSlice hrecorded.from_,
    echoed_of_headerSlice hrecorded.to_, ?_, echoed_of_headerSlice hrecorded.cseq⟩
  rw [hid]
  exact echoed_of_header_value hvalue

private def response_names : List Bytes :=
  [HEADER_NAME_VIA, HEADER_NAME_FROM, HEADER_NAME_TO, HEADER_NAME_CALL_ID, HEADER_NAME_CSEQ, HEADER_NAME_CONTENT_LENGTH]

private theorem response_names_eq (request : sip_message_t) (to_tag : Bytes) :
    (response_fields request to_tag).map (·.1) = response_names := rfl

/-- No line of a response is taken for a later one. -/
private theorem response_names_clash :
    (∀ name ∈ response_names, agree name SIP_PROTOCOL_AND_VERSION = false) ∧
      response_names.Pairwise (fun earlier later => agree later (earlier ++ COLON_SPACE) = false) ∧
      ∀ name ∈ response_names, CR ∉ name ++ COLON_SPACE ∧ NUL ∉ name ++ COLON_SPACE := by
  decide

section Fields

variable {request : sip_message_t} (hechoes : Echoes request) {to_tag : Bytes} (htag : Appendable to_tag)
include hechoes htag

private theorem response_values : ∀ field ∈ response_fields request to_tag, HeaderText field.2 ∧ NUL ∉ field.2 := by
  have hclean := nul_not_mem_value_at request.buffer
  have hto : NUL ∉ value_at request.buffer request.to_ request.to_length ++ to_tag := by
    rw [List.mem_append, not_or]
    exact ⟨hclean _ _, htag.plain.2.2⟩
  simp only [response_fields, List.forall_mem_cons]
  exact ⟨⟨hechoes.via.text, hclean _ _⟩, ⟨hechoes.from_.text, hclean _ _⟩, ⟨hechoes.to_.text.append htag, hto⟩,
    ⟨hechoes.call_id.text, hclean _ _⟩, ⟨hechoes.cseq.text, hclean _ _⟩, ⟨⟨by decide, by decide⟩, by decide⟩, nofun⟩

theorem response_lines_clean {status_code : Nat} {reason : Bytes} (hreason : Plain reason) :
    ∀ line ∈ response_lines request status_code reason to_tag, infixIdx CRLF line = none ∧ NUL ∉ line := by
  intro line hline
  rcases List.mem_cons.mp hline with rfl | hline
  · have hversion : NUL ∉ SIP_PROTOCOL_AND_VERSION ++ [SPACE] := by decide
    have hdigits : NUL ∉ digits status_code := fun hmem => absurd (isdigit_digits hmem) (by decide)
    have hspace : NUL ∉ [SPACE] := by decide
    refine ⟨status_line_oneLine (fun b => isdigit_digits) (infixIdx_of_not_mem hreason.1), ?_⟩
    simp only [status_line, List.mem_append, not_or] at hversion ⊢
    exact ⟨⟨⟨hversion, hdigits⟩, hspace⟩, hreason.2.2⟩
  · obtain ⟨field, hfield, rfl⟩ := List.mem_map.mp hline
    obtain ⟨hvalue, hclean⟩ := response_values hechoes htag field hfield
    have hname := response_names_clash.2.2 field.1 (by
      rw [← response_names_eq request to_tag]
      exact List.mem_map_of_mem hfield)
    refine ⟨infixIdx_append (infixIdx_of_not_mem hname.1) hvalue.one_line
      (.inl fun hlast => hname.1 (List.mem_of_getLast? hlast)), ?_⟩
    rw [field_line, List.mem_append, not_or]
    exact ⟨hname.2, hclean⟩

theorem nul_not_mem_formatted {status_code : Nat} {reason : Bytes} (hreason : Plain reason) :
    NUL ∉ formatted request status_code reason to_tag := by
  rw [formatted_eq_joined]
  intro hmem
  obtain ⟨line, hline, hin⟩ := List.mem_flatMap.mp hmem
  rcases List.mem_append.mp hin with hin | hin
  · rcases List.mem_append.mp hline with hline | hline
    · exact (response_lines_clean hechoes htag hreason line hline).2 hin
    · rw [List.mem_singleton.mp hline] at hin
      cases hin
  · exact absurd hin (by decide)

end Fields

/-- The parser reads in the response to a request what was written there. -/
theorem reads_back {request : sip_message_t} (hechoes : Echoes request) {status_code : Nat}
    (hcode : status_code < 2 ^ 31) {reason to_tag : Bytes} (hreason : Plain reason) (htag : Appendable to_tag)
    {response : Datagram} (hbytes : response.bytes = formatted request status_code reason to_tag) :
    ReadsBack request status_code reason to_tag response := by
  have hclean := @response_lines_clean _ hechoes _ htag status_code _ hreason
  have hnul : NUL ∉ response.bytes := by
    rw [hbytes]
    exact nul_not_mem_formatted hechoes htag hreason
  rw [formatted_eq_joined] at hbytes
  have hlines : crlfLines response.bytes = response_lines request status_code reason to_tag ++ [[]] := by
    rw [hbytes, crlfLines_joined]
    intro line hline
    rcases List.mem_append.mp hline with hline | hline
    · exact (hclean line hline).1
    · rw [List.mem_singleton.mp hline]
      rfl
  have htext := cstr_buffered hnul
  have hbuffer := buffered_spec response
  have hfinds : ∀ header_name value, PlainName header_name →
      (header_name, value) ∈ response_fields request to_tag →
      FindsHeader (buffered response) header_name (some value) := by
    intro header_name value hplain hmem
    have hstatus : SIP_PROTOCOL_AND_VERSION <+: status_line (digits status_code) reason := by
      simp only [status_line, List.append_assoc]
      exact List.prefix_append _ _
    refine @findsHeader_of_fields _ _ _ _ _ hbuffer (List.all_eq_true.mp (by decide)) (htext.trans hbytes)
      (fun line hline => (hclean line hline).1) hstatus ?_ ?_ _ _ hplain
      (response_values hechoes htag _ hmem).1.start hmem
    · intro field hfield
      refine response_names_clash.1 field.1 ?_
      rw [← response_names_eq request to_tag]
      exact List.mem_map_of_mem hfield
    · have hnames := response_names_clash.2.1
      rw [← response_names_eq request to_tag] at hnames
      exact List.pairwise_map.mp hnames
  obtain ⟨hcall_id, hfrom, hto, hvia, hcseq, -⟩ := plain_header_names
  refine ⟨hlines, by rw [hlines, hbytes], ?_, ?_, ?_, ?_, ?_, ?_⟩
  · intro client_addr
    rw [response_lines, List.cons_append, joined_cons] at hbytes
    have hne : digits status_code ≠ [] := fun hnil => Nat.toDigits_ne_nil (List.map_eq_nil_iff.mp hnil)
    have hline := parse_first_line_reads client_addr hbytes hnul hne (fun b => isdigit_digits)
      (by rwa [decimal_digits]) (infixIdx_of_not_mem hreason.1)
    rwa [decimal_digits] at hline
  · rw [hechoes.via.slice]
    exact hfinds _ _ hvia (by simp [response_fields])
  · rw [hechoes.from_.slice]
    exact hfinds _ _ hfrom (by simp [response_fields])
  · rw [hechoes.to_.slice]
    exact hfinds _ _ hto (by simp [response_fields])
  · rw [hechoes.call_id.slice]
    exact hfinds _ _ hcall_id (by simp [response_fields])
  · rw [hechoes.cseq.slice]
    exact hfinds _ _ hcseq (by simp [response_fields])

/-- A dialog's own tag can be appended. -/
theorem OwnTag.appendable {d : sip_dialog_t} (h : OwnTag d) (request : sip_message_t) :
    Appendable (appended_tag d request) := by
  obtain ⟨-, hdigits⟩ := h.bytes
  have hnot : ∀ b, isdigit b = false → b ∉ ascii ";tag=" → b ∉ ascii ";tag=" ++ d.to_tag.bytes := by
    intro b hb hfront hmem
    rcases List.mem_append.mp hmem with hmem | hmem
    · exact hfront hmem
    · rw [hdigits b hmem] at hb
      cases hb
  rw [appended_tag]
  split
  · exact ⟨by decide, rfl⟩
  · exact ⟨⟨hnot CR (by decide) (by decide), hnot LF (by decide) (by decide), hnot NUL (by decide) (by decide)⟩, rfl⟩

private theorem tag_for_appendable {dialogs : Store sip_dialog_t} {dialog : Option Nat} (request : sip_message_t)
    (hown : ∀ a d, dialog = some a → dialogs.heap.cells a = some d → OwnTag d) :
    Appendable (tag_for dialogs dialog request) := by
  rw [tag_for]
  split
  · exact ⟨by decide, rfl⟩
  · rename_i d hd
    obtain ⟨a, ha, hcell⟩ := Option.bind_eq_some_iff.mp hd
    exact (hown a d ha hcell).appendable request

/-- A response that fits is sent as a datagram that reads back. -/
theorem Carries.reads_back {request : sip_message_t} (hechoes : Echoes request) {status_code : Nat}
    (hcode : status_code < 2 ^ 31) {reason to_tag : Bytes} (hreason : Plain reason) (htag : Appendable to_tag)
    {s : Sent} (h : Carries s (formatted request status_code reason to_tag))
    (hfits : s.message_length ≤ BUFFER_SIZE - 1) :
    ∃ response : Datagram, s.bytes = response.bytes ∧ s.beyond = 0 ∧
      ReadsBack request status_code reason to_tag response := by
  have hlength := h.message_length ▸ hfits
  obtain ⟨hbytes, hbeyond⟩ := h.whole hlength
  have hpositive : 0 < BUFFER_SIZE := by decide
  have hroom : (formatted request status_code reason to_tag).length < BUFFER_SIZE := by omega
  exact ⟨⟨_, hroom⟩, hbytes, hbeyond, sip_server.reads_back hechoes hcode hreason htag rfl⟩

/-- The parser reads the responses to an accepted request back as they were written, where
they fit into the response array: the error response without a transaction, and what every
builder makes over a transaction whose dialog, if it has one, has a tag of its own, as all
dialogs of a worker have. So it does with the responses that a worker sends for the request. -/
theorem responses_read_back (datagram : Datagram) (client_addr : sockaddr_in) (message : sip_message_t)
    (haccepted : Accepted datagram client_addr message) :
    (∀ m status_code reason, 0 ≤ m.worker.server_socket → 100 ≤ status_code → status_code ≤ 699 → Plain reason →
      response_size message status_code reason [] ≤ BUFFER_SIZE - 1 →
      ∃ (s : Sent) (response : Datagram), send_sip_error_response m message status_code reason = ok (sending m s) ∧
        s.bytes = response.bytes ∧ s.beyond = 0 ∧ ReadsBack message status_code reason [] response) ∧
    (∀ m transaction t held builder status_code reason, Ready m transaction t held →
      SameRequest held.contents message →
      (∀ dialog d, t.dialog = some dialog → m.worker.dialogs.heap.cells dialog = some d → OwnTag d) →
      Builder builder status_code reason → 100 ≤ status_code → status_code ≤ 699 → Plain reason →
      response_size message status_code reason (tag_of m t message) ≤ BUFFER_SIZE - 1 →
      ∃ (rc : Int) (m' : Machine) (s : Sent) (response : Datagram), builder m transaction = ok (rc, m') ∧
        m'.sent = m.sent ++ [s] ∧ s.bytes = response.bytes ∧ s.beyond = 0 ∧
        ReadsBack message status_code reason (tag_of m t message) response) ∧
    (∀ run, program.Reachable run → ∀ dialog d, run.worker.dialogs.heap.cells dialog = some d → OwnTag d) ∧
    ∀ run input run', program.Reachable run → Opens run message input → run.step input = ok run' →
      ∃ sends, run'.sent = run.sent ++ sends ∧ ∀ s ∈ sends, s.message_length ≤ BUFFER_SIZE - 1 →
        ∃ (status_code : Nat) (reason : Bytes) (response : Datagram), s.status_code = status_code ∧
          s.bytes = response.bytes ∧ s.beyond = 0 ∧
          ReadsBack message status_code reason (tag_for run'.worker.dialogs s.dialog message) response := by
  obtain ⟨hrequest, -⟩ := haccepted.request
  have hechoes := echoes_of_accepted haccepted
  refine ⟨?_, ?_, fun run h => Reachable.own_tags h, ?_⟩
  · intro m status_code reason hsocket _ hcode hreason hfits
    obtain ⟨s, hrun, hcarries⟩ := send_sip_error_response_carries hsocket hrequest status_code reason
    rw [response_size, ← length_formatted hrequest] at hfits
    obtain ⟨response, hread⟩ := hcarries.reads_back hechoes (by omega) hreason ⟨by decide, rfl⟩
      (hcarries.message_length ▸ hfits)
    exact ⟨s, response, hrun, hread⟩
  · intro m transaction t held builder status_code reason hready hsame hown hbuilder _ hcode hreason hfits
    obtain ⟨rc, m', s, hrun, hsent, hcarries⟩ := send_response_carries hready hsame status_code reason
    rw [response_size, ← length_formatted hrequest] at hfits
    obtain ⟨response, hread⟩ := hcarries.reads_back hechoes (by omega) hreason (tag_for_appendable message hown)
      (hcarries.message_length ▸ hfits)
    exact ⟨rc, m', s, response, (hbuilder.sends m transaction).trans hrun, hsent, hread⟩
  · intro run input run' h hopens hstep
    obtain ⟨hown, sends, hsent, hwritten⟩ := step_serves (Reachable.wellFormed h) (Reachable.own_tags h) hopens hstep
    refine ⟨sends, hsent, fun s hs hfits => ?_⟩
    obtain ⟨status_code, reason, hmem, hcode, -, hcarries⟩ := hwritten s hs
    have hplain : ∀ line ∈ status_lines, line.1 < 2 ^ 31 ∧ Plain line.2 := by decide
    obtain ⟨hsmall, hreason⟩ := hplain _ hmem
    obtain ⟨response, hbytes, hbeyond, hreads⟩ := hcarries.reads_back hechoes hsmall hreason
      (tag_for_appendable message fun a d _ hd => hown a d hd) hfits
    exact ⟨status_code, reason, response, hcode, hbytes, hbeyond, hreads⟩

/-- A worker that has begun a dialog with the transaction it opened for a message. -/
def ringing_transaction (message : sip_message_t) : sip_transaction_t :=
  { new_transaction (branch_text message) message.branch_length with message := some ⟨0, message⟩, dialog := some 0 }

def ringing (message : sip_message_t) : Machine :=
  ((Run.started.start .obliging).with_transactions (Store.empty.push (ringing_transaction message))).with_dialogs
    (Store.empty.push (new_dialog (from_tag_text message) message.from_tag_length
      (create_to_tag (Run.started.start .obliging) SIP_BUILD_TAG_LENGTH).1))

theorem ringing_ready {message : sip_message_t} (hrequest : Request message) :
    Ready (ringing message) 0 (ringing_transaction message) ⟨0, message⟩ ∧
      ∀ dialog d, (ringing message).worker.dialogs.heap.cells dialog = some d → OwnTag d := by
  have hown : ∀ dialog d, (ringing message).worker.dialogs.heap.cells dialog = some d → OwnTag d := by
    intro dialog d hd
    rw [show (ringing message).worker.dialogs.heap = _ from Store.heap_push _ _, Heap.cells_alloc] at hd
    split at hd
    · obtain rfl := Option.some.inj hd
      exact ⟨⟨_, rfl⟩, rfl⟩
    · cases hd
  refine ⟨⟨(by decide : (0 : Int) ≤ 3), Heap.cells_alloc_self _ _, rfl, hrequest, fun dialog hdialog => ?_⟩, hown⟩
  obtain rfl := Option.some.inj hdialog
  obtain ⟨d, hd⟩ : ∃ d, (ringing message).worker.dialogs.heap.cells 0 = some d := ⟨_, Heap.cells_alloc_self _ _⟩
  exact ⟨d, hd, (hown 0 d hd).tagged⟩

private theorem first_invite_fits :
    (accepted_message first_invite ⟨2, 5060, 1⟩).map (fun message =>
      decide (response_size message 302 (ascii "Moved") [] ≤ BUFFER_SIZE - 1 ∧
        response_size message RESPONSE_CODE_180 RESPONSE_TEXT_180_RINGING
          (tag_of (ringing message) (ringing_transaction message) message) ≤ BUFFER_SIZE - 1)) = some true := by
  decide +kernel

theorem first_responses_read_back :
    ∃ message, Accepted first_invite ⟨2, 5060, 1⟩ message ∧
      (∃ (s : Sent) (response : Datagram), send_sip_error_response (Run.started.start .obliging) message 302
          (ascii "Moved") = ok (sending (Run.started.start .obliging) s) ∧ s.bytes = response.bytes ∧
        ReadsBack message 302 (ascii "Moved") [] response) ∧
      ∃ m t rc m' s, ∃ response : Datagram, Ready m 0 t ⟨0, message⟩ ∧ t.dialog = some 0 ∧
        send_180_ring_response_over_transaction m 0 = ok (rc, m') ∧ m'.sent = m.sent ++ [s] ∧
        s.bytes = response.bytes ∧
        ReadsBack message RESPONSE_CODE_180 RESPONSE_TEXT_180_RINGING (tag_of m t message) response := by
  obtain ⟨message, hmessage, hfits⟩ := Option.map_eq_some_iff.mp first_invite_fits
  obtain ⟨herror_fits, hringing_fits⟩ := of_decide_eq_true hfits
  have haccepted : Accepted first_invite ⟨2, 5060, 1⟩ message := accepted_iff.mpr hmessage
  obtain ⟨herror, hbuilders, -, -⟩ := responses_read_back first_invite ⟨2, 5060, 1⟩ message haccepted
  obtain ⟨hready, hown⟩ := ringing_ready haccepted.request.1
  obtain ⟨s, response, hrun, hbytes, -, hreads⟩ := herror (Run.started.start .obliging) 302 (ascii "Moved") (by decide)
    (by decide) (by decide) (by decide) herror_fits
  obtain ⟨rc, m', s', response', hrun', hsent', hbytes', -, hreads'⟩ := hbuilders _ _ _ _ _ _ _ hready (.refl message)
    (fun dialog d _ hd => hown dialog d hd) .ringing (by decide) (by decide) (by decide) hringing_fits
  exact ⟨message, haccepted, ⟨s, response, hrun, hbytes, hreads⟩, _, _, rc, m', s', response', hready, rfl, hrun',
    hsent', hbytes', hreads'⟩

end mock_uas.sip_server
