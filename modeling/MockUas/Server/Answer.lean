import MockUas.Server.Response
import MockUas.Worker.Steps

open clib
open mock_uas.sip_message
open mock_uas.sip_utils

namespace mock_uas.sip_server

/-- The bytes of a slice, up to a NUL. -/
def value_at (buffer : Bytes) (pointer : Option Nat) (length : Nat) : Bytes :=
  match pointer with
  | none => []
  | some i => (cstr buffer i).take length

/-- The complete response to a request, as a function of what was recorded for it. -/
def formatted (request : sip_message_t) (status_code : Nat) (reason to_tag : Bytes) : Bytes :=
  SIP_PROTOCOL_AND_VERSION ++ [SPACE] ++ digits status_code ++ [SPACE] ++ reason ++ CRLF ++
    (HEADER_NAME_VIA ++ COLON_SPACE ++ value_at request.buffer request.via request.via_length ++ CRLF) ++
    (HEADER_NAME_FROM ++ COLON_SPACE ++ value_at request.buffer request.from_ request.from_length ++ CRLF) ++
    (HEADER_NAME_TO ++ COLON_SPACE ++ value_at request.buffer request.to_ request.to_length ++ to_tag ++ CRLF) ++
    (HEADER_NAME_CALL_ID ++ COLON_SPACE ++ value_at request.buffer request.call_id request.call_id_length ++
      CRLF) ++
    (HEADER_NAME_CSEQ ++ COLON_SPACE ++ value_at request.buffer request.cseq request.cseq_length ++ CRLF) ++
    (HEADER_NAME_CONTENT_LENGTH ++ COLON_SPACE ++ ascii "0" ++ CRLF) ++ CRLF

/-- A dialog's own tag has the length `create_new_dialog` gives it. -/
structure Tagged (d : sip_dialog_t) : Prop where
  bytes : d.to_tag.bytes.length = SIP_BUILD_TAG_LENGTH
  to_tag_length : d.to_tag_length = SIP_BUILD_TAG_LENGTH

/-- What a dialog adds to the To value of a response to a request. -/
def appended_tag (d : sip_dialog_t) (request : sip_message_t) : Bytes :=
  match infixIdx d.to_tag.bytes (cstr request.buffer (request.to_.getD 0)) with
  | some _ => []
  | none => ascii ";tag=" ++ d.to_tag.bytes

/-- What a transaction's dialog, if it has one, adds to the To value. -/
def tag_of (m : Machine) (t : sip_transaction_t) (request : sip_message_t) : Bytes :=
  match t.dialog.bind m.worker.dialogs.heap.cells with
  | none => []
  | some d => appended_tag d request

/-- A message is the request another one is, whatever was answered. -/
structure SameRequest (answered original : sip_message_t) : Prop where
  same : { answered with response := original.response, response_length := original.response_length } = original
  response : answered.response.length = original.response.length

/-- A transaction's record after a response was built for it. -/
def answered (t : sip_transaction_t) (message : Owned sip_message_t) (status_code : Nat) (output : Bytes) :
    sip_transaction_t :=
  { t with
    message := some { message with contents := with_response message.contents output }
    final_response_code := status_code }

/-- The datagram that carries the response a transaction holds. -/
def datagram_of (transaction : Nat) (t : sip_transaction_t) (message : sip_message_t) (success : Bool) : Sent where
  transaction := some transaction
  dialog := t.dialog
  method := message.method_type
  status_code := t.final_response_code
  bytes := message.response.take message.response_length
  beyond := message.response_length - message.response.length
  client_addr := message.client_addr
  success := success

/-- A transaction a response can be built and sent for: its request was parsed, and its
dialog, if it has one, is live. -/
structure Ready (m : Machine) (transaction : Nat) (t : sip_transaction_t) (message : Owned sip_message_t) :
    Prop where
  socket : 0 ≤ m.worker.server_socket
  cell : m.worker.transactions.heap.cells transaction = some t
  holds : t.message = some message
  request : Request message.contents
  dialog : ∀ dialog, t.dialog = some dialog → ∃ d, m.worker.dialogs.heap.cells dialog = some d ∧ Tagged d

theorem SameRequest.refl (message : sip_message_t) : SameRequest message message := ⟨rfl, rfl⟩

theorem SameRequest.with_response {answered original : sip_message_t} (h : SameRequest answered original)
    (hresponse : original.response ≠ []) (output : Bytes) :
    SameRequest (with_response answered output) original where
  same := h.same
  response := by
    have hne : answered.response ≠ [] := by
      rw [← List.length_pos_iff, h.response]
      exact List.length_pos_iff.mpr hresponse
    rw [← h.response]
    exact length_snprintf hne

theorem SameRequest.request {answered original : sip_message_t} (h : SameRequest answered original)
    (hrequest : Request original) : Request answered := by
  have hsame := h.same
  have hlength := h.response
  obtain ⟨hbuffer, hvia, hfrom, hto, hcall_id, hcseq, hfrom_tag, hto_tag, hbranch, hrecorded, hflag, hmethod,
    hresponse, haddr⟩ := hrequest
  rw [← hlength] at hresponse
  rw [← hsame] at hbuffer hvia hfrom hto hcall_id hcseq hfrom_tag hto_tag hbranch hrecorded hflag hmethod haddr
  exact ⟨hbuffer, hvia, hfrom, hto, hcall_id, hcseq, hfrom_tag, hto_tag, hbranch, hrecorded, hflag, hmethod,
    hresponse, haddr⟩

theorem response_ne_nil {message : sip_message_t} (h : Request message) : message.response ≠ [] := by
  rw [← List.length_pos_iff, h.response]
  decide

theorem precision_of_slice {buffer : Bytes} {pointer : Option Nat} {length : Nat}
    (h : Slice buffer pointer length) :
    ∃ s, textAt buffer pointer = ok s ∧ precision (intCast length) s = value_at buffer pointer length := by
  obtain ⟨i, rfl, hterm, -, hsmall⟩ := h
  exact ⟨_, text_eq hterm, precision_of_small hsmall⟩

theorem length_value_at {buffer : Bytes} {pointer : Option Nat} {length : Nat}
    (h : Slice buffer pointer length) : (value_at buffer pointer length).length = length := by
  obtain ⟨i, rfl, -, hle, -⟩ := h
  simp only [value_at, List.length_take]
  omega

/-- The formatted text of a parsed request repeats its header values in full. -/
theorem response_text_eq {request : sip_message_t} (h : Request request) (status_code : Nat)
    (reason to_tag : Bytes) :
    response_text request status_code reason to_tag = ok (formatted request status_code reason to_tag) := by
  obtain ⟨via, hvia, hvia_value⟩ := precision_of_slice h.via
  obtain ⟨from_, hfrom, hfrom_value⟩ := precision_of_slice h.from_
  obtain ⟨to_, hto, hto_value⟩ := precision_of_slice h.to_
  obtain ⟨call_id, hcall_id, hcall_id_value⟩ := precision_of_slice h.call_id
  obtain ⟨cseq, hcseq, hcseq_value⟩ := precision_of_slice h.cseq
  simp only [response_text, hvia, hfrom, hto, hcall_id, hcseq, bind_ok, hvia_value, hfrom_value, hto_value,
    hcall_id_value, hcseq_value]
  rfl

/-- The fixed text of a response takes 72 bytes. -/
theorem length_formatted {request : sip_message_t} (h : Request request) (status_code : Nat)
    (reason to_tag : Bytes) :
    (formatted request status_code reason to_tag).length =
      72 + (digits status_code).length + reason.length + request.via_length + request.from_length +
        request.to_length + to_tag.length + request.call_id_length + request.cseq_length := by
  have hprotocol : SIP_PROTOCOL_AND_VERSION.length = 7 := by decide
  have hvia : HEADER_NAME_VIA.length = 3 := by decide
  have hfrom : HEADER_NAME_FROM.length = 4 := by decide
  have hto : HEADER_NAME_TO.length = 2 := by decide
  have hcall_id : HEADER_NAME_CALL_ID.length = 7 := by decide
  have hcseq : HEADER_NAME_CSEQ.length = 4 := by decide
  have hlength : HEADER_NAME_CONTENT_LENGTH.length = 14 := by decide
  have hcolon : COLON_SPACE.length = 2 := by decide
  have hcrlf : CRLF.length = 2 := by decide
  have hzero : (ascii "0").length = 1 := by decide
  simp only [formatted, List.length_append, List.length_singleton, length_value_at h.via,
    length_value_at h.from_, length_value_at h.to_, length_value_at h.call_id, length_value_at h.cseq,
    hprotocol, hvia, hfrom, hto, hcall_id, hcseq, hlength, hcolon, hcrlf, hzero]
  omega

theorem formatted_ne_nil (request : sip_message_t) (status_code : Nat) (reason to_tag : Bytes) :
    formatted request status_code reason to_tag ≠ [] := by
  simp [formatted]

theorem Ready.to_tag_text {m : Machine} {transaction : Nat} {t : sip_transaction_t}
    {message : Owned sip_message_t} (h : Ready m transaction t message) :
    to_tag_text m t message.contents = ok (tag_of m t message.contents) := by
  cases hdialog : t.dialog with
  | none => simp [sip_server.to_tag_text, tag_of, hdialog]
  | some dialog =>
    obtain ⟨d, hcell, htagged⟩ := h.dialog dialog hdialog
    obtain ⟨to_, hto, hterm, -⟩ := h.request.to_
    have hne : d.to_tag.bytes ≠ [] := by
      rw [← List.length_pos_iff, htagged.bytes]
      decide
    have hfits : d.to_tag.bytes.length < 2 ^ 31 := by
      rw [htagged.bytes]
      decide
    have hprecision : precision (intCast d.to_tag_length) d.to_tag.bytes = d.to_tag.bytes := by
      rw [htagged.to_tag_length, ← htagged.bytes, precision_of_small hfits, List.take_length]
    simp only [sip_server.to_tag_text, tag_of, hdialog, Machine.dialog_of_cells hcell, bind_ok, hto,
      deref_some, strstr_eq hterm d.to_tag.clean hne, Option.bind_some, hcell, appended_tag,
      Option.getD_some, hprecision]
    cases infixIdx d.to_tag.bytes (cstr message.contents.buffer to_) with
    | some k => rfl
    | none =>
      have hclean : NUL ∉ ascii ";tag=" ++ d.to_tag.bytes := by
        rw [List.mem_append, not_or]
        exact ⟨by decide, d.to_tag.clean⟩
      have hlength : (ascii ";tag=" ++ d.to_tag.bytes).length ≤ TO_TAG_CAPACITY := by
        rw [List.length_append, htagged.bytes]
        decide
      have hprinted := bytes_printed TO_TAG_CAPACITY hclean
      rw [List.take_of_length_le hlength] at hprinted
      exact congrArg ok hprinted

/-- A transaction whose dialog was freed cannot be answered. -/
theorem to_tag_text_dangling {m : Machine} {t : sip_transaction_t} {dialog : Nat} (request : sip_message_t)
    (hdialog : t.dialog = some dialog) (hfreed : m.worker.dialogs.heap.cells dialog = none) :
    to_tag_text m t request = error .useAfterFree := by
  simp [to_tag_text, hdialog, Machine.dialog, Heap.read, hfreed]

/-- The response a builder leaves in a transaction's request. -/
def output_of (m : Machine) (t : sip_transaction_t) (message : Owned sip_message_t) (status_code : Nat)
    (reason : Bytes) : Bytes :=
  formatted message.contents status_code reason (tag_of m t message.contents)

/-- A call of `sendto` changes nothing but what was sent. -/
def sending (m : Machine) (sent : Sent) : Machine :=
  { m with env := { m.env with sendto := fun n => m.env.sendto (n + 1) }, sent := m.sent ++ [sent] }

theorem conversed_sending {m : Machine} {transaction : Nat} {t : sip_transaction_t}
    (hcell : m.worker.transactions.heap.cells transaction = some t) (sent : Sent) :
    Conversed m (sending m sent) transaction t [sent] [] :=
  { Conversed.refl hcell with
    sent := rfl
    later := ⟨rfl, ⟨0, fun _ => rfl⟩, ⟨0, fun _ => rfl⟩⟩ }

theorem send_message_eq {m : Machine} (purpose : Purpose) (message : Bytes) {message_length : Nat}
    (client_addr : sockaddr_in) {client_addr_len : Nat} (hsocket : 0 ≤ m.worker.server_socket)
    (hlength : message_length ≠ 0) (haddr : client_addr_len ≠ 0) :
    send_message m purpose message message_length client_addr client_addr_len =
      (if m.env.sendto 0 then 0 else -1, sending m
        { purpose with
          bytes := message.take message_length
          beyond := message_length - message.length
          client_addr := client_addr
          success := m.env.sendto 0 }) := by
  rw [send_message, if_neg (by omega)]
  cases hsuccess : m.env.sendto 0 <;> rfl

/-- A builder records its response and makes one datagram of it, whose fate it returns. -/
theorem send_response_spec {m : Machine} {transaction : Nat} {t : sip_transaction_t}
    {message : Owned sip_message_t} (h : Ready m transaction t message) (status_code : Nat) (reason : Bytes) :
    ∃ m', send_response_over_transaction m transaction status_code reason =
        ok (if m.env.sendto 0 then 0 else -1, m') ∧
      Conversed m m' transaction (answered t message status_code (output_of m t message status_code reason))
        [datagram_of transaction (answered t message status_code (output_of m t message status_code reason))
          (with_response message.contents (output_of m t message status_code reason)) (m.env.sendto 0)] [] ∧
      m'.worker.dialogs = m.worker.dialogs ∧ m'.worker.calls = m.worker.calls := by
  have hlength : (output_of m t message status_code reason).length ≠ 0 := by
    rw [Ne, List.length_eq_zero_iff]
    exact formatted_ne_nil _ _ _ _
  simp only [send_response_over_transaction, if_neg (Int.not_lt.mpr h.socket),
    Machine.transaction_of_cells h.cell, h.holds, h.to_tag_text, response_text_eq h.request, bind_ok]
  refine ⟨_, congrArg ok (send_message_eq _ _ _ h.socket hlength h.request.client_addr_len), ?_, rfl, rfl⟩
  have hset := Machine.conversed_set_transaction m transaction
    (answered t message status_code (output_of m t message status_code reason))
  exact hset.trans (conversed_sending (hset.cells h.cell) _)

theorem send_last_response_eq {m : Machine} {transaction : Nat} {t : sip_transaction_t}
    {message : Owned sip_message_t} (hsocket : 0 ≤ m.worker.server_socket)
    (hcell : m.worker.transactions.heap.cells transaction = some t) (hholds : t.message = some message)
    (haddr : message.contents.client_addr_len ≠ 0) :
    send_last_response_over_transaction m transaction =
      if message.contents.response_length = 0 then ok (-1, m)
      else ok (if m.env.sendto 0 then 0 else -1,
        sending m (datagram_of transaction t message.contents (m.env.sendto 0))) := by
  simp only [send_last_response_over_transaction, Machine.transaction_of_cells hcell, bind_ok,
    if_neg (Int.not_lt.mpr hsocket), hholds]
  split
  · rename_i hempty
    rw [send_message, if_pos (by omega)]
  · rename_i hlength
    exact congrArg ok (send_message_eq _ _ _ hsocket hlength haddr)

/-- A transaction stays ready as long as its request and a live dialog stay with it. -/
theorem Ready.conversed {m m' : Machine} {transaction : Nat} {t t' : sip_transaction_t}
    {message message' : Owned sip_message_t} {sends : List Sent} {adds : List TimerAdd}
    (h : Ready m transaction t message) (hconversed : Conversed m m' transaction t' sends adds)
    (hholds : t'.message = some message') (hsame : SameRequest message'.contents message.contents)
    (hdialog : ∀ dialog, t'.dialog = some dialog → ∃ d, m'.worker.dialogs.heap.cells dialog = some d ∧ Tagged d) :
    Ready m' transaction t' message' where
  socket := by
    rw [hconversed.socket]
    exact h.socket
  cell := hconversed.cells h.cell
  holds := hholds
  request := hsame.request h.request
  dialog := hdialog

end mock_uas.sip_server
