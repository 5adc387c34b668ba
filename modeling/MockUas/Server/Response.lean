import MockUas.Message.Parse
import MockUas.Worker.Objects

open clib
open mock_uas.sip_message
open mock_uas.sip_utils

namespace mock_uas.sip_server

def RESPONSE_CODE_100 : Nat := 100
def RESPONSE_CODE_180 : Nat := 180
def RESPONSE_CODE_200 : Nat := 200
def RESPONSE_CODE_403 : Nat := 403
def RESPONSE_CODE_404 : Nat := 404
def RESPONSE_CODE_500 : Nat := 500
def RESPONSE_CODE_501 : Nat := 501

def RESPONSE_TEXT_100_TRYING : Bytes := ascii "Trying"
def RESPONSE_TEXT_180_RINGING : Bytes := ascii "Ringing"
def RESPONSE_TEXT_200_OK : Bytes := ascii "OK"
def RESPONSE_TEXT_403_FORBIDDEN : Bytes := ascii "Forbidden"
def RESPONSE_TEXT_404_NOT_FOUND : Bytes := ascii "Not Found"
def RESPONSE_TEXT_500_INTERNAL_SERVER_ERROR : Bytes := ascii "Internal Server Error"
def RESPONSE_TEXT_501_NOT_IMPLEMENTED : Bytes := ascii "Not Implemented"

/-- `sizeof(PARAM_NAME_TAG) + SIP_TAG_MAX_LENGTH + 8`, without the byte for the NUL. -/
def TO_TAG_CAPACITY : Nat := PARAM_NAME_TAG.length + 1 + SIP_TAG_MAX_LENGTH + 8 - 1

def COLON_SPACE : Bytes := ascii ": "

/-- The text all builders format. The two `%s` are the reason and the To tag. -/
def response_text (request : sip_message_t) (status_code : Nat) (reason to_tag : Bytes) : Result Bytes := do
  let via ← textAt request.buffer request.via
  let from_ ← textAt request.buffer request.from_
  let to_ ← textAt request.buffer request.to_
  let call_id ← textAt request.buffer request.call_id
  let cseq ← textAt request.buffer request.cseq
  ok (SIP_PROTOCOL_AND_VERSION ++ [SPACE] ++ digits status_code ++ [SPACE] ++ reason ++ CRLF ++
    (HEADER_NAME_VIA ++ COLON_SPACE ++ precision (intCast request.via_length) via ++ CRLF) ++
    (HEADER_NAME_FROM ++ COLON_SPACE ++ precision (intCast request.from_length) from_ ++ CRLF) ++
    (HEADER_NAME_TO ++ COLON_SPACE ++ precision (intCast request.to_length) to_ ++ to_tag ++ CRLF) ++
    (HEADER_NAME_CALL_ID ++ COLON_SPACE ++ precision (intCast request.call_id_length) call_id ++ CRLF) ++
    (HEADER_NAME_CSEQ ++ COLON_SPACE ++ precision (intCast request.cseq_length) cseq ++ CRLF) ++
    (HEADER_NAME_CONTENT_LENGTH ++ COLON_SPACE ++ ascii "0" ++ CRLF) ++ CRLF)

/-- The response array and its length after the builders' `snprintf`, whose return value
is the length of the whole text. -/
def with_response (request : sip_message_t) (output : Bytes) : sip_message_t :=
  { request with response := snprintf request.response output, response_length := output.length }

/-- The To tag the builders append: the dialog's, unless the text from the To value on
has it already. -/
def to_tag_text (m : Machine) (t : sip_transaction_t) (request : sip_message_t) : Result Bytes :=
  match t.dialog with
  | none => ok []
  | some dialog => do
    let d ← m.dialog dialog
    let to_ ← deref request.to_
    match ← strstr request.buffer to_ d.to_tag.bytes with
    | some _ => ok []
    | none =>
      ok (printed TO_TAG_CAPACITY
        (ascii ";" ++ PARAM_NAME_TAG ++ ascii "=" ++ precision (intCast d.to_tag_length) d.to_tag.bytes)).bytes

/-- Every caller passes the response array of a request, its length and the request's address. -/
def send_message (m : Machine) (purpose : Purpose) (message : Bytes) (message_length : Nat)
    (client_addr : sockaddr_in) (client_addr_len : Nat) : Int × Machine :=
  if m.worker.server_socket < 0 ∨ message_length = 0 ∨ client_addr_len = 0 then (-1, m)
  else
    let sent : Sent :=
      { purpose with
        bytes := message.take message_length
        beyond := message_length - message.length
        client_addr := client_addr
        success := m.env.sendto 0 }
    let m := { m with
      env := { m.env with sendto := fun n => m.env.sendto (n + 1) }
      sent := m.sent ++ [sent] }
    if sent.success then (0, m) else (-1, m)

def send_sip_error_response (m : Machine) (request : sip_message_t) (status_code : Nat) (reason : Bytes) :
    Result Machine :=
  if m.worker.server_socket < 0 then ok m
  else do
    let output ← response_text request status_code reason []
    let request := with_response request output
    ok (send_message m
      { transaction := none, dialog := none, method := request.method_type, status_code := status_code }
      request.response request.response_length request.client_addr request.client_addr_len).2

/-- The body the four builders over a transaction share. -/
def send_response_over_transaction (m : Machine) (transaction : Nat) (status_code : Nat) (reason : Bytes) :
    Result (Int × Machine) :=
  if m.worker.server_socket < 0 then ok (-1, m)
  else do
    let t ← m.transaction transaction
    match t.message with
    | none => ok (-1, m)
    | some message =>
      let to_tag ← to_tag_text m t message.contents
      let output ← response_text message.contents status_code reason to_tag
      let request := with_response message.contents output
      let m := m.set_transaction transaction
        { t with message := some { message with contents := request }, final_response_code := status_code }
      ok (send_message m
        { transaction := some transaction, dialog := t.dialog, method := request.method_type,
          status_code := status_code }
        request.response request.response_length request.client_addr request.client_addr_len)

def send_sip_error_response_over_transaction (m : Machine) (transaction : Nat) (status_code : Nat)
    (reason : Bytes) : Result (Int × Machine) :=
  send_response_over_transaction m transaction status_code reason

def send_100_trying_response_over_transaction (m : Machine) (transaction : Nat) : Result (Int × Machine) :=
  send_response_over_transaction m transaction RESPONSE_CODE_100 RESPONSE_TEXT_100_TRYING

def send_180_ring_response_over_transaction (m : Machine) (transaction : Nat) : Result (Int × Machine) :=
  send_response_over_transaction m transaction RESPONSE_CODE_180 RESPONSE_TEXT_180_RINGING

def send_sip_200_ok_response_over_transaction (m : Machine) (transaction : Nat) : Result (Int × Machine) :=
  send_response_over_transaction m transaction RESPONSE_CODE_200 RESPONSE_TEXT_200_OK

def send_last_response_over_transaction (m : Machine) (transaction : Nat) : Result (Int × Machine) := do
  let t ← m.transaction transaction
  if m.worker.server_socket < 0 then ok (-1, m)
  else
    match t.message with
    | none => ok (-1, m)
    | some message =>
      let request := message.contents
      ok (send_message m
        { transaction := some transaction, dialog := t.dialog, method := request.method_type,
          status_code := t.final_response_code }
        request.response request.response_length request.client_addr request.client_addr_len)

end mock_uas.sip_server
