import MockUas.Server.Response

open clib
open mock_uas.sip_message
open mock_uas.sip_utils

namespace mock_uas.sip_server

/-- `0` when the addresses are equal, else `-1`. -/
def sockaddr_in_equal (a b : sockaddr_in) : Int :=
  if a.sin_family ≠ b.sin_family then -1
  else if a.sin_port ≠ b.sin_port then -1
  else if a.s_addr ≠ b.s_addr then -1
  else 0

/-- What every failure exit of `process_invite_request` begins with. -/
def fail_invite (m : Machine) (transaction : Nat) : Result Machine := do
  let (_, m) ← send_sip_error_response_over_transaction m transaction RESPONSE_CODE_500
    RESPONSE_TEXT_500_INTERNAL_SERVER_ERROR
  set_transaction_state m transaction .COMPLETED

/-- `process_invite_request` from the 180 on, with the dialog and the call set up. -/
def answer_invite (m : Machine) (transaction dialog call : Nat) : Result Machine := do
  let (rc, m) ← send_180_ring_response_over_transaction m transaction
  if rc ≠ 0 then
    let m ← fail_invite m transaction
    let m ← set_dialog_state m dialog .TERMINATED
    set_call_state m call .FAILED
  else
    let m ← set_call_state m call .RINGING
    let (rc, m) ← send_sip_200_ok_response_over_transaction m transaction
    if rc ≠ 0 then
      let m ← fail_invite m transaction
      let m ← set_dialog_state m dialog .TERMINATED
      set_call_state m call .FAILED
    else
      let m ← set_transaction_state m transaction .TERMINATED
      let m ← set_dialog_state m dialog .CONFIRMED
      set_call_state m call .ESTABLISHED

/-- `process_invite_request` from the link to the new dialog on. -/
def begin_dialog (m : Machine) (transaction dialog : Nat) (request : sip_message_t) : Result Machine := do
  let m ← set_transaction_dialog m transaction dialog
  let m ← set_dialog_state m dialog .EARLY
  let call_id ← textArg request.buffer request.call_id
  match create_new_call m call_id request.call_id_length with
  | (none, m) =>
    let m ← fail_invite m transaction
    set_dialog_state m dialog .TERMINATED
  | (some call, m) =>
    let m ← set_dialog_call m dialog call
    let m ← set_call_state m call .INCOMING
    answer_invite m transaction dialog call

def process_invite_request (m : Machine) (transaction : Nat) : Result Machine := do
  let t ← m.transaction transaction
  match t.message with
  | none => ok m
  | some message =>
    let request := message.contents
    if t.dialog ≠ none then ok m
    else
      let (rc, m) ← send_100_trying_response_over_transaction m transaction
      if rc ≠ 0 then fail_invite m transaction
      else
        let m ← set_transaction_state m transaction .PROCEEDING
        let from_tag ← textArg request.buffer request.from_tag
        match create_new_dialog m from_tag request.from_tag_length with
        | (none, m) => fail_invite m transaction
        | (some dialog, m) => begin_dialog m transaction dialog request

/-- The three cases the source tells apart in its log end the same way. -/
def process_ack_request (m : Machine) (transaction : Nat) : Result Machine := do
  let t ← m.transaction transaction
  match t.message with
  | none => ok m
  | some message =>
    let acks_failure := t.state = .COMPLETED ∧ message.contents.method_type = .INVITE ∧
      (t.ack_message.map (·.contents.method_type)) = some .ACK
    if ¬ acks_failure ∧ t.state = .IDLE ∧ message.contents.method_type = .ACK then
      match t.dialog with
      | none => set_transaction_state m transaction .TERMINATED
      | some dialog => do
        let _ ← m.dialog dialog
        set_transaction_state m transaction .TERMINATED
    else set_transaction_state m transaction .TERMINATED

/-- `transaction->dialog->call`, where a missing dialog counts as a missing call. -/
def call_of (m : Machine) : Option Nat → Result (Option (Nat × sip_dialog_t × Nat))
  | none => ok none
  | some dialog => do
    let d ← m.dialog dialog
    ok (d.call.map fun call => (dialog, d, call))

def process_bye_request (m : Machine) (transaction : Nat) : Result Machine := do
  let t ← m.transaction transaction
  match t.message with
  | none => ok m
  | some _ =>
    match ← call_of m t.dialog with
    | none =>
      let (_, m) ← send_sip_error_response_over_transaction m transaction RESPONSE_CODE_404
        RESPONSE_TEXT_404_NOT_FOUND
      set_transaction_state m transaction .TERMINATED
    | some (dialog, d, call) =>
      if d.state = .CONFIRMED then
        let m ← set_call_state m call .TERMINATING
        let (_, m) ← send_sip_200_ok_response_over_transaction m transaction
        let m ← set_call_state m call .TERMINATED
        let m ← set_dialog_state m dialog .TERMINATED
        set_transaction_state m transaction .TERMINATED
      else
        let (_, m) ← send_sip_error_response_over_transaction m transaction RESPONSE_CODE_403
          RESPONSE_TEXT_403_FORBIDDEN
        set_transaction_state m transaction .TERMINATED

/-- The `switch` of `process_sip_request`. -/
def process_method (m : Machine) (transaction : Nat) (method : sip_method_t) : Result Machine :=
  match method with
  | .INVITE => process_invite_request m transaction
  | .ACK => process_ack_request m transaction
  | .BYE => process_bye_request m transaction
  | _ => do
    let (_, m) ← send_sip_error_response_over_transaction m transaction RESPONSE_CODE_501
      RESPONSE_TEXT_501_NOT_IMPLEMENTED
    set_transaction_state m transaction .TERMINATED

/-- The lookup of the dialog for a transaction that has none. -/
def link_dialog (m : Machine) (transaction : Nat) (message : sip_message_t) : Result Machine := do
  let from_tag ← textArg message.buffer message.from_tag
  let to_tag ← textArg message.buffer message.to_tag
  match ← find_dialog_by_id m.worker.dialogs from_tag message.from_tag_length to_tag message.to_tag_length with
  | none => ok m
  | some dialog => set_transaction_dialog m transaction dialog

/-- `process_sip_request` from the lookup of the dialog on. The parser has recorded the
method, so that `get_message_method` leaves the message as it is. -/
def process_in_dialog (m : Machine) (transaction : Nat) (message : sip_message_t) : Result Machine := do
  let t ← m.transaction transaction
  let m ← if t.dialog ≠ none then ok m else link_dialog m transaction message
  let (method, _) ← get_message_method message
  process_method m transaction method

/-- Whether a message differs from the one that opened the transaction. -/
def is_different (message opened : sip_message_t) : Result Bool :=
  if message.cseq_length ≠ opened.cseq_length then ok true
  else do
    let cseq ← textAt message.buffer message.cseq
    let opened_cseq ← textAt opened.buffer opened.cseq
    ok (!strncmp cseq opened_cseq message.cseq_length ||
      decide (sockaddr_in_equal message.client_addr opened.client_addr ≠ 0))

/-- `process_sip_request` for a branch that has a transaction already. -/
def process_known_branch (m : Machine) (transaction : Nat) (message : Owned sip_message_t) :
    Result Machine := do
  let t ← m.transaction transaction
  let opened ← deref t.message
  if ← is_different message.contents opened.contents then
    if opened.contents.method_type = .INVITE ∧ message.contents.method_type = .ACK then
      process_in_dialog (m.set_transaction transaction { t with ack_message := some message })
        transaction message.contents
    else ok (m.cleanup_sip_message (some message))
  else
    let (rc, m) ← send_last_response_over_transaction m transaction
    if rc ≠ 0 then
      let (_, m) ← send_sip_error_response_over_transaction m transaction RESPONSE_CODE_500
        RESPONSE_TEXT_500_INTERNAL_SERVER_ERROR
      ok (m.cleanup_sip_message (some message))
    else ok (m.cleanup_sip_message (some message))

def process_sip_request (m : Machine) (message : Owned sip_message_t) : Result Machine := do
  let branch ← textArg message.contents.buffer message.contents.branch
  match ← find_transaction_by_id m.worker.transactions branch message.contents.branch_length with
  | some transaction => process_known_branch m transaction message
  | none =>
    match create_new_transaction m branch message.contents.branch_length with
    | (none, m) =>
      let m ← send_sip_error_response m message.contents RESPONSE_CODE_500
        RESPONSE_TEXT_500_INTERNAL_SERVER_ERROR
      ok (m.cleanup_sip_message (some message))
    | (some transaction, m) =>
      let t ← m.transaction transaction
      let m := m.set_transaction transaction { t with message := some message, queue := some m.worker.queue }
      process_in_dialog m transaction message.contents

def process_sip_response (m : Machine) (message : Owned sip_message_t) : Result Machine := do
  let branch ← textArg message.contents.buffer message.contents.branch
  match ← find_transaction_by_id m.worker.transactions branch message.contents.branch_length with
  | none => ok (m.cleanup_sip_message (some message))
  | some _ => ok (m.cleanup_sip_message (some message))

def delete_transaction (m : Machine) (event : transaction_delete_t) : Result Machine := do
  match ← find_transaction_by_id m.worker.transactions (some event.branch.bytes) event.branch_length with
  | none => ok m
  | some transaction =>
    let t ← m.transaction transaction
    let m ← delete_transaction_by_pointer m transaction
    match t.dialog with
    | none => ok m
    | some dialog =>
      let d ← m.dialog dialog
      if d.state ≠ .TERMINATED then ok m
      else
        let m ← delete_dialog_by_pointer m dialog
        match d.call with
        | none => ok m
        | some call =>
          let c ← m.call call
          if c.state = .TERMINATED then delete_call_by_pointer m call else ok m

end mock_uas.sip_server
