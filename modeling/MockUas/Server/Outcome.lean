import MockUas.Server.Answer
import MockUas.Server.Handlers

open clib
open mock_uas.sip_message
open mock_uas.sip_utils

namespace mock_uas.sip_server

/-- The C string at a message's branch pointer. -/
def branch_text (message : sip_message_t) : Bytes := cstr message.buffer (message.branch.getD 0)

def from_tag_text (message : sip_message_t) : Bytes := cstr message.buffer (message.from_tag.getD 0)

/-- The test of `find_transaction_by_id`. -/
def matches_branch (branch : Bytes) (branch_length : Nat) (t : sip_transaction_t) : Bool :=
  t.branch_length == branch_length && strncmp t.branch.bytes branch branch_length

/-- The test of `find_dialog_by_id`. -/
def matches_tags (message : sip_message_t) (d : sip_dialog_t) : Bool :=
  d.from_tag_length == message.from_tag_length &&
      strncmp d.from_tag.bytes (from_tag_text message) message.from_tag_length &&
    (d.to_tag_length == message.to_tag_length && match message.to_tag with
      | none => false
      | some to_tag => strncmp d.to_tag.bytes (cstr message.buffer to_tag) message.to_tag_length)

/-- The transaction a request's branch leads to, the one a delete event leads to, and the
dialog a request's tags lead to. -/
def transaction_for (worker : worker_thread_t) (message : sip_message_t) : Option Nat :=
  worker.transactions.first (matches_branch (branch_text message) message.branch_length)

def transaction_of (worker : worker_thread_t) (event : transaction_delete_t) : Option Nat :=
  worker.transactions.first (matches_branch event.branch.bytes event.branch_length)

def dialog_for (worker : worker_thread_t) (message : sip_message_t) : Option Nat :=
  worker.dialogs.first (matches_tags message)

/-- The copy of its branch that a transaction keeps. -/
def stored_branch (message : sip_message_t) : Text SIP_BRANCH_MAX_LENGTH :=
  printed SIP_BRANCH_MAX_LENGTH (precision (intCast message.branch_length) (branch_text message))

/-- The dialogs after a transaction was added to one of them. -/
def attach (dialogs : Store sip_dialog_t) (dialog : Option Nat) (transaction : Nat) : Store sip_dialog_t :=
  match dialog with
  | none => dialogs
  | some dialog =>
    match dialogs.heap.cells dialog with
    | none => dialogs
    | some d => dialogs.set dialog { d with transaction := d.transaction.add transaction }

/-- Datagrams sent before a final response, all of them for an INVITE: of those that went
out, the first is a 100 and the second a 180. -/
structure Provisional (transaction : Nat) (method : sip_method_t) (sends : List Sent) : Prop where
  carried : ∀ s ∈ sends, s.transaction = some transaction ∧ s.method = method
  codes : (sends.filter (·.success)).map (·.status_code) <+: [100, 180]
  invite : sends ≠ [] → method = .INVITE
  low : ∀ s ∈ sends, s.status_code ≤ 200

/-- The datagrams of a step end with the response its transaction holds. -/
def Answer (transaction : Nat) (original : Owned sip_message_t) (t : sip_transaction_t) (sends : List Sent) :
    Prop :=
  ∃ contents provisional success, t.message = some ⟨original.address, contents⟩ ∧
    SameRequest contents original.contents ∧ contents.response_length ≠ 0 ∧
    sends = provisional ++ [datagram_of transaction t contents success] ∧
    Provisional transaction original.contents.method_type provisional

/-- A dialog as an INVITE begins it, with a tag of its own. -/
def Begun (message : sip_message_t) (transaction : Nat) (call : Option Nat) (state : sip_dialog_state_t)
    (d : sip_dialog_t) : Prop :=
  ∃ to_tag : Bytes, to_tag.length = SIP_BUILD_TAG_LENGTH ∧ NUL ∉ to_tag ∧
    d = { new_dialog (from_tag_text message) message.from_tag_length to_tag with
      transaction := (Slots.empty MAX_TXNS_PER_DIALOG).add transaction
      call := call
      state := state }

/-- A call as an INVITE sets it up. -/
def set_up_call (message : sip_message_t) (dialog : Nat) (state : sip_call_state_t) : sip_call_t :=
  { new_call (cstr message.buffer (message.call_id.getD 0)) message.call_id_length with
    dialog := (Slots.empty MAX_DIALOGS_PER_CALL).add dialog
    state := state }

/-- A BYE that finds a confirmed dialog with its call. -/
def HangsUp (worker : worker_thread_t) (message : sip_message_t) : Prop :=
  message.method_type = .BYE ∧ ∃ dialog d call, dialog_for worker message = some dialog ∧
    worker.dialogs.heap.cells dialog = some d ∧ d.state = .CONFIRMED ∧ d.call = some call

/-- What becomes of the transaction `t` a request opens, of the dialogs and of the calls. -/
inductive Fate (before : worker_thread_t) (message : Owned sip_message_t) (transaction : Nat)
    (t : sip_transaction_t) (after : worker_thread_t) (sends : List Sent) : Prop where
  /-- An INVITE in a dialog: nothing is done about it. -/
  | reinvite {dialog : Nat} {d : sip_dialog_t}
    (hmethod : message.contents.method_type = .INVITE)
    (hfound : dialog_for before message.contents = some dialog)
    (hcell : before.dialogs.heap.cells dialog = some d)
    (hdialog : t.dialog = some dialog) (hstate : t.state = .IDLE) (hholds : t.message = some message)
    (hcode : t.final_response_code = 0)
    (hdialogs : after.dialogs = before.dialogs.set dialog { d with transaction := d.transaction.add transaction })
    (hcalls : after.calls = before.calls) (hsends : sends = [])
  | acked (hmethod : message.contents.method_type = .ACK)
    (hdialog : t.dialog = dialog_for before message.contents) (hstate : t.state = .TERMINATED)
    (hholds : t.message = some message) (hcode : t.final_response_code = 0)
    (hdialogs : after.dialogs = attach before.dialogs (dialog_for before message.contents) transaction)
    (hcalls : after.calls = before.calls) (hsends : sends = [])
  /-- A BYE that ends no call, and every method that is not implemented. -/
  | refused (hinvite : message.contents.method_type ≠ .INVITE) (hack : message.contents.method_type ≠ .ACK)
    (hbye : ¬ HangsUp before message.contents)
    (hdialog : t.dialog = dialog_for before message.contents) (hstate : t.state = .TERMINATED)
    (hcode : 300 ≤ t.final_response_code) (hanswer : Answer transaction message t sends)
    (hdialogs : after.dialogs = attach before.dialogs (dialog_for before message.contents) transaction)
    (hcalls : after.calls = before.calls)
  | hung_up {dialog call : Nat} {d : sip_dialog_t} {c : sip_call_t}
    (hmethod : message.contents.method_type = .BYE)
    (hfound : dialog_for before message.contents = some dialog)
    (hcell : before.dialogs.heap.cells dialog = some d) (hconfirmed : d.state = .CONFIRMED)
    (hcall : d.call = some call) (hcall_cell : before.calls.heap.cells call = some c)
    (hdialog : t.dialog = some dialog) (hstate : t.state = .TERMINATED)
    (hcode : t.final_response_code = 200) (hanswer : Answer transaction message t sends)
    (hdialogs : after.dialogs = before.dialogs.set dialog
      { d with transaction := d.transaction.add transaction, state := .TERMINATED })
    (hcalls : after.calls = before.calls.set call { c with state := .TERMINATED })
  /-- The 100 cannot be sent, or there is no memory for a dialog. -/
  | failed_alone (hmethod : message.contents.method_type = .INVITE)
    (hfound : dialog_for before message.contents = none)
    (hdialog : t.dialog = none) (hstate : t.state = .COMPLETED)
    (hcode : t.final_response_code = 500) (hanswer : Answer transaction message t sends)
    (hdialogs : after.dialogs = before.dialogs) (hcalls : after.calls = before.calls)
  /-- There is no memory for a call, or no Call-ID to store. -/
  | failed_in_dialog {d : sip_dialog_t} (hmethod : message.contents.method_type = .INVITE)
    (hfound : dialog_for before message.contents = none)
    (hdialog : t.dialog = some before.dialogs.heap.next) (hstate : t.state = .COMPLETED)
    (hcode : t.final_response_code = 500) (hanswer : Answer transaction message t sends)
    (hbegun : Begun message.contents transaction none .TERMINATED d)
    (hdialogs : after.dialogs = before.dialogs.push d) (hcalls : after.calls = before.calls)
  /-- The 180 or the 200 cannot be sent. -/
  | failed_in_call {d : sip_dialog_t} (hmethod : message.contents.method_type = .INVITE)
    (hfound : dialog_for before message.contents = none)
    (hdialog : t.dialog = some before.dialogs.heap.next) (hstate : t.state = .COMPLETED)
    (hcode : t.final_response_code = 500) (hanswer : Answer transaction message t sends)
    (hbegun : Begun message.contents transaction (some before.calls.heap.next) .TERMINATED d)
    (hdialogs : after.dialogs = before.dialogs.push d)
    (hcalls : after.calls =
      before.calls.push (set_up_call message.contents before.dialogs.heap.next .FAILED))
  | established {d : sip_dialog_t} (hmethod : message.contents.method_type = .INVITE)
    (hfound : dialog_for before message.contents = none)
    (hdialog : t.dialog = some before.dialogs.heap.next) (hstate : t.state = .TERMINATED)
    (hcode : t.final_response_code = 200) (hanswer : Answer transaction message t sends)
    (hbegun : Begun message.contents transaction (some before.calls.heap.next) .CONFIRMED d)
    (hdialogs : after.dialogs = before.dialogs.push d)
    (hcalls : after.calls =
      before.calls.push (set_up_call message.contents before.dialogs.heap.next .ESTABLISHED))

/-- The part of its record that a transaction is opened with and keeps. -/
structure OpenedFor (queue : Nat) (message : Owned sip_message_t) (t : sip_transaction_t) : Prop where
  queue : t.queue = some queue
  ack_message : t.ack_message = none
  branch : t.branch = stored_branch message.contents
  branch_length : t.branch_length = message.contents.branch_length
  message : ∃ contents, t.message = some ⟨message.address, contents⟩ ∧ SameRequest contents message.contents

/-- A request with a new branch opens one transaction and, as far as it is concluded, arms
its deletion. -/
structure Opened (m : Machine) (message : Owned sip_message_t) (m' : Machine) (t : sip_transaction_t)
    (sends : List Sent) (adds : List TimerAdd) : Prop where
  conversed : Conversed (m.with_transactions (m.worker.transactions.push t)) m'
    m.worker.transactions.heap.next t sends adds
  opened : OpenedFor m.worker.queue message t
  fate : Fate m.worker message m.worker.transactions.heap.next t m'.worker sends
  arms : if t.state = .IDLE then adds = []
    else Arms m.env m.events m.worker.transactions.heap.next t adds

/-- What becomes of a request whose branch has the transaction `t` already. -/
inductive Known (m : Machine) (message : Owned sip_message_t) (transaction : Nat) (t : sip_transaction_t)
    (opened : Owned sip_message_t) (m' : Machine) : Prop where
  /-- Another request than the one that opened the transaction, and no ACK for it. -/
  | dropped (hdifferent : is_different message.contents opened.contents = ok true)
    (hack : ¬ (opened.contents.method_type = .INVITE ∧ message.contents.method_type = .ACK))
    (hm : m' = m.cleanup_sip_message (some message))
  /-- The same request again: the response goes out again. -/
  | resent (hsame : is_different message.contents opened.contents = ok false)
    (hlength : opened.contents.response_length ≠ 0) (hsendto : m.env.sendto 0 = true)
    (hm : m' = (sending m (datagram_of transaction t opened.contents true)).cleanup_sip_message (some message))
  /-- The same request again, but its response is empty or does not go out: a 500 takes its
  place. -/
  | rewritten {output : Bytes} {success : Bool}
    (hsame : is_different message.contents opened.contents = ok false)
    (hfails : opened.contents.response_length = 0 ∨ m.env.sendto 0 = false) (houtput : output ≠ [])
    (hconversed : Conversed m { m' with freed := m.freed } transaction
      (answered t opened RESPONSE_CODE_500 output)
      ((if opened.contents.response_length = 0 then [] else [datagram_of transaction t opened.contents false]) ++
        [datagram_of transaction (answered t opened RESPONSE_CODE_500 output)
          (with_response opened.contents output) success]) [])
    (hdialogs : m'.worker.dialogs = m.worker.dialogs) (hcalls : m'.worker.calls = m.worker.calls)
    (hfreed : m'.freed = m.freed ++ [message.address])
  /-- The ACK for an INVITE, which shares its branch. -/
  | acked {adds : List TimerAdd} (hdifferent : is_different message.contents opened.contents = ok true)
    (hinvite : opened.contents.method_type = .INVITE) (hack : message.contents.method_type = .ACK)
    (hconversed : Conversed m m' transaction
      { t with
        ack_message := some message
        dialog := if t.dialog = none then dialog_for m.worker message.contents else t.dialog
        state := .TERMINATED } [] adds)
    (hdialogs : m'.worker.dialogs = if t.dialog = none then
      attach m.worker.dialogs (dialog_for m.worker message.contents) transaction else m.worker.dialogs)
    (hcalls : m'.worker.calls = m.worker.calls)
    (harms : if t.state = .TERMINATED then adds = [] else Arms m.env m.events transaction t adds)

/-- What a step does with a request the parser has accepted. -/
inductive Handled (m : Machine) (message : Owned sip_message_t) (m' : Machine) : Prop where
  | unallocated {sent : Sent} (hnew : transaction_for m.worker message.contents = none)
    (hmalloc : m.env.malloc 0 = false)
    (hsent : sent.toPurpose = ⟨none, none, message.contents.method_type, RESPONSE_CODE_500⟩)
    (hm : m' = (sending { m with env := m.malloc.2.env } sent).cleanup_sip_message (some message))
  | opened {t : sip_transaction_t} {sends : List Sent} {adds : List TimerAdd}
    (hnew : transaction_for m.worker message.contents = none) (hmalloc : m.env.malloc 0 = true)
    (hopened : Opened m message m' t sends adds)
  | known {transaction : Nat} {t : sip_transaction_t} {opened : Owned sip_message_t}
    (hfound : transaction_for m.worker message.contents = some transaction)
    (hcell : m.worker.transactions.heap.cells transaction = some t) (hholds : t.message = some opened)
    (hknown : Known m message transaction t opened m')

end mock_uas.sip_server
