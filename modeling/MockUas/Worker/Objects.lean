import MockUas.Worker.Memory

open clib
open mock_uas.sip_message
open mock_uas.sip_server

namespace mock_uas.sip_utils

/-- A record as the `create` functions fill it: zeroed, with its identifier printed into it. -/
def new_call (call_id : Bytes) (call_id_length : Nat) : sip_call_t where
  dialog := .empty MAX_DIALOGS_PER_CALL
  state := .IDLE
  call_id := printed SIP_CALL_ID_MAX_LENGTH (precision (intCast call_id_length) call_id)
  call_id_length := call_id_length

def new_dialog (from_tag : Bytes) (from_tag_length : Nat) (to_tag : Bytes) : sip_dialog_t where
  transaction := .empty MAX_TXNS_PER_DIALOG
  call := none
  state := .IDLE
  from_tag := printed SIP_TAG_MAX_LENGTH (precision (intCast from_tag_length) from_tag)
  from_tag_length := from_tag_length
  to_tag := printed SIP_TAG_MAX_LENGTH to_tag
  to_tag_length := SIP_BUILD_TAG_LENGTH

def new_transaction (branch : Bytes) (branch_length : Nat) : sip_transaction_t where
  dialog := none
  state := .IDLE
  queue := none
  message := none
  ack_message := none
  branch := printed SIP_BRANCH_MAX_LENGTH (precision (intCast branch_length) branch)
  branch_length := branch_length
  final_response_code := 0

def find_call_by_id (calls : Store sip_call_t) (call_id : Option Bytes) (call_id_length : Nat) :
    Result (Option Nat) :=
  match call_id with
  | none => ok none
  | some call_id =>
    if calls.list = [] ∨ call_id_length = 0 then ok none
    else calls.find fun current =>
      current.call_id_length == call_id_length && strncmp current.call_id.bytes call_id call_id_length

/-- The address of the new call, which is linked at the head of the list. -/
def create_new_call (m : Machine) (call_id : Option Bytes) (call_id_length : Nat) : Option Nat × Machine :=
  match call_id with
  | none => (none, m)
  | some call_id =>
    if call_id_length = 0 then (none, m)
    else
      let (allocated, m) := m.malloc
      if allocated = false then (none, m)
      else
        (some m.worker.calls.heap.next, m.with_calls (m.worker.calls.push (new_call call_id call_id_length)))

def set_call_state (m : Machine) (call : Nat) (state : sip_call_state_t) : Result Machine := do
  let c ← m.call call
  ok (m.set_call call { c with state := state })

def add_dialog_to_call (m : Machine) (call dialog : Nat) : Result Machine := do
  let c ← m.call call
  ok (m.set_call call { c with dialog := c.dialog.add dialog })

def remove_dialog_from_call (m : Machine) (call dialog : Nat) : Result Machine := do
  let c ← m.call call
  ok (m.set_call call { c with dialog := c.dialog.remove dialog })

def set_dialog_state (m : Machine) (dialog : Nat) (state : sip_dialog_state_t) : Result Machine := do
  let d ← m.dialog dialog
  ok (m.set_dialog dialog { d with state := state })

def set_dialog_call (m : Machine) (dialog call : Nat) : Result Machine := do
  let d ← m.dialog dialog
  add_dialog_to_call (m.set_dialog dialog { d with call := some call }) call dialog

/-- A `NULL` tag has length zero, which no dialog's own tag has, so that the source never
compares it. -/
def find_dialog_by_id (dialogs : Store sip_dialog_t) (from_tag : Option Bytes) (from_tag_length : Nat)
    (to_tag : Option Bytes) (to_tag_length : Nat) : Result (Option Nat) :=
  match from_tag with
  | none => ok none
  | some from_tag =>
    if dialogs.list = [] ∨ from_tag_length = 0 then ok none
    else dialogs.find fun current =>
      current.from_tag_length == from_tag_length && strncmp current.from_tag.bytes from_tag from_tag_length &&
        (current.to_tag_length == to_tag_length && match to_tag with
          | none => false
          | some to_tag => strncmp current.to_tag.bytes to_tag to_tag_length)

def create_to_tag (m : Machine) : Nat → Bytes × Machine
  | 0 => ([], m)
  | buffer_size + 1 =>
    let (number, m) := m.rand
    let (rest, m) := create_to_tag m buffer_size
    (UInt8.ofNat (48 + number % 10) :: rest, m)

def create_new_dialog (m : Machine) (from_tag : Option Bytes) (from_tag_length : Nat) : Option Nat × Machine :=
  match from_tag with
  | none => (none, m)
  | some from_tag =>
    if from_tag_length = 0 then (none, m)
    else
      let (allocated, m) := m.malloc
      if allocated = false then (none, m)
      else
        let (to_tag, m) := create_to_tag m SIP_BUILD_TAG_LENGTH
        (some m.worker.dialogs.heap.next,
          m.with_dialogs (m.worker.dialogs.push (new_dialog from_tag from_tag_length to_tag)))

def add_transaction_to_dialog (m : Machine) (dialog transaction : Nat) : Result Machine := do
  let d ← m.dialog dialog
  ok (m.set_dialog dialog { d with transaction := d.transaction.add transaction })

def remove_transaction_from_dialog (m : Machine) (dialog transaction : Nat) : Result Machine := do
  let d ← m.dialog dialog
  ok (m.set_dialog dialog { d with transaction := d.transaction.remove transaction })

def find_transaction_by_id (transactions : Store sip_transaction_t) (branch : Option Bytes)
    (branch_length : Nat) : Result (Option Nat) :=
  match branch with
  | none => ok none
  | some branch =>
    if transactions.list = [] ∨ branch_length = 0 then ok none
    else transactions.find fun current =>
      current.branch_length == branch_length && strncmp current.branch.bytes branch branch_length

def create_new_transaction (m : Machine) (branch : Option Bytes) (branch_length : Nat) :
    Option Nat × Machine :=
  match branch with
  | none => (none, m)
  | some branch =>
    if branch_length = 0 then (none, m)
    else
      let (allocated, m) := m.malloc
      if allocated = false then (none, m)
      else
        (some m.worker.transactions.heap.next,
          m.with_transactions (m.worker.transactions.push (new_transaction branch branch_length)))

def set_transaction_dialog (m : Machine) (transaction dialog : Nat) : Result Machine := do
  let t ← m.transaction transaction
  add_transaction_to_dialog (m.set_transaction transaction { t with dialog := some dialog }) dialog transaction

/-- The two timed branches of `set_transaction_state`, which differ in the timer's delay
and callback. -/
def arm_delete_event (m : Machine) (transaction : Nat) (t : sip_transaction_t) (initial_ms : Nat)
    (callback : timer_callback_t) : Machine :=
  let (allocated, m) := m.malloc
  if allocated = false then m
  else
    let event : transaction_delete_t :=
      { serial := m.events
        owner := transaction
        branch := printed SIP_BRANCH_MAX_LENGTH (precision (intCast t.branch_length) t.branch.bytes)
        branch_length := t.branch_length
        queue := t.queue }
    { m with events := m.events + 1 }.timer_one_shot_add initial_ms callback event

def set_transaction_state (m : Machine) (transaction : Nat) (state : sip_transaction_state_t) :
    Result Machine := do
  let t ← m.transaction transaction
  if t.state = state then ok m
  else
    let m := m.set_transaction transaction { t with state := state }
    match state with
    | .COMPLETED =>
      ok (arm_delete_event m transaction t SIP_TRANSACTION_WAIT_ACK_TIMEOUT .transaction_wait_ack_timeout)
    | .TERMINATED =>
      ok (arm_delete_event m transaction t SIP_TRANSACTION_DELETE_TIMEOUT .transaction_delete_timeout)
    | _ => ok m

/-- The loop of `cleanup_call` over the slots of the call. Its stores into those slots,
which are freed right after, are left out, here and in `cleanup_dialog_slots`. -/
def cleanup_call_slots (m : Machine) : List (Option Nat) → Result Machine
  | [] => ok m
  | none :: slots => cleanup_call_slots m slots
  | some dialog :: slots => do
    let d ← m.dialog dialog
    let m ← if d.state ≠ .TERMINATED then set_dialog_state m dialog .TERMINATED else ok m
    let d ← m.dialog dialog
    cleanup_call_slots (m.set_dialog dialog { d with call := none }) slots

def cleanup_call (m : Machine) (call : Nat) : Result Machine := do
  let c ← m.call call
  let m ← cleanup_call_slots m c.dialog.items
  ok (m.free_call call)

def delete_call_by_pointer (m : Machine) (call : Nat) : Result Machine := do
  match ← m.worker.calls.unlink call with
  | none => ok m
  | some calls => cleanup_call (m.with_calls calls) call

/-- The loop of `cleanup_dialog` over the slots of the dialog. -/
def cleanup_dialog_slots (m : Machine) : List (Option Nat) → Result Machine
  | [] => ok m
  | none :: slots => cleanup_dialog_slots m slots
  | some transaction :: slots => do
    let t ← m.transaction transaction
    let m ← if t.state ≠ .TERMINATED then set_transaction_state m transaction .TERMINATED else ok m
    let t ← m.transaction transaction
    cleanup_dialog_slots (m.set_transaction transaction { t with dialog := none }) slots

def cleanup_dialog (m : Machine) (dialog : Nat) : Result Machine := do
  let d ← m.dialog dialog
  let m ← cleanup_dialog_slots m d.transaction.items
  let d ← m.dialog dialog
  let m ← match d.call with
    | none => ok m
    | some call => remove_dialog_from_call m call dialog
  ok (m.free_dialog dialog)

def delete_dialog_by_pointer (m : Machine) (dialog : Nat) : Result Machine := do
  match ← m.worker.dialogs.unlink dialog with
  | none => ok m
  | some dialogs => cleanup_dialog (m.with_dialogs dialogs) dialog

def cleanup_transaction (m : Machine) (transaction : Nat) : Result Machine := do
  let t ← m.transaction transaction
  let m ← match t.dialog with
    | none => ok m
    | some dialog => remove_transaction_from_dialog m dialog transaction
  let t ← m.transaction transaction
  ok (((m.cleanup_sip_message t.message).cleanup_sip_message t.ack_message).free_transaction transaction)

def delete_transaction_by_pointer (m : Machine) (transaction : Nat) : Result Machine := do
  match ← m.worker.transactions.unlink transaction with
  | none => ok m
  | some transactions => cleanup_transaction (m.with_transactions transactions) transaction

end mock_uas.sip_utils
