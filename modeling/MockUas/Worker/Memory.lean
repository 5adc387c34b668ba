import MockUas.Worker.Types

open clib
open mock_uas.sip_message
open mock_uas.sip_utils
open mock_uas.timer_manager

namespace mock_uas.sip_server

namespace Machine

/-- Whether the next `malloc` succeeds. -/
def malloc (m : Machine) : Bool × Machine :=
  (m.env.malloc 0, { m with env := { m.env with malloc := fun n => m.env.malloc (n + 1) } })

def rand (m : Machine) : Nat × Machine :=
  (m.env.rand 0, { m with env := { m.env with rand := fun n => m.env.rand (n + 1) } })

def transaction (m : Machine) (a : Nat) : Result sip_transaction_t := m.worker.transactions.heap.read a
def dialog (m : Machine) (a : Nat) : Result sip_dialog_t := m.worker.dialogs.heap.read a
def call (m : Machine) (a : Nat) : Result sip_call_t := m.worker.calls.heap.read a

def with_transactions (m : Machine) (transactions : Store sip_transaction_t) : Machine :=
  { m with worker := { m.worker with transactions := transactions } }

def with_dialogs (m : Machine) (dialogs : Store sip_dialog_t) : Machine :=
  { m with worker := { m.worker with dialogs := dialogs } }

def with_calls (m : Machine) (calls : Store sip_call_t) : Machine :=
  { m with worker := { m.worker with calls := calls } }

/-- Writes to the fields of a block that was read before. -/
def set_transaction (m : Machine) (a : Nat) (v : sip_transaction_t) : Machine :=
  m.with_transactions (m.worker.transactions.set a v)

def set_dialog (m : Machine) (a : Nat) (v : sip_dialog_t) : Machine :=
  m.with_dialogs (m.worker.dialogs.set a v)

def set_call (m : Machine) (a : Nat) (v : sip_call_t) : Machine := m.with_calls (m.worker.calls.set a v)

/-- `free` of a block that was taken out of its list before. -/
def free_transaction (m : Machine) (a : Nat) : Machine :=
  m.with_transactions { m.worker.transactions with heap := m.worker.transactions.heap.free a }

def free_dialog (m : Machine) (a : Nat) : Machine :=
  m.with_dialogs { m.worker.dialogs with heap := m.worker.dialogs.heap.free a }

def free_call (m : Machine) (a : Nat) : Machine :=
  m.with_calls { m.worker.calls with heap := m.worker.calls.heap.free a }

/-- `timer_one_shot_add`, whose return code no caller looks at. -/
def timer_one_shot_add (m : Machine) (initial_ms : Nat) (callback : timer_callback_t)
    (event : transaction_delete_t) : Machine :=
  let result := timer_manager.timer_one_shot_add m.env.epfd (m.env.timer 0) callback event
  { m with
    env := { m.env with timer := fun n => m.env.timer (n + 1) }
    timers := m.timers ++
      [{ initial_ms := initial_ms, callback := callback, event := event, armed := result.2 }] }

/-- `cleanup_sip_message`. -/
def cleanup_sip_message (m : Machine) : Option (Owned sip_message_t) → Machine
  | none => m
  | some message => { m with freed := m.freed ++ [message.address] }

end Machine

end mock_uas.sip_server
