import MockUas.Clib.Heap
import MockUas.Clib.Slots
import MockUas.Clib.Text
import MockUas.Message.Types

open clib
open mock_uas.sip_message

namespace mock_uas.sip_utils

def MAX_DIALOGS_PER_CALL : Nat := 16
def MAX_TXNS_PER_DIALOG : Nat := 32
def SIP_TRANSACTION_WAIT_ACK_TIMEOUT : Nat := 5000
def SIP_TRANSACTION_DELETE_TIMEOUT : Nat := 5000

inductive sip_transaction_state_t where
  | IDLE
  | PROCEEDING
  | COMPLETED
  | TERMINATED
  deriving DecidableEq, Repr

inductive sip_dialog_state_t where
  | IDLE
  | EARLY
  | CONFIRMED
  | TERMINATED
  deriving DecidableEq, Repr

inductive sip_call_state_t where
  | IDLE
  | INCOMING
  | RINGING
  | ESTABLISHED
  | FAILED
  | TERMINATING
  | TERMINATED
  deriving DecidableEq, Repr

/-- The values the compiler gives the enumerators. -/
def sip_transaction_state_t.value : sip_transaction_state_t → Nat
  | .IDLE => 0
  | .PROCEEDING => 1
  | .COMPLETED => 2
  | .TERMINATED => 3

def sip_dialog_state_t.value : sip_dialog_state_t → Nat
  | .IDLE => 0
  | .EARLY => 1
  | .CONFIRMED => 2
  | .TERMINATED => 3

theorem sip_transaction_state_t.value_le (state : sip_transaction_state_t) : state.value ≤ value .TERMINATED := by
  cases state <;> decide

theorem sip_dialog_state_t.value_le (state : sip_dialog_state_t) : state.value ≤ value .TERMINATED := by
  cases state <;> decide

/-- `struct sip_transaction_s`. The list link `next` is kept by the store, and no other
pointer leads to the two messages. -/
structure sip_transaction_t where
  dialog : Option Nat
  state : sip_transaction_state_t
  queue : Option Nat
  message : Option (Owned sip_message_t)
  ack_message : Option (Owned sip_message_t)
  branch : Text SIP_BRANCH_MAX_LENGTH
  branch_length : Nat
  final_response_code : Int

structure sip_dialog_t where
  transaction : Slots MAX_TXNS_PER_DIALOG
  call : Option Nat
  state : sip_dialog_state_t
  from_tag : Text SIP_TAG_MAX_LENGTH
  from_tag_length : Nat
  to_tag : Text SIP_TAG_MAX_LENGTH
  to_tag_length : Nat

structure sip_call_t where
  dialog : Slots MAX_DIALOGS_PER_CALL
  state : sip_call_state_t
  call_id : Text SIP_CALL_ID_MAX_LENGTH
  call_id_length : Nat

/-- The event a timer hands to a worker. `serial` stands for its address; `owner`, which
the source does not keep, is the transaction that armed it. -/
structure transaction_delete_t where
  serial : Nat
  owner : Nat
  branch : Text SIP_BRANCH_MAX_LENGTH
  branch_length : Nat
  queue : Option Nat
  deriving DecidableEq

inductive timer_callback_t where
  | transaction_delete_timeout
  | transaction_wait_ack_timeout
  deriving DecidableEq, Repr

end mock_uas.sip_utils

namespace mock_uas.timer_manager

open mock_uas.sip_utils

/-- `struct timer_s`, without its file descriptor. -/
structure timer_s where
  cb : timer_callback_t
  user_data : transaction_delete_t
  deriving DecidableEq

/-- What the allocator and the kernel answer to one `timer_one_shot_add`. -/
structure Syscalls where
  malloc : Bool
  timerfd_create : Bool
  timerfd_settime : Bool
  epoll_ctl : Bool
  deriving DecidableEq

/-- The return code and, when the timer is armed, the timer. Each failure frees it. -/
def timer_one_shot_add (epfd : Int) (answers : Syscalls) (callback : timer_callback_t)
    (user_data : transaction_delete_t) : Int × Option timer_s :=
  if epfd < 0 then (-1, none)
  else if answers.malloc = false then (-1, none)
  else
    let t : timer_s := { cb := callback, user_data := user_data }
    if answers.timerfd_create = false then (-1, none)
    else if answers.timerfd_settime = false then (-1, none)
    else if answers.epoll_ctl = false then (-1, none)
    else (0, some t)

/-- A timer is armed exactly when the return code says so. -/
theorem timer_one_shot_add_eq_zero_iff (epfd : Int) (answers : Syscalls) (callback : timer_callback_t)
    (user_data : transaction_delete_t) :
    (timer_one_shot_add epfd answers callback user_data).1 = 0 ↔
      (timer_one_shot_add epfd answers callback user_data).2 =
        some { cb := callback, user_data := user_data } := by
  unfold timer_one_shot_add
  repeat' split
  all_goals simp

theorem timer_one_shot_add_armed {epfd : Int} {answers : Syscalls} {callback : timer_callback_t}
    {user_data : transaction_delete_t} {timer : timer_s}
    (h : (timer_one_shot_add epfd answers callback user_data).2 = some timer) :
    timer = { cb := callback, user_data := user_data } := by
  unfold timer_one_shot_add at h
  repeat' split at h
  all_goals cases h
  rfl

/-- A timer manager that was started and whose system calls all succeed. -/
structure Succeeds (epfd : Int) (answers : Syscalls) : Prop where
  started : 0 ≤ epfd
  malloc : answers.malloc = true
  timerfd_create : answers.timerfd_create = true
  timerfd_settime : answers.timerfd_settime = true
  epoll_ctl : answers.epoll_ctl = true

theorem timer_one_shot_add_of_succeeds {epfd : Int} {answers : Syscalls} (h : Succeeds epfd answers)
    (callback : timer_callback_t) (user_data : transaction_delete_t) :
    timer_one_shot_add epfd answers callback user_data = (0, some { cb := callback, user_data := user_data }) := by
  obtain ⟨hstarted, hmalloc, hcreate, hsettime, hctl⟩ := h
  simp [timer_one_shot_add, Int.not_lt.mpr hstarted, hmalloc, hcreate, hsettime, hctl]

end mock_uas.timer_manager

namespace mock_uas.sip_server

open mock_uas.sip_utils
open mock_uas.timer_manager

/-- `worker_thread_t`, of which `queue` is the address of the worker's own queue. The
entries of that queue are part of the system's state. -/
structure worker_thread_t where
  queue : Nat
  calls : Store sip_call_t
  dialogs : Store sip_dialog_t
  transactions : Store sip_transaction_t
  server_socket : Int

/-- The answers of the allocator, the network, the timer manager and `rand` to the calls
that are still to come. -/
structure Environment where
  malloc : Nat → Bool
  sendto : Nat → Bool
  epfd : Int
  timer : Nat → Syscalls
  rand : Nat → Nat

/-- What a datagram is sent for, which the source does not keep: the transaction and its
dialog, the method of the request and the code of the response. -/
structure Purpose where
  transaction : Option Nat
  dialog : Option Nat
  method : sip_method_t
  status_code : Int
  deriving DecidableEq

/-- One call of `sendto`: the bytes read from the response array, and how many bytes were
read past that array. -/
structure Sent extends Purpose where
  bytes : Bytes
  beyond : Nat
  client_addr : sockaddr_in
  success : Bool
  deriving DecidableEq

/-- One call of `timer_one_shot_add`, with the timer it armed. -/
structure TimerAdd where
  initial_ms : Nat
  callback : timer_callback_t
  event : transaction_delete_t
  armed : Option timer_s
  deriving DecidableEq

/-- A worker in the middle of a step: its structures, the answers still to come, how many
delete events it has allocated in its life, and what the step has done so far. -/
structure Machine where
  worker : worker_thread_t
  env : Environment
  events : Nat
  sent : List Sent
  timers : List TimerAdd
  freed : List Nat

end mock_uas.sip_server
