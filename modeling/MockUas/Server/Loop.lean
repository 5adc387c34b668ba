import MockUas.Clib.Run
import MockUas.Message.Request
import MockUas.Server.Handlers

open clib
open mock_uas.sip_message
open mock_uas.sip_utils
open mock_uas.timer_manager

namespace mock_uas.sip_server

/-- What a queue entry points to, by its `packet_type`. -/
inductive Packet where
  | PACKET_TYPE_INCOMING_SIP (message : Owned sip_message_t)
  | PACKET_TYPE_DELETE_TRANSACTION (event : transaction_delete_t)
  deriving DecidableEq

/-- The address of the message a packet is. -/
def address_of : Packet → Option Nat
  | .PACKET_TYPE_INCOMING_SIP message => some message.address
  | .PACKET_TYPE_DELETE_TRANSACTION _ => none

/-- The delete event a packet is. -/
def event_of : Packet → Option transaction_delete_t
  | .PACKET_TYPE_INCOMING_SIP _ => none
  | .PACKET_TYPE_DELETE_TRANSACTION event => some event

/-- One turn of the loop of `process_sip_messages`, after `dequeue_message`. -/
def process_packet (m : Machine) : Packet → Result Machine
  | .PACKET_TYPE_INCOMING_SIP message => do
    let (err, parsed) ← parse_message message.contents
    let message := { message with contents := parsed }
    if err ≠ .ERROR_NONE then ok (m.cleanup_sip_message (some message))
    else if parsed.is_request then process_sip_request m message
    else process_sip_response m message
  | .PACKET_TYPE_DELETE_TRANSACTION event => delete_transaction m event

/-- The delete events whose timer was armed. -/
def armed (timers : List TimerAdd) : List transaction_delete_t :=
  timers.filterMap fun add => add.armed.map (·.user_data)

/-- A worker between two steps: besides its structures, how many delete events it has
allocated, those armed and not processed yet, every datagram sent so far and every message
freed so far. -/
structure Run where
  worker : worker_thread_t
  events : Nat
  pending : List transaction_delete_t
  sent : List Sent
  freed : List Nat

/-- One step's input, with the answers of the system calls the step makes. -/
inductive Input where
  | incoming (datagram : Datagram) (client_addr : sockaddr_in) (address : Nat) (env : Environment)
  | response (message : Owned sip_message_t) (env : Environment)
  | delete (event : transaction_delete_t) (env : Environment)

def Input.env : Input → Environment
  | .incoming _ _ _ env => env
  | .response _ env => env
  | .delete _ env => env

namespace Run

def start (run : Run) (env : Environment) : Machine where
  worker := run.worker
  env := env
  events := run.events
  sent := []
  timers := []
  freed := []

def finish (run : Run) (m : Machine) : Run where
  worker := m.worker
  events := m.events
  pending := run.pending ++ armed m.timers
  sent := run.sent ++ m.sent
  freed := run.freed ++ m.freed

def step (run : Run) : Input → Result Run
  | .incoming datagram client_addr address env => do
    match ← dispatched datagram client_addr with
    | none => ok run
    | some message =>
      let m ← process_packet (run.start env) (.PACKET_TYPE_INCOMING_SIP ⟨address, message⟩)
      ok (run.finish m)
  | .response message env => do
    let m ← process_sip_response (run.start env) message
    ok (run.finish m)
  | .delete event env => do
    let m ← process_packet (run.start env) (.PACKET_TYPE_DELETE_TRANSACTION event)
    ok ({ run with pending := run.pending.erase event }.finish m)

/-- A delete event is handed over once, after it was armed. -/
def enabled (run : Run) : Input → Prop
  | .delete event _ => event ∈ run.pending
  | _ => True

/-- `main` starts a worker with empty lists, on a socket it could open. -/
structure Initial (run : Run) : Prop where
  calls : run.worker.calls = .empty
  dialogs : run.worker.dialogs = .empty
  transactions : run.worker.transactions = .empty
  socket : 0 ≤ run.worker.server_socket
  events : run.events = 0
  pending : run.pending = []
  sent : run.sent = []
  freed : run.freed = []

end Run

/-- A worker that has just started, on socket 3. -/
def Run.started : Run where
  worker := { queue := 0, calls := .empty, dialogs := .empty, transactions := .empty, server_socket := 3 }
  events := 0
  pending := []
  sent := []
  freed := []

theorem Run.started_initial : Run.started.Initial := ⟨rfl, rfl, rfl, by decide, rfl, rfl, rfl, rfl⟩

/-- The system calls of a step in which all of them succeed. -/
def Environment.obliging : Environment where
  malloc _ := true
  sendto _ := true
  epfd := 4
  timer _ := ⟨true, true, true, true⟩
  rand _ := 0

/-- The system calls of a step in which `rand` gives another number. -/
def Environment.other : Environment := { Environment.obliging with rand := fun _ => 1 }

/-- A request of a call with the mandatory headers, of a method, with a branch and a To value. -/
def call_text (call_id method branch to_ : Bytes) : Bytes :=
  method ++ ascii " sip:b@h SIP/2.0\r\nVia: SIP/2.0/UDP h;branch=" ++ branch ++
    ascii "\r\nFrom: <sip:a@h>;tag=a\r\nTo: " ++ to_ ++ ascii "\r\nCall-ID: " ++ call_id ++
    ascii "\r\nCSeq: 1 " ++ method ++ ascii "\r\nMax-Forwards: 70\r\nContent-Length: 0\r\n\r\n"

def request_text : Bytes → Bytes → Bytes → Bytes := call_text (ascii "c@h")

/-- A request of another call of the same worker. -/
def foreign_text : Bytes → Bytes → Bytes → Bytes := call_text (ascii "j@h")

/-- A worker that takes datagrams, responses and delete events in any order, with any
answers to its system calls. -/
def program : Transitions Run Input where
  initial := Run.Initial
  enabled := Run.enabled
  step := Run.step

instance (run : Run) (input : Input) : Decidable (program.enabled run input) :=
  match input with
  | .incoming .. => isTrue trivial
  | .response .. => isTrue trivial
  | .delete event _ => inferInstanceAs (Decidable (event ∈ run.pending))

/-- A state that some inputs lead to from the start. -/
theorem reachable_of_follow {run : Run} {inputs : List Input} (h : program.follow Run.started inputs = some run) :
    program.Reachable run :=
  ⟨Run.started, Run.started_initial, .of_follow h⟩

/-- A datagram that comes from one client. -/
def arrival (datagram : Datagram) (env : Environment) : Input := .incoming datagram ⟨2, 5060, 1⟩ 0 env

def first_invite : Datagram where
  bytes := request_text (ascii "INVITE") (ascii "z9hG4bK1") (ascii "<sip:b@h>")
  fits := by decide +kernel

theorem first_invite_accepted : ∃ message, Accepted first_invite ⟨2, 5060, 1⟩ message := by
  have hsome : (accepted_message first_invite ⟨2, 5060, 1⟩).isSome = true := by decide +kernel
  obtain ⟨message, hmessage⟩ := Option.isSome_iff_exists.mp hsome
  exact ⟨message, accepted_iff.mpr hmessage⟩

/-- The ACK for it and the BYE in the dialog it begins. -/
def first_ack : Datagram where
  bytes := request_text (ascii "ACK") (ascii "z9hG4bK1") (ascii "<sip:b@h>")
  fits := by decide +kernel

def first_bye : Datagram where
  bytes := request_text (ascii "BYE") (ascii "z9hG4bK2") (ascii "<sip:b@h>;tag=0000000000000000")
  fits := by decide +kernel

/-- The events that the INVITE and the BYE arm. -/
def invite_event : transaction_delete_t where
  serial := 0
  owner := 0
  branch := printed SIP_BRANCH_MAX_LENGTH (ascii "z9hG4bK1")
  branch_length := 8
  queue := some 0

def bye_event : transaction_delete_t where
  serial := 1
  owner := 1
  branch := printed SIP_BRANCH_MAX_LENGTH (ascii "z9hG4bK2")
  branch_length := 8
  queue := some 0

/-- A whole call: the INVITE and a copy of it, its ACK, and the BYE and a copy of it. -/
def first_call : List Input :=
  [arrival first_invite .obliging, arrival first_invite .obliging, arrival first_ack .obliging,
    arrival first_bye .obliging, arrival first_bye .obliging]

/-- An INVITE of another call, and the event it arms behind the first call. -/
def foreign_invite : Datagram where
  bytes := foreign_text (ascii "INVITE") (ascii "z9hG4bK3") (ascii "<sip:b@h>")
  fits := by decide +kernel

def foreign_event : transaction_delete_t where
  serial := 2
  owner := 2
  branch := printed SIP_BRANCH_MAX_LENGTH (ascii "z9hG4bK3")
  branch_length := 8
  queue := some 0

/-- An INVITE on a worker that has just started leaves it with one call. -/
theorem invite_run :
    (program.follow Run.started [arrival first_invite .obliging]).map (fun run : Run => run.worker.calls.list) =
      some [0] := by
  decide +kernel

end mock_uas.sip_server
