import MockUas.Server.Loop
import MockUas.System.MessageQueue

open clib
open mock_uas.sip_message
open mock_uas.sip_utils
open mock_uas.sip_server
open mock_uas.message_queue
open mock_uas.timer_manager

namespace mock_uas.main

def MAX_THREADS : Nat := 7
def QUEUE_CAPACITY : Int := 1024

theorem one_lt_max_threads : 1 < MAX_THREADS := by decide
theorem two_lt_max_threads : 2 < MAX_THREADS := by decide

/-- The value of a `char`, which is signed on the target. -/
def signed_char (b : UInt8) : Int := if b < 128 then b.toNat else b.toNat - 256

/-- The sum of the bytes, which no message is long enough to take out of the range of an
`int`. -/
def string_to_int_hash (buffer : Bytes) (str : Option Nat) (length : Nat) : Result Int :=
  match str with
  | none => ok 0
  | some str =>
    if length = 0 then ok 0
    else if buffer.length < str + length then error .outOfBounds
    else ok (((buffer.drop str).take length).foldl (fun hash b => hash + signed_char b) 0)

/-- The index into `worker_threads`. -/
def worker_at (i : Int) : Result (Fin MAX_THREADS) :=
  if h : 0 ≤ i ∧ i < MAX_THREADS then ok ⟨i.toNat, by omega⟩ else error .outOfBounds

/-- A worker thread. `run` is what it has made of its packets, `current` the packet it has
taken and not finished. The rest is a log: the datagrams it took, the delete events it
allocated and those it has processed. -/
structure Thread where
  run : Run
  queue : message_queue_t Packet
  current : Option Packet
  taken : List Nat
  allocated : List transaction_delete_t
  processed : List transaction_delete_t

/-- A datagram with a Call-ID that was handed to a worker: whether the queue was full, and
whether it took the datagram. -/
structure Arrival where
  address : Nat
  call_id : Bytes
  thread : Fin MAX_THREADS
  full : Bool
  accepted : Bool
  deriving DecidableEq

/-- The whole server between two steps of its threads: the workers, the armed timers, how
many messages were allocated, what arrived, and which messages `main` has freed. -/
structure System where
  threads : Fin MAX_THREADS → Thread
  epfd : Int
  timers : List timer_s
  messages : Nat
  arrivals : List Arrival
  freed : List Nat

/-- The answers of the system to one `handle_new_message`. A `recvfrom` that fails gives
`none`. -/
structure Reception where
  select : Int
  readable : Bool
  malloc : Bool
  recvfrom : Option (Datagram × sockaddr_in)

/-- A worker's run without the delete event that the worker has taken. -/
def settle (run : Run) : Packet → Run
  | .PACKET_TYPE_INCOMING_SIP _ => run
  | .PACKET_TYPE_DELETE_TRANSACTION event => { run with pending := run.pending.erase event }

namespace System

def set_thread (system : System) (k : Fin MAX_THREADS) (thread : Thread) : System :=
  { system with threads := fun j => if j = k then thread else system.threads j }

def free_message (system : System) (address : Nat) : System :=
  { system with freed := system.freed ++ [address] }

/-- The end of `handle_new_message`, for a message with a Call-ID. -/
def dispatch (system : System) (message : Owned sip_message_t) (call_id call_id_length : Nat) : Result System := do
  let hash ← string_to_int_hash message.contents.buffer (some call_id) call_id_length
  let selected_thread ← worker_at (hash.tmod MAX_THREADS)
  let thread := system.threads selected_thread
  let (rc, queue) ← enqueue_message thread.queue (some (.PACKET_TYPE_INCOMING_SIP message))
  let arrival : Arrival := {
    address := message.address
    call_id := (message.contents.buffer.drop call_id).take call_id_length
    thread := selected_thread
    full := thread.queue.size = thread.queue.capacity
    accepted := rc ≠ 0 }
  let system := { system with arrivals := system.arrivals ++ [arrival] }
  let system := system.set_thread selected_thread { thread with queue := queue }
  ok (if rc = 0 then system.free_message message.address else system)

def handle_new_message (system : System) (reception : Reception) : Result System :=
  if reception.select < 0 then ok system
  else if reception.readable = false then ok system
  else if reception.malloc = false then ok system
  else
    let address := system.messages
    let system := { system with messages := address + 1 }
    match reception.recvfrom with
    | none => ok (system.free_message address)
    | some (datagram, client_addr) =>
      if datagram.bytes.length = 0 then ok (system.free_message address)
      else do
        let (found, message) ← get_message_call_id (received datagram client_addr)
        match found with
        | none => ok (system.free_message address)
        | some (call_id, call_id_length) => system.dispatch ⟨address, message⟩ call_id call_id_length

/-- The return code of `enqueue_message` is not looked at. -/
def transaction_delete_timeout (system : System) (event : transaction_delete_t) : Result System :=
  match event.queue with
  | none => ok system
  | some queue => do
    let k ← worker_at queue
    let (_, queue) ← enqueue_message (system.threads k).queue (some (.PACKET_TYPE_DELETE_TRANSACTION event))
    ok (system.set_thread k { system.threads k with queue := queue })

/-- Neither is that of `timer_one_shot_add`. -/
def transaction_wait_ack_timeout (system : System) (answers : Syscalls) (event : transaction_delete_t) : System :=
  let result := timer_one_shot_add system.epfd answers .transaction_delete_timeout event
  { system with timers := system.timers ++ result.2.toList }

/-- The body of the loop of `timer_thread_func` for a timer that has expired. -/
def timer_expired (system : System) (timer : timer_s) (answers : Syscalls) : Result System := do
  let system ← match timer.cb with
    | .transaction_delete_timeout => system.transaction_delete_timeout timer.user_data
    | .transaction_wait_ack_timeout => ok (system.transaction_wait_ack_timeout answers timer.user_data)
  ok { system with timers := system.timers.erase timer }

/-- The `dequeue_message` of a worker. -/
def take (system : System) (k : Fin MAX_THREADS) : Result System := do
  let thread := system.threads k
  let (_, packet, queue) ← dequeue_message thread.queue
  ok (system.set_thread k { thread with
    queue := queue
    current := packet
    taken := thread.taken ++ (packet.bind address_of).toList })

/-- What a worker does with the packet it has taken. -/
def work (system : System) (k : Fin MAX_THREADS) (env : Environment) : Result System := do
  let thread := system.threads k
  let packet ← deref thread.current
  let m ← process_packet (thread.run.start env) packet
  let system := { system with timers := system.timers ++ m.timers.filterMap TimerAdd.armed }
  ok (system.set_thread k { thread with
    run := (settle thread.run packet).finish m
    current := none
    allocated := thread.allocated ++ m.timers.map TimerAdd.event
    processed := thread.processed ++ (event_of packet).toList })

/-- A step of one of the threads: of the main thread, of the timer thread, or of a worker. -/
inductive Action where
  | receive (reception : Reception)
  | fire (timer : timer_s) (answers : Syscalls)
  | take (k : Fin MAX_THREADS)
  | work (k : Fin MAX_THREADS) (env : Environment)

def step (system : System) : Action → Result System
  | .receive reception => system.handle_new_message reception
  | .fire timer answers => system.timer_expired timer answers
  | .take k => system.take k
  | .work k env => system.work k env

/-- A timer expires once. A worker takes a packet when it has none and one is there. -/
def enabled (system : System) : Action → Prop
  | .receive _ => True
  | .fire timer _ => timer ∈ system.timers
  | .take k => (system.threads k).current = none ∧ (system.threads k).queue.size ≠ 0
  | .work k env => (system.threads k).current ≠ none ∧ env.epfd = system.epfd

/-- `main` has started the workers and nothing has arrived. -/
structure Initial (system : System) : Prop where
  run : ∀ k, (system.threads k).run.Initial
  worker : ∀ k, (system.threads k).run.worker.queue = k
  queue : ∀ k, (system.threads k).queue = initialize_message_queue true QUEUE_CAPACITY
  current : ∀ k, (system.threads k).current = none
  taken : ∀ k, (system.threads k).taken = []
  allocated : ∀ k, (system.threads k).allocated = []
  processed : ∀ k, (system.threads k).processed = []
  timers : system.timers = []
  messages : system.messages = 0
  arrivals : system.arrivals = []
  freed : system.freed = []

end System

/-- The threads of the server, which take turns in any order. -/
def program : Transitions System System.Action where
  initial := System.Initial
  enabled := System.enabled
  step := System.step

instance (system : System) (action : System.Action) : Decidable (program.enabled system action) :=
  match action with
  | .receive _ => isTrue trivial
  | .fire timer _ => inferInstanceAs (Decidable (timer ∈ system.timers))
  | .take k => inferInstanceAs (Decidable ((system.threads k).current = none ∧ (system.threads k).queue.size ≠ 0))
  | .work k env => inferInstanceAs (Decidable ((system.threads k).current ≠ none ∧ env.epfd = system.epfd))

/-- A server that has just started. -/
def started : System where
  threads k :=
    { run := { Run.started with worker := { Run.started.worker with queue := k } }
      queue := initialize_message_queue true QUEUE_CAPACITY
      current := none
      taken := []
      allocated := []
      processed := [] }
  epfd := 4
  timers := []
  messages := 0
  arrivals := []
  freed := []

theorem started_initial : started.Initial where
  run _ := ⟨rfl, rfl, rfl, Run.started_initial.socket, rfl, rfl, rfl, rfl⟩
  worker _ := rfl
  queue _ := rfl
  current _ := rfl
  taken _ := rfl
  allocated _ := rfl
  processed _ := rfl
  timers := rfl
  messages := rfl
  arrivals := rfl
  freed := rfl

/-- The arrival of a datagram from one client. -/
def datagram_in (datagram : Datagram) : System.Action :=
  .receive { select := 1, readable := true, malloc := true, recvfrom := some (datagram, ⟨2, 5060, 1⟩) }

/-- A state that some actions lead to from the start. -/
theorem reachable_of_follow {system : System} {actions : List System.Action}
    (h : program.follow started actions = some system) : program.Reachable system :=
  ⟨started, started_initial, .of_follow h⟩

end mock_uas.main
