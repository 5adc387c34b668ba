import MockUas.System.Advance
import MockUas.System.Timers

open clib
open mock_uas.sip_message
open mock_uas.sip_utils
open mock_uas.sip_server
open mock_uas.message_queue
open mock_uas.timer_manager

namespace mock_uas.main

/-- The answers of the system to the start of `main`, as the calls return them. -/
structure Startup where
  socket : Int
  fcntl_getfl : Int
  fcntl_setfl : Int
  bind : Int
  epoll_create1 : Int
  timer_thread : Bool
  malloc : Fin MAX_THREADS → Bool
  pthread_create : Fin MAX_THREADS → Int

/-- The timer manager of the process, which also has the descriptors that are open. -/
abbrev Manager := timer_manager.Threads (Fin MAX_THREADS)

abbrev Manager.unstarted (others : List Int) : Manager := timer_manager.Threads.unstarted (Fin MAX_THREADS) others

abbrev Manager.program (others : List Int) : Transitions Manager (timer_manager.Threads.Action (Fin MAX_THREADS)) :=
  timer_manager.Threads.program (Fin MAX_THREADS) others

/-- What `main` goes on with. -/
structure Process where
  system : System
  manager : Manager

/-- An `exit` ends the start with the descriptors that are open then. -/
def setup_server_socket (manager : Manager) (startup : Startup) : Except Manager (Int × Manager) :=
  let server_socket := startup.socket
  if server_socket < 0 then .error manager
  else
    let manager := manager.open_descriptor server_socket .other
    if startup.fcntl_getfl = -1 ∨ startup.fcntl_setfl = -1 then .error (manager.close server_socket)
    else if startup.bind < 0 then .error (manager.close server_socket)
    else .ok (server_socket, manager)

/-- The memory of `worker_threads`, which is zero before `main` runs. -/
def zeroed (epfd : Int) : System where
  threads k :=
    { run :=
        { worker := { queue := k, calls := .empty, dialogs := .empty, transactions := .empty, server_socket := 0 }
          events := 0
          pending := []
          sent := []
          freed := [] }
      queue := { messages := none, capacity := 0, size := 0, front := 0, rear := 0 }
      current := none
      taken := []
      allocated := []
      processed := [] }
  epfd := epfd
  timers := []
  messages := 0
  arrivals := []
  freed := []

/-- The assignments to `worker_threads[i]`. -/
def initialize_worker (thread : Thread) (startup : Startup) (server_socket : Int) (i : Fin MAX_THREADS) : Thread :=
  { thread with
    run := { thread.run with worker := { thread.run.worker with calls := .empty, server_socket := server_socket } }
    queue := initialize_message_queue (startup.malloc i) QUEUE_CAPACITY }

/-- The loop of `main` over the workers that are left. -/
def create_workers (process : Process) (startup : Startup) (server_socket : Int) :
    List (Fin MAX_THREADS) → Except Manager Process
  | [] => .ok process
  | i :: rest =>
    let thread := initialize_worker (process.system.threads i) startup server_socket i
    let process := { process with system := process.system.set_thread i thread }
    if startup.pthread_create i ≠ 0 then .error (process.manager.close server_socket)
    else create_workers process startup server_socket rest

/-- `main` up to its loop, in a process with some descriptors open. The return code of
`timer_one_shot_init` is not looked at. -/
def main_start (others : List Int) (startup : Startup) : Except Manager Process := do
  let (server_socket, manager) ← setup_server_socket (.unstarted others) startup
  let (_, manager) := manager.timer_one_shot_init startup.epoll_create1 startup.timer_thread
  create_workers { system := zeroed manager.epfd, manager := manager } startup server_socket (List.finRange MAX_THREADS)

/-- The loop initializes the workers that are left and no others, or closes the socket. -/
theorem create_workers_spec (startup : Startup) (server_socket : Int) {rest : List (Fin MAX_THREADS)}
    (hnodup : rest.Nodup) (process : Process) :
    (∃ threads, create_workers process startup server_socket rest =
        .ok { process with system := { process.system with threads := threads } } ∧
      ∀ k, (k ∈ rest → threads k = initialize_worker (process.system.threads k) startup server_socket k) ∧
        (k ∉ rest → threads k = process.system.threads k)) ∨
    create_workers process startup server_socket rest = .error (process.manager.close server_socket) := by
  induction rest generalizing process with
  | nil => exact .inl ⟨process.system.threads, rfl, fun k => ⟨fun hn => (by cases hn), fun _ => rfl⟩⟩
  | cons i rest ih =>
    obtain ⟨hi, hnodup⟩ := List.nodup_cons.mp hnodup
    rw [create_workers]
    by_cases hcreate : startup.pthread_create i = 0
    · rw [if_neg (not_not.mpr hcreate)]
      obtain ⟨thread, hthread⟩ : ∃ thread,
          thread = initialize_worker (process.system.threads i) startup server_socket i := ⟨_, rfl⟩
      rw [← hthread]
      refine (ih hnodup { process with system := process.system.set_thread i thread }).imp_left ?_
      rintro ⟨threads, heq, hthreads⟩
      refine ⟨threads, heq, fun k => ⟨fun hk => ?_, fun hk => ?_⟩⟩
      · rcases List.mem_cons.mp hk with rfl | hk
        · rw [(hthreads k).2 hi, ← hthread]
          exact if_pos rfl
        · have hki : k ≠ i := fun hki => hi (hki ▸ hk)
          rw [(hthreads k).1 hk, System.threads_set_thread, if_neg hki]
      · have hki : k ≠ i := fun hki => hk (hki ▸ List.mem_cons_self)
        rw [(hthreads k).2 fun hmem => hk (List.mem_cons_of_mem _ hmem), System.threads_set_thread, if_neg hki]
    · exact .inr (if_pos hcreate)

/-- The queue of a worker has memory exactly when its `malloc` succeeded. -/
theorem initialize_message_queue_inj {P : Type} {malloc : Bool} {capacity : Int}
    (h : initialize_message_queue (P := P) malloc capacity = initialize_message_queue true capacity) :
    malloc = true := by
  cases malloc with
  | true => rfl
  | false => exact absurd (congrArg message_queue_t.messages h) (by simp [initialize_message_queue])

/-- The socket is open, or it is not and the process exits. -/
theorem setup_server_socket_spec {others : List Int} {startup : Startup} (hsocket : startup.socket ∉ others) :
    (∃ manager, setup_server_socket (.unstarted others) startup = .error manager ∧
      manager.opened startup.socket = none) ∨
    setup_server_socket (.unstarted others) startup =
        .ok (startup.socket, .unstarted (startup.socket :: others)) ∧
      0 ≤ startup.socket := by
  unfold setup_server_socket
  dsimp only
  split
  · exact .inl ⟨_, rfl, if_neg hsocket⟩
  · split
    · exact .inl ⟨_, rfl, if_pos rfl⟩
    · split
      · exact .inl ⟨_, rfl, if_pos rfl⟩
      · refine .inr ⟨?_, by omega⟩
        have hopened : (fun fd => if fd = startup.socket then some Descriptor.other
            else if fd ∈ others then some .other else none) =
            fun fd => if fd ∈ startup.socket :: others then some .other else none := by
          funext fd
          by_cases hfd : fd = startup.socket <;> simp [hfd]
        exact congrArg (fun opened => Except.ok (startup.socket,
          { Manager.unstarted (startup.socket :: others) with opened := opened })) hopened

/-- The workers as the loop leaves them. -/
theorem initial_iff_queues_allocated (startup : Startup) (epfd : Int) (hsocket : 0 ≤ startup.socket) :
    { zeroed epfd with
      threads := fun k => initialize_worker ((zeroed epfd).threads k) startup startup.socket k }.Initial ↔
      ∀ k, startup.malloc k = true := by
  constructor
  · exact fun h k => initialize_message_queue_inj (h.queue k)
  · intro hmalloc
    refine ⟨fun _ => ⟨rfl, rfl, rfl, hsocket, rfl, rfl, rfl, rfl⟩, fun _ => rfl, fun k => ?_, fun _ => rfl,
      fun _ => rfl, fun _ => rfl, fun _ => rfl, rfl, rfl, rfl, rfl⟩
    exact congrArg (initialize_message_queue · QUEUE_CAPACITY) (hmalloc k)

end mock_uas.main

namespace mock_uas.sip_server

theorem Handled.socket {m m' : Machine} {message : Owned sip_message_t} (h : Handled m message m') :
    m'.worker.server_socket = m.worker.server_socket := by
  cases h with
  | unallocated _ _ _ hm => rw [hm]; rfl
  | opened _ _ hopened => exact hopened.conversed.socket
  | known _ _ _ hknown =>
    cases hknown with
    | dropped _ _ hm => rw [hm]; rfl
    | resent _ _ _ hm => rw [hm]; rfl
    | rewritten _ _ _ hconversed => exact hconversed.socket
    | acked _ _ _ hconversed => exact hconversed.socket

theorem Deleted.socket {m m' : Machine} {event : transaction_delete_t} (h : Deleted m event m') :
    m'.worker.server_socket = m.worker.server_socket := by
  cases h with
  | missing _ hm => rw [hm]
  | removed _ _ hdeletion =>
    cases hdeletion.removed with
    | alone _ hafter => rw [hafter]
    | left _ _ _ hafter => rw [hafter]
    | ended _ _ _ hafter => rw [hafter]

/-- A worker keeps the socket it was given. -/
theorem Processed.socket {m m' : Machine} {packet : Packet} (h : Processed m packet m') :
    m'.worker.server_socket = m.worker.server_socket := by
  cases h with
  | dropped => rfl
  | request _ _ hhandled => exact hhandled.socket
  | delete hdeleted => exact hdeleted.socket

end mock_uas.sip_server

namespace mock_uas.main

/-- All workers have this socket. -/
def SendOn (socket : Int) (system : System) : Prop :=
  ∀ k, (system.threads k).run.worker.server_socket = socket

theorem SendOn.set_thread {socket : Int} {system : System} (h : SendOn socket system) {k : Fin MAX_THREADS}
    {thread : Thread} (hthread : thread.run.worker.server_socket = socket) :
    SendOn socket (system.set_thread k thread) := by
  intro j
  rw [System.threads_set_thread]
  split
  · exact hthread
  · exact h j

theorem Advanced.sendOn {socket : Int} {system system' : System} {action : System.Action}
    (h : Advanced system action system') (hsend : SendOn socket system) : SendOn socket system' := by
  cases h with
  | idle => exact hsend
  | discarded => exact hsend
  | refused => exact hsend
  | rearmed => exact hsend
  | lost => exact hsend
  | dispatched => exact SendOn.set_thread hsend (hsend _)
  | expired => exact SendOn.set_thread hsend (hsend _)
  | taken => exact hsend.set_thread (hsend _)
  | worked _ _ hprocessed => exact SendOn.set_thread hsend (hprocessed.socket.trans (hsend _))

/-- The queues that got no memory have never been used. -/
structure Unused (malloc : Fin MAX_THREADS → Bool) (system : System) : Prop where
  queue : ∀ k, malloc k = false → (system.threads k).queue = initialize_message_queue false QUEUE_CAPACITY
  current : ∀ k, malloc k = false → (system.threads k).current = none

/-- The same server with memory for these queues. -/
def System.with_memory (malloc : Fin MAX_THREADS → Bool) (system : System) : System :=
  { system with
    threads := fun k => if malloc k then system.threads k
      else { system.threads k with queue := initialize_message_queue true QUEUE_CAPACITY } }

section Memory

variable {malloc : Fin MAX_THREADS → Bool} {system system' : System}

theorem Unused.set_thread (h : Unused malloc system) {k : Fin MAX_THREADS} (hk : malloc k = true) (thread : Thread) :
    Unused malloc (system.set_thread k thread) := by
  have hother : ∀ j, malloc j = false → (system.set_thread k thread).threads j = system.threads j := by
    intro j hj
    rw [System.threads_set_thread, if_neg]
    rintro rfl
    cases hk.symm.trans hj
  constructor
  · intro j hj
    rw [hother j hj, h.queue j hj]
  · intro j hj
    rw [hother j hj, h.current j hj]

private theorem mirrored_threads {k : Fin MAX_THREADS} (hk : malloc k = true) (threads : Fin MAX_THREADS → Thread)
    (thread : Thread) (queue : message_queue_t Packet) :
    (fun j => if j = k then thread else if malloc j then threads j else { threads j with queue := queue }) =
      fun j => if malloc j then if j = k then thread else threads j
        else { (if j = k then thread else threads j) with queue := queue } := by
  funext j
  by_cases hj : j = k
  · subst hj
    rw [if_pos rfl, if_pos hk, if_pos rfl]
  · simp only [if_neg hj]

theorem System.with_memory_set_thread {k : Fin MAX_THREADS} (hk : malloc k = true) (system : System) (thread : Thread) :
    (system.set_thread k thread).with_memory malloc = (system.with_memory malloc).set_thread k thread :=
  congrArg (fun threads => { system with threads := threads }) (mirrored_threads hk system.threads thread _).symm

theorem System.run_with_memory (malloc : Fin MAX_THREADS → Bool) (system : System) (k : Fin MAX_THREADS) :
    ((system.with_memory malloc).threads k).run = (system.threads k).run := by
  rw [System.with_memory]
  dsimp only
  split <;> rfl

theorem System.threads_with_memory {k : Fin MAX_THREADS} (hk : malloc k = true) (system : System) :
    (system.with_memory malloc).threads k = system.threads k := if_pos hk

/-- Nothing can be entered into a queue without memory. -/
theorem Unused.malloc_of_enqueue (h : Unused malloc system) {k : Fin MAX_THREADS} {packet : Packet}
    {result : Int × message_queue_t Packet}
    (henqueue : enqueue_message (system.threads k).queue (some packet) = ok result) : malloc k = true := by
  cases hk : malloc k with
  | true => rfl
  | false =>
    rw [h.queue k hk] at henqueue
    have hfault : enqueue_message (initialize_message_queue false QUEUE_CAPACITY) (some packet) =
        error .nullPointer := rfl
    cases hfault.symm.trans henqueue

/-- With memory for all queues the server comes to the same state. -/
private def Mirrored (malloc : Fin MAX_THREADS → Bool) (result : Result System) (system' : System) : Prop :=
  result = ok (system'.with_memory malloc) ∧ Unused malloc system'

private theorem dispatch_mirrored (h : Unused malloc system) {message : Owned sip_message_t} {call_id length : Nat}
    (hstep : system.dispatch message call_id length = ok system') :
    Mirrored malloc ((system.with_memory malloc).dispatch message call_id length) system' := by
  obtain ⟨hash, hhash, hstep⟩ := bind_eq_ok_iff.mp hstep
  obtain ⟨k, hk, hstep⟩ := bind_eq_ok_iff.mp hstep
  obtain ⟨⟨rc, queue⟩, henqueue, hstep⟩ := bind_eq_ok_iff.mp hstep
  have hmalloc := h.malloc_of_enqueue henqueue
  have hthreads := fun thread => mirrored_threads hmalloc system.threads thread
    (initialize_message_queue true QUEUE_CAPACITY)
  obtain rfl := Except.ok.inj hstep
  simp only [Mirrored, System.dispatch, hhash, hk, bind_ok, System.threads_with_memory hmalloc, henqueue]
  have hafter := h.set_thread hmalloc { system.threads k with queue := queue }
  split
  · exact ⟨congrArg (fun threads => ok (System.mk threads _ _ _ _ _)) (hthreads _), hafter.queue, hafter.current⟩
  · exact ⟨congrArg (fun threads => ok (System.mk threads _ _ _ _ _)) (hthreads _), hafter.queue, hafter.current⟩

private theorem receive_mirrored (h : Unused malloc system) {reception : Reception}
    (hstep : system.handle_new_message reception = ok system') :
    Mirrored malloc ((system.with_memory malloc).handle_new_message reception) system' := by
  rw [Mirrored, System.handle_new_message]
  rw [System.handle_new_message] at hstep
  by_cases hselect : reception.select < 0
  · rw [if_pos hselect] at hstep ⊢
    obtain rfl := Except.ok.inj hstep
    exact ⟨rfl, h⟩
  rw [if_neg hselect] at hstep ⊢
  by_cases hreadable : reception.readable = false
  · rw [if_pos hreadable] at hstep ⊢
    obtain rfl := Except.ok.inj hstep
    exact ⟨rfl, h⟩
  rw [if_neg hreadable] at hstep ⊢
  by_cases hmalloc : reception.malloc = false
  · rw [if_pos hmalloc] at hstep ⊢
    obtain rfl := Except.ok.inj hstep
    exact ⟨rfl, h⟩
  rw [if_neg hmalloc] at hstep ⊢
  cases hrecvfrom : reception.recvfrom with
  | none =>
    simp only [hrecvfrom] at hstep ⊢
    obtain rfl := Except.ok.inj hstep
    exact ⟨rfl, h.queue, h.current⟩
  | some received =>
    obtain ⟨datagram, client_addr⟩ := received
    simp only [hrecvfrom] at hstep ⊢
    by_cases hempty : datagram.bytes.length = 0
    · rw [if_pos hempty] at hstep ⊢
      obtain rfl := Except.ok.inj hstep
      exact ⟨rfl, h.queue, h.current⟩
    · rw [if_neg hempty] at hstep ⊢
      obtain ⟨⟨found, message⟩, hfound, hstep⟩ := bind_eq_ok_iff.mp hstep
      rw [hfound, bind_ok]
      cases found with
      | none =>
        obtain rfl := Except.ok.inj hstep
        exact ⟨rfl, h.queue, h.current⟩
      | some call_id =>
        have hmessages : Unused malloc { system with messages := system.messages + 1 } := ⟨h.queue, h.current⟩
        exact dispatch_mirrored hmessages hstep

private theorem delete_timeout_mirrored (h : Unused malloc system) {event : transaction_delete_t}
    (hstep : system.transaction_delete_timeout event = ok system') :
    Mirrored malloc ((system.with_memory malloc).transaction_delete_timeout event) system' := by
  rw [Mirrored, System.transaction_delete_timeout]
  rw [System.transaction_delete_timeout] at hstep
  cases hqueue : event.queue with
  | none =>
    rw [hqueue] at hstep
    obtain rfl := Except.ok.inj hstep
    exact ⟨rfl, h⟩
  | some queue =>
    rw [hqueue] at hstep
    obtain ⟨k, hk, hstep⟩ := bind_eq_ok_iff.mp hstep
    obtain ⟨⟨rc, after⟩, henqueue, hstep⟩ := bind_eq_ok_iff.mp hstep
    have hmalloc := h.malloc_of_enqueue henqueue
    obtain rfl := Except.ok.inj hstep
    simp only [hk, bind_ok, System.threads_with_memory hmalloc, henqueue]
    exact ⟨congrArg ok (System.with_memory_set_thread hmalloc _ _).symm, h.set_thread hmalloc _⟩

private theorem fire_mirrored (h : Unused malloc system) {timer : timer_s} {answers : Syscalls}
    (hstep : system.timer_expired timer answers = ok system') :
    Mirrored malloc ((system.with_memory malloc).timer_expired timer answers) system' := by
  rw [Mirrored, System.timer_expired]
  rw [System.timer_expired] at hstep
  cases hcb : timer.cb with
  | transaction_delete_timeout =>
    rw [hcb] at hstep
    obtain ⟨after, hafter, hstep⟩ := bind_eq_ok_iff.mp hstep
    obtain ⟨hmirrored, hunused⟩ := delete_timeout_mirrored h hafter
    obtain rfl := Except.ok.inj hstep
    simp only [hmirrored, bind_ok]
    exact ⟨rfl, hunused.queue, hunused.current⟩
  | transaction_wait_ack_timeout =>
    rw [hcb] at hstep
    obtain rfl := Except.ok.inj hstep
    exact ⟨rfl, h.queue, h.current⟩

/-- A server some of whose queues lack memory does nothing that it would not do with memory. -/
theorem Unused.step (h : Unused malloc system) {action : System.Action} (henabled : program.enabled system action)
    (hstep : program.step system action = ok system') :
    program.enabled (system.with_memory malloc) action ∧
      program.step (system.with_memory malloc) action = ok (system'.with_memory malloc) ∧ Unused malloc system' := by
  cases action with
  | receive reception => exact ⟨trivial, receive_mirrored h hstep⟩
  | fire timer answers => exact ⟨henabled, fire_mirrored h hstep⟩
  | take k =>
    obtain ⟨hcurrent, hsize⟩ := henabled
    have hmalloc : malloc k = true := by
      by_contra hk
      rw [h.queue k (Bool.eq_false_iff.mpr hk)] at hsize
      exact hsize rfl
    obtain ⟨⟨rc, packet, queue⟩, hdequeue, hstep⟩ := bind_eq_ok_iff.mp hstep
    obtain rfl := Except.ok.inj hstep
    refine ⟨?_, ?_, h.set_thread hmalloc _⟩
    · rw [← System.threads_with_memory hmalloc system] at hcurrent hsize
      exact ⟨hcurrent, hsize⟩
    · simp only [program, System.step, System.take, System.threads_with_memory hmalloc, hdequeue, bind_ok]
      exact congrArg ok (System.with_memory_set_thread hmalloc _ _).symm
  | work k env =>
    obtain ⟨hcurrent, hepfd⟩ := henabled
    have hmalloc : malloc k = true := by
      by_contra hk
      exact hcurrent (h.current k (Bool.eq_false_iff.mpr hk))
    obtain ⟨packet, hpacket, hstep⟩ := bind_eq_ok_iff.mp hstep
    obtain ⟨m, hprocess, hstep⟩ := bind_eq_ok_iff.mp hstep
    obtain rfl := Except.ok.inj hstep
    have hthreads := fun thread => mirrored_threads hmalloc system.threads thread
      (initialize_message_queue true QUEUE_CAPACITY)
    have hafter := fun thread => h.set_thread hmalloc thread
    refine ⟨?_, ?_, (hafter _).queue, (hafter _).current⟩
    · rw [← System.threads_with_memory hmalloc system] at hcurrent
      exact ⟨hcurrent, hepfd⟩
    · simp only [program, System.step, System.work, System.threads_with_memory hmalloc, hpacket, hprocess, bind_ok]
      exact congrArg (fun threads => ok (System.mk threads _ _ _ _ _)) (hthreads _)

end Memory

/-- What `main` leaves behind when its start succeeds. -/
structure Starts (others : List Int) (startup : Startup) (process : Process) : Prop where
  manager : (Manager.program (startup.socket :: others)).initial process.manager
  system : process.system = { zeroed process.manager.epfd with
    threads := fun k => initialize_worker ((zeroed process.manager.epfd).threads k) startup startup.socket k }
  socket : 0 ≤ startup.socket

/-- A start that fails exits without a server socket. One that gets to the loop of `main` hands
the timer manager over as it begins, next to the open server socket, and the workers with this
socket and the queues they got. -/
theorem main_start_spec {others : List Int} {startup : Startup} (hsocket : startup.socket ∉ others)
    (hepfd : 0 ≤ startup.epoll_create1 → startup.epoll_create1 ∉ startup.socket :: others) :
    (∃ manager, main_start others startup = .error manager ∧ manager.opened startup.socket = none) ∨
      ∃ process, main_start others startup = .ok process ∧ Starts others startup process := by
  rcases setup_server_socket_spec hsocket with ⟨manager, hsetup, hclosed⟩ | ⟨hsetup, hnonneg⟩
  · exact .inl ⟨manager, by rw [main_start, hsetup]; rfl, hclosed⟩
  · obtain ⟨manager, hmanager⟩ : ∃ manager, manager = ((Manager.unstarted
        (startup.socket :: others)).timer_one_shot_init startup.epoll_create1 startup.timer_thread).2 := ⟨_, rfl⟩
    have hmain : main_start others startup = create_workers { system := zeroed manager.epfd, manager := manager }
        startup startup.socket (List.finRange MAX_THREADS) := by
      rw [main_start, hsetup, hmanager]
      rfl
    rw [hmain]
    rcases create_workers_spec startup startup.socket (List.nodup_finRange _)
      { system := zeroed manager.epfd, manager := manager } with ⟨threads, heq, hthreads⟩ | hexit
    · obtain rfl : threads = fun k => initialize_worker ((zeroed manager.epfd).threads k) startup startup.socket k :=
        funext fun k => (hthreads k).1 (List.mem_finRange k)
      exact .inr ⟨_, heq, ⟨startup.epoll_create1, startup.timer_thread, hepfd, hmanager⟩, rfl, hnonneg⟩
    · exact .inl ⟨_, hexit, if_pos rfl⟩

/-- With memory for the queues that got none, the runs of the server start there. -/
theorem Starts.with_memory {others : List Int} {startup : Startup} {process : Process}
    (h : Starts others startup process) :
    Unused startup.malloc process.system ∧ (process.system.with_memory startup.malloc).Initial ∧
      SendOn startup.socket (process.system.with_memory startup.malloc) := by
  have hthreads : process.system.with_memory startup.malloc = { zeroed process.manager.epfd with
      threads := fun k => initialize_worker ((zeroed process.manager.epfd).threads k)
        { startup with malloc := fun _ => true } startup.socket k } := by
    rw [h.system]
    refine congrArg (fun threads => { zeroed process.manager.epfd with threads := threads }) (funext fun k => ?_)
    cases hk : startup.malloc k with
    | true => simp [initialize_worker, hk]
    | false => rfl
  have hinitial := (initial_iff_queues_allocated { startup with malloc := fun _ => true } process.manager.epfd
    h.socket).mpr fun _ => rfl
  rw [hthreads]
  refine ⟨⟨fun k hk => ?_, fun k _ => ?_⟩, hinitial, fun _ => rfl⟩
  · rw [h.system]
    exact congrArg (initialize_message_queue · QUEUE_CAPACITY) hk
  · rw [h.system]
    rfl

/-- Whatever the system answers to its start, the server either exits with its socket closed, or
serves on that socket for good: in whatever order its threads go on, the timer manager never closes
it nor gets its number for a timer, and every worker sends on it, also where queues got no memory. -/
theorem server_keeps_its_socket (others : List Int) (startup : Startup) (hsocket : startup.socket ∉ others)
    (hepfd : 0 ≤ startup.epoll_create1 → startup.epoll_create1 ∉ startup.socket :: others) :
    (∀ manager, main_start others startup = .error manager → manager.opened startup.socket = none) ∧
    ∀ process, main_start others startup = .ok process →
      (∀ manager, (Manager.program (startup.socket :: others)).Path (fun _ _ => True) process.manager manager →
        ∀ fd, manager.opened fd = some .other ↔ fd = startup.socket ∨ fd ∈ others) ∧
      (process.system.Initial ↔ ∀ k, startup.malloc k = true) ∧
      ∀ system, program.Path (fun _ _ => True) process.system system → SendOn startup.socket system := by
  refine ⟨fun manager hexit => ?_, fun process hok => ?_⟩
  · rcases main_start_spec hsocket hepfd with ⟨manager', hexit', hclosed⟩ | ⟨process, hok, -⟩
    · obtain rfl := Except.error.inj (hexit'.symm.trans hexit)
      exact hclosed
    · cases hok.symm.trans hexit
  · rcases main_start_spec hsocket hepfd with ⟨manager, hexit, -⟩ | ⟨process', hok', hstarts⟩
    · cases hexit.symm.trans hok
    · obtain rfl := Except.ok.inj (hok'.symm.trans hok)
      refine ⟨fun manager hpath fd => ?_, ?_, fun system hpath => ?_⟩
      · obtain ⟨before, r, hkept⟩ := timer_manager.Threads.reachable_kept ⟨process'.manager, hstarts.manager, hpath⟩
        rw [hkept.sound.kept fd .other (fun hn => by cases hn), hkept.other, List.mem_cons]
      · rw [hstarts.system]
        exact initial_iff_queues_allocated startup _ hstarts.socket
      · obtain ⟨hunused, hinitial, hsend⟩ := hstarts.with_memory
        have hafter := hpath.preserves (P := fun system => Unused startup.malloc system ∧
          Coherent (system.with_memory startup.malloc) ∧ SendOn startup.socket (system.with_memory startup.malloc))
          (by
            rintro system action system' henabled - hstep ⟨hunused, hcoherent, hsend⟩
            obtain ⟨henabled, hstep, hunused⟩ := hunused.step henabled hstep
            have hadvanced := step_advanced hcoherent henabled hstep
            exact ⟨hunused, hadvanced.coherent hcoherent, hadvanced.sendOn hsend⟩)
          ⟨hunused, hinitial.coherent, hsend⟩
        intro k
        rw [← System.run_with_memory startup.malloc system k]
        exact hafter.2.2 k

/-- A start in which every call succeeds but the `malloc` for the queue of worker 0. -/
def scarce_startup : Startup where
  socket := 3
  fcntl_getfl := 2
  fcntl_setfl := 0
  bind := 0
  epoll_create1 := 4
  timer_thread := true
  malloc k := k.val ≠ 0
  pthread_create _ := 0

/-- An INVITE that another worker takes and answers. -/
private def scarce_actions : List System.Action :=
  [datagram_in first_invite, .take ⟨1, one_lt_max_threads⟩, .work ⟨1, one_lt_max_threads⟩ .obliging]

private def scarce_timer : timer_s where
  cb := .transaction_delete_timeout
  user_data := ⟨0, 0, ⟨[], Nat.zero_le _, List.not_mem_nil⟩, 0, none⟩

/-- Its worker adds a timer, which expires. -/
private def scarce_manager_actions : List (timer_manager.Threads.Action (Fin MAX_THREADS)) :=
  [.handle, .call (some ⟨1, one_lt_max_threads⟩) scarce_timer] ++
    List.replicate 7 (.add (some ⟨1, one_lt_max_threads⟩) ⟨some ⟨scarce_timer, 9⟩, 5, true, true⟩) ++
    [.wait (some [(5, 0)]), .handle, .handle, .handle]

private theorem scarce_runs :
    (main_start [0, 1, 2] scarce_startup).toOption.bind (fun process : Process =>
      (program.follow process.system scarce_actions).bind fun system : System =>
        ((Manager.program [3, 0, 1, 2]).follow process.manager scarce_manager_actions).map fun manager : Manager =>
          ((system.threads ⟨1, one_lt_max_threads⟩).run.sent.map (·.status_code), manager.called.length)) =
      some ([100, 180, 200], 1) := by
  decide +kernel

/-- The server answers an INVITE and a timer expires, and all workers still have the socket. -/
theorem scarce_startup_keeps_its_socket :
    ∃ (process : Process) (system : System) (manager : Manager),
      main_start [0, 1, 2] scarce_startup = .ok process ∧ ¬ process.system.Initial ∧
      program.follow process.system scarce_actions = some system ∧
      (system.threads ⟨1, one_lt_max_threads⟩).run.sent.map (·.status_code) = [100, 180, 200] ∧
      SendOn 3 system ∧ manager.called.length = 1 ∧ manager.opened 3 = some .other := by
  obtain ⟨process, hprocess, hruns⟩ := Option.bind_eq_some_iff.mp scarce_runs
  obtain ⟨system, hsystem, hruns⟩ := Option.bind_eq_some_iff.mp hruns
  obtain ⟨manager, hmanager, hfacts⟩ := Option.map_eq_some_iff.mp hruns
  obtain ⟨hsent, hcalled⟩ := Prod.mk.inj hfacts
  have hok : main_start [0, 1, 2] scarce_startup = .ok process := by
    cases hstart : main_start [0, 1, 2] scarce_startup with
    | error manager =>
      rw [hstart] at hprocess
      cases hprocess
    | ok other =>
      rw [hstart] at hprocess
      exact congrArg Except.ok (Option.some.inj hprocess)
  obtain ⟨hopened, hinitial, hsend⟩ :=
    (server_keeps_its_socket [0, 1, 2] scarce_startup (by decide) fun _ => by decide).2 process hok
  refine ⟨process, system, manager, hok, fun hstarts => ?_, hsystem, hsent, hsend system (.of_follow hsystem), hcalled,
    (hopened manager (.of_follow hmanager) 3).mpr (.inl rfl)⟩
  have hfirst := hinitial.mp hstarts ⟨0, by decide⟩
  cases hfirst

end mock_uas.main
