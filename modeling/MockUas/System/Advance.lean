import MockUas.Server.Arming
import MockUas.System.Main

open clib
open mock_uas.sip_message
open mock_uas.sip_utils
open mock_uas.sip_server
open mock_uas.message_queue
open mock_uas.timer_manager

namespace mock_uas.main

/-- The packets in a worker's queue. -/
def queued (thread : Thread) : List Packet := (stored thread.queue).filterMap id

/-- The packets a worker was given and has not finished. -/
def carried (thread : Thread) : List Packet := thread.current.toList ++ queued thread

/-- The delete events of the armed timers that lead to a worker's queue. -/
def ticking (timers : List timer_s) (k : Fin MAX_THREADS) : List transaction_delete_t :=
  (timers.map timer_s.user_data).filter fun event => event.queue = some k.val

/-- The delete events on their way to a worker or with it. -/
def underway (timers : List timer_s) (k : Fin MAX_THREADS) (thread : Thread) : List transaction_delete_t :=
  ticking timers k ++ (carried thread).filterMap event_of

/-- The worker a Call-ID leads to. -/
def thread_for (call_id : Bytes) : Result (Fin MAX_THREADS) :=
  worker_at ((call_id.foldl (fun hash b => hash + signed_char b) 0).tmod MAX_THREADS)

/-- The Call-ID the dispatcher finds in a datagram. -/
def call_id_of (datagram : Datagram) : Option Bytes :=
  (header_value (buffered datagram) HEADER_NAME_CALL_ID).map fun call_id =>
    ((buffered datagram).drop call_id.1).take call_id.2

/-- Whether `main` gets as far as `recvfrom`. -/
def Reads (reception : Reception) : Prop :=
  0 ≤ reception.select ∧ reception.readable = true ∧ reception.malloc = true

/-- What holds of a worker thread at any time. Its run is one of a worker by itself, and
every delete event that comes to it is one its run expects. -/
structure ThreadCoherent (timers : List timer_s) (k : Fin MAX_THREADS) (thread : Thread) : Prop where
  reachable : sip_server.program.Reachable thread.run
  worker : thread.run.worker.queue = k
  holds : Holds (slots QUEUE_CAPACITY) thread.queue (queued thread)
  given : ∀ message, .PACKET_TYPE_INCOMING_SIP message ∈ carried thread →
    ∃ datagram client_addr, dispatched datagram client_addr = ok (some message.contents)
  events : ∀ event ∈ (carried thread).filterMap event_of, event.queue = some k.val
  pending : ∀ event, (underway timers k thread).count event ≤ thread.run.pending.count event

structure Coherent (system : System) : Prop where
  threads : ∀ k, ThreadCoherent system.timers k (system.threads k)
  timers : ∀ timer ∈ system.timers, ∃ k : Fin MAX_THREADS, timer.user_data.queue = some k.val

/-- A datagram with a Call-ID as the dispatcher enters it. -/
structure Entered (system : System) (reception : Reception) (message : sip_message_t) (arrival : Arrival) : Prop where
  address : arrival.address = system.messages
  given : ∃ datagram client_addr, reception.recvfrom = some (datagram, client_addr) ∧
    dispatched datagram client_addr = ok (some message) ∧ call_id_of datagram = some arrival.call_id
  thread : thread_for arrival.call_id = ok arrival.thread
  full : arrival.full = true ↔ (queued (system.threads arrival.thread)).length = slots QUEUE_CAPACITY
  accepted : arrival.accepted = !arrival.full

/-- What a step of the server does. -/
inductive Advanced (system : System) : System.Action → System → Prop where
  | idle {reception : Reception} (hnothing : ¬ Reads reception) : Advanced system (.receive reception) system
  /-- Nothing came, or no Call-ID. -/
  | discarded {reception : Reception} (hreads : Reads reception)
    (hnone : ∀ datagram client_addr, reception.recvfrom = some (datagram, client_addr) → call_id_of datagram = none) :
    Advanced system (.receive reception)
      { system with messages := system.messages + 1, freed := system.freed ++ [system.messages] }
  | refused {reception : Reception} {message : sip_message_t} {arrival : Arrival}
    (hentered : Entered system reception message arrival) (hfull : arrival.full = true) :
    Advanced system (.receive reception)
      { system with
        messages := system.messages + 1
        arrivals := system.arrivals ++ [arrival]
        freed := system.freed ++ [system.messages] }
  | dispatched {reception : Reception} {message : sip_message_t} {arrival : Arrival} {queue : message_queue_t Packet}
    (hentered : Entered system reception message arrival) (hroom : arrival.full = false)
    (hqueue : Holds (slots QUEUE_CAPACITY) queue
      (queued (system.threads arrival.thread) ++ [.PACKET_TYPE_INCOMING_SIP ⟨system.messages, message⟩])) :
    Advanced system (.receive reception)
      ({ system with messages := system.messages + 1, arrivals := system.arrivals ++ [arrival] }.set_thread
        arrival.thread { system.threads arrival.thread with queue := queue })
  | rearmed {timer : timer_s} {answers : Syscalls} (hcb : timer.cb = .transaction_wait_ack_timeout)
    (hmem : timer ∈ system.timers) :
    Advanced system (.fire timer answers)
      { system with
        timers := (system.timers ++
          (timer_one_shot_add system.epfd answers .transaction_delete_timeout timer.user_data).2.toList).erase timer }
  | expired {timer : timer_s} {answers : Syscalls} {k : Fin MAX_THREADS} {queue : message_queue_t Packet}
    (hcb : timer.cb = .transaction_delete_timeout) (hmem : timer ∈ system.timers)
    (hk : timer.user_data.queue = some k.val)
    (hqueue : Holds (slots QUEUE_CAPACITY) queue
      (queued (system.threads k) ++ [.PACKET_TYPE_DELETE_TRANSACTION timer.user_data])) :
    Advanced system (.fire timer answers)
      ({ system with timers := system.timers.erase timer }.set_thread k { system.threads k with queue := queue })
  /-- The queue is full. -/
  | lost {timer : timer_s} {answers : Syscalls} {k : Fin MAX_THREADS}
    (hcb : timer.cb = .transaction_delete_timeout) (hmem : timer ∈ system.timers)
    (hk : timer.user_data.queue = some k.val)
    (hfull : (queued (system.threads k)).length = slots QUEUE_CAPACITY) :
    Advanced system (.fire timer answers) { system with timers := system.timers.erase timer }
  | taken {k : Fin MAX_THREADS} {packet : Packet} {rest : List Packet} {queue : message_queue_t Packet}
    (hcurrent : (system.threads k).current = none) (hqueued : queued (system.threads k) = packet :: rest)
    (hqueue : Holds (slots QUEUE_CAPACITY) queue rest) :
    Advanced system (.take k) (system.set_thread k { system.threads k with
      queue := queue
      current := some packet
      taken := (system.threads k).taken ++ (address_of packet).toList })
  | worked {k : Fin MAX_THREADS} {env : Environment} {packet : Packet} {m' : Machine}
    (hcurrent : (system.threads k).current = some packet) (hepfd : env.epfd = system.epfd)
    (hprocessed : Processed ((system.threads k).run.start env) packet m')
    (hworker : m'.worker.queue = k) (hevents : m'.events = (system.threads k).run.events + m'.timers.length)
    (hnumbered : Numbered env k.val (system.threads k).run.events m'.timers)
    (hreachable : sip_server.program.Reachable ((settle (system.threads k).run packet).finish m')) :
    Advanced system (.work k env)
      ({ system with timers := system.timers ++ m'.timers.filterMap TimerAdd.armed }.set_thread k { system.threads k with
        run := (settle (system.threads k).run packet).finish m'
        current := none
        allocated := (system.threads k).allocated ++ m'.timers.map TimerAdd.event
        processed := (system.threads k).processed ++ (event_of packet).toList })

theorem System.threads_set_thread (system : System) (k j : Fin MAX_THREADS) (thread : Thread) :
    (system.set_thread k thread).threads j = if j = k then thread else system.threads j := rfl

theorem System.set_thread_self (system : System) (k : Fin MAX_THREADS) :
    system.set_thread k (system.threads k) = system := by
  have hthreads : (fun j => if j = k then system.threads k else system.threads j) = system.threads := by
    funext j
    split
    · rename_i hj
      rw [hj]
    · rfl
  rw [System.set_thread, hthreads]

theorem queued_of_holds {n : Nat} (thread : Thread) {packets : List Packet} (h : Holds n thread.queue packets) :
    queued thread = packets := by
  rw [queued, h.stored_eq, List.filterMap_map, Function.id_comp, List.filterMap_some]

theorem worker_at_natCast (k : Fin MAX_THREADS) : worker_at (k.val : Nat) = ok k := by
  have hk : (0 : Int) ≤ (k.val : Nat) ∧ ((k.val : Nat) : Int) < (MAX_THREADS : Nat) :=
    ⟨Int.natCast_nonneg _, Int.ofNat_lt.mpr k.isLt⟩
  rw [worker_at, dif_pos hk]
  rfl

theorem ticking_append (timers timers' : List timer_s) (k : Fin MAX_THREADS) :
    ticking (timers ++ timers') k = ticking timers k ++ ticking timers' k := by
  rw [ticking, List.map_append, List.filter_append]
  rfl

theorem ticking_perm {timers timers' : List timer_s} (h : timers.Perm timers') (k : Fin MAX_THREADS) :
    (ticking timers k).Perm (ticking timers' k) :=
  (h.map _).filter _

theorem ticking_cons (timer : timer_s) (timers : List timer_s) (k : Fin MAX_THREADS) :
    ticking (timer :: timers) k =
      (if timer.user_data.queue = some k.val then [timer.user_data] else []) ++ ticking timers k := by
  rw [ticking, List.map_cons, List.filter_cons]
  by_cases hqueue : timer.user_data.queue = some k.val
  · rw [if_pos (by simpa using hqueue), if_pos hqueue]
    rfl
  · rw [if_neg (by simpa using hqueue), if_neg hqueue]
    rfl

/-- A timer that expires leaves the events of its worker. -/
theorem ticking_erase {timers : List timer_s} {timer : timer_s} (hmem : timer ∈ timers) (k : Fin MAX_THREADS) :
    (ticking timers k).Perm
      ((if timer.user_data.queue = some k.val then [timer.user_data] else []) ++ ticking (timers.erase timer) k) := by
  rw [← ticking_cons]
  exact ticking_perm (List.perm_cons_erase hmem) k

/-- A timer that is replaced by one for the same event leaves what was ticking. -/
theorem ticking_replace {timers : List timer_s} {timer timer' : timer_s} (hmem : timer ∈ timers)
    (hsame : timer'.user_data = timer.user_data) (k : Fin MAX_THREADS) :
    (ticking ((timers ++ [timer']).erase timer) k).Perm (ticking timers k) := by
  have hleft := ticking_erase (List.mem_append_left [timer'] hmem) k
  have hright : ticking (timers ++ [timer']) k =
      ticking timers k ++ if timer.user_data.queue = some k.val then [timer.user_data] else [] := by
    rw [ticking_append, ticking_cons, hsame]
    exact congrArg (ticking timers k ++ ·) (List.append_nil _)
  rw [hright] at hleft
  exact (List.perm_append_left_iff _).mp (hleft.symm.trans List.perm_append_comm)

/-- The timers a worker arms lead to that worker. -/
theorem ticking_armed {env : Environment} {serial : Nat} {k : Fin MAX_THREADS} {adds : List TimerAdd}
    (h : Numbered env k.val serial adds) (j : Fin MAX_THREADS) :
    ticking (adds.filterMap TimerAdd.armed) j = if j = k then armed adds else [] := by
  have hmap : (adds.filterMap TimerAdd.armed).map timer_s.user_data = armed adds := by
    rw [List.map_filterMap]
    rfl
  have hqueue : ∀ event ∈ armed adds, event.queue = some k.val := by
    intro event hevent
    obtain ⟨add, hadd, hfires⟩ := List.mem_filterMap.mp hevent
    obtain ⟨timer, htimer, rfl⟩ := Option.map_eq_some_iff.mp hfires
    rw [h.event hadd htimer]
    exact h.queue hadd
  rw [ticking, hmap]
  split
  · rename_i hj
    refine List.filter_eq_self.mpr fun event hevent => ?_
    simp [hqueue event hevent, hj]
  · rename_i hj
    refine List.filter_eq_nil_iff.mpr fun event hevent => ?_
    have hne : k.val ≠ j.val := fun he => hj (Fin.ext he.symm)
    simp [hqueue event hevent, hne]

theorem ThreadCoherent.wellFormed {timers : List timer_s} {k : Fin MAX_THREADS} {thread : Thread}
    (h : ThreadCoherent timers k thread) : WellFormed thread.run.worker :=
  Reachable.wellFormed h.reachable

theorem string_to_int_hash_eq {buffer : Bytes} {str length : Nat} (hinside : str + length ≤ buffer.length) :
    string_to_int_hash buffer (some str) length =
      ok (((buffer.drop str).take length).foldl (fun hash b => hash + signed_char b) 0) := by
  rw [string_to_int_hash]
  by_cases hzero : length = 0
  · rw [if_pos hzero, hzero, List.take_zero]
    rfl
  · rw [if_neg hzero, if_neg (by omega)]

theorem dispatch_fault (system : System) (message : Owned sip_message_t) {call_id call_id_length : Nat}
    {fault : Fault} (hinside : call_id + call_id_length ≤ message.contents.buffer.length)
    (hthread : thread_for ((message.contents.buffer.drop call_id).take call_id_length) = error fault) :
    system.dispatch message call_id call_id_length = error fault := by
  rw [thread_for] at hthread
  simp only [System.dispatch, string_to_int_hash_eq hinside, bind_ok, hthread, bind_error]

/-- What the dispatcher does with a message that has a Call-ID. -/
theorem dispatch_spec {system : System} {message : sip_message_t} {call_id call_id_length : Nat} {k : Fin MAX_THREADS}
    (hcoherent : Coherent system) (hinside : call_id + call_id_length ≤ message.buffer.length)
    (hthread : thread_for ((message.buffer.drop call_id).take call_id_length) = ok k)
    {reception : Reception} (hgiven : ∃ datagram client_addr, reception.recvfrom = some (datagram, client_addr) ∧
      dispatched datagram client_addr = ok (some message) ∧
      call_id_of datagram = some ((message.buffer.drop call_id).take call_id_length)) :
    ∃ system', { system with messages := system.messages + 1 }.dispatch ⟨system.messages, message⟩ call_id
      call_id_length = ok system' ∧ Advanced system (.receive reception) system' := by
  rw [thread_for] at hthread
  simp only [System.dispatch, string_to_int_hash_eq hinside, bind_ok, hthread]
  have hholds := (hcoherent.threads k).holds
  have hsize := hholds.full_iff
  by_cases hfull : (queued (system.threads k)).length = slots QUEUE_CAPACITY
  · rw [enqueue_message_full hholds hfull, bind_ok]
    have hentered : Entered system reception message
        { address := system.messages
          call_id := (message.buffer.drop call_id).take call_id_length
          thread := k
          full := true
          accepted := false } :=
      { address := rfl, given := hgiven, thread := hthread, full := ⟨fun _ => hfull, fun _ => rfl⟩, accepted := rfl }
    have hadvanced : Advanced system (.receive reception) _ := .refused hentered rfl
    refine ⟨_, rfl, ?_⟩
    simp only [hsize.mpr hfull, decide_true, ne_eq, not_true_eq_false, decide_false, if_true]
    rwa [← System.set_thread_self { system with
      messages := system.messages + 1
      arrivals := system.arrivals ++ [_]
      freed := system.freed ++ [system.messages] } k] at hadvanced
  · obtain ⟨queue, henqueue, hqueue⟩ := enqueue_message_spec hholds hfull
      (.PACKET_TYPE_INCOMING_SIP ⟨system.messages, message⟩)
    rw [henqueue, bind_ok]
    have hentered : Entered system reception message
        { address := system.messages
          call_id := (message.buffer.drop call_id).take call_id_length
          thread := k
          full := false
          accepted := true } :=
      { address := rfl, given := hgiven, thread := hthread, full := ⟨nofun, fun h => absurd h hfull⟩, accepted := rfl }
    refine ⟨_, rfl, ?_⟩
    have hone : (1 : Int) ≠ 0 := Int.one_ne_zero
    simp only [mt hsize.mp hfull, decide_false, if_neg hone, decide_eq_true hone]
    exact .dispatched hentered rfl hqueue

/-- What `main` does with a datagram. -/
theorem handle_datagram_eq (system : System) (datagram : Datagram) (client_addr : sockaddr_in)
    (hne : datagram.bytes.length ≠ 0) {reception : Reception} (hselect : ¬ reception.select < 0)
    (hreadable : reception.readable = true) (hmalloc : reception.malloc = true)
    (hrecvfrom : reception.recvfrom = some (datagram, client_addr)) :
    system.handle_new_message reception =
      match header_value (buffered datagram) HEADER_NAME_CALL_ID with
      | none => ok { system with messages := system.messages + 1, freed := system.freed ++ [system.messages] }
      | some (call_id, call_id_length) => { system with messages := system.messages + 1 }.dispatch
          ⟨system.messages, { received datagram client_addr with
            call_id := some call_id, call_id_length := call_id_length }⟩ call_id call_id_length := by
  have hvalue := (buffered_spec datagram).get_header_value plain_header_names.1
  rw [System.handle_new_message, if_neg hselect, if_neg (by simp [hreadable]), if_neg (by simp [hmalloc])]
  simp only [hrecvfrom, if_neg hne, get_message_call_id, get_message_header, buffer_received, hvalue]
  cases header_value (buffered datagram) HEADER_NAME_CALL_ID with
  | none => rfl
  | some call_id => rfl

theorem call_id_of_empty {datagram : Datagram} (hempty : datagram.bytes.length = 0) :
    call_id_of datagram = none := by
  have hlength := length_text_le datagram
  cases hvalue : header_value (buffered datagram) HEADER_NAME_CALL_ID with
  | none => rw [call_id_of, hvalue, Option.map_none]
  | some found =>
    obtain ⟨-, hend, -⟩ := header_value_bounds hvalue
    omega

/-- A datagram that arrives is entered or discarded, unless its Call-ID leads to no worker. -/
theorem handle_new_message_ends {system : System} (hcoherent : Coherent system) (reception : Reception) :
    Ends (system.handle_new_message reception)
      (∃ datagram client_addr call_id fault, reception.recvfrom = some (datagram, client_addr) ∧
        call_id_of datagram = some call_id ∧ thread_for call_id = error fault)
      (Advanced system (.receive reception)) := by
  by_cases hselect : reception.select < 0
  · rw [System.handle_new_message, if_pos hselect]
    exact .idle fun hreads => absurd hreads.1 (Int.not_le.mpr hselect)
  by_cases hreadable : reception.readable = false
  · rw [System.handle_new_message, if_neg hselect, if_pos hreadable]
    exact .idle fun hreads => absurd hreads.2.1 (by simp [hreadable])
  by_cases hmalloc : reception.malloc = false
  · rw [System.handle_new_message, if_neg hselect, if_neg hreadable, if_pos hmalloc]
    exact .idle fun hreads => absurd hreads.2.2 (by simp [hmalloc])
  have hreads : Reads reception := ⟨Int.not_lt.mp hselect, by simpa using hreadable, by simpa using hmalloc⟩
  cases hrecvfrom : reception.recvfrom with
  | none =>
    rw [System.handle_new_message, if_neg hselect, if_neg hreadable, if_neg hmalloc]
    simp only [hrecvfrom]
    exact .discarded hreads fun datagram client_addr hsome => by cases hrecvfrom.symm.trans hsome
  | some result =>
    obtain ⟨datagram, client_addr⟩ := result
    have hdiscarded : call_id_of datagram = none → ∀ other other_addr,
        reception.recvfrom = some (other, other_addr) → call_id_of other = none := by
      intro hnone other other_addr hother
      rw [hrecvfrom, Option.some.injEq, Prod.mk.injEq] at hother
      rw [← hother.1, hnone]
    by_cases hempty : datagram.bytes.length = 0
    · rw [System.handle_new_message, if_neg hselect, if_neg hreadable, if_neg hmalloc]
      simp only [hrecvfrom, if_pos hempty]
      exact .discarded hreads (hdiscarded (call_id_of_empty hempty))
    · rw [handle_datagram_eq system datagram client_addr hempty hselect hreads.2.1 hreads.2.2 hrecvfrom]
      cases hvalue : header_value (buffered datagram) HEADER_NAME_CALL_ID with
      | none => exact .discarded hreads (hdiscarded (by rw [call_id_of, hvalue, Option.map_none]))
      | some found =>
        obtain ⟨call_id, call_id_length⟩ := found
        obtain ⟨-, hend, -⟩ := header_value_bounds hvalue
        have hstart := length_cstr_lt ((buffered_spec datagram).terminated 0 (buffered_spec datagram).nonempty)
        have hinside : call_id + call_id_length ≤ (buffered datagram).length := by omega
        have hcall_id : call_id_of datagram = some (((buffered datagram).drop call_id).take call_id_length) := by
          rw [call_id_of, hvalue, Option.map_some]
        have hgiven : dispatched datagram client_addr = ok (some { received datagram client_addr with
            call_id := some call_id, call_id_length := call_id_length }) := by
          rw [dispatched_eq, hvalue]
          rfl
        cases hthread : thread_for (((buffered datagram).drop call_id).take call_id_length) with
        | error fault =>
          have hfault := dispatch_fault { system with messages := system.messages + 1 }
            ⟨system.messages, { received datagram client_addr with
              call_id := some call_id, call_id_length := call_id_length }⟩ hinside hthread
          simp only [hfault]
          exact ⟨datagram, client_addr, _, fault, rfl, hcall_id, hthread⟩
        | ok k =>
          obtain ⟨system', hdispatch, hadvanced⟩ :=
            @dispatch_spec system { received datagram client_addr with
              call_id := some call_id, call_id_length := call_id_length } call_id call_id_length k hcoherent hinside
              hthread reception ⟨datagram, client_addr, hrecvfrom, hgiven, hcall_id⟩
          simp only [hdispatch]
          exact hadvanced

/-- What a timer that expires does. -/
theorem timer_expired_spec {system : System} (hcoherent : Coherent system) {timer : timer_s}
    (hmem : timer ∈ system.timers) (answers : Syscalls) :
    ∃ system', system.timer_expired timer answers = ok system' ∧ Advanced system (.fire timer answers) system' := by
  rw [System.timer_expired]
  cases hcb : timer.cb with
  | transaction_wait_ack_timeout => exact ⟨_, rfl, .rearmed hcb hmem⟩
  | transaction_delete_timeout =>
    obtain ⟨k, hk⟩ := hcoherent.timers timer hmem
    have hholds := (hcoherent.threads k).holds
    simp only [System.transaction_delete_timeout, hk, worker_at_natCast, bind_ok]
    by_cases hfull : (queued (system.threads k)).length = slots QUEUE_CAPACITY
    · rw [enqueue_message_full hholds hfull, bind_ok, bind_ok]
      refine ⟨_, rfl, ?_⟩
      have hself : system.set_thread k { system.threads k with queue := (system.threads k).queue } = system :=
        system.set_thread_self k
      rw [hself]
      exact .lost hcb hmem hk hfull
    · obtain ⟨queue, henqueue, hqueue⟩ := enqueue_message_spec hholds hfull
        (.PACKET_TYPE_DELETE_TRANSACTION timer.user_data)
      rw [henqueue, bind_ok, bind_ok]
      exact ⟨_, rfl, .expired hcb hmem hk hqueue⟩

/-- What a worker takes from its queue. -/
theorem take_spec {system : System} (hcoherent : Coherent system) {k : Fin MAX_THREADS}
    (hcurrent : (system.threads k).current = none) (hsize : (system.threads k).queue.size ≠ 0) :
    ∃ system', system.take k = ok system' ∧ Advanced system (.take k) system' := by
  have hholds := (hcoherent.threads k).holds
  cases hqueued : queued (system.threads k) with
  | nil =>
    rw [hqueued] at hholds
    exact absurd hholds.size hsize
  | cons packet rest =>
    rw [hqueued] at hholds
    obtain ⟨queue, hdequeue, hqueue⟩ := dequeue_message_spec hholds
    rw [System.take, hdequeue, bind_ok]
    exact ⟨_, rfl, .taken hcurrent hqueued hqueue⟩

/-- What a worker does with the packet it has taken. -/
theorem work_advanced {system system' : System} (hcoherent : Coherent system) {k : Fin MAX_THREADS}
    {env : Environment} (hepfd : env.epfd = system.epfd) (hwork : system.work k env = ok system') :
    Advanced system (.work k env) system' := by
  have hthread := hcoherent.threads k
  obtain ⟨packet, hpacket, hwork⟩ := bind_eq_ok_iff.mp hwork
  obtain ⟨m', hprocess, hwork⟩ := bind_eq_ok_iff.mp hwork
  obtain rfl := Except.ok.inj hwork
  have hcurrent := deref_eq_ok_iff.mp hpacket
  have hgiven : ∀ message, packet = .PACKET_TYPE_INCOMING_SIP message →
      ∃ datagram client_addr, dispatched datagram client_addr = ok (some message.contents) := by
    rintro message rfl
    exact hthread.given message (by simp [carried, hcurrent])
  have hprocessed := (process_packet_ends (m := (system.threads k).run.start env) hthread.wellFormed packet
    hgiven).of_eq_ok hprocess
  obtain ⟨adds, hadds⟩ := hprocessed.adds_events hthread.wellFormed
  have htimers : m'.timers = adds := hadds.timers
  refine .worked hcurrent hepfd hprocessed (hadds.queue.trans hthread.worker) ?_ ?_ ?_
  · rw [htimers]
    exact hadds.events
  · have hnumbered := hadds.numbered
    rwa [← htimers, show ((system.threads k).run.start env).worker.queue = k from hthread.worker] at hnumbered
  · cases packet with
    | PACKET_TYPE_INCOMING_SIP message =>
      obtain ⟨datagram, client_addr, hdispatched⟩ := hgiven message rfl
      have hrun : (system.threads k).run.step (.incoming datagram client_addr message.address env) =
          ok ((system.threads k).run.finish m') := by
        simp only [Run.step, hdispatched, bind_ok, hprocess]
      have henabled : sip_server.program.enabled (system.threads k).run
          (.incoming datagram client_addr message.address env) := trivial
      exact hthread.reachable.step henabled trivial hrun
    | PACKET_TYPE_DELETE_TRANSACTION event =>
      have hpending : sip_server.program.enabled (system.threads k).run (.delete event env) := by
        have hcount := hthread.pending event
        have hheld : event ∈ underway system.timers k (system.threads k) := by
          simp [underway, carried, hcurrent, event_of]
        exact List.count_pos_iff.mp ((List.count_pos_iff.mpr hheld).trans_le hcount)
      have hrun : (system.threads k).run.step (.delete event env) =
          ok ({ (system.threads k).run with pending := (system.threads k).run.pending.erase event }.finish m') := by
        simp only [Run.step, hprocess, bind_ok]
      exact hthread.reachable.step hpending trivial hrun

/-- Every step of the server does what its outcome says. -/
theorem step_advanced {system system' : System} {action : System.Action} (hcoherent : Coherent system)
    (henabled : system.enabled action) (hstep : system.step action = ok system') :
    Advanced system action system' := by
  cases action with
  | receive reception => exact (handle_new_message_ends hcoherent reception).of_eq_ok hstep
  | fire timer answers =>
    obtain ⟨after, heq, hadvanced⟩ := timer_expired_spec hcoherent henabled answers
    obtain rfl := Except.ok.inj (heq.symm.trans hstep)
    exact hadvanced
  | take k =>
    obtain ⟨after, heq, hadvanced⟩ := take_spec hcoherent henabled.1 henabled.2
    obtain rfl := Except.ok.inj (heq.symm.trans hstep)
    exact hadvanced
  | work k env => exact work_advanced hcoherent henabled.2 hstep

theorem ThreadCoherent.of_timers {timers timers' : List timer_s} {k : Fin MAX_THREADS} {thread : Thread}
    (h : ThreadCoherent timers k thread)
    (hticking : ∀ event, (ticking timers' k).count event ≤ (ticking timers k).count event) :
    ThreadCoherent timers' k thread := by
  refine { h with pending := fun event => ?_ }
  have hpending := h.pending event
  have hle := hticking event
  simp only [underway, List.count_append] at hpending ⊢
  omega

/-- The packets of a worker whose queue was given one more. -/
theorem carried_enqueue {thread : Thread} {n : Nat} {queue : message_queue_t Packet} {packet : Packet}
    (hqueue : Holds n queue (queued thread ++ [packet])) :
    carried { thread with queue := queue } = carried thread ++ [packet] := by
  have hqueued : queued { thread with queue := queue } = queued thread ++ [packet] := queued_of_holds _ hqueue
  rw [carried, hqueued, ← List.append_assoc]
  rfl

/-- The packets of a worker that has taken one. -/
theorem carried_take {thread : Thread} {n : Nat} {queue : message_queue_t Packet} {packet : Packet}
    {rest : List Packet} (taken : List Nat) (hcurrent : thread.current = none) (hqueued : queued thread = packet :: rest)
    (hqueue : Holds n queue rest) :
    carried { thread with queue := queue, current := some packet, taken := taken } = carried thread := by
  have hrest : queued { thread with queue := queue, current := some packet, taken := taken } = rest :=
    queued_of_holds _ hqueue
  rw [carried, hrest, carried, hcurrent, hqueued]
  rfl

/-- A packet is put into a worker's queue, and its timer, if it had one, is gone. -/
theorem ThreadCoherent.enqueue {timers timers' : List timer_s} {k : Fin MAX_THREADS} {thread : Thread}
    {queue : message_queue_t Packet} {packet : Packet} (h : ThreadCoherent timers k thread)
    (hqueue : Holds (slots QUEUE_CAPACITY) queue (queued thread ++ [packet]))
    (hgiven : ∀ message, packet = .PACKET_TYPE_INCOMING_SIP message →
      ∃ datagram client_addr, dispatched datagram client_addr = ok (some message.contents))
    (hevents : ∀ event, event_of packet = some event → event.queue = some k.val)
    (hticking : (ticking timers k).Perm ((event_of packet).toList ++ ticking timers' k)) :
    ThreadCoherent timers' k { thread with queue := queue } := by
  have hcarried := carried_enqueue hqueue
  have hpackets : (carried thread ++ [packet]).filterMap event_of =
      (carried thread).filterMap event_of ++ (event_of packet).toList := by
    rw [List.filterMap_append]
    cases hevent : event_of packet <;> simp [hevent]
  constructor
  · exact h.reachable
  · exact h.worker
  · have hqueued : queued { thread with queue := queue } = queued thread ++ [packet] := queued_of_holds _ hqueue
    rw [hqueued]
    exact hqueue
  · intro message hmem
    rw [hcarried, List.mem_append, List.mem_singleton] at hmem
    rcases hmem with hmem | hmem
    · exact h.given message hmem
    · exact hgiven message hmem.symm
  · intro event hmem
    rw [hcarried, hpackets, List.mem_append, Option.mem_toList] at hmem
    rcases hmem with hmem | hmem
    · exact h.events event hmem
    · exact hevents event hmem
  · intro event
    have hpending := h.pending event
    have hcount := hticking.count_eq event
    simp only [underway, hcarried, hpackets, List.count_append] at hpending hcount ⊢
    omega

theorem ThreadCoherent.take {timers : List timer_s} {k : Fin MAX_THREADS} {thread : Thread}
    {queue : message_queue_t Packet} {packet : Packet} {rest : List Packet} {taken : List Nat}
    (h : ThreadCoherent timers k thread) (hcurrent : thread.current = none) (hqueued : queued thread = packet :: rest)
    (hqueue : Holds (slots QUEUE_CAPACITY) queue rest) :
    ThreadCoherent timers k { thread with queue := queue, current := some packet, taken := taken } := by
  have hcarried := carried_take taken hcurrent hqueued hqueue
  constructor
  · exact h.reachable
  · exact h.worker
  · rw [show queued { thread with queue := queue, current := some packet, taken := taken } = rest from
      queued_of_holds _ hqueue]
    exact hqueue
  · rw [hcarried]
    exact h.given
  · rw [hcarried]
    exact h.events
  · rw [underway, hcarried]
    exact h.pending

/-- What is on its way to a worker that is done with a packet. -/
theorem underway_finish {timers : List timer_s} {k : Fin MAX_THREADS} {thread thread' : Thread} {packet : Packet}
    {env : Environment} {serial : Nat} {adds : List TimerAdd} (hcurrent : thread.current = some packet)
    (hqueue : thread'.queue = thread.queue) (hfree : thread'.current = none)
    (hnumbered : Numbered env k.val serial adds) (event : transaction_delete_t) :
    (underway (timers ++ adds.filterMap TimerAdd.armed) k thread').count event + (event_of packet).toList.count event =
      (underway timers k thread).count event + (armed adds).count event := by
  have hbefore : (carried thread).filterMap event_of =
      (event_of packet).toList ++ (queued thread).filterMap event_of := by
    have hcarried : carried thread = [packet] ++ queued thread := by rw [carried, hcurrent]; rfl
    rw [hcarried, List.filterMap_append]
    cases hevent : event_of packet <;> simp [hevent]
  have hafter : carried thread' = queued thread := by rw [carried, hfree, queued, hqueue]; rfl
  simp only [underway, hbefore, hafter, ticking_append, ticking_armed hnumbered, if_true, List.count_append]
  omega

/-- A delete event that a worker has taken is one that its run expects. -/
theorem ThreadCoherent.settled {timers : List timer_s} {k : Fin MAX_THREADS} {thread : Thread} {packet : Packet}
    (h : ThreadCoherent timers k thread) (hcurrent : thread.current = some packet) (event : transaction_delete_t) :
    (settle thread.run packet).pending.count event + (event_of packet).toList.count event =
      thread.run.pending.count event := by
  cases packet with
  | PACKET_TYPE_INCOMING_SIP message => rfl
  | PACKET_TYPE_DELETE_TRANSACTION taken =>
    have hpending : taken ∈ thread.run.pending := by
      have hcount := h.pending taken
      have hheld : taken ∈ underway timers k thread := by simp [underway, carried, hcurrent, event_of]
      exact List.count_pos_iff.mp ((List.count_pos_iff.mpr hheld).trans_le hcount)
    rw [((List.perm_cons_erase hpending).count_eq event), List.count_cons]
    simp only [settle, event_of, Option.toList_some, List.count_singleton]

/-- A worker is done with the packet it had taken. -/
theorem ThreadCoherent.finish {timers : List timer_s} {k : Fin MAX_THREADS} {thread : Thread} {packet : Packet}
    {env : Environment} {m' : Machine} {allocated processed : List transaction_delete_t}
    (h : ThreadCoherent timers k thread) (hcurrent : thread.current = some packet) (hworker : m'.worker.queue = k)
    (hnumbered : Numbered env k.val thread.run.events m'.timers)
    (hreachable : sip_server.program.Reachable ((settle thread.run packet).finish m')) :
    ThreadCoherent (timers ++ m'.timers.filterMap TimerAdd.armed) k
      { thread with
        run := (settle thread.run packet).finish m'
        current := none
        allocated := allocated
        processed := processed } := by
  have hcarried : carried thread = [packet] ++ queued thread := by rw [carried, hcurrent]; rfl
  constructor
  · exact hreachable
  · exact hworker
  · exact h.holds
  · intro message hmem
    exact h.given message (by rw [hcarried]; exact List.mem_append_right _ hmem)
  · intro event hmem
    refine h.events event ?_
    rw [hcarried, List.filterMap_append]
    exact List.mem_append_right _ hmem
  · intro event
    have hpending := h.pending event
    have hevent := @underway_finish timers k thread { thread with
      run := (settle thread.run packet).finish m'
      current := none
      allocated := allocated
      processed := processed } packet env _ m'.timers hcurrent rfl rfl hnumbered event
    have hsettled := h.settled hcurrent event
    change _ ≤ ((settle thread.run packet).pending ++ armed m'.timers).count event
    rw [List.count_append]
    omega

/-- Every step leaves the server coherent. -/
theorem Advanced.coherent {system system' : System} {action : System.Action} (h : Advanced system action system')
    (hcoherent : Coherent system) : Coherent system' := by
  cases h with
  | idle => exact hcoherent
  | discarded => exact ⟨hcoherent.threads, hcoherent.timers⟩
  | refused => exact ⟨hcoherent.threads, hcoherent.timers⟩
  | @dispatched _ message arrival queue hentered _ hqueue =>
    refine ⟨fun j => ?_, hcoherent.timers⟩
    rw [System.threads_set_thread]
    split
    · rename_i hj
      have hticking : (ticking system.timers arrival.thread).Perm
          ((event_of (.PACKET_TYPE_INCOMING_SIP ⟨system.messages, message⟩)).toList ++
            ticking system.timers arrival.thread) := List.Perm.refl _
      rw [hj]
      refine (hcoherent.threads arrival.thread).enqueue hqueue (fun owned howned => ?_) (fun event hevent => ?_) hticking
      · cases howned
        obtain ⟨datagram, client_addr, -, hdispatched, -⟩ := hentered.given
        exact ⟨datagram, client_addr, hdispatched⟩
      · cases hevent
    · exact hcoherent.threads j
  | @rearmed timer answers hcb hmem =>
    cases harmed : (timer_one_shot_add system.epfd answers .transaction_delete_timeout timer.user_data).2 with
    | none =>
      rw [Option.toList_none, List.append_nil]
      refine ⟨fun j => (hcoherent.threads j).of_timers fun event => ?_,
        fun other hother => hcoherent.timers other (List.mem_of_mem_erase hother)⟩
      have hcount := (ticking_erase hmem j).count_eq event
      rw [List.count_append] at hcount
      change (ticking (system.timers.erase timer) j).count event ≤ _
      omega
    | some armed =>
      rw [Option.toList_some]
      obtain rfl := timer_one_shot_add_armed harmed
      refine ⟨fun j => (hcoherent.threads j).of_timers fun event => ?_, fun other hother => ?_⟩
      · have hsame : (⟨.transaction_delete_timeout, timer.user_data⟩ : timer_s).user_data = timer.user_data := rfl
        exact ((ticking_replace hmem hsame j).count_eq event).le
      · rcases List.mem_append.mp (List.mem_of_mem_erase hother) with hother | hother
        · exact hcoherent.timers other hother
        · rw [List.mem_singleton.mp hother]
          exact hcoherent.timers timer hmem
  | @expired timer answers k queue hcb hmem hk hqueue =>
    refine ⟨fun j => ?_, fun other hother => hcoherent.timers other (List.mem_of_mem_erase hother)⟩
    rw [System.threads_set_thread]
    have hticking := ticking_erase hmem j
    split
    · rename_i hj
      rw [hj] at hticking ⊢
      rw [if_pos hk] at hticking
      refine (hcoherent.threads k).enqueue hqueue (fun message hmessage => ?_) (fun event hevent => ?_) hticking
      · cases hmessage
      · rw [← Option.some.inj hevent]
        exact hk
    · refine (hcoherent.threads j).of_timers fun event => ?_
      have hcount := hticking.count_eq event
      rw [List.count_append] at hcount
      change (ticking (system.timers.erase timer) j).count event ≤ _
      omega
  | @lost timer answers k hcb hmem hk hfull =>
    refine ⟨fun j => (hcoherent.threads j).of_timers fun event => ?_,
      fun other hother => hcoherent.timers other (List.mem_of_mem_erase hother)⟩
    have hcount := (ticking_erase hmem j).count_eq event
    rw [List.count_append] at hcount
    change (ticking (system.timers.erase timer) j).count event ≤ _
    omega
  | @taken k packet rest queue hcurrent hqueued hqueue =>
    refine ⟨fun j => ?_, hcoherent.timers⟩
    rw [System.threads_set_thread]
    split
    · rename_i hj
      rw [hj]
      exact (hcoherent.threads k).take hcurrent hqueued hqueue
    · exact hcoherent.threads j
  | @worked k env packet m' hcurrent hepfd hprocessed hworker hevents hnumbered hreachable =>
    refine ⟨fun j => ?_, fun timer htimer => ?_⟩
    · rw [System.threads_set_thread]
      split
      · rename_i hj
        rw [hj]
        exact (hcoherent.threads k).finish hcurrent hworker hnumbered hreachable
      · rename_i hj
        refine (hcoherent.threads j).of_timers fun event => ?_
        change (ticking (system.timers ++ m'.timers.filterMap TimerAdd.armed) j).count event ≤ _
        rw [ticking_append, ticking_armed hnumbered, if_neg hj, List.append_nil]
    · rcases List.mem_append.mp htimer with htimer | htimer
      · exact hcoherent.timers timer htimer
      · obtain ⟨add, hadd, harmed⟩ := List.mem_filterMap.mp htimer
        exact ⟨k, by rw [hnumbered.event hadd harmed, hnumbered.queue hadd]⟩

theorem System.Initial.coherent {system : System} (h : system.Initial) : Coherent system := by
  refine ⟨fun k => ?_, by rw [h.timers]; nofun⟩
  have hqueued : queued (system.threads k) = [] := by
    have hholds := initialize_message_queue_spec (P := Packet) QUEUE_CAPACITY
    rw [← h.queue k] at hholds
    exact queued_of_holds _ hholds
  have hcarried : carried (system.threads k) = [] := by rw [carried, h.current, hqueued]; rfl
  constructor
  · exact .initial (h.run k)
  · exact h.worker k
  · rw [hqueued, h.queue]
    exact initialize_message_queue_spec QUEUE_CAPACITY
  · intro message hmem
    rw [hcarried] at hmem
    cases hmem
  · intro event hmem
    rw [hcarried] at hmem
    cases hmem
  · intro event
    rw [underway, hcarried, h.timers]
    exact Nat.zero_le _

/-- What every step of a coherent server preserves holds of every server that runs by steps
that are allowed. -/
theorem invariant_of_advances {allowed : System → System.Action → Prop} {P : System → Prop}
    (hinit : ∀ system, system.Initial → P system)
    (hadvances : ∀ system action system', Coherent system → allowed system action → Advanced system action system' →
      P system → P system')
    {system : System} (h : program.ReachableWhile allowed system) : Coherent system ∧ P system := by
  refine h.invariant (P := fun system => Coherent system ∧ P system)
    (fun system (hinitial : system.Initial) => ⟨hinitial.coherent, hinit system hinitial⟩) ?_
  rintro system action system' henabled hallowed hstep ⟨hcoherent, hP⟩
  have hadvanced := step_advanced hcoherent henabled hstep
  exact ⟨hadvanced.coherent hcoherent, hadvances system action system' hcoherent hallowed hadvanced hP⟩

end mock_uas.main
