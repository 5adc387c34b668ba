import MockUas.Clib.Trace
import MockUas.Server.CallIds
import MockUas.System.Dispatch

open clib
open mock_uas.sip_message
open mock_uas.sip_utils
open mock_uas.sip_server
open mock_uas.message_queue
open mock_uas.timer_manager

namespace mock_uas.main

instance (reception : Reception) : Decidable (Reads reception) :=
  inferInstanceAs (Decidable (0 ≤ reception.select ∧ reception.readable = true ∧ reception.malloc = true))

/-- What `main` has got from `recvfrom`, if it got as far. -/
def receipt_of : System.Action → Option (Option (Datagram × sockaddr_in))
  | .receive reception => if Reads reception then some reception.recvfrom else none
  | _ => none

/-- What `recvfrom` has given, one entry for each message that was allocated. -/
def receipts (actions : List System.Action) : List (Option (Datagram × sockaddr_in)) := actions.filterMap receipt_of

/-- The step of a worker by itself that its thread makes of a packet it has taken. -/
inductive Turn (env : Environment) : Packet → Input → Prop where
  | incoming {message : Owned sip_message_t} {datagram : Datagram} {client_addr : sockaddr_in}
    (hgiven : dispatched datagram client_addr = ok (some message.contents)) :
    Turn env (.PACKET_TYPE_INCOMING_SIP message) (.incoming datagram client_addr message.address env)
  | delete (event : transaction_delete_t) :
    Turn env (.PACKET_TYPE_DELETE_TRANSACTION event) (.delete event env)

/-- The steps of the server of which every turn of a worker is allowed. -/
def Turns (allowed : Run → Input → Prop) (system : System) : System.Action → Prop
  | .work k env => ∀ packet input, (system.threads k).current = some packet → Turn env packet input →
    allowed (system.threads k).run input
  | _ => True

def input_address : Input → Option Nat
  | .incoming _ _ address _ => some address
  | _ => none

def input_event : Input → Option transaction_delete_t
  | .delete event _ => some event
  | _ => none

theorem Turn.address {env : Environment} {packet : Packet} {input : Input} (h : Turn env packet input) :
    input_address input = address_of packet := by
  cases h with
  | incoming => rfl
  | delete => rfl

theorem Turn.event {env : Environment} {packet : Packet} {input : Input} (h : Turn env packet input) :
    input_event input = event_of packet := by
  cases h with
  | incoming => rfl
  | delete => rfl

/-- What a worker thread does with its packet is a step of the worker by itself. -/
theorem work_turn {system system' : System} (hcoherent : Coherent system) {k : Fin MAX_THREADS} {env : Environment}
    {packet : Packet} {input : Input} (hcurrent : (system.threads k).current = some packet)
    (hturn : Turn env packet input) (hwork : system.work k env = ok system') :
    sip_server.program.enabled (system.threads k).run input ∧
      sip_server.program.step (system.threads k).run input = ok (system'.threads k).run := by
  obtain ⟨taken, htaken, hwork⟩ := bind_eq_ok_iff.mp hwork
  obtain rfl := Option.some.inj (hcurrent.symm.trans (deref_eq_ok_iff.mp htaken))
  obtain ⟨m', hprocess, hwork⟩ := bind_eq_ok_iff.mp hwork
  obtain rfl := Except.ok.inj hwork
  rw [System.threads_set_thread, if_pos rfl]
  cases hturn with
  | @incoming message datagram client_addr hgiven =>
    have hrun : (system.threads k).run.step (.incoming datagram client_addr message.address env) =
        ok ((system.threads k).run.finish m') := by
      simp only [Run.step, hgiven, bind_ok, hprocess]
    exact ⟨trivial, hrun⟩
  | delete event =>
    have hheld : event ∈ underway system.timers k (system.threads k) := by
      simp [underway, carried, hcurrent, event_of]
    have hcount := (hcoherent.threads k).pending event
    have hrun : (system.threads k).run.step (.delete event env) =
        ok ({ (system.threads k).run with pending := (system.threads k).run.pending.erase event }.finish m') := by
      simp only [Run.step, hprocess, bind_ok]
    exact ⟨List.count_pos_iff.mp ((List.count_pos_iff.mpr hheld).trans_le hcount), hrun⟩

/-- A datagram that was received into the message at an address, and that `main` gives to this worker. -/
structure ReceivedFor (actions : List System.Action) (k : Fin MAX_THREADS) (datagram : Datagram)
    (client_addr : sockaddr_in) (address : Nat) : Prop where
  receipt : (receipts actions)[address]? = some (some (datagram, client_addr))
  thread : ∃ call_id, call_id_of datagram = some call_id ∧ thread_for call_id = ok k

/-- What a worker has made of its packets is what it makes by itself of the inputs it took. -/
structure Served (actions : List System.Action) (start : Run) (allowed : Run → Input → Prop) (k : Fin MAX_THREADS)
    (thread : Thread) (inputs : List Input) : Prop where
  trace : sip_server.program.Trace allowed start inputs thread.run
  taken : inputs.filterMap input_address ++ thread.current.toList.filterMap address_of = thread.taken
  processed : inputs.filterMap input_event = thread.processed
  incoming : ∀ datagram client_addr address env, .incoming datagram client_addr address env ∈ inputs →
    ReceivedFor actions k datagram client_addr address
  carried : ∀ message, .PACKET_TYPE_INCOMING_SIP message ∈ carried thread → ∃ datagram client_addr,
    ReceivedFor actions k datagram client_addr message.address ∧
      dispatched datagram client_addr = ok (some message.contents)

theorem receipts_append (actions : List System.Action) (action : System.Action) :
    receipts (actions ++ [action]) = receipts actions ++ (receipt_of action).toList := by
  rw [receipts, List.filterMap_append, receipts]
  cases hreceipt : receipt_of action <;> simp [hreceipt]

theorem ReceivedFor.append {actions : List System.Action} {k : Fin MAX_THREADS} {datagram : Datagram}
    {client_addr : sockaddr_in} {address : Nat} (h : ReceivedFor actions k datagram client_addr address)
    (action : System.Action) : ReceivedFor (actions ++ [action]) k datagram client_addr address := by
  refine ⟨?_, h.thread⟩
  rw [receipts_append, List.getElem?_append_left (List.getElem?_eq_some_iff.mp h.receipt).1]
  exact h.receipt

section

variable {actions : List System.Action} {start : Run} {allowed : Run → Input → Prop} {k : Fin MAX_THREADS}
  {thread thread' : Thread} {inputs : List Input}

theorem Served.append (h : Served actions start allowed k thread inputs) (action : System.Action) :
    Served (actions ++ [action]) start allowed k thread inputs := by
  refine { h with incoming := fun datagram client_addr address env hmem => ?_, carried := fun message hmem => ?_ }
  · exact (h.incoming datagram client_addr address env hmem).append action
  · obtain ⟨datagram, client_addr, hreceived, hdispatched⟩ := h.carried message hmem
    exact ⟨datagram, client_addr, hreceived.append action, hdispatched⟩

/-- A packet is put into the worker's queue. -/
theorem Served.enqueue {queue : message_queue_t Packet} {packet : Packet}
    (h : Served actions start allowed k thread inputs)
    (hqueue : Holds (slots QUEUE_CAPACITY) queue (queued thread ++ [packet]))
    (hgiven : ∀ message, packet = .PACKET_TYPE_INCOMING_SIP message → ∃ datagram client_addr,
      ReceivedFor actions k datagram client_addr message.address ∧
        dispatched datagram client_addr = ok (some message.contents)) :
    Served actions start allowed k { thread with queue := queue } inputs := by
  refine ⟨h.trace, h.taken, h.processed, h.incoming, fun message hmem => ?_⟩
  rw [carried_enqueue hqueue, List.mem_append, List.mem_singleton] at hmem
  rcases hmem with hmem | hmem
  · exact h.carried message hmem
  · exact hgiven message hmem.symm

theorem Served.take {queue : message_queue_t Packet} {packet : Packet} {rest : List Packet}
    (h : Served actions start allowed k thread inputs) (hcurrent : thread.current = none)
    (hqueued : queued thread = packet :: rest) (hqueue : Holds (slots QUEUE_CAPACITY) queue rest) :
    Served actions start allowed k { thread with
      queue := queue
      current := some packet
      taken := thread.taken ++ (address_of packet).toList } inputs := by
  refine ⟨h.trace, ?_, h.processed, h.incoming, fun message hmem => ?_⟩
  · have htaken := h.taken
    rw [hcurrent] at htaken
    rw [← htaken]
    cases haddress : address_of packet <;> simp [haddress]
  · rw [carried_take _ hcurrent hqueued hqueue] at hmem
    exact h.carried message hmem

/-- The worker has made its turn. -/
theorem Served.turn {packet : Packet} {env : Environment} {input : Input} {run' : Run}
    {allocated : List transaction_delete_t} (h : Served actions start allowed k thread inputs)
    (hcurrent : thread.current = some packet) (hturn : Turn env packet input)
    (hreceived : ∀ datagram client_addr address env, input = .incoming datagram client_addr address env →
      ReceivedFor actions k datagram client_addr address)
    (henabled : sip_server.program.enabled thread.run input) (hallowed : allowed thread.run input)
    (hstep : sip_server.program.step thread.run input = ok run') :
    Served actions start allowed k { thread with
      run := run'
      current := none
      allocated := allocated
      processed := thread.processed ++ (event_of packet).toList } (inputs ++ [input]) := by
  refine ⟨h.trace.tail henabled hallowed hstep, ?_, ?_, fun datagram client_addr address env' hmem => ?_,
    fun message hmem => ?_⟩
  · have htaken := h.taken
    have haddress := hturn.address
    rw [hcurrent] at htaken
    rw [List.filterMap_append, ← htaken]
    cases hpacket : address_of packet <;> simp [haddress, hpacket]
  · have hevent := hturn.event
    rw [List.filterMap_append, h.processed]
    cases hpacket : event_of packet <;> simp [hevent, hpacket]
  · rcases List.mem_append.mp hmem with hmem | hmem
    · exact h.incoming datagram client_addr address env' hmem
    · exact hreceived datagram client_addr address env' (List.mem_singleton.mp hmem).symm
  · exact h.carried message (List.mem_append_right _ hmem)

end

theorem System.Initial.carried {system : System} (h : system.Initial) (k : Fin MAX_THREADS) :
    carried (system.threads k) = [] := by
  have hholds := initialize_message_queue_spec (P := Packet) QUEUE_CAPACITY
  rw [← h.queue k] at hholds
  rw [main.carried, h.current, queued_of_holds _ hholds]
  rfl

theorem System.Initial.served {system : System} (h : system.Initial) (allowed : Run → Input → Prop)
    (k : Fin MAX_THREADS) : Served [] (system.threads k).run allowed k (system.threads k) [] := by
  constructor
  · exact .refl _
  · rw [h.current, h.taken]
    rfl
  · exact (h.processed k).symm
  · exact fun _ _ _ _ hmem => absurd hmem List.not_mem_nil
  · intro message hmem
    rw [h.carried] at hmem
    cases hmem

/-- What `main` enters in a queue was received last. -/
theorem Entered.receivedFor {system : System} {reception : Reception} {message : sip_message_t} {arrival : Arrival}
    (h : Entered system reception message arrival) (hreads : Reads reception) {actions : List System.Action}
    (hmessages : system.messages = (receipts actions).length) : ∃ datagram client_addr,
      ReceivedFor (actions ++ [.receive reception]) arrival.thread datagram client_addr system.messages ∧
        dispatched datagram client_addr = ok (some message) := by
  obtain ⟨datagram, client_addr, hrecvfrom, hdispatched, hcall_id⟩ := h.given
  refine ⟨datagram, client_addr, ⟨?_, arrival.call_id, hcall_id, h.thread⟩, hdispatched⟩
  rw [receipts_append, hmessages, List.getElem?_append_right (Nat.le_refl _), Nat.sub_self, receipt_of, if_pos hreads,
    hrecvfrom]
  rfl

theorem handle_new_message_of_not_reads (system : System) {reception : Reception} (hnothing : ¬ Reads reception) :
    system.handle_new_message reception = ok system := by
  rw [System.handle_new_message]
  split
  · rfl
  · split
    · rfl
    · split
      · rfl
      · rename_i hselect hreadable hmalloc
        exact absurd ⟨Int.not_lt.mp hselect, by simpa using hreadable, by simpa using hmalloc⟩ hnothing

/-- As many messages were allocated as there are receipts, and every worker is served. -/
structure AllServed (start : System) (allowed : Run → Input → Prop) (actions : List System.Action) (system : System) :
    Prop where
  coherent : Coherent system
  messages : system.messages = (receipts actions).length
  served : ∀ k, ∃ inputs, Served actions (start.threads k).run allowed k (system.threads k) inputs

section

variable {start system system' : System} {allowed : Run → Input → Prop} {actions : List System.Action}

private theorem AllServed.receives {reception : Reception} (h : AllServed start allowed actions system)
    (hstep : system.step (.receive reception) = ok system') :
    AllServed start allowed (actions ++ [.receive reception]) system' := by
  have henabled : system.enabled (.receive reception) := trivial
  have hadvanced := step_advanced h.coherent henabled hstep
  have hold : ∀ k, ∃ inputs, Served (actions ++ [.receive reception]) (start.threads k).run allowed k
      (system.threads k) inputs := by
    intro k
    obtain ⟨inputs, hserved⟩ := h.served k
    exact ⟨inputs, hserved.append _⟩
  by_cases hreads : Reads reception
  · have hreceipts : (receipts (actions ++ [.receive reception])).length = system.messages + 1 := by
      rw [receipts_append, receipt_of, if_pos hreads, List.length_append, ← h.messages]
      rfl
    refine ⟨hadvanced.coherent h.coherent, ?_, fun k => ?_⟩
    · rw [hreceipts]
      cases hadvanced with
      | idle hnothing => exact absurd hreads hnothing
      | discarded => rfl
      | refused => rfl
      | dispatched => rfl
    · cases hadvanced with
      | idle => exact hold k
      | discarded => exact hold k
      | refused => exact hold k
      | dispatched hentered _ hqueue =>
        rw [System.threads_set_thread]
        split
        · rename_i hk
          obtain ⟨inputs, hserved⟩ := hold k
          rw [hk] at hserved ⊢
          refine ⟨inputs, hserved.enqueue hqueue fun owned howned => ?_⟩
          cases howned
          exact hentered.receivedFor hreads h.messages
        · exact hold k
  · obtain rfl := Except.ok.inj ((handle_new_message_of_not_reads system hreads).symm.trans hstep)
    refine ⟨h.coherent, ?_, hold⟩
    rw [receipts_append, receipt_of, if_neg hreads, h.messages, Option.toList_none, List.append_nil]

private theorem AllServed.works {k : Fin MAX_THREADS} {env : Environment} (h : AllServed start allowed actions system)
    (henabled : system.enabled (.work k env)) (hallowed : Turns allowed system (.work k env))
    (hstep : system.step (.work k env) = ok system') (j : Fin MAX_THREADS) :
    ∃ inputs, Served actions (start.threads j).run allowed j (system'.threads j) inputs := by
  have hadvanced := step_advanced h.coherent henabled hstep
  obtain ⟨inputs, hserved⟩ := h.served j
  by_cases hj : j = k
  · subst hj
    obtain ⟨packet, hcurrent⟩ := Option.ne_none_iff_exists'.mp henabled.1
    obtain ⟨input, hturn, hreceived⟩ : ∃ input, Turn env packet input ∧ ∀ datagram client_addr address env,
        input = .incoming datagram client_addr address env → ReceivedFor actions j datagram client_addr address := by
      cases packet with
      | PACKET_TYPE_INCOMING_SIP message =>
        have hmem : .PACKET_TYPE_INCOMING_SIP message ∈ carried (system.threads j) := by simp [carried, hcurrent]
        obtain ⟨datagram, client_addr, hreceived, hdispatched⟩ := hserved.carried message hmem
        refine ⟨_, .incoming hdispatched, fun datagram' client_addr' address env' heq => ?_⟩
        cases heq
        exact hreceived
      | PACKET_TYPE_DELETE_TRANSACTION event =>
        exact ⟨_, .delete event, fun _ _ _ _ heq => by cases heq⟩
    obtain ⟨hready, hrun⟩ := work_turn h.coherent hcurrent hturn hstep
    refine ⟨inputs ++ [input], ?_⟩
    cases hadvanced with
    | worked hcurrent' =>
      obtain rfl := Option.some.inj (hcurrent.symm.trans hcurrent')
      rw [System.threads_set_thread, if_pos rfl] at hrun ⊢
      exact hserved.turn hcurrent hturn hreceived hready (hallowed packet input hcurrent hturn) hrun
  · refine ⟨inputs, ?_⟩
    cases hadvanced with
    | worked =>
      rw [System.threads_set_thread, if_neg hj]
      exact hserved

/-- Every step leaves every worker served. -/
theorem AllServed.advances {action : System.Action} (h : AllServed start allowed actions system)
    (henabled : system.enabled action) (hallowed : Turns allowed system action)
    (hstep : system.step action = ok system') : AllServed start allowed (actions ++ [action]) system' := by
  have hadvanced := step_advanced h.coherent henabled hstep
  have hcoherent := hadvanced.coherent h.coherent
  have hquiet : receipt_of action = none → system'.messages = system.messages →
      (∀ k, ∃ inputs, Served actions (start.threads k).run allowed k (system'.threads k) inputs) →
      AllServed start allowed (actions ++ [action]) system' := by
    intro hnone hmessages hserved
    refine ⟨hcoherent, ?_, fun k => ?_⟩
    · rw [receipts_append, hnone, hmessages, h.messages, Option.toList_none, List.append_nil]
    · obtain ⟨inputs, hk⟩ := hserved k
      exact ⟨inputs, hk.append action⟩
  cases action with
  | receive reception => exact h.receives hstep
  | work k env =>
    refine hquiet rfl ?_ (h.works henabled hallowed hstep)
    cases hadvanced with
    | worked => rfl
  | take k =>
    cases hadvanced with
    | taken hcurrent hqueued hqueue =>
      refine hquiet rfl rfl fun j => ?_
      obtain ⟨inputs, hserved⟩ := h.served j
      rw [System.threads_set_thread]
      split
      · rename_i hj
        rw [hj] at hserved ⊢
        exact ⟨inputs, hserved.take hcurrent hqueued hqueue⟩
      · exact ⟨inputs, hserved⟩
  | fire timer answers =>
    cases hadvanced with
    | rearmed => exact hquiet rfl rfl h.served
    | lost => exact hquiet rfl rfl h.served
    | expired _ _ _ hqueue =>
      refine hquiet rfl rfl fun j => ?_
      obtain ⟨inputs, hserved⟩ := h.served j
      rw [System.threads_set_thread]
      split
      · rename_i hj
        rw [hj] at hserved ⊢
        exact ⟨inputs, hserved.enqueue hqueue fun message hmessage => by cases hmessage⟩
      · exact ⟨inputs, hserved⟩

end

theorem all_served {start system : System} {allowed : Run → Input → Prop} {actions : List System.Action}
    (hinitial : start.Initial) (h : program.Trace (Turns allowed) start actions system) :
    AllServed start allowed actions system := by
  refine h.preserves (P := AllServed start allowed) ?_ ?_
  · intro actions system action system' henabled hallowed hstep hserved
    exact hserved.advances henabled hallowed hstep
  · exact ⟨hinitial.coherent, hinitial.messages, fun k => ⟨[], hinitial.served allowed k⟩⟩

/-- A worker of the server by itself: the datagrams it was given, in the order of their arrival,
with the delete events that came to it in between. -/
structure Alone (actions : List System.Action) (system : System) (start : Run) (allowed : Run → Input → Prop)
    (k : Fin MAX_THREADS) (inputs : List Input) : Prop where
  trace : sip_server.program.Trace allowed start inputs (system.threads k).run
  incoming : ∀ datagram client_addr address env, .incoming datagram client_addr address env ∈ inputs →
    ReceivedFor actions k datagram client_addr address
  order : inputs.filterMap input_address ++ (carried (system.threads k)).filterMap address_of = given_to system k
  once : (given_to system k).Pairwise (· < ·)
  deletions : inputs.filterMap input_event = (system.threads k).processed

theorem routed {allowed : System → System.Action → Prop} {system : System} (h : program.ReachableWhile allowed system) :
    Routed system := by
  refine (invariant_of_advances (P := Routed) ?_ ?_ h).2
  · exact fun _ hinitial => hinitial.routed
  · exact fun _ _ _ _ _ hadvanced hrouted => hrouted.advances hadvanced

theorem AllServed.alone {start system : System} {allowed : Run → Input → Prop} {actions : List System.Action}
    (h : AllServed start allowed actions system) (hrouted : Routed system) (k : Fin MAX_THREADS) :
    ∃ inputs, Alone actions system (start.threads k).run allowed k inputs := by
  obtain ⟨inputs, hserved⟩ := h.served k
  refine ⟨inputs, hserved.trace, hserved.incoming, ?_, ?_, hserved.processed⟩
  · rw [carried, List.filterMap_append, ← List.append_assoc, hserved.taken]
    exact hrouted.order k
  · exact hrouted.sorted.sublist (List.filter_sublist.map _)

/-- Whatever the order in which the threads take turns, each worker does what a worker does by
itself, and all that holds of the runs of a worker holds of each worker of the server. -/
theorem workers_run_alone (allowed : Run → Input → Prop) (start system : System) (actions : List System.Action)
    (hinitial : start.Initial) (h : program.Trace (Turns allowed) start actions system) (k : Fin MAX_THREADS) :
    (∃ inputs, Alone actions system (start.threads k).run allowed k inputs) ∧
      sip_server.program.ReachableWhile allowed (system.threads k).run := by
  obtain ⟨inputs, halone⟩ := (all_served hinitial h).alone (routed ⟨start, hinitial, h.path⟩) k
  exact ⟨⟨inputs, halone⟩, _, hinitial.run k, halone.trace.path⟩

/-- The steps in which every turn of a worker is allowed, where all turns are. -/
theorem turns_of_forall {allowed : Run → Input → Prop} (hall : ∀ run input, allowed run input) (system : System)
    (action : System.Action) : Turns allowed system action := by
  cases action with
  | work k env => exact fun _ _ _ _ => hall _ _
  | receive => trivial
  | fire => trivial
  | take => trivial

/-- An INVITE with the branch of the first one, whose Call-ID leads to another worker. -/
def other_invite : Datagram where
  bytes := call_text (ascii "d@h") (ascii "INVITE") (ascii "z9hG4bK1") (ascii "<sip:b@h>")
  fits := by decide +kernel

/-- A call of one worker, between the requests of which another worker answers an INVITE. -/
def interleaved : List System.Action :=
  [datagram_in first_invite, datagram_in other_invite, .take ⟨1, one_lt_max_threads⟩,
    .take ⟨2, two_lt_max_threads⟩, datagram_in first_bye, .work ⟨2, two_lt_max_threads⟩ .obliging,
    .work ⟨1, one_lt_max_threads⟩ .obliging, .take ⟨1, one_lt_max_threads⟩, .work ⟨1, one_lt_max_threads⟩ .obliging]

private theorem interleaved_run :
    (program.follow started interleaved).map (fun system : System =>
      ([⟨1, one_lt_max_threads⟩, ⟨2, two_lt_max_threads⟩] : List (Fin MAX_THREADS)).map fun k =>
        (given_to system k, (carried (system.threads k)).length, (system.threads k).run.worker.calls.list)) =
      some [([0, 2], 0, [0]), ([1], 0, [0])] := by
  decide +kernel

private theorem interleaved_trace {system : System} (h : program.follow started interleaved = some system) :
    program.Trace (Turns fun _ _ => True) started interleaved system :=
  .of_follow h fun system action _ => turns_of_forall (fun _ _ => trivial) system action

/-- What a worker that carries nothing has taken is what it was given. -/
private theorem Alone.taken {actions : List System.Action} {system : System} {start : Run}
    {allowed : Run → Input → Prop} {k : Fin MAX_THREADS} {inputs : List Input}
    (h : Alone actions system start allowed k inputs) (hidle : (carried (system.threads k)).length = 0) :
    inputs.filterMap input_address = given_to system k := by
  rw [← h.order, List.length_eq_zero_iff.mp hidle, List.filterMap_nil, List.append_nil]

/-- Two workers between whose turns the server has switched have each run by themselves. -/
theorem interleaved_workers_alone :
    ∃ system inputs inputs', inputs.filterMap input_address = [0, 2] ∧ inputs'.filterMap input_address = [1] ∧
      Alone interleaved system (started.threads ⟨1, one_lt_max_threads⟩).run (fun _ _ => True)
        ⟨1, one_lt_max_threads⟩ inputs ∧
      Alone interleaved system (started.threads ⟨2, two_lt_max_threads⟩).run (fun _ _ => True)
        ⟨2, two_lt_max_threads⟩ inputs' := by
  obtain ⟨system, hsystem, hfacts⟩ := Option.map_eq_some_iff.mp interleaved_run
  simp only [List.map_cons, List.map_nil, List.cons.injEq, Prod.mk.injEq] at hfacts
  obtain ⟨⟨hgiven, hidle, -⟩, ⟨hgiven', hidle', -⟩, -⟩ := hfacts
  obtain ⟨⟨inputs, halone⟩, -⟩ := workers_run_alone (fun _ _ => True) started system interleaved started_initial
    (interleaved_trace hsystem) ⟨1, one_lt_max_threads⟩
  obtain ⟨⟨inputs', halone'⟩, -⟩ := workers_run_alone (fun _ _ => True) started system interleaved started_initial
    (interleaved_trace hsystem) ⟨2, two_lt_max_threads⟩
  exact ⟨system, inputs, inputs', (halone.taken hidle).trans hgiven, (halone'.taken hidle').trans hgiven', halone,
    halone'⟩

/-- A worker keeps requests and calls of its own Call-IDs only. -/
structure OwnCallIds (k : Fin MAX_THREADS) (l : Ledger) : Prop where
  messages : ∀ a t message, l.run.worker.transactions.heap.cells a = some t → HasMessage t message →
    thread_for (call_id_value message.contents) = ok k
  calls : ∀ a c, l.run.worker.calls.heap.cells a = some c → thread_for (l.call_ids a) = ok k

/-- Nothing that is kept for one Call-ID is with two workers. -/
structure Sharded (ledger : Fin MAX_THREADS → Ledger) : Prop where
  messages : ∀ j k a b t u message other, (ledger j).run.worker.transactions.heap.cells a = some t →
    HasMessage t message → (ledger k).run.worker.transactions.heap.cells b = some u → HasMessage u other →
    call_id_value message.contents = call_id_value other.contents → j = k
  calls : ∀ j k a b c d, (ledger j).run.worker.calls.heap.cells a = some c →
    (ledger k).run.worker.calls.heap.cells b = some d → (ledger j).call_ids a = (ledger k).call_ids b → j = k

/-- A request that a worker takes has a Call-ID that leads to the worker. -/
theorem ReceivedFor.addressed {actions : List System.Action} {k : Fin MAX_THREADS} {datagram : Datagram}
    {client_addr : sockaddr_in} {address : Nat} (h : ReceivedFor actions k datagram client_addr address)
    (env : Environment) :
    Addressed (fun call_id => thread_for call_id = ok k) (.incoming datagram client_addr address env) := by
  intro message hrequest
  obtain ⟨call_id, hcall_id, hthread⟩ := h.thread
  have hvalue := call_id_found_of_accepted (accepted_iff.mpr hrequest)
  obtain rfl := Option.some.inj (hcall_id.symm.trans hvalue)
  exact hthread

/-- All that the server keeps of a Call-ID is with the worker that the Call-ID leads to, as the
ledgers say that the workers keep by themselves of the inputs they took. -/
theorem calls_live_with_one_worker (start system : System) (actions : List System.Action) (hinitial : start.Initial)
    (h : program.Trace (fun _ _ => True) start actions system) :
    ∃ (inputs : Fin MAX_THREADS → List Input) (ledger : Fin MAX_THREADS → Ledger),
      (∀ k, Alone actions system (start.threads k).run (fun _ _ => True) k (inputs k) ∧
        chronicle.Trace (fun _ _ => True) (.blank (start.threads k).run) (inputs k) (ledger k) ∧
        (ledger k).run = (system.threads k).run ∧ OwnCallIds k (ledger k)) ∧ Sharded ledger := by
  have hturns : program.Trace (Turns fun _ _ => True) start actions system :=
    h.mono fun system action _ => turns_of_forall (fun _ _ => trivial) system action
  have hrouted := routed ⟨start, hinitial, h.path⟩
  have hledgers : ∀ k, ∃ inputs l, Alone actions system (start.threads k).run (fun _ _ => True) k inputs ∧
      chronicle.Trace (fun _ _ => True) (.blank (start.threads k).run) inputs l ∧ l.run = (system.threads k).run ∧
      KeepsCallIds (fun call_id => thread_for call_id = ok k) l := by
    intro k
    obtain ⟨inputs, halone⟩ := (all_served hinitial hturns).alone hrouted k
    have haddressed : ∀ input ∈ inputs, Addressed (fun call_id => thread_for call_id = ok k) input := by
      intro input hinput
      cases input with
      | incoming datagram client_addr address env =>
        exact (halone.incoming datagram client_addr address env hinput).addressed env
      | response => exact fun message hrequest => by cases hrequest
      | delete => exact fun message hrequest => by cases hrequest
    obtain ⟨l, hl⟩ := call_ids_kept (hinitial.run k) halone.trace haddressed
    exact ⟨inputs, l, halone, hl⟩
  choose inputs ledger halone htrace hrun hkeeps using hledgers
  have hsame : ∀ {j k : Fin MAX_THREADS} {call_id}, thread_for call_id = ok j → thread_for call_id = ok k → j = k :=
    fun hj hk => Except.ok.inj (hj.symm.trans hk)
  refine ⟨inputs, ledger, fun k => ⟨halone k, htrace k, hrun k, (hkeeps k).messages, (hkeeps k).calls⟩, ?_, ?_⟩
  · intro j k a b t u message other ht hmessage hu hother heq
    have hj := (hkeeps j).messages a t message ht hmessage
    have hk := (hkeeps k).messages b u other hu hother
    exact hsame hj (heq ▸ hk)
  · intro j k a b c d hc hd heq
    have hj := (hkeeps j).calls a c hc
    have hk := (hkeeps k).calls b d hd
    exact hsame hj (heq ▸ hk)

theorem interleaved_calls_with_one_worker :
    ∃ (inputs : Fin MAX_THREADS → List Input) (ledger : Fin MAX_THREADS → Ledger),
      ((inputs ⟨1, one_lt_max_threads⟩).filterMap input_address = [0, 2] ∧
        (ledger ⟨1, one_lt_max_threads⟩).run.worker.calls.list = [0]) ∧
      ((inputs ⟨2, two_lt_max_threads⟩).filterMap input_address = [1] ∧
        (ledger ⟨2, two_lt_max_threads⟩).run.worker.calls.list = [0]) ∧
      (∀ k, chronicle.Trace (fun _ _ => True) (.blank (started.threads k).run) (inputs k) (ledger k) ∧
        OwnCallIds k (ledger k)) ∧ Sharded ledger := by
  obtain ⟨system, hsystem, hfacts⟩ := Option.map_eq_some_iff.mp interleaved_run
  simp only [List.map_cons, List.map_nil, List.cons.injEq, Prod.mk.injEq] at hfacts
  obtain ⟨⟨hgiven, hidle, hcalls⟩, ⟨hgiven', hidle', hcalls'⟩, -⟩ := hfacts
  obtain ⟨inputs, ledger, hledger, hsharded⟩ := calls_live_with_one_worker started system interleaved started_initial
    ((interleaved_trace hsystem).mono fun _ _ _ => trivial)
  refine ⟨inputs, ledger, ⟨((hledger _).1.taken hidle).trans hgiven, ?_⟩,
    ⟨((hledger _).1.taken hidle').trans hgiven', ?_⟩, fun k => ⟨(hledger k).2.1, (hledger k).2.2.2⟩, hsharded⟩
  · rw [(hledger ⟨1, one_lt_max_threads⟩).2.2.1]
    exact hcalls
  · rw [(hledger ⟨2, two_lt_max_threads⟩).2.2.1]
    exact hcalls'

end mock_uas.main
