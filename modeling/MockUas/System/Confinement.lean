import MockUas.System.Workers

open clib
open mock_uas.sip_message
open mock_uas.sip_utils
open mock_uas.sip_server
open mock_uas.message_queue
open mock_uas.timer_manager

namespace mock_uas.main

/-- A datagram whose Call-ID, if it has one, is made of plain characters. -/
def PlainCallId (reception : Reception) : Prop :=
  ∀ datagram client_addr call_id, reception.recvfrom = some (datagram, client_addr) →
    call_id_of datagram = some call_id → ∀ b ∈ call_id, b < 128

def PlainCallIds (_ : System) : System.Action → Prop
  | .receive reception => PlainCallId reception
  | _ => True

instance (system : System) (action : System.Action) : Decidable (PlainCallIds system action) :=
  match action with
  | .receive reception =>
    decidable_of_iff (∀ received ∈ reception.recvfrom, ∀ call_id ∈ call_id_of received.1,
      call_id.all (· < 128) = true) (by
      simp only [List.all_eq_true, decide_eq_true_eq]
      constructor
      · exact fun h datagram client_addr call_id hrecvfrom hcall_id =>
          h (datagram, client_addr) hrecvfrom call_id hcall_id
      · exact fun h received hrecvfrom call_id hcall_id => h received.1 received.2 call_id hrecvfrom hcall_id)
  | .fire .. => isTrue trivial
  | .take .. => isTrue trivial
  | .work .. => isTrue trivial

/-- A datagram with a Call-ID that `main` reads. -/
def Brings (reception : Reception) (call_id : Bytes) : Prop :=
  Reads reception ∧ ∃ datagram client_addr, reception.recvfrom = some (datagram, client_addr) ∧
    call_id_of datagram = some call_id

/-- Every datagram arrives once, and those with one Call-ID at one worker. A worker takes the
datagrams it was given one after another, was given all but those that found its queue full,
and has processed those it has taken in the same order, but for the one in its hands. The
delete events that come to a worker are those that it has allocated itself, for transactions
of its own list. -/
structure Confined (system : System) : Prop where
  once : (system.arrivals.map Arrival.address).Nodup
  call : ∀ a ∈ system.arrivals, ∀ b ∈ system.arrivals, a.call_id = b.call_id → a.thread = b.thread
  order : ∀ k, (system.threads k).taken ++ (queued (system.threads k)).filterMap address_of = given_to system k
  worked : ∀ k, ∃ start inputs, start.Initial ∧
    sip_server.program.Trace (fun _ _ => True) start inputs (system.threads k).run ∧
    (system.threads k).taken =
      inputs.filterMap input_address ++ (system.threads k).current.toList.filterMap address_of
  missing : ∀ arrival ∈ system.arrivals, arrival.accepted = false → arrival.full = true
  delete : ∀ k, ∀ event ∈ (carried (system.threads k)).filterMap event_of,
    event ∈ (system.threads k).allocated ∧ event.owner < (system.threads k).run.worker.transactions.heap.next
  queue : ∀ j, ∀ event ∈ (system.threads j).allocated, ∀ k,
    event ∈ (carried (system.threads k)).filterMap event_of → k = j

private theorem thread_for_plain {call_id : Bytes} (h : ∀ b ∈ call_id, b < 128) : ∃ k, thread_for call_id = ok k := by
  have hhash : ∀ (hash : Int), 0 ≤ hash → 0 ≤ call_id.foldl (fun hash b => hash + signed_char b) hash := by
    induction call_id with
    | nil => exact fun hash hle => hle
    | cons b call_id ih =>
      intro hash hle
      have hb : signed_char b = b.toNat := if_pos (h b List.mem_cons_self)
      refine ih (fun c hc => h c (List.mem_cons_of_mem _ hc)) _ ?_
      change 0 ≤ hash + signed_char b
      rw [hb]
      omega
  have hpositive : (0 : Int) < (MAX_THREADS : Nat) := by decide
  have hinside := And.intro (Int.tmod_nonneg (MAX_THREADS : Nat) (hhash 0 (Int.le_refl 0)))
    (Int.tmod_lt_of_pos (call_id.foldl (fun hash b => hash + signed_char b) 0) hpositive)
  exact ⟨_, dif_pos hinside⟩

/-- A pending delete event was armed for a transaction that the worker has created. -/
private theorem pending_owner {run : Run} (h : sip_server.program.Reachable run) :
    ∀ event ∈ run.pending, event.owner < run.worker.transactions.heap.next := by
  suffices hall : WellFormed run.worker ∧ ∀ event ∈ run.pending, event.owner < run.worker.transactions.heap.next from
    hall.2
  refine h.invariant (P := fun run => WellFormed run.worker ∧
    ∀ event ∈ run.pending, event.owner < run.worker.transactions.heap.next) ?_ ?_
  · intro run (hinitial : run.Initial)
    exact ⟨hinitial.wellFormed, by rw [hinitial.pending]; nofun⟩
  · rintro run input run' - - hstep ⟨hworker, howner⟩
    have hstepped := (step_ends hworker input).of_eq_ok hstep
    obtain ⟨events, hpending, harms⟩ := hstepped.arms hworker
    refine ⟨hstepped.wellFormed hworker, fun event hevent => ?_⟩
    rw [hpending] at hevent
    rcases List.mem_append.mp hevent with hevent | hevent
    · exact (howner event (mem_of_mem_awaiting hevent)).trans_le hstepped.grows.transactions
    · obtain ⟨-, t, ht, -⟩ := harms event hevent
      exact Heap.lt_next_of_cells ht

private theorem Routed.confined {start system : System} {actions : List System.Action} (h : Routed system)
    (hinitial : start.Initial) (hserved : AllServed start (fun _ _ => True) actions system) : Confined system := by
  have hcoherent := hserved.coherent
  constructor
  · exact h.sorted.imp Nat.ne_of_lt
  · intro a ha b hb hsame
    have hthread := h.thread a ha
    rw [hsame, h.thread b hb] at hthread
    exact (Except.ok.inj hthread).symm
  · exact h.order
  · intro k
    obtain ⟨inputs, hk⟩ := hserved.served k
    exact ⟨_, inputs, hinitial.run k, hk.trace, hk.taken.symm⟩
  · exact h.missing
  · intro k event hevent
    have hunderway : 0 < (underway system.timers k (system.threads k)).count event :=
      List.count_pos_iff.mpr (List.mem_append_right _ hevent)
    have hallocated := h.allocated k event
    rw [unfinished] at hallocated
    have hpending := (hcoherent.threads k).pending event
    exact ⟨List.count_pos_iff.mp (by omega),
      pending_owner (hcoherent.threads k).reachable event (List.count_pos_iff.mp (by omega))⟩
  · intro j event hallocated k hcarried
    have hqueue := (h.allotted j).queue event hallocated
    rw [(hcoherent.threads k).events event hcarried] at hqueue
    exact Fin.ext (Option.some.inj hqueue)

/-- A datagram that `main` reads and that has a Call-ID is entered. -/
private theorem Advanced.enters {system system' : System} {reception : Reception} {call_id : Bytes}
    (h : Advanced system (.receive reception) system') (hcoherent : Coherent system) (hbrings : Brings reception call_id) :
    ∃ arrival, system'.arrivals = system.arrivals ++ [arrival] ∧ arrival.address = system.messages ∧
      arrival.call_id = call_id ∧ (arrival.full = true ↔
        (system.threads arrival.thread).queue.size = (system.threads arrival.thread).queue.capacity) := by
  obtain ⟨hreads, datagram, client_addr, hrecvfrom, hcall_id⟩ := hbrings
  have hentered : ∀ {message : sip_message_t} {arrival : Arrival}, Entered system reception message arrival →
      arrival.call_id = call_id := by
    rintro message arrival hentered
    obtain ⟨other, other_addr, hother, -, hother_id⟩ := hentered.given
    rw [hrecvfrom, Option.some.injEq, Prod.mk.injEq] at hother
    rw [← hother.1, hcall_id, Option.some.injEq] at hother_id
    exact hother_id.symm
  have hfull : ∀ {message : sip_message_t} {arrival : Arrival}, Entered system reception message arrival →
      (arrival.full = true ↔
        (system.threads arrival.thread).queue.size = (system.threads arrival.thread).queue.capacity) := by
    intro message arrival hentered
    exact hentered.full.trans (hcoherent.threads arrival.thread).holds.full_iff.symm
  cases h with
  | idle hnothing => exact absurd hreads hnothing
  | discarded _ hnone => cases (hnone datagram client_addr hrecvfrom).symm.trans hcall_id
  | refused hnew => exact ⟨_, rfl, hnew.address, hentered hnew, hfull hnew⟩
  | dispatched hnew => exact ⟨_, rfl, hnew.address, hentered hnew, hfull hnew⟩

private theorem confined_run :
    (program.follow_tested PlainCallIds started interleaved).map (fun system : System =>
      (system.arrivals.map (·.address), (system.threads ⟨1, one_lt_max_threads⟩).taken,
        (system.threads ⟨2, two_lt_max_threads⟩).taken)) = some ([0, 1, 2], [0, 2], [1]) := by
  decide +kernel

end mock_uas.main
