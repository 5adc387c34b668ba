import MockUas.Server.Links
import MockUas.System.Custody

open clib
open mock_uas.sip_message
open mock_uas.sip_utils
open mock_uas.sip_server
open mock_uas.message_queue
open mock_uas.timer_manager

namespace mock_uas.main

/-- The datagrams a worker's queue took, in the order in which they arrived. -/
def given_to (system : System) (k : Fin MAX_THREADS) : List Nat :=
  (system.arrivals.filter fun arrival => arrival.thread = k ∧ arrival.accepted).map (·.address)

/-- What holds of the arrivals, the queues and the delete events at any time. -/
structure Routed (system : System) : Prop where
  sorted : (system.arrivals.map Arrival.address).Pairwise (· < ·)
  recent : ∀ arrival ∈ system.arrivals, arrival.address < system.messages
  thread : ∀ arrival ∈ system.arrivals, thread_for arrival.call_id = ok arrival.thread
  order : ∀ k, (system.threads k).taken ++ (queued (system.threads k)).filterMap address_of = given_to system k
  missing : ∀ arrival ∈ system.arrivals, arrival.accepted = false → arrival.full = true
  allotted : ∀ k, Allotted k (system.threads k)
  allocated : ∀ k event, unfinished system k event ≤ (system.threads k).allocated.count event

theorem System.Initial.routed {system : System} (h : system.Initial) : Routed system := by
  have hqueued : ∀ k, queued (system.threads k) = [] := by
    intro k
    have hholds := initialize_message_queue_spec (P := Packet) QUEUE_CAPACITY
    rw [← h.queue k] at hholds
    exact queued_of_holds _ hholds
  constructor
  · rw [h.arrivals]
    exact List.Pairwise.nil
  · rw [h.arrivals]
    nofun
  · rw [h.arrivals]
    nofun
  · intro k
    rw [hqueued, h.taken, given_to, h.arrivals]
    rfl
  · rw [h.arrivals]
    nofun
  · exact h.allotted
  · intro k event
    rw [unfinished, underway, carried, h.current, hqueued, h.timers, h.processed, h.allocated]
    exact Nat.zero_le _

/-- What was given to the workers once one more datagram is entered. -/
private theorem given_to_entered {system system' : System} {arrival : Arrival}
    (harrivals : system'.arrivals = system.arrivals ++ [arrival]) (k : Fin MAX_THREADS) :
    given_to system' k = given_to system k ++
      if arrival.thread = k ∧ arrival.accepted = true then [arrival.address] else [] := by
  rw [given_to, harrivals, List.filter_append, List.map_append]
  congr 1
  by_cases hgiven : arrival.thread = k ∧ arrival.accepted = true
  · rw [if_pos hgiven, List.filter_cons, if_pos (by simpa using hgiven)]
    rfl
  · rw [if_neg hgiven, List.filter_cons, if_neg (by simpa using hgiven)]
    rfl

private theorem Routed.entered {system : System} {reception : Reception} {message : sip_message_t}
    {arrival : Arrival} (h : Routed system) (hentered : Entered system reception message arrival) {system' : System}
    (harrivals : system'.arrivals = system.arrivals ++ [arrival]) (hmessages : system'.messages = system.messages + 1) :
    (system'.arrivals.map Arrival.address).Pairwise (· < ·) ∧
      (∀ arrival ∈ system'.arrivals, arrival.address < system'.messages) ∧
      (∀ arrival ∈ system'.arrivals, thread_for arrival.call_id = ok arrival.thread) ∧
      ∀ arrival ∈ system'.arrivals, arrival.accepted = false → arrival.full = true := by
  rw [harrivals, hmessages]
  have hall : ∀ {Q : Arrival → Prop}, (∀ other ∈ system.arrivals, Q other) → Q arrival →
      ∀ other ∈ system.arrivals ++ [arrival], Q other := by
    intro Q hold hnew other hother
    rcases List.mem_append.mp hother with hother | hother
    · exact hold other hother
    · rw [List.mem_singleton.mp hother]
      exact hnew
  refine ⟨?_, hall (fun other hother => ?_) ?_, hall h.thread hentered.thread, hall h.missing fun haccepted => ?_⟩
  · rw [List.map_append, List.pairwise_append]
    refine ⟨h.sorted, List.pairwise_singleton _ _, fun a ha b hb => ?_⟩
    obtain ⟨other, hother, rfl⟩ := List.mem_map.mp ha
    rw [List.map_singleton, List.mem_singleton] at hb
    rw [hb, hentered.address]
    exact h.recent other hother
  · exact (h.recent other hother).trans (Nat.lt_succ_self _)
  · rw [hentered.address]
    exact Nat.lt_succ_self _
  · rw [hentered.accepted] at haccepted
    simpa using haccepted

theorem Routed.advances {system system' : System} {action : System.Action} (h : Routed system)
    (hadvanced : Advanced system action system') : Routed system' := by
  have hallotted := hadvanced.allotted h.allotted
  have hallocated : ∀ k event, unfinished system' k event ≤ (system'.threads k).allocated.count event := by
    intro k event
    obtain ⟨lost, -, hcount⟩ := hadvanced.passes_on k
    have hevent := hcount event
    have hle := h.allocated k event
    omega
  cases hadvanced with
  | idle => exact h
  | discarded =>
    refine ⟨h.sorted, fun arrival harrival => ?_, h.thread, h.order, h.missing, hallotted, hallocated⟩
    exact (h.recent arrival harrival).trans (Nat.lt_succ_self _)
  | @refused _ message arrival hentered hfull =>
    have harrivals : { system with
      messages := system.messages + 1
      arrivals := system.arrivals ++ [arrival]
      freed := system.freed ++ [system.messages] }.arrivals = system.arrivals ++ [arrival] := rfl
    obtain ⟨hsorted, hrecent, hthread, hmissing⟩ := h.entered hentered harrivals rfl
    refine ⟨hsorted, hrecent, hthread, fun k => ?_, hmissing, hallotted, hallocated⟩
    have hrefused : ¬ (arrival.thread = k ∧ arrival.accepted = true) := by
      rw [hentered.accepted, hfull]
      simp
    rw [given_to_entered harrivals, if_neg hrefused, List.append_nil]
    exact h.order k
  | @dispatched _ message arrival queue hentered hroom hqueue =>
    have harrivals : ({ system with
      messages := system.messages + 1
      arrivals := system.arrivals ++ [arrival] }.set_thread arrival.thread
        { system.threads arrival.thread with queue := queue }).arrivals = system.arrivals ++ [arrival] := rfl
    obtain ⟨hsorted, hrecent, hthread, hmissing⟩ := h.entered hentered harrivals rfl
    refine ⟨hsorted, hrecent, hthread, fun k => ?_, hmissing, hallotted, hallocated⟩
    have haccepted : arrival.accepted = true := by rw [hentered.accepted, hroom]; rfl
    rw [given_to_entered harrivals, System.threads_set_thread]
    split
    · rename_i hk
      rw [hk, queued_of_holds { system.threads arrival.thread with queue := queue } hqueue,
        if_pos ⟨rfl, haccepted⟩, ← h.order, hentered.address, List.filterMap_append, List.append_assoc]
      rfl
    · rename_i hk
      rw [if_neg fun he => hk he.1.symm, List.append_nil]
      exact h.order k
  | rearmed => exact ⟨h.sorted, h.recent, h.thread, h.order, h.missing, hallotted, hallocated⟩
  | @expired timer answers k queue hcb hmem hk hqueue =>
    refine ⟨h.sorted, h.recent, h.thread, fun j => ?_, h.missing, hallotted, hallocated⟩
    rw [System.threads_set_thread]
    split
    · rename_i hj
      rw [hj, queued_of_holds { system.threads k with queue := queue } hqueue, List.filterMap_append]
      simp only [List.filterMap_cons, address_of, List.filterMap_nil, List.append_nil]
      exact h.order k
    · exact h.order j
  | lost => exact ⟨h.sorted, h.recent, h.thread, h.order, h.missing, hallotted, hallocated⟩
  | @taken k packet rest queue hcurrent hqueued hqueue =>
    refine ⟨h.sorted, h.recent, h.thread, fun j => ?_, h.missing, hallotted, hallocated⟩
    rw [System.threads_set_thread]
    split
    · rename_i hj
      have horder := h.order k
      rw [hqueued] at horder
      rw [hj, queued_of_holds { system.threads k with
        queue := queue
        current := some packet
        taken := (system.threads k).taken ++ (address_of packet).toList } hqueue]
      change _ = given_to system k
      rw [← horder, List.filterMap_cons, List.append_assoc]
      cases address_of packet <;> rfl
    · exact h.order j
  | @worked k env packet m' hcurrent hepfd hprocessed hworker hevents hnumbered hreachable =>
    refine ⟨h.sorted, h.recent, h.thread, fun j => ?_, h.missing, hallotted, hallocated⟩
    rw [System.threads_set_thread]
    split
    · rename_i hj
      rw [hj]
      exact h.order k
    · exact h.order j

end mock_uas.main
