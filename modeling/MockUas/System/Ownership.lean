import Mathlib.Algebra.BigOperators.Fin
import MockUas.Clib.Trace
import MockUas.Server.DeleteEvents
import MockUas.Server.Ownership
import MockUas.System.Custody

open clib
open mock_uas.sip_message
open mock_uas.sip_utils
open mock_uas.sip_server
open mock_uas.message_queue
open mock_uas.timer_manager

namespace mock_uas.main

/-- The messages that a worker holds: in its hands, in its queue and in its transactions. -/
def references (thread : Thread) : List Nat :=
  (carried thread).filterMap address_of ++ held_messages thread.run.worker

/-- Every message received so far is referenced from one place, or was freed once. -/
def OwnedOnce (system : System) : Prop :=
  ((List.finRange MAX_THREADS).flatMap (fun k => references (system.threads k)) ++
    (system.freed ++ (List.finRange MAX_THREADS).flatMap fun k => (system.threads k).run.freed)).Perm
      (List.range system.messages)

def SingleAcks (system : System) : System.Action → Prop
  | .work k _ => ∀ packet, (system.threads k).current = some packet →
    NoSecondAck (system.threads k).run.worker packet
  | _ => True

instance (system : System) (action : System.Action) : Decidable (SingleAcks system action) :=
  match action with
  | .work k _ => inferInstanceAs
    (Decidable (∀ packet ∈ (system.threads k).current, NoSecondAck (system.threads k).run.worker packet))
  | .receive .. => isTrue trivial
  | .fire .. => isTrue trivial
  | .take .. => isTrue trivial

/-- How often a worker references a message or has freed it. -/
private def holdings (thread : Thread) (a : Nat) : Nat :=
  (references thread).count a + thread.run.freed.count a

private theorem holdings_eq (thread : Thread) (a : Nat) :
    holdings thread a = ((carried thread).filterMap address_of).count a + owned thread.run.worker thread.run.freed a := by
  rw [holdings, references, List.count_append, owned, Nat.add_assoc]

/-- How often the workers together reference a message or have freed it. -/
private def total (system : System) (a : Nat) : Nat :=
  ((List.finRange MAX_THREADS).map fun k => holdings (system.threads k) a).sum

private theorem total_set_thread (system : System) (k : Fin MAX_THREADS) (thread : Thread) (a : Nat) :
    total (system.set_thread k thread) a + holdings (system.threads k) a = total system a + holdings thread a := by
  have hthreads := fun j => system.threads_set_thread k j thread
  have hsum := sum_replaced (f := fun j => holdings (system.threads j) a)
    (g := fun j => holdings ((system.set_thread k thread).threads j) a) (a := k)
    fun j hj => by simp only [hthreads, if_neg hj]
  rw [Fin.sum_univ_def, Fin.sum_univ_def] at hsum
  simp only [total, hthreads, if_true] at hsum ⊢
  exact hsum

private theorem ownedOnce_iff {system : System} :
    OwnedOnce system ↔ ∀ a, total system a + system.freed.count a = (List.range system.messages).count a := by
  rw [OwnedOnce, List.perm_iff_count]
  refine forall_congr' fun a => ?_
  have hsplit : total system a = ((List.finRange MAX_THREADS).map fun k => (references (system.threads k)).count a).sum +
      ((List.finRange MAX_THREADS).map fun k => (system.threads k).run.freed.count a).sum :=
    List.sum_map_add
  rw [List.count_append, List.count_append, List.count_flatMap, List.count_flatMap, hsplit]
  simp only [Function.comp_def]
  omega

theorem System.Initial.ownedOnce {system : System} (h : system.Initial) : OwnedOnce system := by
  refine ownedOnce_iff.mpr fun a => ?_
  have hnone : ∀ k, holdings (system.threads k) a = 0 := by
    intro k
    have hholds := initialize_message_queue_spec (P := Packet) QUEUE_CAPACITY
    rw [← h.queue k] at hholds
    rw [holdings_eq, carried, h.current, queued_of_holds _ hholds, owned, held_messages, (h.run k).transactions,
      (h.run k).freed]
    rfl
  have hzero : ∀ items : List (Fin MAX_THREADS), (items.map fun k => holdings (system.threads k) a).sum = 0 := by
    intro items
    induction items with
    | nil => rfl
    | cons k items ih => rw [List.map_cons, List.sum_cons, hnone, ih]
  rw [total, hzero, h.freed, h.messages]
  rfl

theorem Advanced.ownedOnce {system system' : System} {action : System.Action}
    (h : Advanced system action system') (hcoherent : Coherent system) (hsingle : SingleAcks system action)
    (howned : OwnedOnce system) : OwnedOnce system' := by
  rw [ownedOnce_iff] at howned ⊢
  intro a
  have ha := howned a
  have hreceived : (List.range (system.messages + 1)).count a =
      (List.range system.messages).count a + [system.messages].count a := by
    rw [List.range_succ, List.count_append]
  cases h with
  | idle => exact ha
  | discarded =>
    rw [hreceived, ← ha, List.count_append]
    exact (Nat.add_assoc _ _ _).symm
  | refused =>
    rw [hreceived, ← ha, List.count_append]
    exact (Nat.add_assoc _ _ _).symm
  | @dispatched _ message arrival queue hentered hroom hqueue =>
    have htotal := total_set_thread system arrival.thread { system.threads arrival.thread with queue := queue } a
    rw [holdings_eq, holdings_eq, carried_enqueue hqueue, List.filterMap_append, List.count_append] at htotal
    change total (system.set_thread arrival.thread _) a + system.freed.count a = (List.range (system.messages + 1)).count a
    rw [hreceived, ← ha]
    change _ + (_ + owned (system.threads arrival.thread).run.worker (system.threads arrival.thread).run.freed a) =
      _ + (_ + [system.messages].count a +
        owned (system.threads arrival.thread).run.worker (system.threads arrival.thread).run.freed a) at htotal
    omega
  | rearmed => exact ha
  | @expired timer answers k queue hcb hmem hk hqueue =>
    have htotal := total_set_thread system k { system.threads k with queue := queue } a
    rw [holdings_eq, holdings_eq, carried_enqueue hqueue, List.filterMap_append, List.count_append] at htotal
    change total (system.set_thread k _) a + system.freed.count a = (List.range system.messages).count a
    change _ + (_ + owned (system.threads k).run.worker (system.threads k).run.freed a) =
      _ + (_ + 0 + owned (system.threads k).run.worker (system.threads k).run.freed a) at htotal
    omega
  | lost => exact ha
  | @taken k packet rest queue hcurrent hqueued hqueue =>
    have htotal := total_set_thread system k { system.threads k with
      queue := queue
      current := some packet
      taken := (system.threads k).taken ++ (address_of packet).toList } a
    rw [holdings_eq, holdings_eq, carried_take _ hcurrent hqueued hqueue] at htotal
    change total (system.set_thread k _) a + system.freed.count a = (List.range system.messages).count a
    change _ + (_ + owned (system.threads k).run.worker (system.threads k).run.freed a) =
      _ + (_ + owned (system.threads k).run.worker (system.threads k).run.freed a) at htotal
    omega
  | @worked k env packet m' hcurrent hepfd hprocessed hworker hevents hnumbered hreachable =>
    have htotal := total_set_thread system k { system.threads k with
      run := (settle (system.threads k).run packet).finish m'
      current := none
      allocated := (system.threads k).allocated ++ m'.timers.map TimerAdd.event
      processed := (system.threads k).processed ++ (event_of packet).toList } a
    have hholds := hprocessed.holds_or_frees (hcoherent.threads k).wellFormed (hsingle packet hcurrent) a
    have hcarried : (carried (system.threads k)).filterMap address_of =
        (address_of packet).toList ++ (queued (system.threads k)).filterMap address_of := by
      rw [carried, hcurrent, List.filterMap_append]
      cases haddress : address_of packet <;> simp [haddress]
    have hfreed : ((settle (system.threads k).run packet).finish m').freed = (system.threads k).run.freed ++ m'.freed := by
      cases packet <;> rfl
    rw [holdings_eq, holdings_eq, hcarried, owned, owned, hfreed, List.count_append, List.count_append] at htotal
    rw [owned, owned] at hholds
    change total (system.set_thread k _) a + system.freed.count a = (List.range system.messages).count a
    change (held_messages m'.worker).count a + _ = (held_messages (system.threads k).run.worker).count a + 0 + _ at hholds
    change _ = _ + (((queued (system.threads k)).filterMap address_of).count a + ((held_messages m'.worker).count a + _))
      at htotal
    omega

/-- As long as no INVITE gets two ACKs that are told from it, every message received is
referenced from one place, or was freed once. -/
theorem messages_owned_once (system : System) (h : program.ReachableWhile SingleAcks system) : OwnedOnce system :=
  (invariant_of_advances (P := OwnedOnce) (fun _ hinitial => hinitial.ownedOnce)
    (fun _ _ _ hcoherent hsingle hadvanced howned => hadvanced.ownedOnce hcoherent hsingle howned) h).2

/-- An INVITE, a copy of it, its ACK and a BYE, of which the worker has processed all but the
BYE. -/
private def call_taken : List System.Action :=
  [datagram_in first_invite, datagram_in first_invite, datagram_in first_ack, datagram_in first_bye,
    .take ⟨1, one_lt_max_threads⟩, .work ⟨1, one_lt_max_threads⟩ .obliging,
    .take ⟨1, one_lt_max_threads⟩, .work ⟨1, one_lt_max_threads⟩ .obliging,
    .take ⟨1, one_lt_max_threads⟩, .work ⟨1, one_lt_max_threads⟩ .obliging, .take ⟨1, one_lt_max_threads⟩]

private theorem call_taken_run :
    (program.follow_tested SingleAcks started call_taken).map (fun system : System =>
      (system.messages, references (system.threads ⟨1, one_lt_max_threads⟩),
        (system.threads ⟨1, one_lt_max_threads⟩).run.freed)) = some (4, [3, 0, 2], [1]) := by
  decide +kernel

/-- The worker has freed the copy, and holds the INVITE, the ACK and the BYE once each. -/
theorem call_owned_once :
    ∃ system : System, system.messages = 4 ∧ references (system.threads ⟨1, one_lt_max_threads⟩) = [3, 0, 2] ∧
      (system.threads ⟨1, one_lt_max_threads⟩).run.freed = [1] ∧ OwnedOnce system := by
  obtain ⟨system, hsystem, hfacts⟩ := Option.map_eq_some_iff.mp call_taken_run
  simp only [Prod.mk.injEq] at hfacts
  obtain ⟨hmessages, hreferences, hfreed⟩ := hfacts
  exact ⟨system, hmessages, hreferences, hfreed,
    messages_owned_once system (.of_follow_tested started_initial hsystem)⟩

/-- An INVITE and two copies of its ACK, each of which the worker has processed. -/
def two_acks : List System.Action :=
  [datagram_in first_invite, datagram_in first_ack, datagram_in first_ack,
    .take ⟨1, one_lt_max_threads⟩, .work ⟨1, one_lt_max_threads⟩ .obliging,
    .take ⟨1, one_lt_max_threads⟩, .work ⟨1, one_lt_max_threads⟩ .obliging,
    .take ⟨1, one_lt_max_threads⟩, .work ⟨1, one_lt_max_threads⟩ .obliging]

private theorem two_acks_run :
    (program.follow started two_acks).map (fun system : System =>
      (system.messages, system.freed, (List.finRange MAX_THREADS).flatMap (fun k => references (system.threads k)),
        (List.finRange MAX_THREADS).flatMap fun k => (system.threads k).run.freed)) = some (3, [], [0, 2], []) := by
  decide +kernel

/-- The first of two ACKs is neither referenced nor freed. -/
theorem first_ack_leaks : ∃ system, program.Reachable system ∧ ¬ OwnedOnce system := by
  obtain ⟨system, hsystem, hfacts⟩ := Option.map_eq_some_iff.mp two_acks_run
  simp only [Prod.mk.injEq] at hfacts
  obtain ⟨hmessages, hfreed, hreferences, hworkers⟩ := hfacts
  refine ⟨system, reachable_of_follow hsystem, fun howned => ?_⟩
  have hlength := List.Perm.length_eq howned
  rw [hmessages, hfreed, hreferences, hworkers] at hlength
  cases hlength

end mock_uas.main
