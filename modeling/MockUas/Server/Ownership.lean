import MockUas.Server.Step
import MockUas.Server.WellFormed

open clib
open mock_uas.sip_message
open mock_uas.sip_utils

namespace mock_uas.sip_server

/-- The messages that a worker's transactions hold, in their two fields. -/
def held_messages (worker : worker_thread_t) : List Nat := (worker.transactions.view messages_of).flatten

/-- An ACK for an INVITE whose transaction has no ACK yet. -/
def FirstAck (worker : worker_thread_t) (request : sip_message_t) : Prop :=
  ∀ transaction t opened, transaction_for worker request = some transaction →
    worker.transactions.heap.cells transaction = some t → t.message = some opened →
    opened.contents.method_type = .INVITE → request.method_type = .ACK →
    is_different request opened.contents = ok true → t.ack_message = none

/-- A packet that is no ACK for an INVITE whose transaction has an ACK already. -/
def NoSecondAck (worker : worker_thread_t) : Packet → Prop
  | .PACKET_TYPE_INCOMING_SIP message => ∀ request, parse_message message.contents = ok (.ERROR_NONE, request) →
    FirstAck worker request
  | .PACKET_TYPE_DELETE_TRANSACTION _ => True

instance (worker : worker_thread_t) : DecidablePred (FirstAck worker) := fun request =>
  decidable_of_iff (∀ transaction ∈ transaction_for worker request,
    ∀ t ∈ worker.transactions.heap.cells transaction, ∀ opened ∈ t.message,
      opened.contents.method_type = .INVITE → request.method_type = .ACK →
        is_different request opened.contents = ok true → t.ack_message = none) (by
    constructor
    · exact fun h transaction t opened hfound hcell hholds => h transaction hfound t hcell opened hholds
    · exact fun h transaction hfound t hcell opened hholds => h transaction t opened hfound hcell hholds)

instance (worker : worker_thread_t) : DecidablePred (NoSecondAck worker)
  | .PACKET_TYPE_INCOMING_SIP message =>
    decidable_of_iff (∀ result ∈ (parse_message message.contents).toOption,
      result.1 = .ERROR_NONE → FirstAck worker result.2) (by
      constructor
      · exact fun h request hparse => h (.ERROR_NONE, request) (by rw [hparse]; rfl) rfl
      · rintro h ⟨err, request⟩ hresult rfl
        exact h request (eq_ok_of_toOption hresult))
  | .PACKET_TYPE_DELETE_TRANSACTION _ => isTrue trivial

/-- How often a worker holds a message or has freed it. -/
def owned (worker : worker_thread_t) (freed : List Nat) (a : Nat) : Nat :=
  (held_messages worker).count a + freed.count a

/-- A record takes the place of another. -/
private theorem held_set {worker after : worker_thread_t} {transaction : Nat} {t t' : sip_transaction_t}
    (hworker : WellFormed worker) (hcell : worker.transactions.heap.cells transaction = some t)
    (hafter : after.transactions = worker.transactions.set transaction t') (a : Nat) :
    (held_messages after).count a + (messages_of t).count a =
      (held_messages worker).count a + (messages_of t').count a := by
  have hbefore := ((hworker.transactions.view_remove (f := messages_of) hcell).flatten).count_eq a
  have hset := ((hworker.transactions.view_set (f := messages_of) (w := t') hcell).flatten).count_eq a
  rw [List.flatten_cons, List.count_append] at hbefore hset
  rw [held_messages, hafter, held_messages]
  omega

/-- A request is held by a transaction or freed. -/
private theorem Handled.holds_or_frees {m m' : Machine} {message : Owned sip_message_t} (h : Handled m message m')
    (hworker : WellFormed m.worker) (hfirst : FirstAck m.worker message.contents) (a : Nat) :
    owned m'.worker m'.freed a = owned m.worker m.freed a + [message.address].count a := by
  have hfreed : owned m.worker (m.freed ++ [message.address]) a =
      owned m.worker m.freed a + [message.address].count a := by
    rw [owned, List.count_append, owned, Nat.add_assoc]
  cases h with
  | unallocated _ _ _ hm =>
    subst hm
    exact hfreed
  | @opened t sends adds _ _ hopened =>
    obtain ⟨contents, hholds, -⟩ := hopened.opened.message
    have hmessages : messages_of t = [message.address] := by
      rw [messages_of, hholds, hopened.opened.ack_message]
      rfl
    have hview := hworker.transactions.view_push (f := messages_of) t
    rw [owned, held_messages, hopened.transactions, hview, List.flatten_cons, hmessages, List.count_append,
      hopened.conversed.freed, owned, held_messages]
    change _ + m.freed.count a = _
    omega
  | @known transaction t opened hfound hcell hholds hknown =>
    cases hknown with
    | dropped _ _ hm =>
      subst hm
      exact hfreed
    | resent _ _ _ hm =>
      subst hm
      exact hfreed
    | @rewritten output _ _ _ _ hconversed _ _ hm =>
      have hset := held_set hworker hcell hconversed.transactions a
      have hsame : messages_of (answered t opened RESPONSE_CODE_500 output) = messages_of t := by
        rw [messages_of, messages_of, hholds]
        rfl
      rw [hsame] at hset
      rw [hm, owned, owned, List.count_append]
      change (held_messages m'.worker).count a + _ = _ at hset
      omega
    | acked hdifferent hinvite hack hconversed =>
      have hset := held_set hworker hcell hconversed.transactions a
      have hnone := hfirst transaction t opened hfound hcell hholds hinvite hack hdifferent
      simp only [messages_of, hnone, List.count_append, Option.map_some, Option.map_none, Option.toList_some,
        Option.toList_none, List.count_nil] at hset
      rw [owned, owned, hconversed.freed]
      omega

private theorem Deleted.holds_or_frees {m m' : Machine} {event : transaction_delete_t} (h : Deleted m event m')
    (hworker : WellFormed m.worker) (a : Nat) : owned m'.worker m'.freed a = owned m.worker m.freed a := by
  cases h with
  | missing _ hm => rw [hm]
  | removed _ hcell hdeletion =>
    have hview := ((hdeletion.removed.view_perm messages_of (fun _ => rfl) hworker hcell).flatten).count_eq a
    rw [List.flatten_cons, List.count_append] at hview
    rw [owned, owned, held_messages, held_messages, hdeletion.freed, List.count_append]
    omega

/-- A packet that is a message is held by a transaction or freed. -/
theorem Processed.holds_or_frees {m m' : Machine} {packet : Packet} (h : Processed m packet m')
    (hworker : WellFormed m.worker) (hsingle : NoSecondAck m.worker packet) (a : Nat) :
    owned m'.worker m'.freed a = owned m.worker m.freed a + (address_of packet).toList.count a := by
  cases h with
  | dropped => rw [owned, Machine.cleanup_sip_message, List.count_append, owned, Nat.add_assoc]; rfl
  | request hparse _ hhandled => exact hhandled.holds_or_frees hworker (hsingle _ hparse) a
  | delete hdeleted => exact hdeleted.holds_or_frees hworker a

end mock_uas.sip_server
