import MockUas.Server.Uniqueness

open clib
open mock_uas.sip_message
open mock_uas.sip_utils

namespace mock_uas.sip_server

/-- A message that goes when the transaction does. -/
def HasMessage (t : sip_transaction_t) (message : Owned sip_message_t) : Prop :=
  t.message = some message ∨ t.ack_message = some message

/-- The request of a step, if it has one, has such a Call-ID. -/
def Addressed (P : Bytes → Prop) (input : Input) : Prop :=
  ∀ message, request_of input = some message → P (call_id_value message)

/-- What the server keeps of its requests has such Call-IDs: every message of a transaction, and
every call that an INVITE has begun. -/
structure KeepsCallIds (P : Bytes → Prop) (l : Ledger) : Prop where
  messages : ∀ a t message, l.run.worker.transactions.heap.cells a = some t → HasMessage t message →
    P (call_id_value message.contents)
  calls : ∀ a c, l.run.worker.calls.heap.cells a = some c → P (l.call_ids a)

/-- The Call-ID the dispatcher finds is that of the request the parser accepts. -/
theorem call_id_found_of_accepted {datagram : Datagram} {client_addr : sockaddr_in} {message : sip_message_t}
    (h : Accepted datagram client_addr message) :
    (header_value (buffered datagram) HEADER_NAME_CALL_ID).map (fun call_id =>
      ((buffered datagram).drop call_id.1).take call_id.2) = some (call_id_value message) := by
  obtain ⟨hbuffer, hrecorded⟩ := h.recorded
  obtain ⟨value, hvalue, hheader⟩ := hrecorded.call_id
  obtain ⟨i, hi, -, hlength, -⟩ := h.request.1.call_id
  obtain rfl := Option.some.inj (hvalue.symm.trans hi)
  rw [hbuffer] at hlength
  have hcstr : (cstr (buffered datagram) value).take message.call_id_length =
      ((buffered datagram).drop value).take message.call_id_length := by
    have hprefix : cstr (buffered datagram) value <+: (buffered datagram).drop value := List.takeWhile_prefix _
    rw [List.prefix_iff_eq_take.mp hprefix, List.take_take, Nat.min_eq_left hlength]
  rw [hheader, Option.map_some, call_id_value, hvalue, hbuffer]
  exact congrArg some hcstr.symm

theorem SameRequest.call_id_value_eq {answered original : sip_message_t} (h : SameRequest answered original) :
    call_id_value answered = call_id_value original := by
  have hsame := h.same
  rw [← hsame]
  rfl

/-- Requests only get into transactions. -/
private theorem Run.Stepped.keeps {run run' : Run} {input : Input} (h : Run.Stepped run input run') {a : Nat}
    {t' : sip_transaction_t} {message' : Owned sip_message_t}
    (ht' : run'.worker.transactions.heap.cells a = some t') (hkeeps : HasMessage t' message') :
    (∃ t message, run.worker.transactions.heap.cells a = some t ∧ HasMessage t message ∧
        call_id_value message.contents = call_id_value message'.contents) ∨
      ∃ message, request_of input = some message ∧ call_id_value message = call_id_value message'.contents := by
  have hold : ∀ {t}, run.worker.transactions.heap.cells a = some t → HasMessage t message' →
      (∃ t message, run.worker.transactions.heap.cells a = some t ∧ HasMessage t message ∧
        call_id_value message.contents = call_id_value message'.contents) ∨
      ∃ message, request_of input = some message ∧ call_id_value message = call_id_value message'.contents :=
    fun ht hkeeps => .inl ⟨_, message', ht, hkeeps, rfl⟩
  cases h with
  | unhandled => exact hold ht' hkeeps
  | response => exact hold ht' hkeeps
  | @request datagram client_addr address env message m' haccepted hhandled =>
    have hnew : call_id_value message = call_id_value message'.contents →
        ∃ accepted, request_of (.incoming datagram client_addr address env) = some accepted ∧
          call_id_value accepted = call_id_value message'.contents :=
      fun hsame => ⟨message, accepted_iff.mp haccepted, hsame⟩
    cases hhandled with
    | unallocated _ _ _ hm =>
      subst hm
      exact hold ht' hkeeps
    | @opened t _ _ _ _ hopened =>
      rw [Run.finish, hopened.transactions, Store.heap_push, Heap.cells_alloc] at ht'
      split at ht'
      · obtain rfl := Option.some.inj ht'
        obtain ⟨contents, hmessage, hsame⟩ := hopened.opened.message
        refine .inr (hnew ?_)
        rcases hkeeps with hholds | hholds
        · obtain rfl := Option.some.inj (hmessage.symm.trans hholds)
          exact hsame.call_id_value_eq.symm
        · cases hopened.opened.ack_message.symm.trans hholds
      · exact hold ht' hkeeps
    | @known transaction t opened _ hcell hholds hknown =>
      have hcases : ∀ {u}, (run.worker.transactions.set transaction u).heap.cells a = some t' →
          (a = transaction ∧ t' = u) ∨ run.worker.transactions.heap.cells a = some t' := by
        intro u hu
        rw [Store.heap_set, Heap.cells_set (show run.worker.transactions.heap.cells transaction = some t from hcell)] at hu
        split at hu
        · rename_i ha
          exact .inl ⟨ha, (Option.some.inj hu).symm⟩
        · exact .inr hu
      cases hknown with
      | dropped _ _ hm =>
        subst hm
        exact hold ht' hkeeps
      | resent _ _ _ hm =>
        subst hm
        exact hold ht' hkeeps
      | rewritten _ _ _ hconversed =>
        rw [Run.finish, show m'.worker.transactions = _ from hconversed.transactions] at ht'
        rcases hcases ht' with ⟨rfl, rfl⟩ | ht
        · rcases hkeeps with hmessage | hmessage
          · obtain rfl := Option.some.inj hmessage
            exact .inl ⟨t, opened, hcell, .inl hholds, rfl⟩
          · exact hold hcell (.inr hmessage)
        · exact hold ht hkeeps
      | acked _ _ _ hconversed =>
        rw [Run.finish, hconversed.transactions] at ht'
        rcases hcases ht' with ⟨rfl, rfl⟩ | ht
        · rcases hkeeps with hmessage | hmessage
          · exact hold hcell (.inl hmessage)
          · obtain rfl := Option.some.inj hmessage
            exact .inr (hnew rfl)
        · exact hold ht hkeeps
  | delete hdeleted =>
    cases hdeleted with
    | missing _ hm =>
      subst hm
      exact hold ht' hkeeps
    | removed _ _ hdeletion =>
      obtain ⟨slots, hcells⟩ := hdeletion.removed.cells
      rw [Run.finish, hcells] at ht'
      split at ht'
      · cases ht'
      · obtain ⟨t, ht, rfl⟩ := Option.map_eq_some_iff.mp ht'
        refine hold ht ?_
        rw [disband] at hkeeps
        split at hkeeps
        · exact hkeeps
        · exact hkeeps

private theorem KeepsCallIds.step {P : Bytes → Prop} {l l' : Ledger} {input : Input} (h : KeepsCallIds P l)
    (hworker : WellFormed l.run.worker) (haddressed : Addressed P input) (hstep : l.step input = ok l') :
    KeepsCallIds P l' := by
  have hrun := (Ledger.step_eq_ok hstep).1
  have hstepped := (step_ends hworker input).of_eq_ok hrun
  constructor
  · intro a t' message' ht' hkeeps
    rcases hstepped.keeps ht' hkeeps with ⟨t, message, ht, hbefore, hsame⟩ | ⟨message, hrequest, hsame⟩
    · exact hsame ▸ h.messages a t message ht hbefore
    · exact hsame ▸ haddressed message hrequest
  · intro a c' hc'
    rcases hstepped.call_comes hworker hc' with ⟨c, hc⟩ | rfl
    · rw [Ledger.call_ids_eq hstep (Heap.lt_next_of_cells hc).ne]
      exact h.calls a c hc
    · obtain ⟨datagram, client_addr, address, env, message, rfl, haccepted, -⟩ :=
        hstepped.begins_call hworker hrun (by rw [hc']; exact Option.some_ne_none _)
      have hrequest := accepted_iff.mp haccepted
      rw [(Ledger.entries_of_request hstep hrequest).2.2]
      exact haddressed message hrequest

/-- A worker whose requests all have such Call-IDs keeps no others. -/
theorem call_ids_kept {P : Bytes → Prop} {start run : Run} {inputs : List Input} (hinitial : start.Initial)
    (h : program.Trace (fun _ _ => True) start inputs run) (haddressed : ∀ input ∈ inputs, Addressed P input) :
    ∃ l, chronicle.Trace (fun _ _ => True) (.blank start) inputs l ∧ l.run = run ∧ KeepsCallIds P l := by
  obtain ⟨l, hl, hrun⟩ := Trace.chronicled (h.restrict haddressed)
  suffices hall : WellFormed l.run.worker ∧ KeepsCallIds P l from
    ⟨l, hl.mono fun _ _ _ => trivial, hrun, hall.2⟩
  refine hl.path.preserves (P := fun l => WellFormed l.run.worker ∧ KeepsCallIds P l) ?_ ?_
  · rintro l input l' - ⟨-, haddressed⟩ hstep ⟨hworker, hkeeps⟩
    have hrun := (Ledger.step_eq_ok hstep).1
    exact ⟨((step_ends hworker input).of_eq_ok hrun).wellFormed hworker, hkeeps.step hworker haddressed hstep⟩
  · refine ⟨hinitial.wellFormed, fun a t message ht => ?_, fun a c hc => ?_⟩
    · rw [show (Ledger.blank start).run.worker.transactions = .empty from hinitial.transactions] at ht
      cases ht
    · rw [show (Ledger.blank start).run.worker.calls = .empty from hinitial.calls] at hc
      cases hc

end mock_uas.sip_server
