import MockUas.Server.Retransmission

open clib
open mock_uas.sip_message
open mock_uas.sip_utils

namespace mock_uas.sip_server

/-- A request that is not told from the one that opened the transaction its branch leads
to. -/
def Repeats (worker : worker_thread_t) (message : sip_message_t) : Prop :=
  ∃ transaction t opened, transaction_for worker message = some transaction ∧
    worker.transactions.heap.cells transaction = some t ∧ t.message = some opened ∧
    is_different message opened.contents = ok false

/-- A step that takes a request returns and calls `sendto` for nothing, whatever the system
calls answer, as long as there is memory. -/
def Unanswered (run : Run) (datagram : Datagram) (client_addr : sockaddr_in) : Prop :=
  ∀ (address : Nat) (env : Environment), (∀ n, env.malloc n = true) →
    ∃ run', run.step (.incoming datagram client_addr address env) = ok run' ∧ run'.sent = run.sent

/-- What a new ACK sends. -/
private theorem Fate.silent {before after : worker_thread_t} {original : Owned sip_message_t} {transaction : Nat}
    {t : sip_transaction_t} {sends : List Sent} (h : Fate before original transaction t after sends)
    (hack : original.contents.method_type = .ACK) : sends = [] := by
  cases h with
  | reinvite _ _ _ _ _ _ _ _ _ hsends => exact hsends
  | acked _ _ _ _ _ _ _ hsends => exact hsends
  | refused _ hnot => exact absurd hack hnot
  | hung_up hmethod => cases hack.symm.trans hmethod
  | failed_alone hmethod => cases hack.symm.trans hmethod
  | failed_in_dialog hmethod => cases hack.symm.trans hmethod
  | failed_in_call hmethod => cases hack.symm.trans hmethod
  | established hmethod => cases hack.symm.trans hmethod

/-- An ACK that repeats nothing sends nothing. -/
private theorem Handled.silent {m m' : Machine} {message : Owned sip_message_t} (h : Handled m message m')
    (hmalloc : m.env.malloc 0 = true) (hack : message.contents.method_type = .ACK)
    (hrepeats : ¬ Repeats m.worker message.contents) : m'.sent = m.sent := by
  cases h with
  | unallocated _ hfails =>
    rw [hmalloc] at hfails
    cases hfails
  | opened _ _ hopened =>
    have hsent : m'.sent = m.sent ++ _ := hopened.conversed.sent
    rw [hsent, hopened.fate.silent hack, List.append_nil]
  | known hfound hcell hholds hknown =>
    cases hknown with
    | dropped _ _ hm => rw [hm, Machine.cleanup_sip_message]
    | resent hsame => exact absurd ⟨_, _, _, hfound, hcell, hholds, hsame⟩ hrepeats
    | rewritten hsame => exact absurd ⟨_, _, _, hfound, hcell, hholds, hsame⟩ hrepeats
    | acked _ _ _ hconversed => rw [hconversed.sent, List.append_nil]

/-- A repeated request is answered. -/
private theorem Handled.answers {m m' : Machine} {message : Owned sip_message_t} (h : Handled m message m')
    (hrepeats : Repeats m.worker message.contents) : m'.sent ≠ m.sent := by
  obtain ⟨transaction, t, opened, hfound, hcell, hholds, hsame⟩ := hrepeats
  cases h with
  | unallocated hnew => cases hnew.symm.trans hfound
  | opened hnew => cases hnew.symm.trans hfound
  | known hfound' hcell' hholds' hknown =>
    obtain rfl := Option.some.inj (hfound'.symm.trans hfound)
    obtain rfl := Option.some.inj (hcell'.symm.trans hcell)
    obtain rfl := Option.some.inj (hholds'.symm.trans hholds)
    cases hknown with
    | dropped hdifferent => cases hdifferent.symm.trans hsame
    | resent _ _ _ hm =>
      rw [hm]
      simp [Machine.cleanup_sip_message, sending]
    | rewritten _ _ _ hconversed =>
      rw [show m'.sent = m.sent ++ _ from hconversed.sent]
      simp
    | acked hdifferent => cases hdifferent.symm.trans hsame

/-- A step that takes an ACK sends nothing, exactly when the ACK does not repeat the request
that opened the transaction with its branch. -/
theorem acks_unanswered_iff (run : Run) (h : program.Reachable run) (datagram : Datagram) (client_addr : sockaddr_in)
    (message : sip_message_t) (haccepted : Accepted datagram client_addr message) (hack : message.method_type = .ACK) :
    Unanswered run datagram client_addr ↔ ¬ Repeats run.worker message := by
  have hworker := Reachable.wellFormed h
  have hrequest := haccepted.request.1
  constructor
  · intro hunanswered hrepeats
    obtain ⟨run', hstep, hsent⟩ := hunanswered 0 .obliging fun _ => rfl
    rw [step_accepted haccepted] at hstep
    obtain ⟨m', hprocess, hfinish⟩ := bind_eq_ok_iff.mp hstep
    obtain rfl := Except.ok.inj hfinish
    have hhandled := (process_sip_request_spec (run.start .obliging) ⟨0, message⟩ hworker hrequest).of_eq_ok hprocess
    exact hhandled.answers hrepeats (List.append_right_eq_self.mp hsent)
  · intro hrepeats address env hmalloc
    obtain ⟨m', hprocess, hhandled⟩ : ∃ m', process_sip_request (run.start env) ⟨address, message⟩ = ok m' ∧
        Handled (run.start env) ⟨address, message⟩ m' := by
      cases hfound : transaction_for run.worker message with
      | none => exact process_new_branch_spec (run.start env) ⟨address, message⟩ hworker hrequest hfound
      | some transaction =>
        obtain ⟨-, t, hcell, -⟩ := Store.first_eq_some hfound
        obtain ⟨opened, hholds, hopened⟩ := (hworker.held hcell).message
        obtain ⟨different, hdifferent⟩ := is_different_succeeds hrequest hopened
        cases different with
        | true =>
          exact process_told_apart_spec (run.start env) ⟨address, message⟩ hworker hrequest hfound hcell hholds
            hdifferent
        | false => exact absurd ⟨_, _, _, hfound, hcell, hholds, hdifferent⟩ hrepeats
    refine ⟨run.finish m', by rw [step_accepted haccepted, hprocess, bind_ok], ?_⟩
    have hsent : m'.sent = [] := hhandled.silent (hmalloc 0) hack hrepeats
    rw [Run.finish, hsent, List.append_nil]

/-- An answered INVITE, and what its ACK has in common with it. -/
private theorem first_ack_facts :
    (program.follow Run.started [arrival first_invite .obliging]).bind (fun run : Run =>
      (accepted_message first_ack ⟨2, 5060, 1⟩).bind fun message =>
        (run.worker.transactions.heap.cells 0).bind fun t => t.message.map fun opened =>
          (message.method_type, transaction_for run.worker message, opened.contents.method_type,
            is_different message opened.contents)) = some (.ACK, some 0, .INVITE, ok true) := by
  decide +kernel

/-- The ACK for an INVITE that a worker holds is not answered. -/
theorem first_ack_unanswered :
    ∃ run message, program.Reachable run ∧ Accepted first_ack ⟨2, 5060, 1⟩ message ∧
      transaction_for run.worker message = some 0 ∧ Unanswered run first_ack ⟨2, 5060, 1⟩ := by
  obtain ⟨run, hrun, hfacts⟩ := Option.bind_eq_some_iff.mp first_ack_facts
  obtain ⟨message, hmessage, hfacts⟩ := Option.bind_eq_some_iff.mp hfacts
  obtain ⟨t, ht, hfacts⟩ := Option.bind_eq_some_iff.mp hfacts
  obtain ⟨opened, hopened, hfacts⟩ := Option.map_eq_some_iff.mp hfacts
  simp only [Prod.mk.injEq] at hfacts
  obtain ⟨hmethod, hfound, -, hdifferent⟩ := hfacts
  have hreach := reachable_of_follow hrun
  have haccepted := accepted_iff.mpr hmessage
  refine ⟨run, message, hreach, haccepted, hfound, (acks_unanswered_iff run hreach first_ack ⟨2, 5060, 1⟩ message
    haccepted hmethod).mpr ?_⟩
  rintro ⟨a, u, opened', hfound', hu, hopened', hsame⟩
  rw [hfound, Option.some.injEq] at hfound'
  subst hfound'
  rw [ht, Option.some.injEq] at hu
  subst hu
  rw [hopened, Option.some.injEq] at hopened'
  subst hopened'
  cases hdifferent.symm.trans hsame

/-- An ACK with a branch of its own, in no dialog. -/
def stray_ack : Datagram where
  bytes := request_text (ascii "ACK") (ascii "z9hG4bK2") (ascii "<sip:b@h>")
  fits := by decide +kernel

private theorem stray_ack_facts :
    (accepted_message stray_ack ⟨2, 5060, 1⟩).map (·.method_type) = some .ACK := by
  decide +kernel

private theorem repeated_ack_run :
    ((program.follow Run.started [arrival stray_ack .obliging]).map fun run : Run =>
      (run.sent.map (·.status_code),
        (run.step (arrival stray_ack .obliging)).toOption.map fun run' : Run => run'.sent.map (·.status_code))) =
      some ([], some [500]) := by
  decide +kernel

/-- A second copy of an ACK is answered with a 500. -/
theorem repeated_ack_answered :
    ∃ run message, program.Reachable run ∧ Accepted stray_ack ⟨2, 5060, 1⟩ message ∧ message.method_type = .ACK ∧
      ¬ Unanswered run stray_ack ⟨2, 5060, 1⟩ := by
  obtain ⟨message, hmessage, hmethod⟩ := Option.map_eq_some_iff.mp stray_ack_facts
  obtain ⟨run, hrun, hfacts⟩ := Option.map_eq_some_iff.mp repeated_ack_run
  obtain ⟨hsilent, hanswered⟩ := Prod.mk.injEq .. ▸ hfacts
  refine ⟨run, message, reachable_of_follow hrun, accepted_iff.mpr hmessage, hmethod, fun hunanswered => ?_⟩
  obtain ⟨run', hstep, hsent⟩ := hunanswered 0 .obliging fun _ => rfl
  rw [arrival, hstep] at hanswered
  have hcodes : run'.sent.map (·.status_code) = [500] := Option.some.inj hanswered
  rw [hsent, hsilent] at hcodes
  cases hcodes

end mock_uas.sip_server
