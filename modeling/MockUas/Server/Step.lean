import MockUas.Server.DeleteOutcome
import MockUas.Server.Loop
import MockUas.Server.RequestOutcome

open clib
open mock_uas.sip_message
open mock_uas.sip_utils

namespace mock_uas.sip_server

namespace Run

/-- What one step of a worker does. -/
inductive Stepped (run : Run) : Input → Run → Prop where
  /-- A datagram that is dropped by the dispatcher, by the parser or as a response. -/
  | unhandled {datagram : Datagram} {client_addr : sockaddr_in} {address : Nat} {env : Environment}
    (freed : List Nat) (hrejected : ∀ message, ¬ Accepted datagram client_addr message) :
    Stepped run (.incoming datagram client_addr address env) { run with freed := run.freed ++ freed }
  | response {message : Owned sip_message_t} {env : Environment} (freed : List Nat) :
    Stepped run (.response message env) { run with freed := run.freed ++ freed }
  | request {datagram : Datagram} {client_addr : sockaddr_in} {address : Nat} {env : Environment}
    {message : sip_message_t} {m' : Machine} (haccepted : Accepted datagram client_addr message)
    (hhandled : Handled (run.start env) ⟨address, message⟩ m') :
    Stepped run (.incoming datagram client_addr address env) (run.finish m')
  | delete {event : transaction_delete_t} {env : Environment} {m' : Machine}
    (hdeleted : Deleted (run.start env) event m') :
    Stepped run (.delete event env) ({ run with pending := run.pending.erase event }.finish m')

end Run

theorem finish_cleanup (run : Run) (env : Environment) (message : Owned sip_message_t) :
    run.finish ((run.start env).cleanup_sip_message (some message)) =
      { run with freed := run.freed ++ [message.address] } := by
  simp [Run.finish, Run.start, Machine.cleanup_sip_message, armed]

/-- What a worker makes of a datagram whose request the parser accepts. -/
theorem step_accepted {datagram : Datagram} {client_addr : sockaddr_in} {message : sip_message_t}
    (h : Accepted datagram client_addr message) (run : Run) (address : Nat) (env : Environment) :
    run.step (.incoming datagram client_addr address env) = (do
      let m ← process_sip_request (run.start env) ⟨address, message⟩
      ok (run.finish m)) := by
  obtain ⟨handed, hhanded, hparse, hrequest⟩ := h
  simp only [Run.step, hhanded, bind_ok, process_packet, hparse, ne_eq, not_true_eq_false, if_false, hrequest, if_true]

/-- A request with a branch no transaction has is processed. -/
theorem step_new_branch {run : Run} {datagram : Datagram} {client_addr : sockaddr_in} {message : sip_message_t}
    (hworker : WellFormed run.worker) (haccepted : Accepted datagram client_addr message)
    (hnew : transaction_for run.worker message = none) (address : Nat) (env : Environment) :
    ∃ m', run.step (.incoming datagram client_addr address env) = ok (run.finish m') ∧
      Handled (run.start env) ⟨address, message⟩ m' := by
  obtain ⟨m', hprocess, hhandled⟩ := process_new_branch_spec (run.start env) ⟨address, message⟩ hworker
    haccepted.request.1 hnew
  exact ⟨m', by rw [step_accepted haccepted, hprocess, bind_ok], hhandled⟩

/-- A response is dropped, whichever transaction it belongs to. -/
private theorem process_sip_response_spec {m : Machine} (hworker : WellFormed m.worker)
    (message : Owned sip_message_t) :
    process_sip_response m message = error .outOfBounds ∨
      process_sip_response m message = ok (m.cleanup_sip_message (some message)) := by
  have hfind : ∀ branch, ∃ found, find_transaction_by_id m.worker.transactions branch
      message.contents.branch_length = ok found := by
    rintro (_ | branch)
    · exact ⟨none, rfl⟩
    · by_cases hlength : message.contents.branch_length = 0
      · exact ⟨none, by simp [find_transaction_by_id, hlength]⟩
      · exact ⟨_, find_transaction_by_id_eq hworker.transactions branch hlength⟩
  rw [process_sip_response]
  cases hbranch : textArg message.contents.buffer message.contents.branch with
  | error fault =>
    left
    cases hpointer : message.contents.branch with
    | none => simp [textArg, hpointer] at hbranch
    | some i =>
      simp only [textArg, hpointer, text] at hbranch
      split at hbranch
      · cases hbranch
      · simp only [bind_error, Except.error.injEq] at hbranch
        rw [hbranch, bind_error]
  | ok branch =>
    obtain ⟨found, hfound⟩ := hfind branch
    right
    rw [bind_ok, hfound, bind_ok]
    cases found <;> rfl

/-- What a worker does with a packet it has dequeued. -/
inductive Processed (m : Machine) : Packet → Machine → Prop where
  /-- A datagram that the parser rejects, or a response. -/
  | dropped {message : Owned sip_message_t}
    (hrejected : ∀ parsed, parse_message message.contents = ok (.ERROR_NONE, parsed) → parsed.is_request = false) :
    Processed m (.PACKET_TYPE_INCOMING_SIP message) (m.cleanup_sip_message (some message))
  | request {message : Owned sip_message_t} {parsed : sip_message_t} {m' : Machine}
    (hparse : parse_message message.contents = ok (.ERROR_NONE, parsed)) (hrequest : parsed.is_request = true)
    (hhandled : Handled m ⟨message.address, parsed⟩ m') : Processed m (.PACKET_TYPE_INCOMING_SIP message) m'
  | delete {event : transaction_delete_t} {m' : Machine} (hdeleted : Deleted m event m') :
    Processed m (.PACKET_TYPE_DELETE_TRANSACTION event) m'

private theorem incoming_ends {m : Machine} (hworker : WellFormed m.worker) {datagram : Datagram}
    {client_addr : sockaddr_in} (message : Owned sip_message_t)
    (hgiven : dispatched datagram client_addr = ok (some message.contents)) :
    Ends (process_packet m (.PACKET_TYPE_INCOMING_SIP message))
      (Dangling m.worker ∨ process_packet m (.PACKET_TYPE_INCOMING_SIP message) = error .outOfBounds)
      (Processed m (.PACKET_TYPE_INCOMING_SIP message)) := by
  have hhanded : { message.contents with call_id := none, call_id_length := 0 } = received datagram client_addr := by
    rw [dispatched_eq, Except.ok.injEq] at hgiven
    obtain ⟨call_id, -, hcontents⟩ := Option.map_eq_some_iff.mp hgiven
    rw [← hcontents]
    rfl
  have houtcome := parse_message_outcome message.contents hhanded
  simp only [process_packet]
  cases hparse : parse_message message.contents with
  | error fault =>
    rw [hparse] at houtcome
    rw [houtcome.1]
    exact .inr rfl
  | ok result =>
    obtain ⟨err, parsed⟩ := result
    simp only [bind_ok]
    by_cases herr : err = .ERROR_NONE
    · subst herr
      rw [if_neg (by simp)]
      cases hrequest : parsed.is_request with
      | true =>
        have haccepted : Accepted datagram client_addr parsed := ⟨message.contents, hgiven, hparse, hrequest⟩
        have hspec := process_sip_request_spec m ⟨message.address, parsed⟩ hworker haccepted.request.1
        rw [if_pos rfl]
        cases hrun : process_sip_request m ⟨message.address, parsed⟩ with
        | error fault => exact .inl (hspec.of_eq_error hrun)
        | ok m' => exact .request hparse hrequest (hspec.of_eq_ok hrun)
      | false =>
        rw [if_neg Bool.false_ne_true]
        rcases process_sip_response_spec hworker ⟨message.address, parsed⟩ with hfault | hdropped
        · rw [hfault]
          exact .inr rfl
        · rw [hdropped]
          refine .dropped fun other hother => ?_
          rw [hparse] at hother
          cases hother
          exact hrequest
    · rw [if_pos herr]
      refine .dropped fun other hother => absurd ?_ herr
      rw [hparse] at hother
      cases hother
      rfl

/-- A packet is processed as its outcome says, unless the parser leaves the buffer or a
dialog that was freed is met. -/
theorem process_packet_ends {m : Machine} (hworker : WellFormed m.worker) (packet : Packet)
    (hgiven : ∀ message, packet = .PACKET_TYPE_INCOMING_SIP message →
      ∃ datagram client_addr, dispatched datagram client_addr = ok (some message.contents)) :
    Ends (process_packet m packet) (Dangling m.worker ∨ process_packet m packet = error .outOfBounds)
      (Processed m packet) := by
  cases packet with
  | PACKET_TYPE_INCOMING_SIP message =>
    obtain ⟨datagram, client_addr, hdispatched⟩ := hgiven message rfl
    exact incoming_ends hworker message hdispatched
  | PACKET_TYPE_DELETE_TRANSACTION event =>
    have hspec := delete_transaction_spec hworker event
    simp only [process_packet]
    cases hrun : delete_transaction m event with
    | error fault => exact .inl (hspec.of_eq_error hrun)
    | ok m' => exact .delete (hspec.of_eq_ok hrun)

theorem Processed.stepped {run : Run} {datagram : Datagram} {client_addr : sockaddr_in}
    {message : Owned sip_message_t} {env : Environment} {m' : Machine}
    (h : Processed (run.start env) (.PACKET_TYPE_INCOMING_SIP message) m')
    (hgiven : dispatched datagram client_addr = ok (some message.contents)) :
    Run.Stepped run (.incoming datagram client_addr message.address env) (run.finish m') := by
  have hparsed : ∀ accepted, Accepted datagram client_addr accepted →
      parse_message message.contents = ok (.ERROR_NONE, accepted) ∧ accepted.is_request = true := by
    rintro accepted ⟨handed, hhanded, hparse, hrequest⟩
    rw [hgiven, Except.ok.injEq, Option.some.injEq] at hhanded
    exact ⟨hhanded ▸ hparse, hrequest⟩
  cases h with
  | dropped hrejected =>
    rw [finish_cleanup]
    refine .unhandled _ fun accepted haccepted => ?_
    obtain ⟨hparse, hrequest⟩ := hparsed accepted haccepted
    rw [hrejected accepted hparse] at hrequest
    cases hrequest
  | request hparse hrequest hhandled => exact .request ⟨message.contents, hgiven, hparse, hrequest⟩ hhandled

/-- Every step either does what its outcome says, or faults in the parser, or meets a
dialog that was freed. -/
theorem step_ends {run : Run} (hworker : WellFormed run.worker) (input : Input) :
    Ends (run.step input) (Dangling run.worker ∨ run.step input = error .outOfBounds)
      (Run.Stepped run input) := by
  cases input with
  | incoming datagram client_addr address env =>
    simp only [Run.step]
    rw [dispatched_eq, bind_ok]
    cases hvalue : header_value (buffered datagram) HEADER_NAME_CALL_ID with
    | none =>
      have hrejected : ∀ message, ¬ Accepted datagram client_addr message := by
        rintro message ⟨handed, hhanded, -⟩
        rw [dispatched_eq, hvalue] at hhanded
        cases hhanded
      have hstepped : Run.Stepped run (.incoming datagram client_addr address env) _ := .unhandled [] hrejected
      rwa [List.append_nil] at hstepped
    | some call_id =>
      obtain ⟨handed, hhanded⟩ : ∃ handed, handed = { received datagram client_addr with
        call_id := some call_id.1, call_id_length := call_id.2 } := ⟨_, rfl⟩
      have hdispatched : dispatched datagram client_addr = ok (some handed) := by
        rw [dispatched_eq, hvalue, hhanded]
        rfl
      simp only [Option.map_some, ← hhanded]
      have hends := incoming_ends (m := run.start env) hworker ⟨address, handed⟩ hdispatched
      cases hrun : process_packet (run.start env) (.PACKET_TYPE_INCOMING_SIP ⟨address, handed⟩) with
      | error fault =>
        refine (hends.of_eq_error hrun).imp_right fun hfault => ?_
        rw [hrun] at hfault
        cases hfault
        rfl
      | ok m' => exact (hends.of_eq_ok hrun).stepped hdispatched
  | response message env =>
    simp only [Run.step]
    rcases process_sip_response_spec (m := run.start env) hworker message with hfault | hdropped
    · rw [hfault]
      exact .inr rfl
    · rw [hdropped, bind_ok, finish_cleanup]
      exact .response _
  | delete event env =>
    have hspec := delete_transaction_spec (m := run.start env) hworker event
    simp only [Run.step, process_packet]
    cases hrun : delete_transaction (run.start env) event with
    | error fault => exact .inl (hspec.of_eq_error hrun)
    | ok m' => exact .delete (hspec.of_eq_ok hrun)

end mock_uas.sip_server
