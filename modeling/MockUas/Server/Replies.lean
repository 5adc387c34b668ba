import MockUas.Clib.Trace
import MockUas.Server.Step
import MockUas.Server.WellFormed

open clib
open mock_uas.sip_message
open mock_uas.sip_utils

namespace mock_uas.sip_server

/-- A part of a step that works on the transaction of a request from one address: it tries to send
so many datagrams at most, all of them to that address. -/
structure Replying (client_addr : sockaddr_in) (transaction : Nat) (sent : List Sent) (attempts : Nat) (m : Machine) :
    Prop where
  request : ∀ t message, m.worker.transactions.heap.cells transaction = some t → t.message = some message →
    message.contents.client_addr = client_addr
  sent : ∃ sends, m.sent = sent ++ sends ∧ sends.length ≤ attempts ∧ ∀ s ∈ sends, s.client_addr = client_addr

namespace Replying

variable {client_addr : sockaddr_in} {transaction : Nat} {sent : List Sent} {n : Nat} {m m' : Machine}
  (h : Replying client_addr transaction sent n m)
include h

theorem le {k : Nat} (hle : n ≤ k) : Replying client_addr transaction sent k m := by
  obtain ⟨sends, hsent, hlength, haddr⟩ := h.sent
  exact ⟨h.request, sends, hsent, hlength.trans hle, haddr⟩

/-- A part of a step that leaves the transactions alone and sends nothing. -/
theorem frame (htransactions : m'.worker.transactions = m.worker.transactions) (hsent : m'.sent = m.sent) :
    Replying client_addr transaction sent n m' := by
  refine ⟨fun t message hcell => ?_, ?_⟩
  · rw [htransactions] at hcell
    exact h.request t message hcell
  · rw [hsent]
    exact h.sent

theorem set_transaction {t : sip_transaction_t} (t' : sip_transaction_t) (hread : m.transaction transaction = ok t)
    (hmessage : ∀ message', t'.message = some message' → ∃ message, t.message = some message ∧
      message'.contents.client_addr = message.contents.client_addr) :
    Replying client_addr transaction sent n (m.set_transaction transaction t') := by
  have hcell : m.worker.transactions.heap.cells transaction = some t := Heap.read_eq_ok_iff.mp hread
  refine ⟨fun u message' hu hholds => ?_, h.sent⟩
  obtain rfl := Option.some.inj ((Heap.cells_set_self hcell).symm.trans hu)
  obtain ⟨message, hheld, haddr⟩ := hmessage message' hholds
  rw [haddr]
  exact h.request t message hcell hheld

theorem send_message {purpose : Purpose} {message : Bytes} {message_length client_addr_len : Nat} {rc : Int}
    (hsend : send_message m purpose message message_length client_addr client_addr_len = (rc, m')) :
    Replying client_addr transaction sent (n + 1) m' := by
  rw [sip_server.send_message] at hsend
  split at hsend
  · obtain ⟨-, rfl⟩ := Prod.mk.inj hsend
    exact h.le (Nat.le_succ n)
  · obtain ⟨sends, hsent, hlength, haddr⟩ := h.sent
    obtain ⟨s, hs⟩ : ∃ s : Sent, s = { purpose with
      bytes := message.take message_length
      beyond := message_length - message.length
      client_addr := client_addr
      success := m.env.sendto 0 } := ⟨_, rfl⟩
    have hnew : s.client_addr = client_addr := by rw [hs]
    simp only [← hs] at hsend
    have hm' : m'.worker = m.worker ∧ m'.sent = m.sent ++ [s] := by
      split at hsend
      · obtain ⟨-, rfl⟩ := Prod.mk.inj hsend
        exact ⟨rfl, rfl⟩
      · obtain ⟨-, rfl⟩ := Prod.mk.inj hsend
        exact ⟨rfl, rfl⟩
    refine ⟨?_, sends ++ [s], ?_, ?_, fun r hr => ?_⟩
    · rw [hm'.1]
      exact h.request
    · rw [hm'.2, hsent, List.append_assoc]
    · rw [List.length_append, List.length_singleton]
      omega
    · rcases List.mem_append.mp hr with hr | hr
      · exact haddr r hr
      · rw [List.mem_singleton.mp hr, hnew]

/-- Every builder makes one attempt. -/
theorem send_response {status_code : Nat} {reason : Bytes} {rc : Int}
    (hrun : send_response_over_transaction m transaction status_code reason = ok (rc, m')) :
    Replying client_addr transaction sent (n + 1) m' := by
  rw [send_response_over_transaction] at hrun
  split at hrun
  · cases hrun
    exact h.le (Nat.le_succ n)
  · obtain ⟨t, hread, hrun⟩ := bind_eq_ok_iff.mp hrun
    split at hrun
    · cases hrun
      exact h.le (Nat.le_succ n)
    · rename_i message hholds
      obtain ⟨to_tag, -, hrun⟩ := bind_eq_ok_iff.mp hrun
      obtain ⟨output, -, hrun⟩ := bind_eq_ok_iff.mp hrun
      have haddr := h.request t message (Heap.read_eq_ok_iff.mp hread) hholds
      have hsend := Except.ok.inj hrun
      have hanswered := h.set_transaction { t with
        message := some { message with contents := with_response message.contents output }
        final_response_code := status_code } hread fun message' hmessage' => by
          obtain rfl := Option.some.inj hmessage'
          exact ⟨message, hholds, rfl⟩
      subst haddr
      exact hanswered.send_message hsend

theorem set_call_state {call : Nat} {state : sip_call_state_t} (hrun : set_call_state m call state = ok m') :
    Replying client_addr transaction sent n m' := by
  obtain ⟨c, -, hrun⟩ := bind_eq_ok_iff.mp hrun
  obtain rfl := Except.ok.inj hrun
  exact h.frame rfl rfl

theorem set_dialog_state {dialog : Nat} {state : sip_dialog_state_t} (hrun : set_dialog_state m dialog state = ok m') :
    Replying client_addr transaction sent n m' := by
  obtain ⟨d, -, hrun⟩ := bind_eq_ok_iff.mp hrun
  obtain rfl := Except.ok.inj hrun
  exact h.frame rfl rfl

theorem set_dialog_call {dialog call : Nat} (hrun : set_dialog_call m dialog call = ok m') :
    Replying client_addr transaction sent n m' := by
  obtain ⟨d, -, hrun⟩ := bind_eq_ok_iff.mp hrun
  obtain ⟨c, -, hrun⟩ := bind_eq_ok_iff.mp hrun
  obtain rfl := Except.ok.inj hrun
  exact h.frame rfl rfl

theorem set_transaction_dialog {dialog : Nat} (hrun : set_transaction_dialog m transaction dialog = ok m') :
    Replying client_addr transaction sent n m' := by
  obtain ⟨t, hread, hrun⟩ := bind_eq_ok_iff.mp hrun
  obtain ⟨d, -, hrun⟩ := bind_eq_ok_iff.mp hrun
  obtain rfl := Except.ok.inj hrun
  have hlinked := h.set_transaction { t with dialog := some dialog } hread fun message hholds => ⟨message, hholds, rfl⟩
  exact hlinked.frame rfl rfl

theorem set_transaction_state {state : sip_transaction_state_t}
    (hrun : set_transaction_state m transaction state = ok m') : Replying client_addr transaction sent n m' := by
  obtain ⟨t, hread, hrun⟩ := bind_eq_ok_iff.mp hrun
  have hstate := h.set_transaction { t with state := state } hread fun message hholds => ⟨message, hholds, rfl⟩
  have harm : ∀ initial_ms callback, Replying client_addr transaction sent n
      (arm_delete_event (m.set_transaction transaction { t with state := state }) transaction t initial_ms callback) := by
    intro initial_ms callback
    obtain ⟨adds, -, hworker, hsent, -⟩ := arm_delete_event_spec
      (m.set_transaction transaction { t with state := state }) transaction t initial_ms callback
    exact hstate.frame (by rw [hworker]) hsent
  split at hrun
  · obtain rfl := Except.ok.inj hrun
    exact h
  · cases state with
    | IDLE => exact Except.ok.inj hrun ▸ hstate
    | PROCEEDING => exact Except.ok.inj hrun ▸ hstate
    | COMPLETED => exact Except.ok.inj hrun ▸ harm _ _
    | TERMINATED => exact Except.ok.inj hrun ▸ harm _ _

theorem create_new_dialog (from_tag : Option Bytes) (from_tag_length : Nat) :
    Replying client_addr transaction sent n (create_new_dialog m from_tag from_tag_length).2 := by
  cases from_tag with
  | none => exact h
  | some from_tag =>
    by_cases hlength : from_tag_length = 0
    · rw [sip_utils.create_new_dialog, if_pos hlength]
      exact h
    · obtain ⟨env, -, heq | ⟨to_tag, -, -, heq⟩⟩ := create_new_dialog_spec m from_tag hlength
      · rw [heq]
        exact h.frame rfl rfl
      · rw [heq]
        exact h.frame rfl rfl

theorem create_new_call (call_id : Option Bytes) (call_id_length : Nat) :
    Replying client_addr transaction sent n (create_new_call m call_id call_id_length).2 := by
  cases call_id with
  | none => exact h
  | some call_id =>
    obtain ⟨env, -, heq | heq⟩ := create_new_call_spec m call_id call_id_length
    · rw [heq]
      exact h.frame rfl rfl
    · rw [heq]
      exact h.frame rfl rfl

theorem fail_invite (hrun : fail_invite m transaction = ok m') :
    Replying client_addr transaction sent (n + 1) m' := by
  obtain ⟨⟨rc, m₁⟩, hsend, hrun⟩ := bind_eq_ok_iff.mp hrun
  exact (h.send_response hsend).set_transaction_state hrun

omit h in
private theorem failed_call {dialog call : Nat} (h : Replying client_addr transaction sent n m) (hrun : (do
      let m ← sip_server.fail_invite m transaction
      let m ← sip_utils.set_dialog_state m dialog .TERMINATED
      sip_utils.set_call_state m call .FAILED) = ok m') : Replying client_addr transaction sent (n + 1) m' := by
  obtain ⟨m₁, hfail, hrun⟩ := bind_eq_ok_iff.mp hrun
  obtain ⟨m₂, hdialog, hrun⟩ := bind_eq_ok_iff.mp hrun
  exact ((h.fail_invite hfail).set_dialog_state hdialog).set_call_state hrun

theorem answer_invite {dialog call : Nat} (hrun : answer_invite m transaction dialog call = ok m') :
    Replying client_addr transaction sent (n + 3) m' := by
  obtain ⟨⟨rc, m₁⟩, hringing, hrun⟩ := bind_eq_ok_iff.mp hrun
  have h₁ := h.send_response hringing
  simp only at hrun
  split at hrun
  · exact (failed_call h₁ hrun).le (by omega)
  · obtain ⟨m₂, hcall, hrun⟩ := bind_eq_ok_iff.mp hrun
    obtain ⟨⟨rc', m₃⟩, hsuccess, hrun⟩ := bind_eq_ok_iff.mp hrun
    have h₃ := (h₁.set_call_state hcall).send_response hsuccess
    simp only at hrun
    split at hrun
    · exact failed_call h₃ hrun
    · obtain ⟨m₄, hstate, hrun⟩ := bind_eq_ok_iff.mp hrun
      obtain ⟨m₅, hdialog, hrun⟩ := bind_eq_ok_iff.mp hrun
      have h₅ := (h₃.set_transaction_state hstate).set_dialog_state hdialog
      exact (h₅.set_call_state hrun).le (by omega)

theorem begin_dialog {dialog : Nat} {message : sip_message_t}
    (hrun : begin_dialog m transaction dialog message = ok m') :
    Replying client_addr transaction sent (n + 3) m' := by
  obtain ⟨m₁, hlink, hrun⟩ := bind_eq_ok_iff.mp hrun
  obtain ⟨m₂, hearly, hrun⟩ := bind_eq_ok_iff.mp hrun
  obtain ⟨call_id, -, hrun⟩ := bind_eq_ok_iff.mp hrun
  have h₃ := ((h.set_transaction_dialog hlink).set_dialog_state hearly).create_new_call call_id message.call_id_length
  split at hrun
  · rename_i hcreate
    rw [hcreate] at h₃
    obtain ⟨m₄, hfail, hrun⟩ := bind_eq_ok_iff.mp hrun
    exact ((h₃.fail_invite hfail).set_dialog_state hrun).le (by omega)
  · rename_i hcreate
    rw [hcreate] at h₃
    obtain ⟨m₄, hlinked, hrun⟩ := bind_eq_ok_iff.mp hrun
    obtain ⟨m₅, hincoming, hrun⟩ := bind_eq_ok_iff.mp hrun
    exact ((h₃.set_dialog_call hlinked).set_call_state hincoming).answer_invite hrun

/-- An INVITE is the request with the most attempts: a 100, a 180, a 200, and a 500 when the 200 does not go out. -/
theorem process_invite_request (hrun : process_invite_request m transaction = ok m') :
    Replying client_addr transaction sent (n + 4) m' := by
  obtain ⟨t, -, hrun⟩ := bind_eq_ok_iff.mp hrun
  split at hrun
  · obtain rfl := Except.ok.inj hrun
    exact h.le (by omega)
  · rename_i message hholds
    simp only at hrun
    split at hrun
    · obtain rfl := Except.ok.inj hrun
      exact h.le (by omega)
    · obtain ⟨⟨rc, m₁⟩, htrying, hrun⟩ := bind_eq_ok_iff.mp hrun
      have h₁ := h.send_response htrying
      simp only at hrun
      split at hrun
      · exact (h₁.fail_invite hrun).le (by omega)
      · obtain ⟨m₂, hproceeding, hrun⟩ := bind_eq_ok_iff.mp hrun
        obtain ⟨from_tag, -, hrun⟩ := bind_eq_ok_iff.mp hrun
        have h₂ := (h₁.set_transaction_state hproceeding).create_new_dialog from_tag message.contents.from_tag_length
        split at hrun
        · rename_i hcreate
          rw [hcreate] at h₂
          exact (h₂.fail_invite hrun).le (by omega)
        · rename_i hcreate
          rw [hcreate] at h₂
          exact (h₂.begin_dialog hrun).le (by omega)

theorem process_ack_request (hrun : process_ack_request m transaction = ok m') :
    Replying client_addr transaction sent n m' := by
  obtain ⟨t, -, hrun⟩ := bind_eq_ok_iff.mp hrun
  split at hrun
  · obtain rfl := Except.ok.inj hrun
    exact h
  · simp only at hrun
    split at hrun
    · split at hrun
      · exact h.set_transaction_state hrun
      · obtain ⟨d, -, hrun⟩ := bind_eq_ok_iff.mp hrun
        exact h.set_transaction_state hrun
    · exact h.set_transaction_state hrun

theorem process_bye_request (hrun : process_bye_request m transaction = ok m') :
    Replying client_addr transaction sent (n + 1) m' := by
  obtain ⟨t, -, hrun⟩ := bind_eq_ok_iff.mp hrun
  split at hrun
  · obtain rfl := Except.ok.inj hrun
    exact h.le (Nat.le_succ n)
  · obtain ⟨found, -, hrun⟩ := bind_eq_ok_iff.mp hrun
    split at hrun
    · obtain ⟨⟨rc, m₁⟩, hsend, hrun⟩ := bind_eq_ok_iff.mp hrun
      exact (h.send_response hsend).set_transaction_state hrun
    · split at hrun
      · obtain ⟨m₁, hterminating, hrun⟩ := bind_eq_ok_iff.mp hrun
        obtain ⟨⟨rc, m₂⟩, hsend, hrun⟩ := bind_eq_ok_iff.mp hrun
        obtain ⟨m₃, hcall, hrun⟩ := bind_eq_ok_iff.mp hrun
        obtain ⟨m₄, hdialog, hrun⟩ := bind_eq_ok_iff.mp hrun
        have h₂ := (h.set_call_state hterminating).send_response hsend
        exact ((h₂.set_call_state hcall).set_dialog_state hdialog).set_transaction_state hrun
      · obtain ⟨⟨rc, m₁⟩, hsend, hrun⟩ := bind_eq_ok_iff.mp hrun
        exact (h.send_response hsend).set_transaction_state hrun

theorem process_method {method : sip_method_t} (hrun : process_method m transaction method = ok m') :
    Replying client_addr transaction sent (n + 4) m' := by
  unfold sip_server.process_method at hrun
  split at hrun
  · exact h.process_invite_request hrun
  · exact (h.process_ack_request hrun).le (by omega)
  · exact (h.process_bye_request hrun).le (by omega)
  · obtain ⟨⟨rc, m₁⟩, hsend, hrun⟩ := bind_eq_ok_iff.mp hrun
    exact ((h.send_response hsend).set_transaction_state hrun).le (by omega)

theorem process_in_dialog {message : sip_message_t} (hrun : process_in_dialog m transaction message = ok m') :
    Replying client_addr transaction sent (n + 4) m' := by
  obtain ⟨t, -, hrun⟩ := bind_eq_ok_iff.mp hrun
  have hmethod : ∀ m₁, Replying client_addr transaction sent n m₁ → (do
      let result ← get_message_method message
      sip_server.process_method m₁ transaction result.1) = ok m' →
      Replying client_addr transaction sent (n + 4) m' := by
    intro m₁ h₁ hrun
    obtain ⟨method, -, hrun⟩ := bind_eq_ok_iff.mp hrun
    exact h₁.process_method hrun
  simp only at hrun
  split at hrun
  · exact hmethod m h hrun
  · obtain ⟨m₁, hlink, hrun⟩ := bind_eq_ok_iff.mp hrun
    refine hmethod m₁ ?_ hrun
    obtain ⟨from_tag, -, hlink⟩ := bind_eq_ok_iff.mp hlink
    obtain ⟨to_tag, -, hlink⟩ := bind_eq_ok_iff.mp hlink
    obtain ⟨found, -, hlink⟩ := bind_eq_ok_iff.mp hlink
    split at hlink
    · obtain rfl := Except.ok.inj hlink
      exact h
    · exact h.set_transaction_dialog hlink

end Replying

/-- The datagrams that answer a request: they go to its sender, and of four that are tried at most
three go out. -/
structure Answers (client_addr : sockaddr_in) (sends : List Sent) : Prop where
  attempts : sends.length ≤ 4
  delivered : (sends.filter (·.success)).length ≤ 3
  sender : ∀ s ∈ sends, s.client_addr = client_addr

theorem answers_nil (client_addr : sockaddr_in) : Answers client_addr [] where
  attempts := Nat.zero_le _
  delivered := Nat.zero_le _
  sender := List.forall_mem_nil _

/-- Of what goes out for a request that opens a transaction, two datagrams are provisional and one
is final. -/
theorem Fate.delivered_le {before after : worker_thread_t} {original : Owned sip_message_t} {transaction : Nat}
    {t : sip_transaction_t} {sends : List Sent} (h : Fate before original transaction t after sends) :
    (sends.filter (·.success)).length ≤ 3 := by
  have hanswer : Answer transaction original t sends → (sends.filter (·.success)).length ≤ 3 := by
    rintro ⟨contents, provisional, success, -, -, -, rfl, hprovisional⟩
    have hcodes := hprovisional.codes.length_le
    have hlast := List.length_filter_le (·.success) [datagram_of transaction t contents success]
    rw [List.length_map] at hcodes
    rw [List.filter_append, List.length_append]
    exact Nat.add_le_add hcodes hlast
  cases h with
  | reinvite _ _ _ _ _ _ _ _ _ hsends => exact hsends ▸ Nat.zero_le _
  | acked _ _ _ _ _ _ _ hsends => exact hsends ▸ Nat.zero_le _
  | refused _ _ _ _ _ _ h => exact hanswer h
  | hung_up _ _ _ _ _ _ _ _ _ h => exact hanswer h
  | failed_alone _ _ _ _ _ h => exact hanswer h
  | failed_in_dialog _ _ _ _ _ h => exact hanswer h
  | failed_in_call _ _ _ _ _ h => exact hanswer h
  | established _ _ _ _ _ h => exact hanswer h

/-- Without memory for a transaction there is one attempt. -/
private theorem unallocated_replies {m m' : Machine} {message : Owned sip_message_t} (hworker : WellFormed m.worker)
    (hrequest : Request message.contents) (hnew : transaction_for m.worker message.contents = none)
    (hmalloc : m.env.malloc 0 = false) (hrun : process_sip_request m message = ok m') :
    ∃ s, m'.sent = m.sent ++ [s] ∧ s.client_addr = message.contents.client_addr := by
  have hfind := find_transaction_by_id_eq hworker.transactions (branch_text message.contents) hrequest.branch.2
  have hnew' : m.worker.transactions.first
    (matches_branch (branch_text message.contents) message.contents.branch_length) = none := hnew
  have hflag : m.malloc.1 = false := hmalloc
  rw [process_sip_request, textArg_text hrequest.branch.1, bind_ok, ← branch_text, hfind, hnew', bind_ok] at hrun
  simp only [create_new_transaction, if_neg hrequest.branch.2, hflag, if_true] at hrun
  obtain ⟨m₁, hsend, hrun⟩ := bind_eq_ok_iff.mp hrun
  obtain rfl := Except.ok.inj hrun
  have hlength : (formatted message.contents RESPONSE_CODE_500 RESPONSE_TEXT_500_INTERNAL_SERVER_ERROR []).length ≠ 0 := by
    rw [Ne, List.length_eq_zero_iff]
    exact formatted_ne_nil _ _ _ _
  have hsocket : ¬ m.malloc.2.worker.server_socket < 0 := Int.not_lt.mpr hworker.socket
  rw [send_sip_error_response, if_neg hsocket, response_text_eq hrequest, bind_ok] at hsend
  obtain rfl := Except.ok.inj hsend
  dsimp only [with_response]
  rw [send_message_eq (m := m.malloc.2) _ _ _ hworker.socket hlength hrequest.client_addr_len]
  exact ⟨_, rfl, rfl⟩

private theorem opened_replies {m m' : Machine} {message : Owned sip_message_t} (hworker : WellFormed m.worker)
    (hrequest : Request message.contents) (hnew : transaction_for m.worker message.contents = none)
    (hmalloc : m.env.malloc 0 = true) (hrun : process_sip_request m message = ok m') :
    ∃ sends, m'.sent = m.sent ++ sends ∧ sends.length ≤ 4 ∧ ∀ s ∈ sends, s.client_addr = message.contents.client_addr := by
  rw [process_new_branch_eq hworker hrequest hnew hmalloc] at hrun
  have hbefore : Replying message.contents.client_addr m.worker.transactions.heap.next m.sent 0
      (m.malloc.2.with_transactions (m.worker.transactions.push (opened_transaction m.worker.queue message))) := by
    refine ⟨fun t held hcell hholds => ?_, [], (List.append_nil _).symm, Nat.le_refl 0, List.forall_mem_nil _⟩
    obtain rfl := Option.some.inj ((Heap.cells_alloc_self _ _).symm.trans hcell)
    obtain rfl := Option.some.inj hholds
    rfl
  exact (hbefore.process_in_dialog hrun).sent

/-- What goes out for a request whose branch is known goes to the sender of the request that opened
the transaction, which is the same one. -/
private theorem Known.replies {m m' : Machine} {message opened : Owned sip_message_t} {transaction : Nat}
    {t : sip_transaction_t} (h : Known m message transaction t opened m') :
    ∃ sends, m'.sent = m.sent ++ sends ∧ Answers message.contents.client_addr sends := by
  cases h with
  | dropped _ _ hm =>
    subst hm
    exact ⟨[], (List.append_nil _).symm, answers_nil _⟩
  | resent hsame _ _ hm =>
    subst hm
    refine ⟨[datagram_of transaction t opened.contents true], rfl, ?_, ?_, fun s hs => ?_⟩
    · exact Nat.le_add_left 1 3
    · exact (List.length_filter_le _ _).trans (Nat.le_add_left 1 2)
    · rw [List.mem_singleton.mp hs]
      exact addr_of_not_different hsame
  | @rewritten output success hsame hfails houtput hconversed =>
    refine ⟨_, hconversed.sent, ?_, ?_, fun s hs => ?_⟩
    · rw [List.length_append]
      split
      · exact Nat.le_add_left 1 3
      · exact Nat.le_add_left 2 2
    · refine (List.length_filter_le _ _).trans ?_
      rw [List.length_append]
      split
      · exact Nat.le_add_left 1 2
      · exact Nat.le_add_left 2 1
    · have hsender : s.client_addr = opened.contents.client_addr := by
        rcases List.mem_append.mp hs with hs | hs
        · split at hs
          · cases hs
          · rw [List.mem_singleton.mp hs]
            rfl
        · rw [List.mem_singleton.mp hs]
          rfl
      rw [hsender, addr_of_not_different hsame]
  | acked _ _ _ hconversed => exact ⟨[], hconversed.sent, answers_nil _⟩

theorem process_sip_request_replies {m m' : Machine} {message : Owned sip_message_t} (hworker : WellFormed m.worker)
    (hrequest : Request message.contents) (hrun : process_sip_request m message = ok m') :
    ∃ sends, m'.sent = m.sent ++ sends ∧ Answers message.contents.client_addr sends := by
  cases (process_sip_request_spec m message hworker hrequest).of_eq_ok hrun with
  | unallocated hnew hmalloc =>
    obtain ⟨s, hsent, hsender⟩ := unallocated_replies hworker hrequest hnew hmalloc hrun
    refine ⟨[s], hsent, Nat.le_add_left 1 3, (List.length_filter_le _ _).trans (Nat.le_add_left 1 2), fun r hr => ?_⟩
    rw [List.mem_singleton.mp hr, hsender]
  | @opened t sends adds hnew hmalloc hopened =>
    obtain ⟨others, hsent, hattempts, hsender⟩ := opened_replies hworker hrequest hnew hmalloc hrun
    have hsends : m'.sent = m.sent ++ sends := hopened.conversed.sent
    obtain rfl := List.append_cancel_left (hsends.symm.trans hsent)
    exact ⟨sends, hsends, hattempts, hopened.fate.delivered_le, hsender⟩
  | known _ _ _ hknown => exact hknown.replies

/-- What a worker sends for an input: nothing, or the answers to a request. -/
inductive Replies : Input → List Sent → Prop where
  | silent (input : Input) : Replies input []
  | request {datagram : Datagram} {client_addr : sockaddr_in} {message : sip_message_t} {sends : List Sent}
    (address : Nat) (env : Environment) (haccepted : Accepted datagram client_addr message)
    (hanswers : Answers client_addr sends) : Replies (.incoming datagram client_addr address env) sends

theorem step_replies {run run' : Run} {input : Input} (hworker : WellFormed run.worker)
    (hstep : run.step input = ok run') : ∃ sends, run'.sent = run.sent ++ sends ∧ Replies input sends := by
  cases (step_ends hworker input).of_eq_ok hstep with
  | unhandled => exact ⟨[], (List.append_nil _).symm, .silent _⟩
  | response => exact ⟨[], (List.append_nil _).symm, .silent _⟩
  | @request datagram client_addr address env message m' haccepted hhandled =>
    rw [step_accepted haccepted] at hstep
    obtain ⟨m₁, hrun, hstep⟩ := bind_eq_ok_iff.mp hstep
    obtain ⟨hrequest, hunanswered⟩ := haccepted.request
    obtain ⟨sends, hsent, hanswers⟩ := process_sip_request_replies (m := run.start env) hworker hrequest hrun
    rw [hunanswered.client_addr] at hanswers
    have hsent' : (run.finish m₁).sent = run.sent ++ sends := congrArg (run.sent ++ ·) hsent
    rw [Except.ok.inj hstep] at hsent'
    exact ⟨sends, hsent', .request address env haccepted hanswers⟩
  | delete hdeleted =>
    refine ⟨[], ?_, .silent _⟩
    cases hdeleted with
    | missing _ hm =>
      subst hm
      rfl
    | removed _ _ hdeletion => exact congrArg (run.sent ++ ·) hdeletion.sent

/-- What a worker has sent on a run is what it has sent for one input after another. -/
theorem trace_replies {allowed : Run → Input → Prop} {start run : Run} {inputs : List Input}
    (hworker : WellFormed start.worker) (h : program.Trace allowed start inputs run) :
    ∃ replies, run.sent = start.sent ++ replies.flatten ∧ List.Forall₂ Replies inputs replies := by
  have hall : WellFormed run.worker ∧
      ∃ replies, run.sent = start.sent ++ replies.flatten ∧ List.Forall₂ Replies inputs replies := by
    refine h.preserves (P := fun inputs run => WellFormed run.worker ∧
      ∃ replies, run.sent = start.sent ++ replies.flatten ∧ List.Forall₂ Replies inputs replies) ?_ ?_
    · rintro inputs run input run' - - hstep ⟨hbefore, replies, hsent, hreplies⟩
      obtain ⟨sends, hsends, hreply⟩ := step_replies hbefore hstep
      refine ⟨((step_ends hbefore input).of_eq_ok hstep).wellFormed hbefore, replies ++ [sends], ?_, ?_⟩
      · rw [hsends, hsent, List.flatten_append, List.append_assoc]
        exact congrArg (fun tail => start.sent ++ (replies.flatten ++ tail)) (List.append_nil sends).symm
      · exact List.rel_append hreplies (.cons hreply .nil)
    · exact ⟨hworker, [], (List.append_nil _).symm, .nil⟩
  exact hall.2

end mock_uas.sip_server
