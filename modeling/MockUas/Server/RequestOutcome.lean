import MockUas.Server.OpenOutcome

open clib
open mock_uas.sip_message
open mock_uas.sip_utils

namespace mock_uas.sip_server

theorem sockaddr_in_equal_eq_zero_iff {a b : sockaddr_in} : sockaddr_in_equal a b = 0 ↔ a = b := by
  obtain ⟨family, port, addr⟩ := a
  obtain ⟨family', port', addr'⟩ := b
  simp only [sockaddr_in_equal, sockaddr_in.mk.injEq]
  repeat' split
  all_goals simp_all

theorem is_different_succeeds {message opened : sip_message_t} (hrequest : Request message)
    (hopened : Request opened) : ∃ different, is_different message opened = ok different := by
  obtain ⟨cseq, hcseq, -⟩ := hrequest.cseq.points.readable
  obtain ⟨opened_cseq, hopened_cseq, -⟩ := hopened.cseq.points.readable
  unfold is_different
  split
  · exact ⟨true, rfl⟩
  · simp only [hcseq, hopened_cseq, bind_ok]
    exact ⟨_, rfl⟩

/-- A copy of a request is not told from it. -/
theorem is_different_same {message opened : sip_message_t} (hrequest : Request message)
    (hsame : SameRequest opened message) : is_different message opened = ok false := by
  obtain ⟨cseq, hcseq, -⟩ := hrequest.cseq.points.readable
  have hlength : opened.cseq_length = message.cseq_length := congrArg (·.cseq_length) hsame.same
  have hbuffer : opened.buffer = message.buffer := congrArg (·.buffer) hsame.same
  have hpointer : opened.cseq = message.cseq := congrArg (·.cseq) hsame.same
  have haddr : opened.client_addr = message.client_addr := congrArg (·.client_addr) hsame.same
  have hequal : sockaddr_in_equal message.client_addr message.client_addr = 0 :=
    sockaddr_in_equal_eq_zero_iff.mpr rfl
  rw [is_different, hlength, hbuffer, hpointer, haddr, if_neg (by simp), hcseq]
  simp [hequal]

/-- What is not told from a request comes from its address. -/
theorem addr_of_not_different {message opened : sip_message_t} (h : is_different message opened = ok false) :
    opened.client_addr = message.client_addr := by
  rw [is_different] at h
  split at h
  · cases h
  · obtain ⟨cseq, -, h⟩ := bind_eq_ok_iff.mp h
    obtain ⟨opened_cseq, -, h⟩ := bind_eq_ok_iff.mp h
    have hequal := (Bool.or_eq_false_iff.mp (Except.ok.inj h)).2
    rw [decide_eq_false_iff_not, not_not] at hequal
    exact (sockaddr_in_equal_eq_zero_iff.mp hequal).symm

/-- The answer to a request there is no memory for belongs to no transaction. -/
private theorem send_sip_error_response_spec {m : Machine} {request : sip_message_t}
    (hsocket : 0 ≤ m.worker.server_socket) (hrequest : Request request) (status_code : Nat) (reason : Bytes) :
    ∃ sent : Sent, sent.toPurpose = ⟨none, none, request.method_type, status_code⟩ ∧
      send_sip_error_response m request status_code reason = ok (sending m sent) := by
  have hlength : (formatted request status_code reason []).length ≠ 0 := by
    rw [Ne, List.length_eq_zero_iff]
    exact formatted_ne_nil _ _ _ _
  rw [send_sip_error_response, if_neg (Int.not_lt.mpr hsocket), response_text_eq hrequest, bind_ok]
  have hsend := send_message_eq (m := m)
    { transaction := none, dialog := none, method := request.method_type, status_code := status_code }
    (with_response request (formatted request status_code reason [])).response request.client_addr hsocket hlength
    hrequest.client_addr_len
  exact ⟨_, rfl, congrArg (fun r : Int × Machine => ok r.2) hsend⟩

theorem Answer.message {transaction : Nat} {original : Owned sip_message_t} {t : sip_transaction_t}
    {sends : List Sent} (h : Answer transaction original t sends) :
    ∃ contents, t.message = some ⟨original.address, contents⟩ ∧ SameRequest contents original.contents := by
  obtain ⟨contents, -, -, hmessage, hsame, -⟩ := h
  exact ⟨contents, hmessage, hsame⟩

/-- Whatever its fate, the transaction keeps the request it was opened for. -/
theorem Fate.message {before after : worker_thread_t} {original : Owned sip_message_t} {transaction : Nat}
    {t : sip_transaction_t} {sends : List Sent} (h : Fate before original transaction t after sends) :
    ∃ contents, t.message = some ⟨original.address, contents⟩ ∧ SameRequest contents original.contents := by
  cases h with
  | reinvite _ _ _ _ _ hholds => exact ⟨_, hholds, .refl _⟩
  | acked _ _ _ hholds => exact ⟨_, hholds, .refl _⟩
  | refused _ _ _ _ _ _ hanswer => exact hanswer.message
  | hung_up _ _ _ _ _ _ _ _ _ hanswer => exact hanswer.message
  | failed_alone _ _ _ _ _ hanswer => exact hanswer.message
  | failed_in_dialog _ _ _ _ _ hanswer => exact hanswer.message
  | failed_in_call _ _ _ _ _ hanswer => exact hanswer.message
  | established _ _ _ _ _ hanswer => exact hanswer.message

/-- The record `process_sip_request` opens a transaction with. -/
def opened_transaction (queue : Nat) (message : Owned sip_message_t) : sip_transaction_t :=
  { new_transaction (branch_text message.contents) message.contents.branch_length with
    message := some message
    queue := some queue }

private theorem later_malloc (m : Machine) : Later m.env m.malloc.2.env where
  epfd := rfl
  malloc := ⟨1, fun _ => rfl⟩
  timer := ⟨0, fun _ => rfl⟩

/-- The transaction a conversation opened with is pushed as the conversation leaves it. -/
private theorem conversed_push {m m₁ m' : Machine} {t₀ t : sip_transaction_t} {sends : List Sent}
    {adds : List TimerAdd} (hm₁ : m₁ = m.malloc.2.with_transactions (m.worker.transactions.push t₀))
    (h : Conversed m₁ m' m.worker.transactions.heap.next t sends adds) :
    Conversed (m.with_transactions (m.worker.transactions.push t)) m' m.worker.transactions.heap.next t sends
      adds := by
  rw [hm₁] at h
  refine { h with transactions := ?_, later := (later_malloc m).trans h.later }
  rw [h.transactions]
  exact (Store.push_set _ _ _).trans (Store.push_set _ _ _).symm

/-- A request with a new branch is handled over the transaction it opens. -/
theorem process_new_branch_eq {m : Machine} {message : Owned sip_message_t} (hworker : WellFormed m.worker)
    (hrequest : Request message.contents) (hnew : transaction_for m.worker message.contents = none)
    (hmalloc : m.env.malloc 0 = true) :
    process_sip_request m message = process_in_dialog (m.malloc.2.with_transactions
        (m.worker.transactions.push (opened_transaction m.worker.queue message)))
      m.worker.transactions.heap.next message.contents := by
  have hfind := find_transaction_by_id_eq hworker.transactions (branch_text message.contents) hrequest.branch.2
  have hnew' : m.worker.transactions.first
    (matches_branch (branch_text message.contents) message.contents.branch_length) = none := hnew
  have hflag : m.malloc.1 = true := hmalloc
  rw [process_sip_request, textArg_text hrequest.branch.1, bind_ok, ← branch_text, hfind, hnew', bind_ok]
  simp only [create_new_transaction, if_neg hrequest.branch.2, hflag, Bool.true_eq_false, if_false]
  have hrun : ∀ m₂, m₂ = m.malloc.2.with_transactions (m.worker.transactions.push
      (new_transaction (branch_text message.contents) message.contents.branch_length)) →
      (do
        let t ← m₂.transaction m.worker.transactions.heap.next
        process_in_dialog (m₂.set_transaction m.worker.transactions.heap.next
          { t with message := some message, queue := some m.worker.queue })
          m.worker.transactions.heap.next message.contents) =
        process_in_dialog (m.malloc.2.with_transactions
            (m.worker.transactions.push (opened_transaction m.worker.queue message)))
          m.worker.transactions.heap.next message.contents := by
    rintro m₂ rfl
    rw [Machine.transaction_of_cells (Heap.cells_alloc_self _ _), bind_ok]
    refine congrArg (fun n => process_in_dialog n _ _) ?_
    exact congrArg m.malloc.2.with_transactions (Store.push_set _ _ _)
  exact hrun _ rfl

/-- A request with a branch no transaction has. -/
theorem process_new_branch_spec (m : Machine) (message : Owned sip_message_t)
    (hworker : WellFormed m.worker) (hrequest : Request message.contents)
    (hnew : transaction_for m.worker message.contents = none) :
    ∃ m', process_sip_request m message = ok m' ∧ Handled m message m' := by
  cases hmalloc : m.env.malloc 0 with
  | false =>
    have hfind := find_transaction_by_id_eq hworker.transactions (branch_text message.contents) hrequest.branch.2
    have hnew' : m.worker.transactions.first
      (matches_branch (branch_text message.contents) message.contents.branch_length) = none := hnew
    have hflag : m.malloc.1 = false := hmalloc
    obtain ⟨sent, hsent, hsend⟩ := send_sip_error_response_spec (m := m.malloc.2) hworker.socket hrequest
      RESPONSE_CODE_500 RESPONSE_TEXT_500_INTERNAL_SERVER_ERROR
    rw [process_sip_request, textArg_text hrequest.branch.1, bind_ok, ← branch_text, hfind, hnew', bind_ok]
    simp only [create_new_transaction, if_neg hrequest.branch.2, hflag, if_true, hsend, bind_ok]
    exact ⟨_, rfl, .unallocated hnew hmalloc hsent rfl⟩
  | true =>
    obtain ⟨m₁, hm₁⟩ : ∃ m₁, m₁ = m.malloc.2.with_transactions
      (m.worker.transactions.push (opened_transaction m.worker.queue message)) := ⟨_, rfl⟩
    have hcell : m₁.worker.transactions.heap.cells m.worker.transactions.heap.next =
        some (opened_transaction m.worker.queue message) := by
      rw [hm₁]
      exact Heap.cells_alloc_self _ _
    have htalk : Talking m₁ m₁ m.worker.transactions.heap.next message (opened_transaction m.worker.queue message)
        (opened_transaction m.worker.queue message) [] := by
      refine ⟨.refl hcell, ⟨message.contents, ⟨?_, hcell, rfl, hrequest, nofun⟩, .refl _⟩, .refl _,
        provisional_nil _ _⟩
      rw [hm₁]
      exact hworker.socket
    obtain ⟨m', t, sends, adds, heq, hconversed, hsame, hfate, harms⟩ := process_in_dialog_spec hworker htalk rfl
      hrequest rfl rfl rfl (by rw [hm₁]; rfl) (by rw [hm₁]; rfl)
    rw [process_new_branch_eq hworker hrequest hnew hmalloc, ← hm₁]
    refine ⟨m', heq, .opened hnew hmalloc ⟨conversed_push hm₁ hconversed, ?_, hfate, ?_⟩⟩
    · refine ⟨hsame.queue, hsame.ack_message, hsame.branch, hsame.branch_length, hfate.message⟩
    · rw [hm₁] at harms
      split
      · rename_i hidle
        rwa [if_pos hidle] at harms
      · rename_i hidle
        rw [if_neg hidle] at harms
        exact (harms.earlier (later_malloc m)).congr
          ⟨hsame.queue.symm, hsame.ack_message.symm, hsame.branch.symm, hsame.branch_length.symm⟩

/-- The dialog a transaction has once `process_sip_request` has looked for one. -/
private def linked (m : Machine) (t : sip_transaction_t) (message : sip_message_t) : Option Nat :=
  if t.dialog = none then dialog_for m.worker message else t.dialog

/-- The dialog is found and linked, and the handler of the method takes over. -/
private theorem process_in_dialog_eq {m : Machine} {transaction : Nat} {t : sip_transaction_t}
    {message : sip_message_t} (hdialogs : m.worker.dialogs.Sound) (hrequest : Request message)
    (hcell : m.worker.transactions.heap.cells transaction = some t) :
    ∃ m', process_in_dialog m transaction message = process_method m' transaction message.method_type ∧
      Conversed m m' transaction { t with dialog := linked m t message } [] [] ∧
      m'.worker.dialogs = (if t.dialog = none then
        attach m.worker.dialogs (dialog_for m.worker message) transaction else m.worker.dialogs) ∧
      m'.worker.calls = m.worker.calls := by
  have hmethod : get_message_method message = ok (message.method_type, message) := by
    rw [get_message_method, if_neg (by simp [hrequest.is_request]), if_pos hrequest.method_type]
  unfold linked
  rw [process_in_dialog, Machine.transaction_of_cells hcell, bind_ok]
  by_cases hnone : t.dialog = none
  · obtain ⟨m', heq, hconversed, hd, hc⟩ := link_dialog_spec hdialogs hrequest hcell hnone
    rw [if_neg (by simp [hnone]), heq, bind_ok, hmethod, if_pos hnone, if_pos hnone]
    exact ⟨m', rfl, hconversed, hd, hc⟩
  · rw [if_pos hnone, bind_ok, hmethod, if_neg hnone, if_neg hnone]
    exact ⟨m, rfl, .refl hcell, rfl, rfl⟩

/-- The ACK for an INVITE terminates its transaction, after a lookup of the dialog for one
that has none. -/
private theorem acknowledge_spec {m : Machine} {transaction : Nat} {t : sip_transaction_t}
    {message opened : Owned sip_message_t} (hworker : WellFormed m.worker) (hrequest : Request message.contents)
    (hcell : m.worker.transactions.heap.cells transaction = some t) (hholds : t.message = some opened)
    (hdifferent : is_different message.contents opened.contents = ok true)
    (hinvite : opened.contents.method_type = .INVITE) (hack : message.contents.method_type = .ACK) :
    ∃ m', process_in_dialog (m.set_transaction transaction { t with ack_message := some message }) transaction
        message.contents = ok m' ∧ Known m message transaction t opened m' := by
  obtain ⟨m₁, hm₁⟩ : ∃ m₁, m₁ = m.set_transaction transaction { t with ack_message := some message } := ⟨_, rfl⟩
  have hset : Conversed m m₁ transaction { t with ack_message := some message } [] [] := by
    rw [hm₁]
    exact Machine.conversed_set_transaction m transaction _
  obtain ⟨m₂, heq₂, hconversed₂, hdialogs₂, hcalls₂⟩ := process_in_dialog_eq (m := m₁)
    (by rw [hm₁]; exact hworker.dialogs) hrequest (hset.cells hcell)
  have hlinked : linked m₁ { t with ack_message := some message } message.contents =
      if t.dialog = none then dialog_for m.worker message.contents else t.dialog := by
    rw [hm₁]
    rfl
  rw [hlinked] at hconversed₂
  replace hdialogs₂ : m₂.worker.dialogs = if t.dialog = none then
      attach m.worker.dialogs (dialog_for m.worker message.contents) transaction else m.worker.dialogs := by
    rw [hdialogs₂, hm₁]
    rfl
  replace hcalls₂ : m₂.worker.calls = m.worker.calls := by
    rw [hcalls₂, hm₁]
    rfl
  have hcell₂ := hconversed₂.cells (hset.cells hcell)
  have hall := hset.trans hconversed₂
  have hrun : process_in_dialog m₁ transaction message.contents =
      set_transaction_state m₂ transaction .TERMINATED := by
    rw [heq₂, hack, process_method, process_ack_request, Machine.transaction_of_cells hcell₂, bind_ok, hholds]
    simp only [hinvite, reduceCtorEq, and_false, if_false]
  rw [← hm₁, hrun]
  by_cases hterminated : t.state = .TERMINATED
  · refine ⟨m₂, ?_, .acked hdifferent hinvite hack (hterminated ▸ hall) hdialogs₂ hcalls₂ (by simp [hterminated])⟩
    rw [set_transaction_state, Machine.transaction_of_cells hcell₂, bind_ok, if_pos hterminated]
  · obtain ⟨m₃, adds, heq₃, hconversed₃, hdialogs₃, hcalls₃, harms, -⟩ :=
      set_transaction_state_spec .TERMINATED hcell₂ hterminated
    refine ⟨m₃, heq₃, .acked hdifferent hinvite hack (hall.trans hconversed₃)
      (hdialogs₃.trans hdialogs₂) (hcalls₃.trans hcalls₂) ?_⟩
    rw [if_neg hterminated]
    have hevents : m₂.events = m.events := hall.events
    rw [← hevents]
    exact (harms (.inr rfl)).earlier hall.later

/-- A transaction whose dialog, if it has one, is live can be answered. -/
theorem WellFormed.ready {m : Machine} {transaction : Nat} {t : sip_transaction_t}
    {message : Owned sip_message_t} (hworker : WellFormed m.worker)
    (hcell : m.worker.transactions.heap.cells transaction = some t) (hholds : t.message = some message)
    (hlive : ∀ dialog, t.dialog = some dialog → ∃ d, m.worker.dialogs.heap.cells dialog = some d) :
    Ready m transaction t message where
  socket := hworker.socket
  cell := hcell
  holds := hholds
  request := by
    obtain ⟨held, hheld, hrequest⟩ := (hworker.held hcell).message
    rw [hholds, Option.some.injEq] at hheld
    exact hheld ▸ hrequest
  dialog dialog hdialog := by
    obtain ⟨d, hd⟩ := hlive dialog hdialog
    exact ⟨d, hd, hworker.tagged hd⟩

/-- What the retransmission branch does once its response could not be sent again. -/
private theorem rewrite_spec {m m₁ : Machine} {transaction : Nat} {t : sip_transaction_t}
    {message opened : Owned sip_message_t} {sends : List Sent} (hworker : WellFormed m.worker)
    (hcell : m.worker.transactions.heap.cells transaction = some t) (hholds : t.message = some opened)
    (hsame : is_different message.contents opened.contents = ok false)
    (hfails : opened.contents.response_length = 0 ∨ m.env.sendto 0 = false)
    (hsends : sends = if opened.contents.response_length = 0 then []
      else [datagram_of transaction t opened.contents false])
    (hm₁ : m₁.worker = m.worker) (hconversed : Conversed m m₁ transaction t sends []) :
    Ends (do
        let (_, m) ← send_sip_error_response_over_transaction m₁ transaction RESPONSE_CODE_500
          RESPONSE_TEXT_500_INTERNAL_SERVER_ERROR
        ok (m.cleanup_sip_message (some message)))
      (Dangling m.worker) (Known m message transaction t opened) := by
  by_cases hlive : ∀ dialog, t.dialog = some dialog → ∃ d, m.worker.dialogs.heap.cells dialog = some d
  · have hready : Ready m₁ transaction t opened := by
      have hworker₁ : WellFormed m₁.worker := hm₁ ▸ hworker
      exact hworker₁.ready (hm₁ ▸ hcell) hholds (hm₁ ▸ hlive)
    obtain ⟨m₂, heq, hconversed₂, hdialogs, hcalls⟩ :=
      send_response_spec hready RESPONSE_CODE_500 RESPONSE_TEXT_500_INTERNAL_SERVER_ERROR
    rw [send_sip_error_response_over_transaction, heq]
    have hall := hconversed.trans hconversed₂
    rw [hsends] at hall
    exact .rewritten hsame hfails (formatted_ne_nil _ _ _ _) { hall with freed := rfl } (hdialogs.trans (by rw [hm₁]))
      (hcalls.trans (by rw [hm₁])) (by rw [Machine.cleanup_sip_message, hall.freed])
  · have hdangling : ∃ dialog, t.dialog = some dialog ∧ m.worker.dialogs.heap.cells dialog = none := by
      simp only [not_forall] at hlive
      obtain ⟨dialog, hdialog, hfreed⟩ := hlive
      refine ⟨dialog, hdialog, ?_⟩
      cases hd : m.worker.dialogs.heap.cells dialog with
      | none => rfl
      | some d => exact absurd ⟨d, hd⟩ hfreed
    obtain ⟨dialog, hdialog, hfreed⟩ := hdangling
    have hfault := to_tag_text_dangling (m := m₁) opened.contents hdialog (by rw [hm₁]; exact hfreed)
    have hsocket : 0 ≤ m₁.worker.server_socket := by
      rw [hm₁]
      exact hworker.socket
    rw [send_sip_error_response_over_transaction, send_response_over_transaction, if_neg (Int.not_lt.mpr hsocket),
      Machine.transaction_of_cells (by rw [hm₁]; exact hcell), bind_ok, hholds]
    simp only [hfault, bind_error]
    exact ⟨transaction, t, dialog, hcell, hdialog, hfreed⟩

/-- A request that is told apart from the one that opened its transaction is attached to it
or dropped. -/
private theorem process_told_apart {m : Machine} {transaction : Nat} {t : sip_transaction_t}
    {message opened : Owned sip_message_t} (hworker : WellFormed m.worker) (hrequest : Request message.contents)
    (hcell : m.worker.transactions.heap.cells transaction = some t) (hholds : t.message = some opened)
    (hdifferent : is_different message.contents opened.contents = ok true) :
    ∃ m', process_known_branch m transaction message = ok m' ∧ Known m message transaction t opened m' := by
  have hderef : deref t.message = ok opened := by rw [hholds, deref_some]
  rw [process_known_branch, Machine.transaction_of_cells hcell, bind_ok, hderef, bind_ok, hdifferent, bind_ok,
    if_pos rfl]
  by_cases hinvite : opened.contents.method_type = .INVITE ∧ message.contents.method_type = .ACK
  · rw [if_pos hinvite]
    exact acknowledge_spec hworker hrequest hcell hholds hdifferent hinvite.1 hinvite.2
  · rw [if_neg hinvite]
    exact ⟨_, rfl, .dropped hdifferent hinvite rfl⟩

/-- A request with the branch of a transaction. Only a response that has to be built again
needs the transaction's dialog. -/
private theorem process_known_branch_spec {m : Machine} {transaction : Nat} {t : sip_transaction_t}
    {message opened : Owned sip_message_t} (hworker : WellFormed m.worker) (hrequest : Request message.contents)
    (hcell : m.worker.transactions.heap.cells transaction = some t) (hholds : t.message = some opened) :
    Ends (process_known_branch m transaction message) (Dangling m.worker)
      (Known m message transaction t opened) := by
  have hopened : Request opened.contents := by
    obtain ⟨held, hheld, hheld_request⟩ := (hworker.held hcell).message
    rw [hholds, Option.some.injEq] at hheld
    exact hheld ▸ hheld_request
  obtain ⟨different, hdifferent⟩ := is_different_succeeds hrequest hopened
  cases different with
  | true =>
    obtain ⟨m', heq, hknown⟩ := process_told_apart hworker hrequest hcell hholds hdifferent
    rw [heq]
    exact hknown
  | false =>
    have hderef : deref t.message = ok opened := by rw [hholds, deref_some]
    rw [process_known_branch, Machine.transaction_of_cells hcell, bind_ok, hderef, bind_ok, hdifferent, bind_ok,
      if_neg Bool.false_ne_true, send_last_response_eq hworker.socket hcell hholds hopened.client_addr_len]
    by_cases hempty : opened.contents.response_length = 0
    · rw [if_pos hempty, bind_ok]
      exact rewrite_spec hworker hcell hholds hdifferent (.inl hempty) (if_pos hempty).symm rfl (.refl hcell)
    · rw [if_neg hempty, bind_ok]
      cases hsendto : m.env.sendto 0 with
      | true => exact .resent hdifferent hempty hsendto rfl
      | false =>
        have hsending := conversed_sending hcell (datagram_of transaction t opened.contents false)
        exact rewrite_spec hworker hcell hholds hdifferent (.inr hsendto) (if_neg hempty).symm rfl hsending

/-- The lookup of a request whose branch is known. -/
private theorem process_known_eq {m : Machine} {message : Owned sip_message_t} {transaction : Nat}
    (hworker : WellFormed m.worker) (hrequest : Request message.contents)
    (hfound : transaction_for m.worker message.contents = some transaction) :
    process_sip_request m message = process_known_branch m transaction message := by
  have hfind := find_transaction_by_id_eq hworker.transactions (branch_text message.contents) hrequest.branch.2
  have hfound' : m.worker.transactions.first
    (matches_branch (branch_text message.contents) message.contents.branch_length) = some transaction := hfound
  rw [process_sip_request, textArg_text hrequest.branch.1, bind_ok, ← branch_text, hfind, hfound', bind_ok]

theorem process_told_apart_spec (m : Machine) (message : Owned sip_message_t) {transaction : Nat}
    {t : sip_transaction_t} {opened : Owned sip_message_t} (hworker : WellFormed m.worker)
    (hrequest : Request message.contents) (hfound : transaction_for m.worker message.contents = some transaction)
    (hcell : m.worker.transactions.heap.cells transaction = some t) (hholds : t.message = some opened)
    (hdifferent : is_different message.contents opened.contents = ok true) :
    ∃ m', process_sip_request m message = ok m' ∧ Handled m message m' := by
  obtain ⟨m', heq, hknown⟩ := process_told_apart hworker hrequest hcell hholds hdifferent
  exact ⟨m', (process_known_eq hworker hrequest hfound).trans heq, .known hfound hcell hholds hknown⟩

/-- A copy of a request that was answered makes the answer go out again. -/
theorem process_copy_eq (m : Machine) (message : Owned sip_message_t) {transaction : Nat} {t : sip_transaction_t}
    {opened : Owned sip_message_t}
    (hworker : WellFormed m.worker) (hrequest : Request message.contents)
    (hfound : transaction_for m.worker message.contents = some transaction)
    (hcell : m.worker.transactions.heap.cells transaction = some t) (hholds : t.message = some opened)
    (hsame : SameRequest opened.contents message.contents) (hlength : opened.contents.response_length ≠ 0)
    (hsendto : m.env.sendto 0 = true) :
    process_sip_request m message =
      ok ((sending m (datagram_of transaction t opened.contents true)).cleanup_sip_message (some message)) := by
  have hderef : deref t.message = ok opened := by rw [hholds, deref_some]
  rw [process_known_eq hworker hrequest hfound, process_known_branch, Machine.transaction_of_cells hcell, bind_ok,
    hderef, bind_ok, is_different_same hrequest hsame, bind_ok, if_neg Bool.false_ne_true, send_last_response_eq hworker.socket hcell hholds
      (hsame.request hrequest).client_addr_len, if_neg hlength, bind_ok, hsendto]
  rfl

/-- What a step does with an accepted request, and when it faults. -/
theorem process_sip_request_spec (m : Machine) (message : Owned sip_message_t) (hworker : WellFormed m.worker)
    (hrequest : Request message.contents) :
    Ends (process_sip_request m message) (Dangling m.worker) (Handled m message) := by
  cases hfound : transaction_for m.worker message.contents with
  | none =>
    obtain ⟨m', heq, hhandled⟩ := process_new_branch_spec m message hworker hrequest hfound
    rw [heq]
    exact hhandled
  | some transaction =>
    obtain ⟨-, t, hcell, -⟩ := Store.first_eq_some hfound
    obtain ⟨opened, hholds, -⟩ := (hworker.held hcell).message
    rw [process_known_eq hworker hrequest hfound]
    exact (process_known_branch_spec hworker hrequest hcell hholds).imp fun m' hknown =>
      .known hfound hcell hholds hknown

end mock_uas.sip_server
