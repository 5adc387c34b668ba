import MockUas.Server.Invariant
import MockUas.Server.InviteOutcome

open clib
open mock_uas.sip_message
open mock_uas.sip_utils

namespace mock_uas.sip_server

theorem find_transaction_by_id_eq {transactions : Store sip_transaction_t} (h : transactions.Sound)
    (branch : Bytes) {branch_length : Nat} (hlength : branch_length ≠ 0) :
    find_transaction_by_id transactions (some branch) branch_length =
      ok (transactions.first (matches_branch branch branch_length)) := by
  simp only [find_transaction_by_id]
  by_cases hempty : transactions.list = []
  · rw [if_pos (.inl hempty), Store.first, hempty]
    rfl
  · rw [if_neg (by simp [hempty, hlength])]
    exact h.find _

theorem find_dialog_by_id_eq {dialogs : Store sip_dialog_t} (h : dialogs.Sound) {message : sip_message_t}
    (hrequest : Request message) :
    (do
      let from_tag ← textArg message.buffer message.from_tag
      let to_tag ← textArg message.buffer message.to_tag
      find_dialog_by_id dialogs from_tag message.from_tag_length to_tag message.to_tag_length) =
      ok (dialogs.first (matches_tags message)) := by
  have hto_tag : textArg message.buffer message.to_tag =
      ok (message.to_tag.map (cstr message.buffer)) := by
    rcases hrequest.to_tag with hnone | ⟨i, hi, hterm⟩
    · simp [textArg, hnone]
    · simp [textArg, hi, text_eq hterm]
  rw [textArg_text hrequest.from_tag.1, bind_ok, hto_tag, bind_ok]
  simp only [find_dialog_by_id]
  by_cases hempty : dialogs.list = []
  · rw [if_pos (.inl hempty), Store.first, hempty]
    rfl
  · rw [if_neg (by simp [hempty, hrequest.from_tag.2])]
    refine (congrArg dialogs.find (funext fun d => ?_)).trans (h.find (matches_tags message))
    rw [matches_tags]
    cases message.to_tag <;> rfl

theorem link_dialog_eq {m : Machine} {message : sip_message_t} (hdialogs : m.worker.dialogs.Sound)
    (hrequest : Request message) (transaction : Nat) :
    link_dialog m transaction message = match dialog_for m.worker message with
      | none => ok m
      | some dialog => set_transaction_dialog m transaction dialog := by
  have hfind := find_dialog_by_id_eq hdialogs hrequest
  have hassoc : ∀ k : Option Nat → Result Machine, (do
      let from_tag ← textArg message.buffer message.from_tag
      let to_tag ← textArg message.buffer message.to_tag
      let found ← find_dialog_by_id m.worker.dialogs from_tag message.from_tag_length to_tag message.to_tag_length
      k found) = k (dialog_for m.worker message) := by
    intro k
    have hbind := congrArg (fun r : Result (Option Nat) => r >>= k) hfind
    simp only [bind_assoc, bind_ok] at hbind
    exact hbind
  rw [link_dialog]
  exact hassoc _

/-- The lookup of the dialog and, where one is found, the link to it. -/
theorem link_dialog_spec {m : Machine} {transaction : Nat} {t : sip_transaction_t} {message : sip_message_t}
    (hdialogs : m.worker.dialogs.Sound) (hrequest : Request message)
    (hcell : m.worker.transactions.heap.cells transaction = some t) (hnone : t.dialog = none) :
    ∃ m', link_dialog m transaction message = ok m' ∧
      Conversed m m' transaction { t with dialog := dialog_for m.worker message } [] [] ∧
      m'.worker.dialogs = attach m.worker.dialogs (dialog_for m.worker message) transaction ∧
      m'.worker.calls = m.worker.calls := by
  rw [link_dialog_eq hdialogs hrequest]
  cases hfound : dialog_for m.worker message with
  | none =>
    refine ⟨m, rfl, ?_, rfl, rfl⟩
    rw [← hnone]
    exact .refl hcell
  | some dialog =>
    obtain ⟨-, d, hd, -⟩ := Store.first_eq_some hfound
    obtain ⟨m', heq, hconversed, hd', hc'⟩ := set_transaction_dialog_spec hcell hd
    refine ⟨m', heq, hconversed, ?_, hc'⟩
    rw [hd', attach, hd]

/-- Linking a transaction touches the slots of one dialog. -/
theorem cells_attach (dialogs : Store sip_dialog_t) (dialog : Option Nat) (transaction a : Nat) :
    (attach dialogs dialog transaction).heap.cells a =
      (dialogs.heap.cells a).map fun d =>
        if dialog = some a then { d with transaction := d.transaction.add transaction } else d := by
  cases dialog with
  | none => simp [attach]
  | some dialog =>
    simp only [attach]
    cases hcell : dialogs.heap.cells dialog with
    | none =>
      by_cases ha : a = dialog
      · simp [ha, hcell]
      · simp [Ne.symm ha]
    | some d =>
      simp only [Store.heap_set, Heap.cells_set hcell]
      by_cases ha : a = dialog
      · simp [ha, hcell]
      · simp [ha, Ne.symm ha]

@[simp] theorem attach_none (dialogs : Store sip_dialog_t) (transaction : Nat) :
    attach dialogs none transaction = dialogs := rfl

theorem attach_some {dialogs : Store sip_dialog_t} {dialog : Nat} {d : sip_dialog_t}
    (hcell : dialogs.heap.cells dialog = some d) (transaction : Nat) :
    attach dialogs (some dialog) transaction =
      dialogs.set dialog { d with transaction := d.transaction.add transaction } := by
  simp [attach, hcell]

/-- The end of every handler that answers an error and terminates the transaction. -/
private theorem refuse_spec {before : worker_thread_t} {m₀ m : Machine} {transaction : Nat}
    {original : Owned sip_message_t} {t₀ t : sip_transaction_t}
    (h : Talking m₀ m transaction original t₀ t [])
    (hcell : m₀.worker.transactions.heap.cells transaction = some t₀)
    {status_code : Nat} (reason : Bytes) (hcode : 300 ≤ status_code)
    (hinvite : original.contents.method_type ≠ .INVITE) (hack : original.contents.method_type ≠ .ACK)
    (hbye : ¬ HangsUp before original.contents)
    (hdialog : t.dialog = dialog_for before original.contents) (hstate : t.state = .IDLE)
    (hdialogs : m.worker.dialogs = attach before.dialogs (dialog_for before original.contents) transaction)
    (hcalls : m.worker.calls = before.calls) :
    Finished before m₀ transaction original t₀ (do
      let (_, m) ← send_sip_error_response_over_transaction m transaction status_code reason
      set_transaction_state m transaction .TERMINATED) := by
  obtain ⟨m₁, t₁, s, heq₁, hconversed₁, hanswer, -, hsame, hkeeps, hstays, hcode₁, -, hd₁, hc₁⟩ :=
    h.respond status_code reason
  obtain ⟨m₂, adds, heq₂, hconversed₂, harms, hd₂, hc₂⟩ :=
    conclude .TERMINATED hconversed₁ hcell hsame (by rw [hstays, hstate]; nofun) (.inr rfl)
  rw [send_sip_error_response_over_transaction, heq₁, bind_ok]
  refine ⟨m₂, _, _, adds, heq₂, hconversed₂, ⟨hsame.queue, hsame.ack_message, hsame.branch, hsame.branch_length⟩,
    ?_, harms⟩
  refine .refused hinvite hack hbye (hkeeps.trans hdialog) rfl ?_ hanswer (hd₂.trans (hd₁.trans hdialogs))
    (hc₂.trans (hc₁.trans hcalls))
  change 300 ≤ t₁.final_response_code
  rw [hcode₁]
  omega

private theorem process_ack_request_spec {before : worker_thread_t} {m₀ m : Machine} {transaction : Nat}
    {original : Owned sip_message_t} {t₀ t : sip_transaction_t}
    (h : Talking m₀ m transaction original t₀ t [])
    (hcell : m₀.worker.transactions.heap.cells transaction = some t₀) (hholds : t.message = some original)
    (hcode : t.final_response_code = 0) (hmethod : original.contents.method_type = .ACK)
    (hdialog : t.dialog = dialog_for before original.contents) (hstate : t.state = .IDLE)
    (hdialogs : m.worker.dialogs = attach before.dialogs (dialog_for before original.contents) transaction)
    (hcalls : m.worker.calls = before.calls) :
    Finished before m₀ transaction original t₀ (process_ack_request m transaction) := by
  obtain ⟨m₁, adds, heq₁, hconversed₁, harms, hd₁, hc₁⟩ :=
    conclude .TERMINATED h.conversed hcell h.same (by rw [hstate]; nofun) (.inr rfl)
  have hread : ∀ dialog, t.dialog = some dialog → ∃ d, m.dialog dialog = ok d := by
    intro dialog hsome
    obtain ⟨d, hd, -⟩ := h.dialog dialog hsome
    exact ⟨d, Machine.dialog_of_cells hd⟩
  have hrun : process_ack_request m transaction = ok m₁ := by
    rw [process_ack_request, Machine.transaction_of_cells h.cell, bind_ok, hholds]
    simp only [hstate, hmethod, reduceCtorEq, false_and, not_false_eq_true, and_self, if_true]
    cases hsome : t.dialog with
    | none => exact heq₁
    | some dialog =>
      obtain ⟨d, hd⟩ := hread dialog hsome
      simp only [hd, bind_ok]
      exact heq₁
  refine ⟨m₁, _, _, adds, hrun, hconversed₁, ⟨h.same.queue, h.same.ack_message, h.same.branch,
    h.same.branch_length⟩, ?_, harms⟩
  exact .acked hmethod hdialog rfl hholds hcode (hd₁.trans hdialogs) (hc₁.trans hcalls) rfl

/-- A BYE on a new transaction in a confirmed dialog ends the call whether or not its 200
goes out. -/
private theorem hang_up_spec {before : worker_thread_t} {m₀ m : Machine} {transaction : Nat}
    {original : Owned sip_message_t} {t₀ t : sip_transaction_t} {dialog call : Nat} {d : sip_dialog_t}
    {c : sip_call_t} (h : Talking m₀ m transaction original t₀ t [])
    (hcell : m₀.worker.transactions.heap.cells transaction = some t₀)
    (hmethod : original.contents.method_type = .BYE)
    (hfound : dialog_for before original.contents = some dialog)
    (hd : before.dialogs.heap.cells dialog = some d) (hconfirmed : d.state = .CONFIRMED)
    (hcall : d.call = some call) (hc : before.calls.heap.cells call = some c)
    (hdialog : t.dialog = some dialog) (hstate : t.state = .IDLE)
    (hdialogs : m.worker.dialogs =
      before.dialogs.set dialog { d with transaction := d.transaction.add transaction })
    (hcalls : m.worker.calls = before.calls) :
    Finished before m₀ transaction original t₀ (do
      let m ← set_call_state m call .TERMINATING
      let (_, m) ← send_sip_200_ok_response_over_transaction m transaction
      let m ← set_call_state m call .TERMINATED
      let m ← set_dialog_state m dialog .TERMINATED
      set_transaction_state m transaction .TERMINATED) := by
  obtain ⟨m₁, heq₁, hsilent₁⟩ := set_call_state_spec (m := m) .TERMINATING (by rw [hcalls]; exact hc)
  have htalk₁ := h.goes_on (hsilent₁.conversed h.cell) rfl (.refl _) (by rw [hsilent₁.dialogs]; exact h.dialog)
  obtain ⟨m₂, t₂, s, heq₂, hconversed₂, hanswer, -, hsame, hkeeps, hstays, hcode, -, hd₂, hc₂⟩ :=
    htalk₁.respond RESPONSE_CODE_200 RESPONSE_TEXT_200_OK
  obtain ⟨m₃, heq₃, hsilent₃⟩ := set_call_state_spec (m := m₂) .TERMINATED (by
    rw [hc₂, hsilent₁.calls, hcalls]
    exact Heap.cells_set_self hc)
  obtain ⟨m₄, heq₄, hsilent₄⟩ := set_dialog_state_spec (m := m₃) .TERMINATED (by
    rw [hsilent₃.dialogs, hd₂, hsilent₁.dialogs, hdialogs]
    exact Heap.cells_set_self hd)
  have hcell₂ := hconversed₂.cells hcell
  have hcell₃ := (hsilent₃.conversed hcell₂).cells hcell₂
  have hconversed₄ := (hconversed₂.trans (hsilent₃.conversed hcell₂)).trans (hsilent₄.conversed hcell₃)
  rw [List.append_nil, List.append_nil, List.append_nil, List.append_nil] at hconversed₄
  obtain ⟨m₅, adds, heq₅, hconversed₅, harms, hd₅, hc₅⟩ :=
    conclude .TERMINATED hconversed₄ hcell hsame (by rw [hstays, hstate]; nofun) (.inr rfl)
  rw [heq₁, bind_ok, send_sip_200_ok_response_over_transaction, heq₂, bind_ok]
  simp only [heq₃, heq₄, bind_ok]
  refine ⟨m₅, _, _, adds, heq₅, hconversed₅, ⟨hsame.queue, hsame.ack_message, hsame.branch, hsame.branch_length⟩,
    ?_, harms⟩
  refine .hung_up hmethod hfound hd hconfirmed hcall hc (hkeeps.trans hdialog) rfl hcode hanswer ?_ ?_
  · rw [hd₅, hsilent₄.dialogs, hsilent₃.dialogs, hd₂, hsilent₁.dialogs, hdialogs, Store.set_set]
  · rw [hc₅, hsilent₄.calls, hsilent₃.calls, hc₂, hsilent₁.calls, hcalls, Store.set_set]

private theorem process_bye_request_spec {before : worker_thread_t} {m₀ m : Machine} {transaction : Nat}
    {original : Owned sip_message_t} {t₀ t : sip_transaction_t} (hbefore : WellFormed before)
    (h : Talking m₀ m transaction original t₀ t [])
    (hcell : m₀.worker.transactions.heap.cells transaction = some t₀) (hholds : t.message = some original)
    (hmethod : original.contents.method_type = .BYE)
    (hdialog : t.dialog = dialog_for before original.contents) (hstate : t.state = .IDLE)
    (hdialogs : m.worker.dialogs = attach before.dialogs (dialog_for before original.contents) transaction)
    (hcalls : m.worker.calls = before.calls) :
    Finished before m₀ transaction original t₀ (process_bye_request m transaction) := by
  have hrefuse : ∀ {status_code : Nat} (reason : Bytes), 300 ≤ status_code → ¬ HangsUp before original.contents →
      Finished before m₀ transaction original t₀ (do
        let (_, m) ← send_sip_error_response_over_transaction m transaction status_code reason
        set_transaction_state m transaction .TERMINATED) := fun reason hcode hbye =>
    refuse_spec h hcell reason hcode (by rw [hmethod]; nofun) (by rw [hmethod]; nofun) hbye hdialog hstate
      hdialogs hcalls
  rw [process_bye_request, Machine.transaction_of_cells h.cell, bind_ok, hholds]
  cases hfound : dialog_for before original.contents with
  | none =>
    simp only [hdialog, hfound, call_of, bind_ok]
    refine hrefuse _ (by decide) ?_
    rintro ⟨-, dialog, d, call, hsome, -⟩
    rw [hfound] at hsome
    cases hsome
  | some dialog =>
    obtain ⟨-, d, hd, -⟩ := Store.first_eq_some hfound
    have hread : m.dialog dialog = ok { d with transaction := d.transaction.add transaction } := by
      refine Machine.dialog_of_cells ?_
      rw [hdialogs, hfound, attach_some hd]
      exact Heap.cells_set_self hd
    simp only [hdialog, hfound, call_of, hread, bind_ok]
    cases hcall : d.call with
    | none =>
      simp only [Option.map_none]
      refine hrefuse _ (by decide) ?_
      rintro ⟨-, dialog', d', call, hsome, hd', -, hcall'⟩
      rw [hfound, Option.some.injEq] at hsome
      rw [← hsome, hd, Option.some.injEq] at hd'
      rw [← hd', hcall] at hcall'
      cases hcall'
    | some call =>
      simp only [Option.map_some]
      by_cases hconfirmed : d.state = .CONFIRMED
      · obtain ⟨c, hc, -⟩ := hbefore.call hd hcall
        rw [if_pos hconfirmed]
        exact hang_up_spec h hcell hmethod hfound hd hconfirmed hcall hc (hdialog.trans hfound) hstate
          (by rw [hdialogs, hfound, attach_some hd]) hcalls
      · rw [if_neg hconfirmed]
        refine hrefuse _ (by decide) ?_
        rintro ⟨-, dialog', d', call', hsome, hd', hconfirmed', -⟩
        rw [hfound, Option.some.injEq] at hsome
        rw [← hsome, hd, Option.some.injEq] at hd'
        exact hconfirmed (hd' ▸ hconfirmed')

/-- `process_sip_request` from the lookup of the dialog on, for a transaction that was just
opened. -/
theorem process_in_dialog_spec {before : worker_thread_t} {m : Machine} {transaction : Nat}
    {original : Owned sip_message_t} {t : sip_transaction_t} (hbefore : WellFormed before)
    (h : Talking m m transaction original t t []) (hholds : t.message = some original)
    (hrequest : Request original.contents) (hcode : t.final_response_code = 0) (hstate : t.state = .IDLE)
    (hnone : t.dialog = none) (hdialogs : m.worker.dialogs = before.dialogs)
    (hcalls : m.worker.calls = before.calls) :
    Finished before m transaction original t (process_in_dialog m transaction original.contents) := by
  obtain ⟨m₁, heq₁, hconversed₁, hd₁, hc₁⟩ :=
    link_dialog_spec (m := m) (by rw [hdialogs]; exact hbefore.dialogs) hrequest h.cell hnone
  have hsame_dialog : dialog_for m.worker original.contents = dialog_for before original.contents := by
    rw [dialog_for, hdialogs]
    rfl
  rw [hsame_dialog] at hconversed₁ hd₁
  rw [hdialogs] at hd₁
  have hc₁ := hc₁.trans hcalls
  have htalk₁ : Talking m m₁ transaction original t
      { t with dialog := dialog_for before original.contents } [] := by
    refine h.goes_on hconversed₁ rfl ⟨rfl, rfl, rfl, rfl⟩ ?_
    intro dialog hfound
    have hfound : dialog_for before original.contents = some dialog := hfound
    obtain ⟨-, d, hd, -⟩ := Store.first_eq_some hfound
    have htagged := hbefore.tagged hd
    rw [hd₁, cells_attach, hd, Option.map_some, if_pos hfound]
    exact ⟨_, rfl, htagged.bytes, htagged.to_tag_length⟩
  have hmethod : get_message_method original.contents = ok (original.contents.method_type, original.contents) := by
    rw [get_message_method, if_neg (by simp [hrequest.is_request]), if_pos hrequest.method_type]
  rw [process_in_dialog, Machine.transaction_of_cells h.cell, bind_ok, if_neg (by simp [hnone]), heq₁, bind_ok,
    hmethod]
  change Finished before m transaction original t (process_method m₁ transaction original.contents.method_type)
  cases hkind : original.contents.method_type with
  | INVITE =>
    cases hfound : dialog_for before original.contents with
    | none =>
      rw [hfound] at htalk₁ hd₁
      exact process_invite_request_spec htalk₁ h.cell hholds hrequest hkind hfound hstate rfl hd₁ hc₁
    | some dialog =>
      obtain ⟨-, d, hd, -⟩ := Store.first_eq_some hfound
      have hrun : process_method m₁ transaction .INVITE = ok m₁ := by
        rw [process_method, process_invite_request, Machine.transaction_of_cells htalk₁.cell, bind_ok, hholds]
        simp [hfound]
      refine ⟨m₁, _, [], [], hrun, hconversed₁, ⟨rfl, rfl, rfl, rfl⟩, ?_, by simp [hstate]⟩
      exact .reinvite hkind hfound hd hfound hstate hholds hcode (by rw [hd₁, hfound, attach_some hd]) hc₁ rfl
  | ACK => exact process_ack_request_spec htalk₁ h.cell hholds hcode hkind rfl hstate hd₁ hc₁
  | BYE => exact process_bye_request_spec hbefore htalk₁ h.cell hholds hkind rfl hstate hd₁ hc₁
  | _ =>
    exact refuse_spec htalk₁ h.cell _ (by decide) (fun hinvite => by cases hkind.symm.trans hinvite)
      (fun hack => by cases hkind.symm.trans hack)
      (by rintro ⟨hbye, -⟩; rw [hkind] at hbye; cases hbye) rfl hstate hd₁ hc₁

end mock_uas.sip_server
