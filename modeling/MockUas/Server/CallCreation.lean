import MockUas.Server.Phases

open clib
open mock_uas.sip_message
open mock_uas.sip_utils

namespace mock_uas.sip_server

/-- An INVITE with a transaction gets as far as its call: its 100 goes out, there is memory
for a dialog and a call, and a Call-ID to store. -/
structure BeginsCall (env : Environment) (message : sip_message_t) : Prop where
  trying : env.sendto 0 = true
  dialog : env.malloc 1 = true
  call : env.malloc 2 = true
  call_id : message.call_id_length ≠ 0

instance (env : Environment) : DecidablePred (BeginsCall env) := fun message =>
  decidable_of_iff (env.sendto 0 = true ∧ env.malloc 1 = true ∧ env.malloc 2 = true ∧ message.call_id_length ≠ 0)
    ⟨fun h => ⟨h.1, h.2.1, h.2.2.1, h.2.2.2⟩, fun h => ⟨h.trying, h.dialog, h.call, h.call_id⟩⟩

/-- A part of a step that leaves the calls alone and allocates nothing. -/
structure LeavesCalls (m m' : Machine) : Prop where
  calls : m'.worker.calls = m.worker.calls
  malloc : m'.env.malloc = m.env.malloc

theorem LeavesCalls.trans {m m' m'' : Machine} (h : LeavesCalls m m') (h' : LeavesCalls m' m'') : LeavesCalls m m'' :=
  ⟨h'.calls.trans h.calls, h'.malloc.trans h.malloc⟩

private theorem send_message_leaves (m : Machine) (purpose : Purpose) (message : Bytes) (message_length : Nat)
    (client_addr : sockaddr_in) (client_addr_len : Nat) :
    LeavesCalls m (send_message m purpose message message_length client_addr client_addr_len).2 ∧
      ((send_message m purpose message message_length client_addr client_addr_len).1 = 0 → m.env.sendto 0 = true) := by
  unfold send_message
  split
  · exact ⟨⟨rfl, rfl⟩, nofun⟩
  · cases hsendto : m.env.sendto 0 with
    | true => exact ⟨⟨rfl, rfl⟩, fun _ => rfl⟩
    | false => exact ⟨⟨rfl, rfl⟩, nofun⟩

/-- A builder touches no call, and returns zero only if its datagram goes out. -/
private theorem send_response_leaves {m m' : Machine} {transaction status_code : Nat} {reason : Bytes} {rc : Int}
    (h : send_response_over_transaction m transaction status_code reason = ok (rc, m')) :
    LeavesCalls m m' ∧ (rc = 0 → m.env.sendto 0 = true) := by
  unfold send_response_over_transaction at h
  split at h
  · obtain ⟨rfl, rfl⟩ := Prod.mk.inj (Except.ok.inj h)
    exact ⟨⟨rfl, rfl⟩, nofun⟩
  · obtain ⟨t, -, h⟩ := bind_eq_ok_iff.mp h
    split at h
    · obtain ⟨rfl, rfl⟩ := Prod.mk.inj (Except.ok.inj h)
      exact ⟨⟨rfl, rfl⟩, nofun⟩
    · obtain ⟨to_tag, -, h⟩ := bind_eq_ok_iff.mp h
      obtain ⟨output, -, h⟩ := bind_eq_ok_iff.mp h
      have hsent := Except.ok.inj h
      obtain ⟨hleaves, hgoes⟩ := send_message_leaves (m.set_transaction transaction _) _ _ _ _ _
      rw [hsent] at hleaves hgoes
      exact ⟨⟨hleaves.calls, hleaves.malloc⟩, hgoes⟩

private theorem set_transaction_state_calls {m m' : Machine} {transaction : Nat} {state : sip_transaction_state_t}
    (h : set_transaction_state m transaction state = ok m') : m'.worker.calls = m.worker.calls := by
  have harm : ∀ (m : Machine) t initial_ms callback,
      (arm_delete_event m transaction t initial_ms callback).worker.calls = m.worker.calls := by
    intro m t initial_ms callback
    obtain ⟨adds, -, hworker, -⟩ := arm_delete_event_spec m transaction t initial_ms callback
    rw [hworker]
  obtain ⟨t, -, h⟩ := bind_eq_ok_iff.mp h
  repeat' split at h
  all_goals
    obtain rfl := Except.ok.inj h
    first | rfl | exact harm _ _ _ _

private theorem set_proceeding_leaves {m m' : Machine} {transaction : Nat}
    (h : set_transaction_state m transaction .PROCEEDING = ok m') : LeavesCalls m m' := by
  obtain ⟨t, -, h⟩ := bind_eq_ok_iff.mp h
  split at h
  all_goals
    obtain rfl := Except.ok.inj h
    exact ⟨rfl, rfl⟩

private theorem fail_invite_calls {m m' : Machine} {transaction : Nat} (h : fail_invite m transaction = ok m') :
    m'.worker.calls = m.worker.calls := by
  obtain ⟨⟨rc, m₁⟩, hsend, h⟩ := bind_eq_ok_iff.mp h
  exact (set_transaction_state_calls h).trans (send_response_leaves hsend).1.calls

private theorem set_dialog_state_leaves {m m' : Machine} {dialog : Nat} {state : sip_dialog_state_t}
    (h : set_dialog_state m dialog state = ok m') : LeavesCalls m m' := by
  obtain ⟨d, -, h⟩ := bind_eq_ok_iff.mp h
  obtain rfl := Except.ok.inj h
  exact ⟨rfl, rfl⟩

private theorem set_transaction_dialog_leaves {m m' : Machine} {transaction dialog : Nat}
    (h : set_transaction_dialog m transaction dialog = ok m') : LeavesCalls m m' := by
  obtain ⟨t, -, h⟩ := bind_eq_ok_iff.mp h
  obtain ⟨d, -, h⟩ := bind_eq_ok_iff.mp h
  obtain rfl := Except.ok.inj h
  exact ⟨rfl, rfl⟩

/-- Without memory or a Call-ID no call is set up. -/
private theorem begin_dialog_calls {m m' : Machine} {transaction dialog : Nat} {request : sip_message_t}
    (h : begin_dialog m transaction dialog request = ok m') :
    m'.worker.calls = m.worker.calls ∨ (m.env.malloc 0 = true ∧ request.call_id_length ≠ 0) := by
  obtain ⟨m₁, hlink, h⟩ := bind_eq_ok_iff.mp h
  obtain ⟨m₂, hearly, h⟩ := bind_eq_ok_iff.mp h
  obtain ⟨call_id, -, h⟩ := bind_eq_ok_iff.mp h
  have hleaves := (set_transaction_dialog_leaves hlink).trans (set_dialog_state_leaves hearly)
  have hfails : ∀ m₃ : Machine, m₃.worker.calls = m₂.worker.calls → (do
      let m ← fail_invite m₃ transaction
      set_dialog_state m dialog .TERMINATED) = ok m' → m'.worker.calls = m.worker.calls := by
    intro m₃ hsame h
    obtain ⟨m₄, hfail, h⟩ := bind_eq_ok_iff.mp h
    exact (set_dialog_state_leaves h).calls.trans ((fail_invite_calls hfail).trans (hsame.trans hleaves.calls))
  rw [← hleaves.malloc]
  cases call_id with
  | none => exact .inl (hfails m₂ rfl h)
  | some call_id =>
    by_cases hlength : request.call_id_length = 0
    · simp only [create_new_call, if_pos hlength] at h
      exact .inl (hfails m₂ rfl h)
    · cases hmalloc : m₂.env.malloc 0 with
      | true => exact .inr ⟨rfl, hlength⟩
      | false =>
        have hflag : m₂.malloc.1 = false := hmalloc
        simp only [create_new_call, if_neg hlength, hflag, if_true] at h
        exact .inl (hfails m₂.malloc.2 rfl h)

private theorem process_invite_request_calls {m m' : Machine} {transaction : Nat} {t : sip_transaction_t}
    {message : Owned sip_message_t} (hcell : m.worker.transactions.heap.cells transaction = some t)
    (hholds : t.message = some message) (h : process_invite_request m transaction = ok m') :
    m'.worker.calls = m.worker.calls ∨ (m.env.sendto 0 = true ∧ m.env.malloc 0 = true ∧ m.env.malloc 1 = true ∧
      message.contents.call_id_length ≠ 0) := by
  rw [process_invite_request, Machine.transaction_of_cells hcell, bind_ok, hholds] at h
  simp only at h
  split at h
  · obtain rfl := Except.ok.inj h
    exact .inl rfl
  · obtain ⟨⟨rc, m₁⟩, hsend, h⟩ := bind_eq_ok_iff.mp h
    obtain ⟨hleaves, hgoes⟩ := send_response_leaves hsend
    simp only at h
    split at h
    · exact .inl ((fail_invite_calls h).trans hleaves.calls)
    · rename_i hrc
      obtain ⟨m₂, hproceeding, h⟩ := bind_eq_ok_iff.mp h
      obtain ⟨from_tag, -, h⟩ := bind_eq_ok_iff.mp h
      have hall := hleaves.trans (set_proceeding_leaves hproceeding)
      have hsendto : m.env.sendto 0 = true := hgoes (Decidable.not_not.mp hrc)
      have hfails : ∀ m₃ : Machine, m₃.worker.calls = m₂.worker.calls → fail_invite m₃ transaction = ok m' →
          m'.worker.calls = m.worker.calls := fun m₃ hsame h => (fail_invite_calls h).trans (hsame.trans hall.calls)
      cases from_tag with
      | none => exact .inl (hfails m₂ rfl h)
      | some from_tag =>
        by_cases hlength : message.contents.from_tag_length = 0
        · simp only [create_new_dialog, if_pos hlength] at h
          exact .inl (hfails m₂ rfl h)
        · cases hmalloc : m₂.env.malloc 0 with
          | false =>
            have hflag : m₂.malloc.1 = false := hmalloc
            simp only [create_new_dialog, if_neg hlength, hflag, if_true] at h
            exact .inl (hfails m₂.malloc.2 rfl h)
          | true =>
            have hflag : m₂.malloc.1 = true := hmalloc
            obtain ⟨rand, htag, -⟩ := create_to_tag_spec m₂.malloc.2 SIP_BUILD_TAG_LENGTH
            simp only [create_new_dialog, if_neg hlength, hflag, Bool.true_eq_false, if_false, htag] at h
            rcases begin_dialog_calls h with hsame | ⟨hcall, hid⟩
            · exact .inl (hsame.trans hall.calls)
            · refine .inr ⟨hsendto, ?_, ?_, hid⟩
              · rw [← hall.malloc, hmalloc]
              · rw [← hall.malloc]
                exact hcall

/-- The same from the lookup of the dialog on. -/
private theorem process_in_dialog_calls {m m' : Machine} {transaction : Nat} {t : sip_transaction_t}
    {message : Owned sip_message_t} (hdialogs : m.worker.dialogs.Sound) (hrequest : Request message.contents)
    (hcell : m.worker.transactions.heap.cells transaction = some t) (hholds : t.message = some message)
    (hdialog : t.dialog = none) (hmethod : message.contents.method_type = .INVITE)
    (hfound : dialog_for m.worker message.contents = none)
    (h : process_in_dialog m transaction message.contents = ok m') :
    m'.worker.calls = m.worker.calls ∨ (m.env.sendto 0 = true ∧ m.env.malloc 0 = true ∧ m.env.malloc 1 = true ∧
      message.contents.call_id_length ≠ 0) := by
  have hsame : get_message_method message.contents = ok (message.contents.method_type, message.contents) := by
    rw [get_message_method, if_neg (by simp [hrequest.is_request]), if_pos hrequest.method_type]
  rw [process_in_dialog, Machine.transaction_of_cells hcell, bind_ok, if_neg (by simp [hdialog]),
    link_dialog_eq hdialogs hrequest, hfound] at h
  simp only [bind_ok, hsame, hmethod] at h
  exact process_invite_request_calls hcell hholds h

/-- An INVITE outside every dialog sets up a call only if it gets as far as that. -/
theorem process_sip_request_calls {m m' : Machine} {message : Owned sip_message_t} (hworker : WellFormed m.worker)
    (hrequest : Request message.contents) (hnew : transaction_for m.worker message.contents = none)
    (hmethod : message.contents.method_type = .INVITE) (hfound : dialog_for m.worker message.contents = none)
    (h : process_sip_request m message = ok m') :
    m'.worker.calls = m.worker.calls ∨ BeginsCall m.env message.contents := by
  have hhandled := (process_sip_request_spec m message hworker hrequest).of_eq_ok h
  cases hhandled with
  | unallocated _ _ _ hm =>
    subst hm
    exact .inl rfl
  | known hknown => cases hnew.symm.trans hknown
  | opened _ hmalloc _ =>
    rw [process_new_branch_eq hworker hrequest hnew hmalloc] at h
    rcases process_in_dialog_calls (m := m.malloc.2.with_transactions (m.worker.transactions.push
        (opened_transaction m.worker.queue message))) hworker.dialogs hrequest (Heap.cells_alloc_self _ _) rfl rfl
        hmethod hfound h with
      hsame | ⟨htrying, hdialog, hcall, hid⟩
    · exact .inl hsame
    · exact .inr ⟨htrying, hdialog, hcall, hid⟩

/-- A step that adds a call is one of an INVITE, outside every dialog, that gets as far as
that. -/
theorem Run.Stepped.begins_call {run run' : Run} {input : Input} (h : Run.Stepped run input run')
    (hworker : WellFormed run.worker) (hstep : run.step input = ok run')
    (hnew : run'.worker.calls.heap.cells run.worker.calls.heap.next ≠ none) :
    ∃ datagram client_addr address env message, input = .incoming datagram client_addr address env ∧
      Accepted datagram client_addr message ∧ message.method_type = .INVITE ∧
      transaction_for run.worker message = none ∧ dialog_for run.worker message = none ∧ env.malloc 0 = true ∧
      BeginsCall env message := by
  have hnone : run.worker.calls.heap.cells run.worker.calls.heap.next = none := Heap.cells_next _
  have hsame : run'.worker.calls = run.worker.calls → False := fun hcalls => hnew (by rw [hcalls, hnone])
  cases h with
  | unhandled => exact absurd hnone hnew
  | response => exact absurd hnone hnew
  | @request datagram client_addr address env message m' haccepted hhandled =>
    rw [step_accepted haccepted] at hstep
    obtain ⟨m'', hprocess, hfinish⟩ := bind_eq_ok_iff.mp hstep
    have hcalls : m''.worker.calls = m'.worker.calls :=
      congrArg (fun run : Run => run.worker.calls) (Except.ok.inj hfinish)
    have hbegins : transaction_for run.worker message = none → message.method_type = .INVITE →
        dialog_for run.worker message = none → BeginsCall env message := by
      intro hfree hmethod hfound
      rcases process_sip_request_calls hworker haccepted.request.1 hfree hmethod hfound hprocess with hkept | hbegins
      · exact (hsame (hcalls.symm.trans hkept)).elim
      · exact hbegins
    cases hhandled with
    | unallocated _ _ _ hm =>
      subst hm
      exact absurd hnone hnew
    | known _ _ _ hknown =>
      have hphase := hknown.call_phase run.worker.calls.heap.next
      rw [call_phase, call_phase, show (run.start env).worker.calls = run.worker.calls from rfl, hnone,
        Option.map_none, Option.map_eq_none_iff] at hphase
      exact absurd hphase hnew
    | opened hfree hmalloc hopened =>
      cases hopened.fate with
      | reinvite _ _ _ _ _ _ _ _ hcalls => exact (hsame hcalls).elim
      | acked _ _ _ _ _ _ hcalls => exact (hsame hcalls).elim
      | refused _ _ _ _ _ _ _ _ hcalls => exact (hsame hcalls).elim
      | @hung_up _ call _ c _ _ _ _ _ hcell _ _ _ _ _ hcalls =>
        rw [Run.finish, hcalls, Store.heap_set, Heap.cells_set hcell, if_neg] at hnew
        · exact absurd hnone hnew
        · exact (Heap.lt_next_of_cells hcell).ne'
      | failed_alone _ _ _ _ _ _ _ hcalls => exact (hsame hcalls).elim
      | failed_in_dialog _ _ _ _ _ _ _ _ hcalls => exact (hsame hcalls).elim
      | failed_in_call hmethod hfound =>
        exact ⟨datagram, client_addr, address, env, message, rfl, haccepted, hmethod, hfree, hfound, hmalloc,
          hbegins hfree hmethod hfound⟩
      | established hmethod hfound =>
        exact ⟨datagram, client_addr, address, env, message, rfl, haccepted, hmethod, hfree, hfound, hmalloc,
          hbegins hfree hmethod hfound⟩
  | delete hdeleted =>
    cases hdeleted with
    | missing _ hm =>
      subst hm
      exact absurd hnone hnew
    | removed _ _ hdeletion =>
      cases hdeletion.removed with
      | alone _ hafter => exact (hsame (congrArg (·.calls) hafter)).elim
      | left _ _ _ hafter => exact (hsame (congrArg (·.calls) hafter)).elim
      | @ended dialog d _ hd _ hafter =>
        rw [Run.finish, hafter, cells_end_call_of_ne] at hnew
        · exact absurd hnone hnew
        · intro hcall
          obtain ⟨c, hc, -⟩ := hworker.call hd hcall
          cases hnone.symm.trans hc

end mock_uas.sip_server
