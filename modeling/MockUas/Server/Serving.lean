import MockUas.Server.ResponseFit
import MockUas.Server.WellFormed

open clib
open mock_uas.sip_message
open mock_uas.sip_utils

namespace mock_uas.sip_server

/-- A dialog whose own tag `create_to_tag` made. -/
structure OwnTag (d : sip_dialog_t) : Prop where
  to_tag : ∃ m, d.to_tag = printed SIP_TAG_MAX_LENGTH (create_to_tag m SIP_BUILD_TAG_LENGTH).1
  to_tag_length : d.to_tag_length = SIP_BUILD_TAG_LENGTH

/-- The status lines that the handlers ask for. -/
def status_lines : List (Nat × Bytes) :=
  [(RESPONSE_CODE_100, RESPONSE_TEXT_100_TRYING), (RESPONSE_CODE_180, RESPONSE_TEXT_180_RINGING),
    (RESPONSE_CODE_200, RESPONSE_TEXT_200_OK), (RESPONSE_CODE_403, RESPONSE_TEXT_403_FORBIDDEN),
    (RESPONSE_CODE_404, RESPONSE_TEXT_404_NOT_FOUND),
    (RESPONSE_CODE_500, RESPONSE_TEXT_500_INTERNAL_SERVER_ERROR),
    (RESPONSE_CODE_501, RESPONSE_TEXT_501_NOT_IMPLEMENTED)]

/-- The text a response's To value ends in, for a transaction of that dialog. -/
def tag_for (dialogs : Store sip_dialog_t) (dialog : Option Nat) (request : sip_message_t) : Bytes :=
  match dialog.bind dialogs.heap.cells with
  | none => []
  | some d => appended_tag d request

/-- A datagram is a response to a request, with the tag of a dialog that is there. -/
def Written (dialogs : Store sip_dialog_t) (request : sip_message_t) (s : Sent) : Prop :=
  ∃ status_code reason, (status_code, reason) ∈ status_lines ∧ s.status_code = status_code ∧
    (∀ dialog, s.dialog = some dialog → dialogs.heap.cells dialog ≠ none) ∧
    Carries s (formatted request status_code reason (tag_for dialogs s.dialog request))

/-- Every dialog stays, with its own tag. -/
def TagsStay (before after : Store sip_dialog_t) : Prop :=
  ∀ a d, before.heap.cells a = some d → ∃ d', after.heap.cells a = some d' ∧ d'.to_tag = d.to_tag ∧
    d'.to_tag_length = d.to_tag_length

/-- A handler at work on the transaction of a request: it can answer, all dialogs have tags
of their own, and what it has sent are responses to the request. -/
structure Serving (request : sip_message_t) (transaction : Nat) (sent : List Sent) (m : Machine) : Prop where
  ready : ∃ t held, Ready m transaction t held ∧ SameRequest held.contents request
  own_tags : ∀ a d, m.worker.dialogs.heap.cells a = some d → OwnTag d
  sent : ∃ sends, m.sent = sent ++ sends ∧ ∀ s ∈ sends, Written m.worker.dialogs request s

theorem create_to_tag_digits (m : Machine) (buffer_size : Nat) :
    ∀ b ∈ (create_to_tag m buffer_size).1, isdigit b = true := by
  induction buffer_size generalizing m with
  | zero => exact fun _ hb => absurd hb List.not_mem_nil
  | succ buffer_size ih =>
    have hdigit : ∀ n < 10, isdigit (UInt8.ofNat (48 + n)) = true := by decide
    rw [create_to_tag]
    intro b hb
    rcases List.mem_cons.mp hb with rfl | hb
    · exact hdigit _ (Nat.mod_lt _ (by omega))
    · exact ih m.rand.2 b hb

theorem OwnTag.bytes {d : sip_dialog_t} (h : OwnTag d) :
    d.to_tag.bytes.length = SIP_BUILD_TAG_LENGTH ∧ ∀ b ∈ d.to_tag.bytes, isdigit b = true := by
  obtain ⟨m, htag⟩ := h.to_tag
  obtain ⟨-, -, hlength, hclean⟩ := create_to_tag_spec m SIP_BUILD_TAG_LENGTH
  have hfits : (create_to_tag m SIP_BUILD_TAG_LENGTH).1.length ≤ SIP_TAG_MAX_LENGTH := by
    rw [hlength]
    decide
  rw [htag, bytes_printed _ hclean, List.take_of_length_le hfits]
  exact ⟨hlength, create_to_tag_digits m SIP_BUILD_TAG_LENGTH⟩

theorem OwnTag.tagged {d : sip_dialog_t} (h : OwnTag d) : Tagged d := ⟨h.bytes.1, h.to_tag_length⟩

theorem OwnTag.congr {d d' : sip_dialog_t} (h : OwnTag d) (htag : d'.to_tag = d.to_tag)
    (hlength : d'.to_tag_length = d.to_tag_length) : OwnTag d' :=
  ⟨htag ▸ h.to_tag, hlength.trans h.to_tag_length⟩

theorem TagsStay.set {dialogs : Store sip_dialog_t} {dialog : Nat} {d d' : sip_dialog_t}
    (hcell : dialogs.heap.cells dialog = some d) (htag : d'.to_tag = d.to_tag)
    (hlength : d'.to_tag_length = d.to_tag_length) : TagsStay dialogs (dialogs.set dialog d') := by
  intro a e he
  rw [Store.heap_set, Heap.cells_set hcell]
  split
  · rename_i ha
    rw [ha, hcell, Option.some.injEq] at he
    subst he
    exact ⟨d', rfl, htag, hlength⟩
  · exact ⟨e, he, rfl, rfl⟩

theorem TagsStay.push (dialogs : Store sip_dialog_t) (d : sip_dialog_t) : TagsStay dialogs (dialogs.push d) :=
  fun _ e he => ⟨e, Heap.cells_alloc_of_cells he, rfl, rfl⟩

/-- A datagram's text depends on nothing of the dialog but its own tag. -/
theorem Written.stay {before after : Store sip_dialog_t} {request : sip_message_t} {s : Sent}
    (h : Written before request s) (hstay : TagsStay before after) : Written after request s := by
  obtain ⟨status_code, reason, hmem, hcode, hlive, hcarries⟩ := h
  have hsame : tag_for after s.dialog request = tag_for before s.dialog request := by
    cases hdialog : s.dialog with
    | none => rfl
    | some dialog =>
      obtain ⟨d, hd⟩ := Option.ne_none_iff_exists'.mp (hlive dialog hdialog)
      obtain ⟨d', hd', htag, -⟩ := hstay dialog d hd
      simp only [tag_for, Option.bind_some, hd, hd', appended_tag, htag]
  refine ⟨status_code, reason, hmem, hcode, fun dialog hdialog => ?_, hsame ▸ hcarries⟩
  obtain ⟨d, hd⟩ := Option.ne_none_iff_exists'.mp (hlive dialog hdialog)
  obtain ⟨d', hd', -⟩ := hstay dialog d hd
  rw [hd']
  exact Option.some_ne_none d'

namespace Serving

variable {request : sip_message_t} {transaction : Nat} {sent : List Sent} {m m' : Machine}
  (h : Serving request transaction sent m)
include h

/-- Work on dialogs: each stays with its own tag, and a new one has a tag of its own. -/
theorem with_dialogs {dialogs : Store sip_dialog_t} (hstay : TagsStay m.worker.dialogs dialogs)
    (hown : ∀ a d, dialogs.heap.cells a = some d → OwnTag d) :
    Serving request transaction sent (m.with_dialogs dialogs) := by
  obtain ⟨t, held, hready, hsame⟩ := h.ready
  obtain ⟨sends, hsent, hwritten⟩ := h.sent
  refine ⟨⟨t, held, ⟨hready.socket, hready.cell, hready.holds, hready.request, fun dialog hdialog => ?_⟩, hsame⟩, hown,
    sends, hsent, fun s hs => (hwritten s hs).stay hstay⟩
  obtain ⟨d, hd, -⟩ := hready.dialog dialog hdialog
  obtain ⟨d', hd', -⟩ := hstay dialog d hd
  exact ⟨d', hd', (hown dialog d' hd').tagged⟩

theorem set_dialog {dialog : Nat} {d : sip_dialog_t} (d' : sip_dialog_t)
    (hcell : m.worker.dialogs.heap.cells dialog = some d)
    (htag : d'.to_tag = d.to_tag) (hlength : d'.to_tag_length = d.to_tag_length) :
    Serving request transaction sent (m.set_dialog dialog d') := by
  refine h.with_dialogs (.set hcell htag hlength) fun a e he => ?_
  rw [Store.heap_set, Heap.cells_set hcell] at he
  split at he
  · obtain rfl := Option.some.inj he
    exact (h.own_tags dialog d hcell).congr htag hlength
  · exact h.own_tags a e he

/-- A part of a step that touches neither the dialogs nor the transactions, and sends nothing. -/
theorem frame (hsocket : m'.worker.server_socket = m.worker.server_socket)
    (htransactions : m'.worker.transactions = m.worker.transactions)
    (hdialogs : m'.worker.dialogs = m.worker.dialogs) (hsent : m'.sent = m.sent) :
    Serving request transaction sent m' := by
  obtain ⟨t, held, hready, hsame⟩ := h.ready
  obtain ⟨sends, hsends, hwritten⟩ := h.sent
  refine ⟨⟨t, held, ⟨?_, ?_, hready.holds, hready.request, ?_⟩, hsame⟩, ?_, sends, hsent.trans hsends, ?_⟩
  · rw [hsocket]
    exact hready.socket
  · rw [htransactions]
    exact hready.cell
  · rw [hdialogs]
    exact hready.dialog
  · rw [hdialogs]
    exact h.own_tags
  · rw [hdialogs]
    exact hwritten

/-- A transaction that keeps its request and leads to a live dialog, if to any. -/
theorem set_transaction {t : sip_transaction_t} (t' : sip_transaction_t)
    (hcell : m.worker.transactions.heap.cells transaction = some t)
    (hmessage : t'.message = t.message)
    (hdialog : ∀ dialog, t'.dialog = some dialog → t.dialog = some dialog ∨ m.worker.dialogs.heap.cells dialog ≠ none) :
    Serving request transaction sent (m.set_transaction transaction t') := by
  obtain ⟨u, held, hready, hsame⟩ := h.ready
  obtain rfl := Option.some.inj (hcell.symm.trans hready.cell)
  refine ⟨⟨t', held, ⟨hready.socket, Heap.cells_set_self hcell, hmessage.trans hready.holds, hready.request, ?_⟩,
    hsame⟩, h.own_tags, h.sent⟩
  intro dialog hd
  rcases hdialog dialog hd with hkept | hlive
  · exact hready.dialog dialog hkept
  · obtain ⟨d, hcell⟩ := Option.ne_none_iff_exists'.mp hlive
    exact ⟨d, hcell, (h.own_tags dialog d hcell).tagged⟩

/-- Every builder adds one response. -/
theorem send_response {status_code : Nat} {reason : Bytes} {rc : Int} (hmem : (status_code, reason) ∈ status_lines)
    (hrun : send_response_over_transaction m transaction status_code reason = ok (rc, m')) :
    Serving request transaction sent m' := by
  obtain ⟨t, held, hready, hsame⟩ := h.ready
  obtain ⟨sends, hsent, hwritten⟩ := h.sent
  obtain ⟨m'', heq, hconversed, hdialogs, -⟩ := send_response_spec hready status_code reason
  obtain ⟨-, rfl⟩ := Prod.mk.inj (Except.ok.inj (heq.symm.trans hrun))
  have hsame' := hsame.with_response (by
    rw [← List.length_pos_iff, ← hsame.response]
    exact List.length_pos_iff.mpr (response_ne_nil hready.request)) (output_of m t held status_code reason)
  have houtput : output_of m t held status_code reason =
      formatted request status_code reason (tag_for m.worker.dialogs t.dialog request) := by
    rw [output_of, hsame.formatted_eq, hsame.tag_of_eq]
    rfl
  obtain ⟨s, hs⟩ : ∃ s, s = datagram_of transaction (answered t held status_code (output_of m t held status_code reason))
    (with_response held.contents (output_of m t held status_code reason)) (m.env.sendto 0) := ⟨_, rfl⟩
  have hdialog : s.dialog = t.dialog := by
    rw [hs]
    rfl
  have hcarries : Carries s (output_of m t held status_code reason) := by
    rw [hs]
    exact carries_printed hready.request.response rfl rfl
  have hnew : Written m.worker.dialogs request s := by
    rw [houtput, ← hdialog] at hcarries
    refine ⟨status_code, reason, hmem, by rw [hs]; rfl, fun dialog hlinked => ?_, hcarries⟩
    obtain ⟨d, hd, -⟩ := hready.dialog dialog (hdialog ▸ hlinked)
    rw [hd]
    exact Option.some_ne_none d
  rw [← hs] at hconversed
  refine ⟨⟨_, _, hready.conversed hconversed rfl
    ((SameRequest.refl held.contents).with_response (response_ne_nil hready.request) _) ?_, hsame'⟩, ?_,
    sends ++ [s], ?_, ?_⟩
  · rw [hdialogs]
    exact hready.dialog
  · rw [hdialogs]
    exact h.own_tags
  · rw [hconversed.sent, hsent, List.append_assoc]
  · rw [hdialogs]
    intro r hr
    rcases List.mem_append.mp hr with hr | hr
    · exact hwritten r hr
    · exact List.mem_singleton.mp hr ▸ hnew

theorem set_call_state {call : Nat} {state : sip_call_state_t} (hrun : set_call_state m call state = ok m') :
    Serving request transaction sent m' := by
  obtain ⟨c, -, hrun⟩ := bind_eq_ok_iff.mp hrun
  obtain rfl := Except.ok.inj hrun
  exact h.frame rfl rfl rfl rfl

theorem set_dialog_state {dialog : Nat} {state : sip_dialog_state_t} (hrun : set_dialog_state m dialog state = ok m') :
    Serving request transaction sent m' := by
  obtain ⟨d, hread, hrun⟩ := bind_eq_ok_iff.mp hrun
  obtain rfl := Except.ok.inj hrun
  exact h.set_dialog _ (Heap.read_eq_ok_iff.mp hread) rfl rfl

theorem set_dialog_call {dialog call : Nat} (hrun : set_dialog_call m dialog call = ok m') :
    Serving request transaction sent m' := by
  obtain ⟨d, hread, hrun⟩ := bind_eq_ok_iff.mp hrun
  obtain ⟨c, -, hrun⟩ := bind_eq_ok_iff.mp hrun
  obtain rfl := Except.ok.inj hrun
  exact (h.set_dialog { d with call := some call } (Heap.read_eq_ok_iff.mp hread) rfl rfl).frame rfl rfl rfl rfl

theorem set_transaction_dialog {dialog : Nat} (hrun : set_transaction_dialog m transaction dialog = ok m') :
    Serving request transaction sent m' := by
  obtain ⟨t, hread, hrun⟩ := bind_eq_ok_iff.mp hrun
  obtain ⟨d, hdialog, hrun⟩ := bind_eq_ok_iff.mp hrun
  obtain rfl := Except.ok.inj hrun
  have hcell : m.worker.dialogs.heap.cells dialog = some d := Heap.read_eq_ok_iff.mp hdialog
  have hlinked := h.set_transaction { t with dialog := some dialog } (Heap.read_eq_ok_iff.mp hread) rfl
    fun a ha => .inr (by
      obtain rfl := Option.some.inj ha
      rw [hcell]
      exact nofun)
  exact hlinked.set_dialog { d with transaction := d.transaction.add transaction } hcell rfl rfl

theorem set_transaction_state {state : sip_transaction_state_t}
    (hrun : set_transaction_state m transaction state = ok m') : Serving request transaction sent m' := by
  obtain ⟨t, hread, hrun⟩ := bind_eq_ok_iff.mp hrun
  have hstate := h.set_transaction { t with state := state } (Heap.read_eq_ok_iff.mp hread) rfl
    fun _ hdialog => .inl hdialog
  have harm : ∀ initial_ms callback, Serving request transaction sent
      (arm_delete_event (m.set_transaction transaction { t with state := state }) transaction t initial_ms callback) := by
    intro initial_ms callback
    obtain ⟨adds, -, hworker, hsent, -⟩ := arm_delete_event_spec
      (m.set_transaction transaction { t with state := state }) transaction t initial_ms callback
    exact hstate.frame (by rw [hworker]) (by rw [hworker]) (by rw [hworker]) hsent
  split at hrun
  · obtain rfl := Except.ok.inj hrun
    exact h
  · cases state with
    | IDLE => exact Except.ok.inj hrun ▸ hstate
    | PROCEEDING => exact Except.ok.inj hrun ▸ hstate
    | COMPLETED => exact Except.ok.inj hrun ▸ harm _ _
    | TERMINATED => exact Except.ok.inj hrun ▸ harm _ _

theorem create_new_dialog (from_tag : Option Bytes) (from_tag_length : Nat) :
    Serving request transaction sent (create_new_dialog m from_tag from_tag_length).2 := by
  cases from_tag with
  | none => exact h
  | some from_tag =>
    rw [sip_utils.create_new_dialog]
    split
    · exact h
    · cases hmalloc : m.env.malloc 0 with
      | false =>
        have hflag : m.malloc.1 = false := hmalloc
        simp only [hflag, if_true]
        exact h.frame rfl rfl rfl rfl
      | true =>
        have hflag : m.malloc.1 = true := hmalloc
        obtain ⟨rand, hm, -⟩ := create_to_tag_spec m.malloc.2 SIP_BUILD_TAG_LENGTH
        simp only [hflag, Bool.true_eq_false, if_false, hm]
        have hbefore : Serving request transaction sent
            { m.malloc.2 with env := { m.malloc.2.env with rand := rand } } := h.frame rfl rfl rfl rfl
        refine hbefore.with_dialogs (.push _ _) fun a d hd => ?_
        rw [Store.heap_push, Heap.cells_alloc] at hd
        split at hd
        · obtain rfl := Option.some.inj hd
          exact ⟨⟨m.malloc.2, rfl⟩, rfl⟩
        · exact h.own_tags a d hd

theorem create_new_call (call_id : Option Bytes) (call_id_length : Nat) :
    Serving request transaction sent (create_new_call m call_id call_id_length).2 := by
  cases call_id with
  | none => exact h
  | some call_id =>
    rw [sip_utils.create_new_call]
    split
    · exact h
    · cases hmalloc : m.env.malloc 0 with
      | false =>
        have hflag : m.malloc.1 = false := hmalloc
        simp only [hflag, if_true]
        exact h.frame rfl rfl rfl rfl
      | true =>
        have hflag : m.malloc.1 = true := hmalloc
        simp only [hflag, Bool.true_eq_false, if_false]
        exact h.frame rfl rfl rfl rfl

theorem fail_invite (hrun : fail_invite m transaction = ok m') : Serving request transaction sent m' := by
  obtain ⟨⟨rc, m₁⟩, hsend, hrun⟩ := bind_eq_ok_iff.mp hrun
  exact (h.send_response (by decide) hsend).set_transaction_state hrun

omit h in
private theorem failed_call {dialog call : Nat} (h : Serving request transaction sent m) (hrun : (do
      let m ← sip_server.fail_invite m transaction
      let m ← sip_utils.set_dialog_state m dialog .TERMINATED
      sip_utils.set_call_state m call .FAILED) = ok m') : Serving request transaction sent m' := by
  obtain ⟨m₁, hfail, hrun⟩ := bind_eq_ok_iff.mp hrun
  obtain ⟨m₂, hdialog, hrun⟩ := bind_eq_ok_iff.mp hrun
  exact ((h.fail_invite hfail).set_dialog_state hdialog).set_call_state hrun

theorem answer_invite {dialog call : Nat} (hrun : answer_invite m transaction dialog call = ok m') :
    Serving request transaction sent m' := by
  obtain ⟨⟨rc, m₁⟩, hringing, hrun⟩ := bind_eq_ok_iff.mp hrun
  have h₁ := h.send_response (by decide) hringing
  simp only at hrun
  split at hrun
  · exact failed_call h₁ hrun
  · obtain ⟨m₂, hcall, hrun⟩ := bind_eq_ok_iff.mp hrun
    obtain ⟨⟨rc', m₃⟩, hsuccess, hrun⟩ := bind_eq_ok_iff.mp hrun
    have h₃ := (h₁.set_call_state hcall).send_response (by decide) hsuccess
    simp only at hrun
    split at hrun
    · exact failed_call h₃ hrun
    · obtain ⟨m₄, hstate, hrun⟩ := bind_eq_ok_iff.mp hrun
      obtain ⟨m₅, hdialog, hrun⟩ := bind_eq_ok_iff.mp hrun
      exact ((h₃.set_transaction_state hstate).set_dialog_state hdialog).set_call_state hrun

theorem begin_dialog {dialog : Nat} {message : sip_message_t}
    (hrun : begin_dialog m transaction dialog message = ok m') : Serving request transaction sent m' := by
  obtain ⟨m₁, hlink, hrun⟩ := bind_eq_ok_iff.mp hrun
  obtain ⟨m₂, hearly, hrun⟩ := bind_eq_ok_iff.mp hrun
  obtain ⟨call_id, -, hrun⟩ := bind_eq_ok_iff.mp hrun
  have h₃ := ((h.set_transaction_dialog hlink).set_dialog_state hearly).create_new_call call_id message.call_id_length
  split at hrun
  · rename_i hcreate
    rw [hcreate] at h₃
    obtain ⟨m₄, hfail, hrun⟩ := bind_eq_ok_iff.mp hrun
    exact (h₃.fail_invite hfail).set_dialog_state hrun
  · rename_i hcreate
    rw [hcreate] at h₃
    obtain ⟨m₄, hlinked, hrun⟩ := bind_eq_ok_iff.mp hrun
    obtain ⟨m₅, hincoming, hrun⟩ := bind_eq_ok_iff.mp hrun
    exact ((h₃.set_dialog_call hlinked).set_call_state hincoming).answer_invite hrun

theorem process_invite_request (hrun : process_invite_request m transaction = ok m') :
    Serving request transaction sent m' := by
  obtain ⟨t, -, hrun⟩ := bind_eq_ok_iff.mp hrun
  split at hrun
  · obtain rfl := Except.ok.inj hrun
    exact h
  · rename_i message hholds
    simp only at hrun
    split at hrun
    · obtain rfl := Except.ok.inj hrun
      exact h
    · obtain ⟨⟨rc, m₁⟩, htrying, hrun⟩ := bind_eq_ok_iff.mp hrun
      have h₁ := h.send_response (by decide) htrying
      simp only at hrun
      split at hrun
      · exact h₁.fail_invite hrun
      · obtain ⟨m₂, hproceeding, hrun⟩ := bind_eq_ok_iff.mp hrun
        obtain ⟨from_tag, -, hrun⟩ := bind_eq_ok_iff.mp hrun
        have h₂ := (h₁.set_transaction_state hproceeding).create_new_dialog from_tag message.contents.from_tag_length
        split at hrun
        · rename_i hcreate
          rw [hcreate] at h₂
          exact h₂.fail_invite hrun
        · rename_i hcreate
          rw [hcreate] at h₂
          exact h₂.begin_dialog hrun

theorem process_ack_request (hrun : process_ack_request m transaction = ok m') :
    Serving request transaction sent m' := by
  obtain ⟨t, -, hrun⟩ := bind_eq_ok_iff.mp hrun
  split at hrun
  · obtain rfl := Except.ok.inj hrun
    exact h
  · simp only at hrun
    split at hrun
    · split at hrun
      · exact h.set_transaction_state hrun
      · obtain ⟨d, -, hrun⟩ := bind_eq_ok_iff.mp hrun
        exact h.set_transaction_state hrun
    · exact h.set_transaction_state hrun

theorem process_bye_request (hrun : process_bye_request m transaction = ok m') :
    Serving request transaction sent m' := by
  obtain ⟨t, -, hrun⟩ := bind_eq_ok_iff.mp hrun
  split at hrun
  · obtain rfl := Except.ok.inj hrun
    exact h
  · obtain ⟨found, -, hrun⟩ := bind_eq_ok_iff.mp hrun
    split at hrun
    · obtain ⟨⟨rc, m₁⟩, hsend, hrun⟩ := bind_eq_ok_iff.mp hrun
      exact (h.send_response (by decide) hsend).set_transaction_state hrun
    · split at hrun
      · obtain ⟨m₁, hterminating, hrun⟩ := bind_eq_ok_iff.mp hrun
        obtain ⟨⟨rc, m₂⟩, hsend, hrun⟩ := bind_eq_ok_iff.mp hrun
        obtain ⟨m₃, hcall, hrun⟩ := bind_eq_ok_iff.mp hrun
        obtain ⟨m₄, hdialog, hrun⟩ := bind_eq_ok_iff.mp hrun
        have h₂ := (h.set_call_state hterminating).send_response (by decide) hsend
        exact ((h₂.set_call_state hcall).set_dialog_state hdialog).set_transaction_state hrun
      · obtain ⟨⟨rc, m₁⟩, hsend, hrun⟩ := bind_eq_ok_iff.mp hrun
        exact (h.send_response (by decide) hsend).set_transaction_state hrun

theorem process_method {method : sip_method_t} (hrun : process_method m transaction method = ok m') :
    Serving request transaction sent m' := by
  unfold sip_server.process_method at hrun
  split at hrun
  · exact h.process_invite_request hrun
  · exact h.process_ack_request hrun
  · exact h.process_bye_request hrun
  · obtain ⟨⟨rc, m₁⟩, hsend, hrun⟩ := bind_eq_ok_iff.mp hrun
    exact (h.send_response (by decide) hsend).set_transaction_state hrun

theorem process_in_dialog {message : sip_message_t} (hrun : process_in_dialog m transaction message = ok m') :
    Serving request transaction sent m' := by
  obtain ⟨t, -, hrun⟩ := bind_eq_ok_iff.mp hrun
  have hmethod : ∀ m₁, Serving request transaction sent m₁ → (do
      let result ← get_message_method message
      sip_server.process_method m₁ transaction result.1) = ok m' → Serving request transaction sent m' := by
    intro m₁ h₁ hrun
    obtain ⟨method, -, hrun⟩ := bind_eq_ok_iff.mp hrun
    exact h₁.process_method hrun
  simp only at hrun
  split at hrun
  · exact hmethod m h hrun
  · obtain ⟨m₁, hlink, hrun⟩ := bind_eq_ok_iff.mp hrun
    refine hmethod m₁ ?_ hrun
    obtain ⟨from_tag, -, hlink⟩ := bind_eq_ok_iff.mp hlink
    obtain ⟨to_tag, -, hlink⟩ := bind_eq_ok_iff.mp hlink
    obtain ⟨found, -, hlink⟩ := bind_eq_ok_iff.mp hlink
    split at hlink
    · obtain rfl := Except.ok.inj hlink
      exact h
    · exact h.set_transaction_dialog hlink

end Serving

/-- What a worker has sent by the end of a request with a new branch, and the tags its
dialogs have then. -/
theorem process_new_branch_serves {m m' : Machine} {message : Owned sip_message_t} (hworker : WellFormed m.worker)
    (hown : ∀ a d, m.worker.dialogs.heap.cells a = some d → OwnTag d) (hrequest : Request message.contents)
    (hnew : transaction_for m.worker message.contents = none) (hmalloc : m.env.malloc 0 = true)
    (h : process_sip_request m message = ok m') :
    Serving message.contents m.worker.transactions.heap.next m.sent m' := by
  rw [process_new_branch_eq hworker hrequest hnew hmalloc] at h
  have hready : Ready (m.malloc.2.with_transactions (m.worker.transactions.push (opened_transaction m.worker.queue
      message))) m.worker.transactions.heap.next (opened_transaction m.worker.queue message) message :=
    ⟨hworker.socket, Heap.cells_alloc_self _ _, rfl, hrequest, nofun⟩
  have hbefore : Serving message.contents m.worker.transactions.heap.next m.sent (m.malloc.2.with_transactions
      (m.worker.transactions.push (opened_transaction m.worker.queue message))) :=
    ⟨⟨_, _, hready, .refl _⟩, hown, [], (List.append_nil _).symm, nofun⟩
  exact hbefore.process_in_dialog h

end mock_uas.sip_server
