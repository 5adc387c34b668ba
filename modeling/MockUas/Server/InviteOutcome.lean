import MockUas.Server.Conversation

open clib
open mock_uas.sip_message
open mock_uas.sip_utils

namespace mock_uas.sip_server

theorem conversed_with_env {m : Machine} {transaction : Nat} {t : sip_transaction_t} {env : Environment}
    (hcell : m.worker.transactions.heap.cells transaction = some t) (hlater : Later m.env env) :
    Conversed m { m with env := env } transaction t [] [] :=
  { Conversed.refl hcell with later := hlater }

/-- A conversation goes on through steps that send nothing. -/
theorem Talking.goes_on {m₀ m m' : Machine} {transaction : Nat} {original : Owned sip_message_t}
    {t₀ t t' : sip_transaction_t} {sends : List Sent} (h : Talking m₀ m transaction original t₀ t sends)
    (hconversed : Conversed m m' transaction t' [] []) (hmessage : t'.message = t.message)
    (hsame : SameTransaction t' t)
    (hdialog : ∀ dialog, t'.dialog = some dialog → ∃ d, m'.worker.dialogs.heap.cells dialog = some d ∧ Tagged d) :
    Talking m₀ m' transaction original t₀ t' sends where
  conversed := by
    have hall := h.conversed.trans hconversed
    rwa [List.append_nil] at hall
  ready := by
    obtain ⟨contents, hready, hcontents⟩ := h.ready
    exact ⟨contents, hready.conversed hconversed (hmessage.trans hready.holds) (.refl _) hdialog, hcontents⟩
  same := ⟨hsame.queue.trans h.same.queue, hsame.ack_message.trans h.same.ack_message,
    hsame.branch.trans h.same.branch, hsame.branch_length.trans h.same.branch_length⟩
  provisional := h.provisional

theorem Talking.cell {m₀ m : Machine} {transaction : Nat} {original : Owned sip_message_t}
    {t₀ t : sip_transaction_t} {sends : List Sent} (h : Talking m₀ m transaction original t₀ t sends) :
    m.worker.transactions.heap.cells transaction = some t := by
  obtain ⟨contents, hready, -⟩ := h.ready
  exact hready.cell

theorem Talking.dialog {m₀ m : Machine} {transaction : Nat} {original : Owned sip_message_t}
    {t₀ t : sip_transaction_t} {sends : List Sent} (h : Talking m₀ m transaction original t₀ t sends) :
    ∀ dialog, t.dialog = some dialog → ∃ d, m.worker.dialogs.heap.cells dialog = some d ∧ Tagged d := by
  obtain ⟨contents, hready, -⟩ := h.ready
  exact hready.dialog

theorem create_to_tag_spec (m : Machine) (buffer_size : Nat) :
    ∃ rand, (create_to_tag m buffer_size).2 = { m with env := { m.env with rand := rand } } ∧
      (create_to_tag m buffer_size).1.length = buffer_size ∧ NUL ∉ (create_to_tag m buffer_size).1 := by
  induction buffer_size generalizing m with
  | zero => exact ⟨m.env.rand, rfl, rfl, by simp [create_to_tag]⟩
  | succ buffer_size ih =>
    obtain ⟨rand, hm, hlength, hclean⟩ := ih m.rand.2
    refine ⟨rand, ?_, by simp [create_to_tag, hlength], ?_⟩
    · rw [create_to_tag]
      exact hm
    · have hdigit : ∀ n < 10, NUL ≠ UInt8.ofNat (48 + n) := by decide
      rw [create_to_tag, List.mem_cons, not_or]
      exact ⟨hdigit _ (Nat.mod_lt _ (by omega)), hclean⟩

/-- A new dialog is pushed in front of the others, unless there is no memory for it. -/
theorem create_new_dialog_spec (m : Machine) (from_tag : Bytes) {from_tag_length : Nat}
    (hlength : from_tag_length ≠ 0) :
    ∃ env, Later m.env env ∧
      (create_new_dialog m (some from_tag) from_tag_length = (none, { m with env := env }) ∨
        ∃ to_tag : Bytes, to_tag.length = SIP_BUILD_TAG_LENGTH ∧ NUL ∉ to_tag ∧
          create_new_dialog m (some from_tag) from_tag_length =
            (some m.worker.dialogs.heap.next, { m with env := env }.with_dialogs
              (m.worker.dialogs.push (new_dialog from_tag from_tag_length to_tag)))) := by
  cases halloc : m.env.malloc 0 with
  | false =>
    refine ⟨m.malloc.2.env, ⟨rfl, ⟨1, fun _ => rfl⟩, ⟨0, fun _ => rfl⟩⟩, .inl ?_⟩
    simp only [create_new_dialog, if_neg hlength, Machine.malloc, halloc, if_true]
  | true =>
    obtain ⟨rand, hm, htag, hclean⟩ := create_to_tag_spec m.malloc.2 SIP_BUILD_TAG_LENGTH
    refine ⟨{ m.malloc.2.env with rand := rand }, ⟨rfl, ⟨1, fun _ => rfl⟩, ⟨0, fun _ => rfl⟩⟩,
      .inr ⟨_, htag, hclean, ?_⟩⟩
    have hflag : m.malloc.1 = true := halloc
    simp only [create_new_dialog, if_neg hlength, hflag, Bool.true_eq_false, if_false, hm]
    rfl

/-- A new call is pushed in front of the others, unless there is no memory for it or no
Call-ID to store. -/
theorem create_new_call_spec (m : Machine) (call_id : Bytes) (call_id_length : Nat) :
    ∃ env, Later m.env env ∧
      (create_new_call m (some call_id) call_id_length = (none, { m with env := env }) ∨
        create_new_call m (some call_id) call_id_length =
          (some m.worker.calls.heap.next, { m with env := env }.with_calls
            (m.worker.calls.push (new_call call_id call_id_length)))) := by
  by_cases hlength : call_id_length = 0
  · exact ⟨m.env, .refl _, .inl (by simp [create_new_call, hlength])⟩
  · refine ⟨m.malloc.2.env, ⟨rfl, ⟨1, fun _ => rfl⟩, ⟨0, fun _ => rfl⟩⟩, ?_⟩
    cases halloc : m.malloc.1 with
    | false =>
      left
      simp only [create_new_call, if_neg hlength, halloc, if_true]
      rfl
    | true =>
      right
      simp only [create_new_call, if_neg hlength, halloc, Bool.true_eq_false, if_false]
      rfl

theorem Begun.with_state {message : sip_message_t} {transaction : Nat} {call : Option Nat}
    {state state' : sip_dialog_state_t} {d : sip_dialog_t} (h : Begun message transaction call state d) :
    Begun message transaction call state' { d with state := state' } := by
  obtain ⟨to_tag, hlength, hclean, rfl⟩ := h
  exact ⟨to_tag, hlength, hclean, rfl⟩

theorem Begun.tagged {message : sip_message_t} {transaction : Nat} {call : Option Nat}
    {state : sip_dialog_state_t} {d : sip_dialog_t} (h : Begun message transaction call state d) : Tagged d := by
  obtain ⟨to_tag, hlength, hclean, rfl⟩ := h
  refine ⟨?_, rfl⟩
  change (printed SIP_TAG_MAX_LENGTH to_tag).bytes.length = _
  rw [bytes_printed _ hclean, List.length_take, hlength]
  decide

/-- What the handlers for a new transaction end with. -/
def Finished (before : worker_thread_t) (m₀ : Machine) (transaction : Nat) (original : Owned sip_message_t)
    (t₀ : sip_transaction_t) (result : Result Machine) : Prop :=
  ∃ m' t sends adds, result = ok m' ∧ Conversed m₀ m' transaction t sends adds ∧ SameTransaction t t₀ ∧
    Fate before original transaction t m'.worker sends ∧
    if t.state = .IDLE then adds = [] else Arms m₀.env m₀.events transaction t₀ adds

/-- The last two writes of every exit that has a dialog and a call. -/
private theorem settle_spec {before : worker_thread_t} {m : Machine} {transaction : Nat} {t : sip_transaction_t}
    {d : sip_dialog_t} {c : sip_call_t} (hcell : m.worker.transactions.heap.cells transaction = some t)
    (hdialogs : m.worker.dialogs = before.dialogs.push d) (hcalls : m.worker.calls = before.calls.push c)
    (dialog_state : sip_dialog_state_t) (call_state : sip_call_state_t) :
    ∃ m', (do
        let m ← set_dialog_state m before.dialogs.heap.next dialog_state
        set_call_state m before.calls.heap.next call_state) = ok m' ∧
      Conversed m m' transaction t [] [] ∧
      m'.worker.dialogs = before.dialogs.push { d with state := dialog_state } ∧
      m'.worker.calls = before.calls.push { c with state := call_state } := by
  have hd : m.worker.dialogs.heap.cells before.dialogs.heap.next = some d := by
    rw [hdialogs]
    exact Heap.cells_alloc_self _ _
  have hc : m.worker.calls.heap.cells before.calls.heap.next = some c := by
    rw [hcalls]
    exact Heap.cells_alloc_self _ _
  obtain ⟨m₁, heq₁, hsilent₁⟩ := set_dialog_state_spec dialog_state hd
  obtain ⟨m₂, heq₂, hsilent₂⟩ := set_call_state_spec call_state (hsilent₁.calls ▸ hc)
  have hcell₁ : m₁.worker.transactions.heap.cells transaction = some t := hsilent₁.transactions ▸ hcell
  refine ⟨m₂, ?_, (hsilent₁.conversed hcell).trans (hsilent₂.conversed hcell₁), ?_, ?_⟩
  · rw [heq₁, bind_ok, heq₂]
  · rw [hsilent₂.dialogs, hsilent₁.dialogs, hdialogs, Store.push_set]
  · rw [hsilent₂.calls, hsilent₁.calls, hcalls, Store.push_set]

/-- The failure exit once the dialog and the call are set up. -/
private theorem fail_in_call {before : worker_thread_t} {m₀ m : Machine} {transaction : Nat}
    {original : Owned sip_message_t} {t₀ t : sip_transaction_t} {sends : List Sent} {d : sip_dialog_t}
    {state : sip_call_state_t} (h : Talking m₀ m transaction original t₀ t sends)
    (hcell : m₀.worker.transactions.heap.cells transaction = some t₀)
    (hmethod : original.contents.method_type = .INVITE) (hfound : dialog_for before original.contents = none)
    (hstate : t.state = .PROCEEDING) (hdialog : t.dialog = some before.dialogs.heap.next)
    (hbegun : Begun original.contents transaction (some before.calls.heap.next) .EARLY d)
    (hdialogs : m.worker.dialogs = before.dialogs.push d)
    (hcalls : m.worker.calls = before.calls.push (set_up_call original.contents before.dialogs.heap.next state)) :
    Finished before m₀ transaction original t₀ (do
      let m ← fail_invite m transaction
      let m ← set_dialog_state m before.dialogs.heap.next .TERMINATED
      set_call_state m before.calls.heap.next .FAILED) := by
  obtain ⟨m₁, t₁, sends₁, adds, heq, hall, hanswer, harms, hsame, hkeeps, hcompleted, hcode, hdialogs₁, hcalls₁⟩ :=
    h.fail_invite hcell (by rw [hstate]; nofun)
  have hd : m₁.worker.dialogs = before.dialogs.push d := hdialogs₁.trans hdialogs
  have hc := hcalls₁.trans hcalls
  obtain ⟨m₂, hsettle, hsettled, hdialogs₂, hcalls₂⟩ := settle_spec (hall.cells hcell) hd hc .TERMINATED .FAILED
  have hend := hall.trans hsettled
  rw [List.append_nil, List.append_nil] at hend
  rw [heq, bind_ok]
  refine ⟨m₂, t₁, sends₁, adds, hsettle, hend, hsame, ?_, ?_⟩
  · exact .failed_in_call hmethod hfound (hkeeps.trans hdialog) hcompleted hcode hanswer hbegun.with_state
      hdialogs₂ hcalls₂
  · rw [if_neg (by rw [hcompleted]; nofun)]
    exact harms

/-- From the 180 on, an INVITE either fails with its dialog and call or establishes them. -/
theorem answer_invite_spec {before : worker_thread_t} {m₀ m : Machine} {transaction : Nat}
    {original : Owned sip_message_t} {t₀ t : sip_transaction_t} {sends : List Sent} {d : sip_dialog_t}
    (h : Talking m₀ m transaction original t₀ t sends)
    (hcell : m₀.worker.transactions.heap.cells transaction = some t₀)
    (hmethod : original.contents.method_type = .INVITE) (hfound : dialog_for before original.contents = none)
    (hsends : (sends.filter (·.success)).map (·.status_code) = [100])
    (hstate : t.state = .PROCEEDING) (hdialog : t.dialog = some before.dialogs.heap.next)
    (hbegun : Begun original.contents transaction (some before.calls.heap.next) .EARLY d)
    (hdialogs : m.worker.dialogs = before.dialogs.push d)
    (hcalls : m.worker.calls =
      before.calls.push (set_up_call original.contents before.dialogs.heap.next .INCOMING)) :
    Finished before m₀ transaction original t₀
      (answer_invite m transaction before.dialogs.heap.next before.calls.heap.next) := by
  obtain ⟨m₁, t₁, s, heq, -, -, hcontinues, hsame, hkeeps, hstays, -, hcode, hdialogs₁, hcalls₁⟩ :=
    h.respond RESPONSE_CODE_180 RESPONSE_TEXT_180_RINGING
  have htalk := hcontinues hmethod (by decide) fun _ => by
    rw [hsends]
    decide
  rw [answer_invite, send_180_ring_response_over_transaction, heq, bind_ok]
  cases hsuccess : s.success with
  | false =>
    exact fail_in_call htalk hcell hmethod hfound (hstays.trans hstate) (hkeeps.trans hdialog) hbegun
      (hdialogs₁.trans hdialogs) (hcalls₁.trans hcalls)
  | true =>
    have hd₁ := hdialogs₁.trans hdialogs
    have hc₁ := hcalls₁.trans hcalls
    have hc : m₁.worker.calls.heap.cells before.calls.heap.next =
        some (set_up_call original.contents before.dialogs.heap.next .INCOMING) := by
      rw [hc₁]
      exact Heap.cells_alloc_self _ _
    obtain ⟨m₂, heq₂, hsilent⟩ := set_call_state_spec .RINGING hc
    have hd₂ : m₂.worker.dialogs = before.dialogs.push d := hsilent.dialogs.trans hd₁
    have hc₂ : m₂.worker.calls =
        before.calls.push (set_up_call original.contents before.dialogs.heap.next .RINGING) := by
      rw [hsilent.calls, hc₁, Store.push_set]
      rfl
    have hringing : Talking m₀ m₂ transaction original t₀ t₁ (sends ++ [s]) := by
      refine htalk.goes_on (hsilent.conversed htalk.cell) rfl (.refl _) ?_
      rw [hsilent.dialogs]
      exact htalk.dialog
    obtain ⟨m₃, t₃, s₃, heq₃, hconversed₃, hanswer₃, hcontinues₃, hsame₃, hkeeps₃, hstays₃, hcode₃, -,
      hdialogs₃, hcalls₃⟩ := hringing.respond RESPONSE_CODE_200 RESPONSE_TEXT_200_OK
    simp only [if_true, ne_eq, not_true_eq_false, if_false, heq₂, bind_ok,
      send_sip_200_ok_response_over_transaction, heq₃]
    cases hsuccess₃ : s₃.success with
    | false =>
      have htalk₃ := hcontinues₃ hmethod (by decide) fun htrue => by
        rw [hsuccess₃] at htrue
        cases htrue
      exact fail_in_call htalk₃ hcell hmethod hfound (hstays₃.trans (hstays.trans hstate))
        (hkeeps₃.trans (hkeeps.trans hdialog)) hbegun (hdialogs₃.trans hd₂) (hcalls₃.trans hc₂)
    | true =>
      have hproceeding : t₃.state = .PROCEEDING := hstays₃.trans (hstays.trans hstate)
      obtain ⟨m₄, adds, heq₄, hconversed₄, harms, hdialogs₄, hcalls₄⟩ :=
        conclude .TERMINATED hconversed₃ hcell hsame₃ (by rw [hproceeding]; nofun) (.inr rfl)
      obtain ⟨m₅, hsettle, hsettled, hdialogs₅, hcalls₅⟩ := settle_spec (hconversed₄.cells hcell)
        (hdialogs₄.trans (hdialogs₃.trans hd₂)) (hcalls₄.trans (hcalls₃.trans hc₂)) .CONFIRMED .ESTABLISHED
      have hend := hconversed₄.trans hsettled
      rw [List.append_nil, List.append_nil] at hend
      simp only [if_true, not_true_eq_false, if_false, heq₄, bind_ok]
      refine ⟨m₅, _, _, adds, hsettle, hend,
        ⟨hsame₃.queue, hsame₃.ack_message, hsame₃.branch, hsame₃.branch_length⟩, ?_, harms⟩
      exact .established hmethod hfound (hkeeps₃.trans (hkeeps.trans hdialog)) rfl hcode₃ hanswer₃
        hbegun.with_state hdialogs₅ hcalls₅

/-- The failure exits of an INVITE that has no dialog yet. -/
private theorem fail_alone {before : worker_thread_t} {m₀ m : Machine} {transaction : Nat}
    {original : Owned sip_message_t} {t₀ t : sip_transaction_t} {sends : List Sent}
    (h : Talking m₀ m transaction original t₀ t sends)
    (hcell : m₀.worker.transactions.heap.cells transaction = some t₀)
    (hmethod : original.contents.method_type = .INVITE) (hfound : dialog_for before original.contents = none)
    (hstate : t.state ≠ .COMPLETED) (hdialog : t.dialog = none)
    (hdialogs : m.worker.dialogs = before.dialogs) (hcalls : m.worker.calls = before.calls) :
    Finished before m₀ transaction original t₀ (fail_invite m transaction) := by
  obtain ⟨m₁, t₁, sends₁, adds, heq, hall, hanswer, harms, hsame, hkeeps, hcompleted, hcode, hdialogs₁, hcalls₁⟩ :=
    h.fail_invite hcell hstate
  refine ⟨m₁, t₁, sends₁, adds, heq, hall, hsame, ?_, ?_⟩
  · exact .failed_alone hmethod hfound (hkeeps.trans hdialog) hcompleted hcode hanswer (hdialogs₁.trans hdialogs)
      (hcalls₁.trans hcalls)
  · rw [if_neg (by rw [hcompleted]; nofun)]
    exact harms

theorem textArg_text {buffer : Bytes} {pointer : Option Nat} (h : Points buffer pointer) :
    textArg buffer pointer = ok (some (cstr buffer (pointer.getD 0))) := by
  obtain ⟨i, rfl, hterm⟩ := h
  simp [textArg, text_eq hterm]

/-- `process_invite_request` from the link to the new dialog on. -/
private theorem begin_dialog_spec {before : worker_thread_t} {m₀ m : Machine} {transaction : Nat}
    {original : Owned sip_message_t} {t₀ t : sip_transaction_t} {sends : List Sent} {to_tag : Bytes}
    (h : Talking m₀ m transaction original t₀ t sends)
    (hcell : m₀.worker.transactions.heap.cells transaction = some t₀) (hrequest : Request original.contents)
    (hmethod : original.contents.method_type = .INVITE) (hfound : dialog_for before original.contents = none)
    (hsends : (sends.filter (·.success)).map (·.status_code) = [100]) (hstate : t.state = .PROCEEDING)
    (hlength : to_tag.length = SIP_BUILD_TAG_LENGTH) (hclean : NUL ∉ to_tag)
    (hdialogs : m.worker.dialogs = before.dialogs.push
      (new_dialog (from_tag_text original.contents) original.contents.from_tag_length to_tag))
    (hcalls : m.worker.calls = before.calls) :
    Finished before m₀ transaction original t₀
      (begin_dialog m transaction before.dialogs.heap.next original.contents) := by
  obtain ⟨d, hd⟩ : ∃ d, d = new_dialog (from_tag_text original.contents) original.contents.from_tag_length to_tag :=
    ⟨_, rfl⟩
  rw [← hd] at hdialogs
  have hcell_d : m.worker.dialogs.heap.cells before.dialogs.heap.next = some d := by
    rw [hdialogs]
    exact Heap.cells_alloc_self _ _
  obtain ⟨m₁, heq₁, hconversed₁, hd₁, hc₁⟩ := set_transaction_dialog_spec h.cell hcell_d
  rw [hdialogs, Store.push_set] at hd₁
  have hcell_d₁ : m₁.worker.dialogs.heap.cells before.dialogs.heap.next =
      some { d with transaction := d.transaction.add transaction } := by
    rw [hd₁]
    exact Heap.cells_alloc_self _ _
  obtain ⟨m₂, heq₂, hsilent₂⟩ := set_dialog_state_spec .EARLY hcell_d₁
  have hd₂ : m₂.worker.dialogs = before.dialogs.push
      { d with transaction := d.transaction.add transaction, state := .EARLY } := by
    rw [hsilent₂.dialogs, hd₁, Store.push_set]
  have hbegun : ∀ call, Begun original.contents transaction call .EARLY
      { d with transaction := d.transaction.add transaction, state := .EARLY, call := call } := by
    intro call
    rw [hd]
    exact ⟨to_tag, hlength, hclean, rfl⟩
  have htalk : Talking m₀ m₂ transaction original t₀ { t with dialog := some before.dialogs.heap.next } sends := by
    refine h.goes_on (hconversed₁.trans (hsilent₂.conversed (hconversed₁.cells h.cell))) rfl
      ⟨rfl, rfl, rfl, rfl⟩ ?_
    intro dialog hdialog
    obtain rfl := Option.some.inj hdialog
    have htagged := (hbegun d.call).tagged
    exact ⟨_, by rw [hd₂]; exact Heap.cells_alloc_self _ _, htagged⟩
  have hcalls₂ : m₂.worker.calls = before.calls := hsilent₂.calls.trans (hc₁.trans hcalls)
  rw [begin_dialog, heq₁, bind_ok, heq₂, bind_ok, textArg_text hrequest.call_id.points, bind_ok]
  obtain ⟨env, hlater, hcreate⟩ := create_new_call_spec m₂
    (cstr original.contents.buffer (original.contents.call_id.getD 0)) original.contents.call_id_length
  have hwaits := htalk.goes_on (conversed_with_env htalk.cell hlater) rfl (.refl _) htalk.dialog
  rcases hcreate with hnone | hsome
  · obtain ⟨m₃, t₃, sends₃, adds, heq₃, hall, hanswer, harms, hsame, hkeeps, hcompleted, hcode, hd₃, hc₃⟩ :=
      hwaits.fail_invite hcell (by rw [hstate]; nofun)
    have hcell_d₃ : m₃.worker.dialogs.heap.cells before.dialogs.heap.next =
        some { d with transaction := d.transaction.add transaction, state := .EARLY } := by
      rw [hd₃]
      change m₂.worker.dialogs.heap.cells _ = _
      rw [hd₂]
      exact Heap.cells_alloc_self _ _
    obtain ⟨m₄, heq₄, hsilent₄⟩ := set_dialog_state_spec .TERMINATED hcell_d₃
    have hend := hall.trans (hsilent₄.conversed (hall.cells hcell))
    rw [List.append_nil, List.append_nil] at hend
    rw [hnone]
    simp only [heq₃, bind_ok]
    refine ⟨m₄, t₃, sends₃, adds, heq₄, hend, hsame, ?_, ?_⟩
    · refine .failed_in_dialog hmethod hfound hkeeps hcompleted hcode hanswer (hbegun none).with_state ?_ ?_
      · rw [hsilent₄.dialogs, hd₃]
        change m₂.worker.dialogs.set _ _ = _
        rw [hd₂, Store.push_set, hd]
        rfl
      · rw [hsilent₄.calls, hc₃]
        exact hcalls₂
    · rw [if_neg (by rw [hcompleted]; nofun)]
      exact harms
  · rw [hcalls₂] at hsome
    rw [hsome]
    obtain ⟨m₃, hm₃⟩ : ∃ m₃, m₃ = { m₂ with env := env }.with_calls (before.calls.push
      (new_call (cstr original.contents.buffer (original.contents.call_id.getD 0))
        original.contents.call_id_length)) := ⟨_, rfl⟩
    have hd₃ : m₃.worker.dialogs = m₂.worker.dialogs := by rw [hm₃]; rfl
    have hc₃ : m₃.worker.calls = before.calls.push
        (new_call (cstr original.contents.buffer (original.contents.call_id.getD 0))
          original.contents.call_id_length) := by rw [hm₃]; rfl
    have htalk₃ : Talking m₀ m₃ transaction original t₀ { t with dialog := some before.dialogs.heap.next }
        sends := by
      rw [hm₃]
      exact hwaits.goes_on (Machine.conversed_with_calls hwaits.cell _) rfl (.refl _) hwaits.dialog
    have hcell_d₃ : m₃.worker.dialogs.heap.cells before.dialogs.heap.next =
        some { d with transaction := d.transaction.add transaction, state := .EARLY } := by
      rw [hd₃, hd₂]
      exact Heap.cells_alloc_self _ _
    have hcell_c₃ : m₃.worker.calls.heap.cells before.calls.heap.next =
        some (new_call (cstr original.contents.buffer (original.contents.call_id.getD 0))
          original.contents.call_id_length) := by
      rw [hc₃]
      exact Heap.cells_alloc_self _ _
    obtain ⟨m₄, heq₄, hsilent₄⟩ := set_dialog_call_spec hcell_d₃ hcell_c₃
    obtain ⟨m₅, heq₅, hsilent₅⟩ := set_call_state_spec (m := m₄) .INCOMING (by
      rw [hsilent₄.calls]
      exact Heap.cells_set_self hcell_c₃)
    have hd₅ : m₅.worker.dialogs = before.dialogs.push { d with
        transaction := d.transaction.add transaction, state := .EARLY, call := some before.calls.heap.next } := by
      rw [hsilent₅.dialogs, hsilent₄.dialogs, hd₃, hd₂, Store.push_set]
    have hc₅ : m₅.worker.calls =
        before.calls.push (set_up_call original.contents before.dialogs.heap.next .INCOMING) := by
      rw [hsilent₅.calls, hsilent₄.calls, hc₃, Store.push_set, Store.push_set]
      rfl
    have hconversed := (hsilent₄.conversed htalk₃.cell).trans
      (hsilent₅.conversed ((hsilent₄.conversed htalk₃.cell).cells htalk₃.cell))
    have htalk₅ := htalk₃.goes_on hconversed rfl (.refl _) (by
      intro dialog hdialog
      obtain rfl := Option.some.inj hdialog
      exact ⟨_, by rw [hd₅]; exact Heap.cells_alloc_self _ _, (hbegun _).tagged⟩)
    simp only [← hm₃, heq₄, heq₅, bind_ok]
    exact answer_invite_spec htalk₅ hcell hmethod hfound hsends hstate rfl (hbegun _) hd₅ hc₅

/-- `process_invite_request` on a transaction that was just opened for a request outside
every dialog. -/
theorem process_invite_request_spec {before : worker_thread_t} {m₀ m : Machine} {transaction : Nat}
    {original : Owned sip_message_t} {t₀ t : sip_transaction_t}
    (h : Talking m₀ m transaction original t₀ t [])
    (hcell : m₀.worker.transactions.heap.cells transaction = some t₀) (hholds : t.message = some original)
    (hrequest : Request original.contents)
    (hmethod : original.contents.method_type = .INVITE) (hfound : dialog_for before original.contents = none)
    (hstate : t.state = .IDLE) (hdialog : t.dialog = none)
    (hdialogs : m.worker.dialogs = before.dialogs) (hcalls : m.worker.calls = before.calls) :
    Finished before m₀ transaction original t₀ (process_invite_request m transaction) := by
  obtain ⟨m₁, t₁, s, heq₁, -, -, hcontinues, -, hkeeps, hstays, -, hcode, hd₁, hc₁⟩ :=
    h.respond RESPONSE_CODE_100 RESPONSE_TEXT_100_TRYING
  have htalk₁ := hcontinues hmethod (by decide) fun _ => by decide
  have hd₁ := hd₁.trans hdialogs
  have hc₁ := hc₁.trans hcalls
  rw [process_invite_request, Machine.transaction_of_cells h.cell, bind_ok, hholds]
  simp only [hdialog, ne_eq, not_true_eq_false, if_false, send_100_trying_response_over_transaction, heq₁, bind_ok]
  cases hsuccess : s.success with
  | false =>
    exact fail_alone htalk₁ hcell hmethod hfound (by rw [hstays, hstate]; nofun) (hkeeps.trans hdialog) hd₁ hc₁
  | true =>
    obtain ⟨m₂, adds, heq₂, hconversed₂, hd₂, hc₂, -, hadds⟩ :=
      set_transaction_state_spec .PROCEEDING htalk₁.cell (by rw [hstays, hstate]; nofun)
    rw [hadds rfl] at hconversed₂
    have htalk₂ := htalk₁.goes_on hconversed₂ rfl ⟨rfl, rfl, rfl, rfl⟩ (by rw [hd₂]; exact htalk₁.dialog)
    have hdialog₂ : t₁.dialog = none := hkeeps.trans hdialog
    obtain ⟨env, hlater, hcreate⟩ := create_new_dialog_spec m₂ (from_tag_text original.contents)
      hrequest.from_tag.2
    simp only [if_true, not_true_eq_false, if_false, heq₂, bind_ok, textArg_text hrequest.from_tag.1]
    rw [← from_tag_text]
    rcases hcreate with hnone | ⟨to_tag, hlength, hclean, hsome⟩
    · rw [hnone]
      exact fail_alone (htalk₂.goes_on (conversed_with_env htalk₂.cell hlater) rfl (.refl _) htalk₂.dialog)
        hcell hmethod hfound nofun hdialog₂ (hd₂.trans hd₁) (hc₂.trans hc₁)
    · have hd₂' : m₂.worker.dialogs = before.dialogs := hd₂.trans hd₁
      rw [hsome, hd₂']
      have hconversed₃ := (conversed_with_env htalk₂.cell hlater).trans
        (Machine.conversed_with_dialogs (m := { m₂ with env := env }) htalk₂.cell (before.dialogs.push
          (new_dialog (from_tag_text original.contents) original.contents.from_tag_length to_tag)))
      refine begin_dialog_spec (htalk₂.goes_on hconversed₃ rfl (.refl _) ?_) hcell hrequest hmethod hfound ?_ rfl
        hlength hclean rfl (hc₂.trans hc₁)
      · intro dialog hsome
        rw [hdialog₂] at hsome
        cases hsome
      · simp [hsuccess, hcode, RESPONSE_CODE_100]

end mock_uas.sip_server
