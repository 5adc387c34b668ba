import MockUas.Server.Outcome

open clib
open mock_uas.sip_message
open mock_uas.sip_utils

namespace mock_uas.sip_server

/-- The fields of a transaction that no handler changes. -/
structure SameTransaction (t original : sip_transaction_t) : Prop where
  queue : t.queue = original.queue
  ack_message : t.ack_message = original.ack_message
  branch : t.branch = original.branch
  branch_length : t.branch_length = original.branch_length

/-- A handler in the middle of its conversation: no timer was asked for yet, and what was
sent may be followed by a final response. -/
structure Talking (m₀ m : Machine) (transaction : Nat) (original : Owned sip_message_t)
    (t₀ t : sip_transaction_t) (sends : List Sent) : Prop where
  conversed : Conversed m₀ m transaction t sends []
  ready : ∃ contents, Ready m transaction t ⟨original.address, contents⟩ ∧ SameRequest contents original.contents
  same : SameTransaction t t₀
  provisional : Provisional transaction original.contents.method_type sends

theorem SameTransaction.refl (t : sip_transaction_t) : SameTransaction t t := ⟨rfl, rfl, rfl, rfl⟩

theorem delete_event_congr {t t' : sip_transaction_t} (h : SameTransaction t t') (serial owner : Nat) :
    delete_event serial owner t = delete_event serial owner t' := by
  simp [delete_event, h.queue, h.branch, h.branch_length]

theorem Arms.congr {env : Environment} {serial owner : Nat} {t t' : sip_transaction_t}
    {adds : List TimerAdd} (harms : Arms env serial owner t adds) (h : SameTransaction t t') :
    Arms env serial owner t' adds := by
  unfold Arms at *
  rwa [delete_event_congr h] at harms

theorem provisional_nil (transaction : Nat) (method : sip_method_t) : Provisional transaction method [] :=
  ⟨by simp, by simp, fun h => absurd rfl h, by simp⟩

/-- One more datagram of a conversation, where it fits in. -/
theorem Provisional.concat {transaction : Nat} {method : sip_method_t} {sends : List Sent} {s : Sent}
    (h : Provisional transaction method sends) (htransaction : s.transaction = some transaction)
    (hmethod : s.method = method) (hinvite : method = .INVITE) (hlow : s.status_code ≤ 200)
    (hcodes : s.success = true → (sends.filter (·.success)).map (·.status_code) ++ [s.status_code] <+: [100, 180]) :
    Provisional transaction method (sends ++ [s]) where
  carried r hr := by
    rcases List.mem_append.mp hr with hr | hr
    · exact h.carried r hr
    · obtain rfl := List.mem_singleton.mp hr
      exact ⟨htransaction, hmethod⟩
  codes := by
    rw [List.filter_append, List.map_append]
    cases hsuccess : s.success with
    | false => simpa [hsuccess] using h.codes
    | true => simpa [hsuccess] using hcodes hsuccess
  invite _ := hinvite
  low r hr := by
    rcases List.mem_append.mp hr with hr | hr
    · exact h.low r hr
    · obtain rfl := List.mem_singleton.mp hr
      exact hlow

/-- A builder ends a conversation with its response. For an INVITE it also continues it when
the datagram fits in with those before or does not go out. -/
theorem Talking.respond {m₀ m : Machine} {transaction : Nat} {original : Owned sip_message_t}
    {t₀ t : sip_transaction_t} {sends : List Sent} (h : Talking m₀ m transaction original t₀ t sends)
    (status_code : Nat) (reason : Bytes) :
    ∃ (m' : Machine) (t' : sip_transaction_t) (s : Sent),
      send_response_over_transaction m transaction status_code reason = ok (if s.success then 0 else -1, m') ∧
      Conversed m₀ m' transaction t' (sends ++ [s]) [] ∧ Answer transaction original t' (sends ++ [s]) ∧
      (original.contents.method_type = .INVITE → status_code ≤ 200 → (s.success = true →
          (sends.filter (·.success)).map (·.status_code) ++ [(status_code : Int)] <+: [100, 180]) →
        Talking m₀ m' transaction original t₀ t' (sends ++ [s])) ∧
      SameTransaction t' t₀ ∧ t'.dialog = t.dialog ∧ t'.state = t.state ∧ t'.final_response_code = status_code ∧
      s.status_code = status_code ∧
      m'.worker.dialogs = m.worker.dialogs ∧ m'.worker.calls = m.worker.calls := by
  obtain ⟨contents, hready, hsame⟩ := h.ready
  obtain ⟨m', heq, hconversed, hdialogs, hcalls⟩ := send_response_spec hready status_code reason
  have hsame' := hsame.with_response (by
      rw [← List.length_pos_iff, ← hsame.response]
      exact List.length_pos_iff.mpr (response_ne_nil hready.request))
    (output_of m t ⟨original.address, contents⟩ status_code reason)
  have hkept : SameTransaction (answered t ⟨original.address, contents⟩ status_code
      (output_of m t ⟨original.address, contents⟩ status_code reason)) t₀ :=
    ⟨h.same.queue, h.same.ack_message, h.same.branch, h.same.branch_length⟩
  have hall := h.conversed.trans hconversed
  refine ⟨m', _, _, heq, hall, ?_, fun hmethod hlow hcodes => ⟨hall, ?_, hkept, ?_⟩, hkept, rfl, rfl, rfl, rfl,
    hdialogs, hcalls⟩
  · refine ⟨_, sends, _, rfl, hsame', ?_, rfl, h.provisional⟩
    rw [Ne, with_response, List.length_eq_zero_iff]
    exact formatted_ne_nil _ _ _ _
  · refine ⟨_, hready.conversed hconversed rfl ?_ ?_, hsame'⟩
    · exact (SameRequest.refl contents).with_response (response_ne_nil hready.request) _
    · intro dialog hdialog
      rw [hdialogs]
      exact hready.dialog dialog hdialog
  · exact h.provisional.concat rfl (congrArg (·.method_type) hsame'.same) hmethod (Int.ofNat_le.mpr hlow) hcodes

/-- A state change after the last response arms the deletion. -/
theorem conclude {m₀ m : Machine} {transaction : Nat} {t₀ t : sip_transaction_t} {sends : List Sent}
    (state : sip_transaction_state_t) (hconversed : Conversed m₀ m transaction t sends [])
    (hcell : m₀.worker.transactions.heap.cells transaction = some t₀) (hsame : SameTransaction t t₀)
    (hstate : t.state ≠ state) (htimed : state = .COMPLETED ∨ state = .TERMINATED) :
    ∃ m' adds, set_transaction_state m transaction state = ok m' ∧
      Conversed m₀ m' transaction { t with state := state } sends adds ∧
      Arms m₀.env m₀.events transaction t₀ adds ∧
      m'.worker.dialogs = m.worker.dialogs ∧ m'.worker.calls = m.worker.calls := by
  obtain ⟨m', adds, heq, hstep, hdialogs, hcalls, harms, -⟩ :=
    set_transaction_state_spec state (hconversed.cells hcell) hstate
  have hall := hconversed.trans hstep
  rw [List.append_nil, List.nil_append] at hall
  refine ⟨m', adds, heq, hall, ?_, hdialogs, hcalls⟩
  have hevents : m.events = m₀.events := hconversed.events
  rw [← hevents]
  exact ((harms htimed).earlier hconversed.later).congr hsame

/-- What every failure exit of `process_invite_request` does to its transaction. -/
theorem Talking.fail_invite {m₀ m : Machine} {transaction : Nat} {original : Owned sip_message_t}
    {t₀ t : sip_transaction_t} {sends : List Sent} (h : Talking m₀ m transaction original t₀ t sends)
    (hcell : m₀.worker.transactions.heap.cells transaction = some t₀) (hstate : t.state ≠ .COMPLETED) :
    ∃ m' t' sends' adds, fail_invite m transaction = ok m' ∧ Conversed m₀ m' transaction t' sends' adds ∧
      Answer transaction original t' sends' ∧ Arms m₀.env m₀.events transaction t₀ adds ∧
      SameTransaction t' t₀ ∧ t'.dialog = t.dialog ∧ t'.state = .COMPLETED ∧ t'.final_response_code = 500 ∧
      m'.worker.dialogs = m.worker.dialogs ∧ m'.worker.calls = m.worker.calls := by
  obtain ⟨m₁, t₁, s, heq, hconversed, hanswer, -, hsame, hdialog, hkeeps, hcode, -, hdialogs, hcalls⟩ :=
    h.respond RESPONSE_CODE_500 RESPONSE_TEXT_500_INTERNAL_SERVER_ERROR
  obtain ⟨m₂, adds, hset, hall, harms, hdialogs', hcalls'⟩ :=
    conclude .COMPLETED hconversed hcell hsame (hkeeps ▸ hstate) (.inl rfl)
  refine ⟨m₂, { t₁ with state := .COMPLETED }, _, adds, ?_, hall, hanswer, harms,
    ⟨hsame.queue, hsame.ack_message, hsame.branch, hsame.branch_length⟩, hdialog, rfl, hcode,
    hdialogs'.trans hdialogs, hcalls'.trans hcalls⟩
  rw [sip_server.fail_invite, send_sip_error_response_over_transaction, heq, bind_ok]
  exact hset

end mock_uas.sip_server
