import MockUas.Server.Phases

open clib
open mock_uas.sip_message
open mock_uas.sip_utils

namespace mock_uas.sip_server

/-- The states of the dialogs, calls and transactions in a worker's lists agree. -/
structure StatesAgree (worker : worker_thread_t) : Prop where
  dialog : ∀ a d, a ∈ worker.dialogs.list → worker.dialogs.heap.cells a = some d →
    d.state = .CONFIRMED ∨ d.state = .TERMINATED
  confirmed : ∀ a d, a ∈ worker.dialogs.list → worker.dialogs.heap.cells a = some d → d.state = .CONFIRMED →
    ∃ call c, d.call = some call ∧ worker.calls.heap.cells call = some c ∧ c.state = .ESTABLISHED
  terminated : ∀ a d, a ∈ worker.dialogs.list → worker.dialogs.heap.cells a = some d → d.state = .TERMINATED →
    ∀ call, d.call = some call →
      ∃ c, worker.calls.heap.cells call = some c ∧ (c.state = .FAILED ∨ c.state = .TERMINATED)
  transaction : ∀ a t, a ∈ worker.transactions.list → worker.transactions.heap.cells a = some t →
    t.state ≠ .PROCEEDING ∧ (t.state = .COMPLETED →
      ∃ message, t.message = some message ∧ message.contents.method_type = .INVITE)

/-- What survives a step moves forward in its states. -/
structure Advances (before after : worker_thread_t) : Prop where
  transaction : ∀ a t t', before.transactions.heap.cells a = some t → after.transactions.heap.cells a = some t' →
    t.state.value ≤ t'.state.value
  dialog : ∀ a d d', before.dialogs.heap.cells a = some d → after.dialogs.heap.cells a = some d' →
    d.state.value ≤ d'.state.value
  call : ∀ a c c', before.calls.heap.cells a = some c → after.calls.heap.cells a = some c' →
    (c.state = .FAILED → c'.state = .FAILED) ∧ (c.state = .TERMINATED → c'.state = .TERMINATED)

/-- The invariant behind both: dialogs agree with their calls and transactions rest. -/
structure Phased (worker : worker_thread_t) : Prop where
  wellFormed : WellFormed worker
  settled : DialogsSettled worker
  rests : ∀ a t, worker.transactions.heap.cells a = some t → Rests t

/-- A BYE that opens a transaction and leads to a dialog by its tags. -/
def ByeFor (run : Run) (dialog : Nat) : Input → Prop
  | .incoming datagram client_addr _ env => ∃ message, Accepted datagram client_addr message ∧
      message.method_type = .BYE ∧ transaction_for run.worker message = none ∧ env.malloc 0 = true ∧
      dialog_for run.worker message = some dialog
  | _ => False

/-- Every step shifts the states, and hangs up exactly the call of a confirmed dialog that a
new BYE leads to. -/
theorem Run.Stepped.shift {run run' : Run} {input : Input} (h : Run.Stepped run input run')
    (hworker : WellFormed run.worker) :
    ∃ hung, Shift run.worker run'.worker hung ∧ ∀ dialog, hung = some dialog ↔
      ByeFor run dialog input ∧ ∃ call, dialog_phase run.worker dialog = some (.CONFIRMED, some call) := by
  cases h with
  | unhandled freed hrejected =>
    refine ⟨none, shift_refl _, fun dialog => ⟨nofun, ?_⟩⟩
    rintro ⟨⟨message, haccepted, -⟩, -⟩
    exact absurd haccepted (hrejected message)
  | response => exact ⟨none, shift_refl _, fun dialog => ⟨nofun, fun h => h.1.elim⟩⟩
  | request haccepted hhandled =>
    obtain ⟨hung, hshift, hiff⟩ := hhandled.shift
    refine ⟨hung, hshift, fun dialog => (hiff dialog).trans ?_⟩
    constructor
    · rintro ⟨hnew, hmalloc, hmethod, hfound, hphase⟩
      exact ⟨⟨_, haccepted, hmethod, hnew, hmalloc, hfound⟩, hphase⟩
    · rintro ⟨⟨message, haccepted', hmethod, hnew, hmalloc, hfound⟩, hphase⟩
      obtain rfl := accepted_unique haccepted haccepted'
      exact ⟨hnew, hmalloc, hmethod, hfound, hphase⟩
  | delete hdeleted => exact ⟨none, hdeleted.shift hworker, fun dialog => ⟨nofun, fun h => h.1.elim⟩⟩

theorem Run.Stepped.transactions_move {run run' : Run} {input : Input} (h : Run.Stepped run input run') :
    TransactionsMove run.worker run'.worker := by
  cases h with
  | unhandled => exact transactions_move_refl _
  | response => exact transactions_move_refl _
  | request _ hhandled => exact hhandled.transactions_move
  | delete hdeleted => exact hdeleted.transactions_move

theorem Run.Stepped.phased {run run' : Run} {input : Input} (h : Run.Stepped run input run')
    (hphased : Phased run.worker) : Phased run'.worker := by
  obtain ⟨hung, hshift, -⟩ := h.shift hphased.wellFormed
  refine ⟨h.wellFormed hphased.wellFormed, hshift.settled hphased.wellFormed hphased.settled, fun a t' hcell => ?_⟩
  rcases h.transactions_move a t' hcell with ⟨t, ht, hrewritten⟩ | ⟨-, hrests⟩
  · exact hrewritten.rests (hphased.rests a t ht)
  · exact hrests

theorem Run.Initial.phased {run : Run} (h : run.Initial) : Phased run.worker where
  wellFormed := h.wellFormed
  settled dialog state call hphase := by
    rw [dialog_phase, h.dialogs] at hphase
    cases hphase
  rests a t hcell := by
    rw [h.transactions] at hcell
    cases hcell

theorem Reachable.phased {run : Run} (h : program.Reachable run) : Phased run.worker :=
  Transitions.ReachableWhile.invariant (P := fun run => Phased run.worker) (fun _ => Run.Initial.phased)
    (fun _ input _ _ _ hstep hphased => ((step_ends hphased.wellFormed input).of_eq_ok hstep).phased hphased) h

theorem Phased.agree {worker : worker_thread_t} (h : Phased worker) : StatesAgree worker := by
  have hsettled : ∀ a d, worker.dialogs.heap.cells a = some d → Settled worker d.state d.call := fun a d hd =>
    h.settled a d.state d.call (by rw [dialog_phase, hd, Option.map_some])
  have hphase : ∀ {call state}, call_phase worker call = some state →
      ∃ c, worker.calls.heap.cells call = some c ∧ c.state = state := fun hphase => Option.map_eq_some_iff.mp hphase
  constructor
  · intro a d _ hd
    have hs := hsettled a d hd
    generalize d.state = state at hs ⊢
    generalize d.call = call at hs
    cases hs with
    | confirmed => exact .inl rfl
    | alone => exact .inr rfl
    | ended => exact .inr rfl
  · intro a d _ hd hstate
    have hs := hsettled a d hd
    rw [hstate] at hs
    generalize hcall : d.call = call at hs
    cases hs with
    | confirmed hestablished =>
      obtain ⟨c, hc, hcstate⟩ := hphase hestablished
      exact ⟨_, c, rfl, hc, hcstate⟩
  · intro a d _ hd hstate call hcall
    have hs := hsettled a d hd
    rw [hstate, hcall] at hs
    cases hs with
    | ended hended =>
      rcases hended with hfailed | hterminated
      · obtain ⟨c, hc, hcstate⟩ := hphase hfailed
        exact ⟨c, hc, .inl hcstate⟩
      · obtain ⟨c, hc, hcstate⟩ := hphase hterminated
        exact ⟨c, hc, .inr hcstate⟩
  · exact fun a t _ ht => h.rests a t ht

/-- A step moves no call that has ended. -/
private theorem Shift.call_ended {before after : worker_thread_t} {hung : Option Nat} (h : Shift before after hung)
    (hsettled : DialogsSettled before) {call : Nat} {state state' : sip_call_state_t}
    (hbefore : call_phase before call = some state) (hafter : call_phase after call = some state')
    (hended : state = .FAILED ∨ state = .TERMINATED) : state' = state := by
  cases h with
  | still _ hcalls =>
    rw [hcalls, hbefore] at hafter
    cases hafter
    rfl
  | failed _ hcalls =>
    rw [hcalls, hbefore] at hafter
    cases hafter
    rfl
  | begun _ _ hcalls =>
    rw [hcalls] at hafter
    split at hafter
    · rename_i hnext
      rw [hnext, call_phase, Heap.cells_next] at hbefore
      cases hbefore
    · rw [hbefore] at hafter
      cases hafter
      rfl
  | hung_up hdialog _ hcalls =>
    rw [hcalls] at hafter
    split at hafter
    · rename_i hcall
      have hs := hsettled _ _ _ hdialog
      rw [← hcall] at hs
      cases hs with
      | confirmed hestablished =>
        rw [hbefore, Option.some.injEq] at hestablished
        rcases hended with rfl | rfl <;> cases hestablished
    · rw [hbefore] at hafter
      cases hafter
      rfl
  | ended _ _ hcalls =>
    rw [hcalls] at hafter
    split at hafter
    · cases hafter
    · rw [hbefore] at hafter
      cases hafter
      rfl

private theorem Shift.dialog_value_le {before after : worker_thread_t} {hung : Option Nat}
    (h : Shift before after hung) {dialog : Nat} {state state' : sip_dialog_state_t} {call call' : Option Nat}
    (hbefore : dialog_phase before dialog = some (state, call))
    (hafter : dialog_phase after dialog = some (state', call')) : state.value ≤ state'.value := by
  have hnext : dialog ≠ before.dialogs.heap.next := by
    rintro rfl
    rw [dialog_phase, Heap.cells_next] at hbefore
    cases hbefore
  cases h with
  | still hdialogs =>
    rw [hdialogs, hbefore] at hafter
    cases hafter
    exact Nat.le_refl _
  | failed hdialogs =>
    rw [hdialogs, if_neg hnext, hbefore] at hafter
    cases hafter
    exact Nat.le_refl _
  | begun _ hdialogs =>
    rw [hdialogs, if_neg hnext, hbefore] at hafter
    cases hafter
    exact Nat.le_refl _
  | hung_up _ hdialogs =>
    rw [hdialogs] at hafter
    split at hafter
    · cases hafter
      exact state.value_le
    · rw [hbefore] at hafter
      cases hafter
      exact Nat.le_refl _
  | ended _ hdialogs =>
    rw [hdialogs] at hafter
    split at hafter
    · cases hafter
    · rw [hbefore] at hafter
      cases hafter
      exact Nat.le_refl _

theorem Run.Stepped.advances {run run' : Run} {input : Input} (h : Run.Stepped run input run')
    (hphased : Phased run.worker) : Advances run.worker run'.worker := by
  obtain ⟨hung, hshift, -⟩ := h.shift hphased.wellFormed
  constructor
  · intro a t t' ht ht'
    rcases h.transactions_move a t' ht' with ⟨u, hu, hrewritten⟩ | ⟨rfl, -⟩
    · rw [ht, Option.some.injEq] at hu
      exact hu ▸ hrewritten.value_le
    · rw [Heap.cells_next] at ht
      cases ht
  · intro a d d' hd hd'
    have hbefore : dialog_phase run.worker a = some (d.state, d.call) := by rw [dialog_phase, hd, Option.map_some]
    have hafter : dialog_phase run'.worker a = some (d'.state, d'.call) := by rw [dialog_phase, hd', Option.map_some]
    exact hshift.dialog_value_le hbefore hafter
  · intro a c c' hc hc'
    have hbefore : call_phase run.worker a = some c.state := by rw [call_phase, hc, Option.map_some]
    have hafter : call_phase run'.worker a = some c'.state := by rw [call_phase, hc', Option.map_some]
    constructor
    · intro hstate
      rw [hshift.call_ended hphased.settled hbefore hafter (.inl hstate), hstate]
    · intro hstate
      rw [hshift.call_ended hphased.settled hbefore hafter (.inr hstate), hstate]

/-- At every step boundary of every run the three state machines agree, and across every
step they move forward. -/
theorem states_agree_and_advance (run : Run) (h : program.Reachable run) :
    StatesAgree run.worker ∧ ∀ input run', program.enabled run input → run.step input = ok run' →
      Advances run.worker run'.worker := by
  have hphased := Reachable.phased h
  refine ⟨hphased.agree, fun input run' _ hstep => ?_⟩
  exact ((step_ends hphased.wellFormed input).of_eq_ok hstep).advances hphased

theorem states_agree_after_invite :
    ∃ run : Run, run.worker.calls.list = [0] ∧ StatesAgree run.worker ∧
      ∀ input run', program.enabled run input → run.step input = ok run' → Advances run.worker run'.worker := by
  obtain ⟨run, hrun, hcalls⟩ := Option.map_eq_some_iff.mp invite_run
  obtain ⟨hagree, hadvance⟩ := states_agree_and_advance run (reachable_of_follow hrun)
  exact ⟨run, hcalls, hagree, hadvance⟩

end mock_uas.sip_server
