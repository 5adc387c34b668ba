import MockUas.Server.WellFormed

open clib
open mock_uas.sip_message
open mock_uas.sip_utils

namespace mock_uas.sip_server

/-- The state and the call of a live dialog. -/
def dialog_phase (worker : worker_thread_t) (a : Nat) : Option (sip_dialog_state_t × Option Nat) :=
  (worker.dialogs.heap.cells a).map fun d => (d.state, d.call)

/-- The state of a live call. -/
def call_phase (worker : worker_thread_t) (a : Nat) : Option sip_call_state_t :=
  (worker.calls.heap.cells a).map (·.state)

/-- What a step does to the states of the dialogs and the calls, with the dialog whose call
it hangs up. -/
inductive Shift (before after : worker_thread_t) : Option Nat → Prop where
  | still (hdialogs : ∀ a, dialog_phase after a = dialog_phase before a)
    (hcalls : ∀ a, call_phase after a = call_phase before a) : Shift before after none
  /-- An INVITE that got no call. -/
  | failed (hdialogs : ∀ a, dialog_phase after a =
      if a = before.dialogs.heap.next then some (.TERMINATED, none) else dialog_phase before a)
    (hcalls : ∀ a, call_phase after a = call_phase before a) : Shift before after none
  /-- An INVITE with its own call. -/
  | begun {state : sip_dialog_state_t} {call_state : sip_call_state_t}
    (hstates : state = .CONFIRMED ∧ call_state = .ESTABLISHED ∨ state = .TERMINATED ∧ call_state = .FAILED)
    (hdialogs : ∀ a, dialog_phase after a =
      if a = before.dialogs.heap.next then some (state, some before.calls.heap.next) else dialog_phase before a)
    (hcalls : ∀ a, call_phase after a =
      if a = before.calls.heap.next then some call_state else call_phase before a) : Shift before after none
  | hung_up {dialog call : Nat} (hdialog : dialog_phase before dialog = some (.CONFIRMED, some call))
    (hdialogs : ∀ a, dialog_phase after a =
      if a = dialog then some (.TERMINATED, some call) else dialog_phase before a)
    (hcalls : ∀ a, call_phase after a = if a = call then some .TERMINATED else call_phase before a) :
    Shift before after (some dialog)
  /-- The deletion of a terminated dialog. -/
  | ended {dialog : Nat} {call : Option Nat} (hdialog : dialog_phase before dialog = some (.TERMINATED, call))
    (hdialogs : ∀ a, dialog_phase after a = if a = dialog then none else dialog_phase before a)
    (hcalls : ∀ a, call_phase after a =
      if call = some a ∧ call_phase before a = some .TERMINATED then none else call_phase before a) :
    Shift before after none

theorem shift_refl (worker : worker_thread_t) : Shift worker worker none := .still (fun _ => rfl) fun _ => rfl

theorem dialog_phase_attach {before after : worker_thread_t} {found : Option Nat} {transaction : Nat}
    (h : after.dialogs = attach before.dialogs found transaction) (a : Nat) :
    dialog_phase after a = dialog_phase before a := by
  rw [dialog_phase, h, cells_attach, Option.map_map]
  refine congrArg (fun f => (before.dialogs.heap.cells a).map f) (funext fun d => ?_)
  simp only [Function.comp_apply]
  split <;> rfl

theorem dialog_phase_push {before after : worker_thread_t} {d : sip_dialog_t}
    (h : after.dialogs = before.dialogs.push d) (a : Nat) :
    dialog_phase after a =
      if a = before.dialogs.heap.next then some (d.state, d.call) else dialog_phase before a := by
  rw [dialog_phase, h, Store.heap_push, Heap.cells_alloc]
  split <;> rfl

private theorem call_phase_push {before after : worker_thread_t} {c : sip_call_t}
    (h : after.calls = before.calls.push c) (a : Nat) :
    call_phase after a = if a = before.calls.heap.next then some c.state else call_phase before a := by
  rw [call_phase, h, Store.heap_push, Heap.cells_alloc]
  split <;> rfl

theorem dialog_phase_set {before after : worker_thread_t} {dialog : Nat} {d : sip_dialog_t}
    (hd : before.dialogs.heap.cells dialog = some d) (d' : sip_dialog_t)
    (h : after.dialogs = before.dialogs.set dialog d') (a : Nat) :
    dialog_phase after a = if a = dialog then some (d'.state, d'.call) else dialog_phase before a := by
  rw [dialog_phase, h, Store.heap_set, Heap.cells_set hd]
  split <;> rfl

private theorem call_phase_set {before after : worker_thread_t} {call : Nat} {c : sip_call_t}
    (hc : before.calls.heap.cells call = some c) (c' : sip_call_t)
    (h : after.calls = before.calls.set call c') (a : Nat) :
    call_phase after a = if a = call then some c'.state else call_phase before a := by
  rw [call_phase, h, Store.heap_set, Heap.cells_set hc]
  split <;> rfl

private theorem Begun.phase {message : sip_message_t} {transaction : Nat} {call : Option Nat}
    {state : sip_dialog_state_t} {d : sip_dialog_t} (h : Begun message transaction call state d) :
    (d.state, d.call) = (state, call) := by
  obtain ⟨to_tag, -, -, rfl⟩ := h
  rfl

/-- A BYE that ends the call of a dialog. -/
def HangsUpIn (worker : worker_thread_t) (message : sip_message_t) (dialog : Nat) : Prop :=
  message.method_type = .BYE ∧ dialog_for worker message = some dialog ∧
    ∃ call, dialog_phase worker dialog = some (.CONFIRMED, some call)

theorem hangsUp_iff {worker : worker_thread_t} {message : sip_message_t} :
    HangsUp worker message ↔ ∃ dialog, HangsUpIn worker message dialog := by
  constructor
  · rintro ⟨hmethod, dialog, d, call, hfound, hd, hstate, hcall⟩
    exact ⟨dialog, hmethod, hfound, call, by rw [dialog_phase, hd, Option.map_some, hstate, hcall]⟩
  · rintro ⟨dialog, hmethod, hfound, call, hphase⟩
    obtain ⟨d, hd, heq⟩ := Option.map_eq_some_iff.mp hphase
    rw [Prod.mk.injEq] at heq
    exact ⟨hmethod, dialog, d, call, hfound, hd, heq.1, heq.2⟩

/-- A request that opens a transaction hangs up a call exactly when it is a BYE in its
dialog. -/
theorem Fate.shift {before after : worker_thread_t} {original : Owned sip_message_t} {transaction : Nat}
    {t : sip_transaction_t} {sends : List Sent} (h : Fate before original transaction t after sends) :
    ∃ hung, Shift before after hung ∧ ∀ dialog, hung = some dialog ↔ HangsUpIn before original.contents dialog := by
  have hno : original.contents.method_type ≠ .BYE →
      ∀ dialog, none = some dialog ↔ HangsUpIn before original.contents dialog := by
    intro hmethod dialog
    exact ⟨nofun, fun hbye => absurd hbye.1 hmethod⟩
  cases h with
  | reinvite hmethod _ hcell _ _ _ _ hdialogs hcalls =>
    refine ⟨none, .still (fun a => ?_) (fun a => by rw [call_phase, hcalls, call_phase]),
      hno (by rw [hmethod]; nofun)⟩
    rw [dialog_phase_set hcell _ hdialogs]
    split
    · rename_i ha
      rw [ha, dialog_phase, hcell]
      rfl
    · rfl
  | acked hmethod _ _ _ _ hdialogs hcalls =>
    exact ⟨none, .still (dialog_phase_attach hdialogs) (fun a => by rw [call_phase, hcalls, call_phase]),
      hno (by rw [hmethod]; nofun)⟩
  | refused _ _ hbye _ _ _ _ hdialogs hcalls =>
    refine ⟨none, .still (dialog_phase_attach hdialogs) (fun a => by rw [call_phase, hcalls, call_phase]), ?_⟩
    exact fun dialog => ⟨nofun, fun hangs => absurd (hangsUp_iff.mpr ⟨dialog, hangs⟩) hbye⟩
  | @hung_up dialog call d c hmethod hfound hcell hconfirmed hcall hcall_cell _ _ _ _ hdialogs hcalls =>
    have hphase : dialog_phase before dialog = some (.CONFIRMED, some call) := by
      rw [dialog_phase, hcell, Option.map_some, hconfirmed, hcall]
    refine ⟨some dialog, .hung_up hphase (fun a => ?_) (call_phase_set hcall_cell _ hcalls), fun other => ?_⟩
    · rw [dialog_phase_set hcell _ hdialogs, hcall]
    · constructor
      · rintro h
        obtain rfl := Option.some.inj h
        exact ⟨hmethod, hfound, call, hphase⟩
      · rintro ⟨-, hother, -⟩
        rw [← hfound, hother]
  | failed_alone hmethod _ _ _ _ _ hdialogs hcalls =>
    exact ⟨none, .still (fun a => by rw [dialog_phase, hdialogs, dialog_phase])
      (fun a => by rw [call_phase, hcalls, call_phase]), hno (by rw [hmethod]; nofun)⟩
  | failed_in_dialog hmethod _ _ _ _ _ hbegun hdialogs hcalls =>
    refine ⟨none, .failed (fun a => ?_) (fun a => by rw [call_phase, hcalls, call_phase]),
      hno (by rw [hmethod]; nofun)⟩
    rw [dialog_phase_push hdialogs, hbegun.phase]
  | failed_in_call hmethod _ _ _ _ _ hbegun hdialogs hcalls =>
    refine ⟨none, .begun (.inr ⟨rfl, rfl⟩) (fun a => ?_) (call_phase_push hcalls), hno (by rw [hmethod]; nofun)⟩
    rw [dialog_phase_push hdialogs, hbegun.phase]
  | established hmethod _ _ _ _ _ hbegun hdialogs hcalls =>
    refine ⟨none, .begun (.inl ⟨rfl, rfl⟩) (fun a => ?_) (call_phase_push hcalls), hno (by rw [hmethod]; nofun)⟩
    rw [dialog_phase_push hdialogs, hbegun.phase]

theorem Known.dialog_phase {m m' : Machine} {message opened : Owned sip_message_t} {transaction : Nat}
    {t : sip_transaction_t} (h : Known m message transaction t opened m') (a : Nat) :
    dialog_phase m'.worker a = dialog_phase m.worker a := by
  cases h with
  | dropped _ _ hm => rw [hm, Machine.cleanup_sip_message]
  | resent _ _ _ hm =>
    rw [hm]
    rfl
  | rewritten _ _ _ _ hdialogs => rw [sip_server.dialog_phase, hdialogs, sip_server.dialog_phase]
  | acked _ _ _ _ hdialogs =>
    split at hdialogs
    · exact dialog_phase_attach hdialogs a
    · rw [sip_server.dialog_phase, hdialogs, sip_server.dialog_phase]

theorem Known.call_phase {m m' : Machine} {message opened : Owned sip_message_t} {transaction : Nat}
    {t : sip_transaction_t} (h : Known m message transaction t opened m') (a : Nat) :
    call_phase m'.worker a = call_phase m.worker a := by
  cases h with
  | dropped _ _ hm => rw [hm, Machine.cleanup_sip_message]
  | resent _ _ _ hm =>
    rw [hm]
    rfl
  | rewritten _ _ _ _ _ hcalls => rw [sip_server.call_phase, hcalls, sip_server.call_phase]
  | acked _ _ _ _ _ hcalls => rw [sip_server.call_phase, hcalls, sip_server.call_phase]

/-- A request whose branch is known moves no dialog and no call. -/
theorem Known.shift {m m' : Machine} {message opened : Owned sip_message_t} {transaction : Nat}
    {t : sip_transaction_t} (h : Known m message transaction t opened m') : Shift m.worker m'.worker none :=
  .still h.dialog_phase h.call_phase

/-- A request that opens a transaction and ends the call of a dialog. -/
def OpensBye (worker : worker_thread_t) (env : Environment) (message : sip_message_t) (dialog : Nat) : Prop :=
  transaction_for worker message = none ∧ env.malloc 0 = true ∧ HangsUpIn worker message dialog

theorem Handled.shift {m m' : Machine} {message : Owned sip_message_t} (h : Handled m message m') :
    ∃ hung, Shift m.worker m'.worker hung ∧
      ∀ dialog, hung = some dialog ↔ OpensBye m.worker m.env message.contents dialog := by
  cases h with
  | unallocated _ hmalloc _ hm =>
    refine ⟨none, by rw [hm]; exact shift_refl _, fun dialog => ⟨nofun, ?_⟩⟩
    rintro ⟨-, htrue, -⟩
    rw [hmalloc] at htrue
    cases htrue
  | opened hnew hmalloc hopened =>
    obtain ⟨hung, hshift, hiff⟩ := hopened.fate.shift
    refine ⟨hung, hshift, fun dialog => (hiff dialog).trans ?_⟩
    exact ⟨fun hangs => ⟨hnew, hmalloc, hangs⟩, fun hopens => hopens.2.2⟩
  | known hfound _ _ hknown =>
    refine ⟨none, hknown.shift, fun dialog => ⟨nofun, ?_⟩⟩
    rintro ⟨hnew, -⟩
    rw [hfound] at hnew
    cases hnew

theorem Deleted.shift {m m' : Machine} {event : transaction_delete_t} (h : Deleted m event m')
    (hworker : WellFormed m.worker) : Shift m.worker m'.worker none := by
  cases h with
  | missing _ hm =>
    rw [hm]
    exact shift_refl _
  | removed _ _ hdeletion =>
    cases hdeletion.removed with
    | alone _ hafter _ =>
      rw [hafter]
      exact .still (fun _ => rfl) fun _ => rfl
    | left _ hd _ hafter _ =>
      rw [hafter]
      refine .still (fun a => ?_) fun _ => rfl
      rw [dialog_phase_set hd _ rfl]
      split
      · rename_i ha
        rw [ha, dialog_phase, hd]
        rfl
      · rfl
    | @ended dialog d _ hd hstate hafter _ =>
      rw [hafter]
      have hphase : dialog_phase m.worker dialog = some (.TERMINATED, d.call) := by
        rw [dialog_phase, hd, Option.map_some, hstate]
      refine .ended hphase (fun a => ?_) fun a => ?_
      · rw [dialog_phase, Store.cells_remove]
        split <;> rfl
      · rw [call_phase, call_phase]
        by_cases hcall : d.call = some a
        · obtain ⟨c, hc, -⟩ := hworker.call hd hcall
          rw [hcall, cells_end_call_self hc, hc]
          by_cases hended : c.state = .TERMINATED
          · simp [hended]
          · simp [hended]
        · rw [cells_end_call_of_ne hcall, if_neg fun h => hcall h.1]

/-- How a dialog's state agrees with its call. -/
inductive Settled (worker : worker_thread_t) : sip_dialog_state_t → Option Nat → Prop where
  | confirmed {call : Nat} (hcall : call_phase worker call = some .ESTABLISHED) : Settled worker .CONFIRMED (some call)
  | alone : Settled worker .TERMINATED none
  | ended {call : Nat} (hcall : call_phase worker call = some .FAILED ∨ call_phase worker call = some .TERMINATED) :
    Settled worker .TERMINATED (some call)

/-- Every dialog's state agrees with its call. -/
def DialogsSettled (worker : worker_thread_t) : Prop :=
  ∀ dialog state call, dialog_phase worker dialog = some (state, call) → Settled worker state call

/-- A call has one dialog. -/
theorem WellFormed.dialog_unique {worker : worker_thread_t} (h : WellFormed worker) {a b call : Nat}
    {state state' : sip_dialog_state_t} (ha : dialog_phase worker a = some (state, some call))
    (hb : dialog_phase worker b = some (state', some call)) : a = b := by
  obtain ⟨d, hd, heq⟩ := Option.map_eq_some_iff.mp ha
  obtain ⟨e, he, heq'⟩ := Option.map_eq_some_iff.mp hb
  rw [Prod.mk.injEq] at heq heq'
  obtain ⟨c, hc, hcount⟩ := h.call hd heq.2
  obtain ⟨c', hc', hcount'⟩ := h.call he heq'.2
  rw [hc, Option.some.injEq] at hc'
  subst hc'
  exact h.single hc (by omega) (by omega)

theorem WellFormed.call_live {worker : worker_thread_t} (h : WellFormed worker) {a call : Nat}
    {state : sip_dialog_state_t} (ha : dialog_phase worker a = some (state, some call)) :
    call ≠ worker.calls.heap.next := by
  obtain ⟨d, hd, heq⟩ := Option.map_eq_some_iff.mp ha
  rw [Prod.mk.injEq] at heq
  obtain ⟨c, hc, -⟩ := h.call hd heq.2
  exact (Heap.lt_next_of_cells hc).ne

theorem Settled.congr {before after : worker_thread_t} {state : sip_dialog_state_t} {call : Option Nat}
    (h : Settled before state call)
    (hcalls : ∀ a, call = some a → call_phase after a = call_phase before a) : Settled after state call := by
  cases h with
  | confirmed hcall => exact .confirmed ((hcalls _ rfl).trans hcall)
  | alone => exact .alone
  | ended hcall => exact .ended (by rwa [hcalls _ rfl])

/-- Every step keeps the dialogs' states in agreement with their calls. -/
theorem Shift.settled {before after : worker_thread_t} {hung : Option Nat} (h : Shift before after hung)
    (hworker : WellFormed before) (hsettled : DialogsSettled before) : DialogsSettled after := by
  intro a state call hphase
  cases h with
  | still hdialogs hcalls =>
    rw [hdialogs] at hphase
    exact (hsettled a state call hphase).congr fun _ _ => hcalls _
  | failed hdialogs hcalls =>
    rw [hdialogs] at hphase
    split at hphase
    · cases hphase
      exact .alone
    · exact (hsettled a state call hphase).congr fun _ _ => hcalls _
  | begun hstates hdialogs hcalls =>
    rw [hdialogs] at hphase
    split at hphase
    · cases hphase
      have hnew := hcalls before.calls.heap.next
      rw [if_pos rfl] at hnew
      rcases hstates with ⟨rfl, rfl⟩ | ⟨rfl, rfl⟩
      · exact .confirmed hnew
      · exact .ended (.inl hnew)
    · refine (hsettled a state call hphase).congr fun b hb => ?_
      subst hb
      rw [hcalls, if_neg (hworker.call_live hphase)]
  | @hung_up dialog ended hdialog hdialogs hcalls =>
    rw [hdialogs] at hphase
    split at hphase
    · cases hphase
      refine .ended (.inr ?_)
      rw [hcalls, if_pos rfl]
    · rename_i ha
      refine (hsettled a state call hphase).congr fun b hb => ?_
      subst hb
      rw [hcalls, if_neg]
      rintro rfl
      exact ha (hworker.dialog_unique hphase hdialog)
  | @ended dialog gone hdialog hdialogs hcalls =>
    rw [hdialogs] at hphase
    split at hphase
    · cases hphase
    · rename_i ha
      refine (hsettled a state call hphase).congr fun b hb => ?_
      subst hb
      rw [hcalls, if_neg]
      rintro ⟨rfl, -⟩
      exact ha (hworker.dialog_unique hphase hdialog)

/-- A transaction between two steps: none is in the middle of its INVITE, and only an
INVITE waits for its ACK. -/
def Rests (t : sip_transaction_t) : Prop :=
  t.state ≠ .PROCEEDING ∧ (t.state = .COMPLETED →
    ∃ message, t.message = some message ∧ message.contents.method_type = .INVITE)

private theorem Answer.invite {transaction : Nat} {original : Owned sip_message_t} {t : sip_transaction_t}
    {sends : List Sent} (h : Answer transaction original t sends) (hmethod : original.contents.method_type = .INVITE) :
    ∃ message, t.message = some message ∧ message.contents.method_type = .INVITE := by
  obtain ⟨contents, hmessage, hsame⟩ := h.message
  have hkeeps : contents.method_type = original.contents.method_type := congrArg (·.method_type) hsame.same
  exact ⟨_, hmessage, hkeeps.trans hmethod⟩

theorem Fate.rests {before after : worker_thread_t} {original : Owned sip_message_t} {transaction : Nat}
    {t : sip_transaction_t} {sends : List Sent} (h : Fate before original transaction t after sends) : Rests t := by
  have hof : ∀ {state : sip_transaction_state_t}, t.state = state → state ≠ .PROCEEDING → state ≠ .COMPLETED →
      Rests t := by
    rintro state rfl hproceeding hcompleted
    exact ⟨hproceeding, fun h => absurd h hcompleted⟩
  have hcompleted : t.state = .COMPLETED → Answer transaction original t sends →
      original.contents.method_type = .INVITE → Rests t := by
    intro hstate hanswer hmethod
    exact ⟨by rw [hstate]; nofun, fun _ => hanswer.invite hmethod⟩
  cases h with
  | reinvite _ _ _ _ hstate => exact hof hstate nofun nofun
  | acked _ _ hstate => exact hof hstate nofun nofun
  | refused _ _ _ _ hstate => exact hof hstate nofun nofun
  | hung_up _ _ _ _ _ _ _ hstate => exact hof hstate nofun nofun
  | failed_alone hmethod _ _ hstate _ hanswer => exact hcompleted hstate hanswer hmethod
  | failed_in_dialog hmethod _ _ hstate _ hanswer => exact hcompleted hstate hanswer hmethod
  | failed_in_call hmethod _ _ hstate _ hanswer => exact hcompleted hstate hanswer hmethod
  | established _ _ _ hstate => exact hof hstate nofun nofun

/-- What a step may make of a transaction it keeps. -/
inductive Rewritten (t t' : sip_transaction_t) : Prop where
  | same (ht : t' = t)
  | answered {opened : Owned sip_message_t} {status_code : Nat} {output : Bytes} (hholds : t.message = some opened)
    (ht : t' = answered t opened status_code output)
  | terminated (hstate : t'.state = .TERMINATED) (hmessage : t'.message = t.message)
    (hcode : t'.final_response_code = t.final_response_code)

theorem Rewritten.value_le {t t' : sip_transaction_t} (h : Rewritten t t') : t.state.value ≤ t'.state.value := by
  cases h with
  | same ht => rw [ht]
  | answered _ ht =>
    rw [ht]
    exact Nat.le_refl _
  | terminated hstate =>
    rw [hstate]
    exact t.state.value_le

theorem Rewritten.rests {t t' : sip_transaction_t} (h : Rewritten t t') (hrests : Rests t) : Rests t' := by
  cases h with
  | same ht => exact ht ▸ hrests
  | @answered opened _ _ hholds ht =>
    subst ht
    refine ⟨hrests.1, fun hstate => ?_⟩
    obtain ⟨message, hmessage, hmethod⟩ := hrests.2 hstate
    rw [hholds, Option.some.injEq] at hmessage
    subst hmessage
    exact ⟨_, rfl, hmethod⟩
  | terminated hstate =>
    rw [Rests, hstate]
    exact ⟨nofun, nofun⟩

/-- What a response does not touch of a request stays as it is. -/
theorem Rewritten.keeps {B : Type} {f : sip_message_t → B}
    (hf : ∀ message output, f (with_response message output) = f message) {t t' : sip_transaction_t}
    {opened' : Owned sip_message_t} (h : Rewritten t t') (hmessage : t'.message = some opened') :
    ∃ opened, t.message = some opened ∧ f opened.contents = f opened'.contents := by
  cases h with
  | same ht => exact ⟨opened', ht ▸ hmessage, rfl⟩
  | @answered opened _ _ hholds ht =>
    subst ht
    obtain rfl := Option.some.inj hmessage
    exact ⟨opened, hholds, (hf _ _).symm⟩
  | terminated _ hsame => exact ⟨opened', hsame ▸ hmessage, rfl⟩

/-- What a step does to the transactions: at most one is new, and it rests. -/
def TransactionsMove (before after : worker_thread_t) : Prop :=
  ∀ a t', after.transactions.heap.cells a = some t' →
    (∃ t, before.transactions.heap.cells a = some t ∧ Rewritten t t') ∨
      (a = before.transactions.heap.next ∧ Rests t')

private theorem transactions_move_set {before after : worker_thread_t} {transaction : Nat}
    {t t' : sip_transaction_t} (hcell : before.transactions.heap.cells transaction = some t)
    (hafter : after.transactions = before.transactions.set transaction t') (hrewritten : Rewritten t t') :
    TransactionsMove before after := by
  intro a u hu
  rw [hafter, Store.heap_set, Heap.cells_set hcell] at hu
  split at hu
  · rename_i ha
    subst ha
    obtain rfl := Option.some.inj hu
    exact .inl ⟨t, hcell, hrewritten⟩
  · exact .inl ⟨u, hu, .same rfl⟩

theorem transactions_move_refl (worker : worker_thread_t) : TransactionsMove worker worker :=
  fun _ t ht => .inl ⟨t, ht, .same rfl⟩

theorem Handled.transactions_move {m m' : Machine} {message : Owned sip_message_t} (h : Handled m message m') :
    TransactionsMove m.worker m'.worker := by
  cases h with
  | unallocated _ _ _ hm =>
    rw [hm]
    exact transactions_move_refl _
  | opened _ _ hopened =>
    intro a u hu
    rw [hopened.transactions, Store.heap_push, Heap.cells_alloc] at hu
    split at hu
    · rename_i ha
      obtain rfl := Option.some.inj hu
      exact .inr ⟨ha, hopened.fate.rests⟩
    · exact .inl ⟨u, hu, .same rfl⟩
  | known _ hcell hholds hknown =>
    cases hknown with
    | dropped _ _ hm =>
      rw [hm]
      exact transactions_move_refl _
    | resent _ _ _ hm =>
      rw [hm]
      exact transactions_move_refl _
    | rewritten _ _ _ hconversed _ _ _ =>
      exact transactions_move_set hcell hconversed.transactions (.answered hholds rfl)
    | acked _ _ _ hconversed _ _ _ =>
      exact transactions_move_set hcell hconversed.transactions (.terminated rfl rfl rfl)

theorem Rewritten.disband (slots : List (Option Nat)) (a : Nat) (t : sip_transaction_t) :
    Rewritten t (disband slots a t) := by
  unfold sip_server.disband
  split
  · exact .terminated rfl rfl rfl
  · exact .same rfl

theorem Deleted.transactions_move {m m' : Machine} {event : transaction_delete_t} (h : Deleted m event m') :
    TransactionsMove m.worker m'.worker := by
  cases h with
  | missing _ hm =>
    rw [hm]
    exact transactions_move_refl _
  | removed _ _ hdeletion =>
    obtain ⟨slots, hcells⟩ := hdeletion.removed.cells
    intro a u hu
    rw [hcells] at hu
    split at hu
    · cases hu
    · obtain ⟨v, hv, rfl⟩ := Option.map_eq_some_iff.mp hu
      exact .inl ⟨v, hv, .disband slots a v⟩

end mock_uas.sip_server
