import MockUas.Server.EndedEvents

open clib
open mock_uas.sip_message
open mock_uas.sip_utils

namespace mock_uas.sip_server

/-- Every call is the call of a dialog. -/
def CallsBelong (worker : worker_thread_t) : Prop :=
  ∀ call state, call_phase worker call = some state →
    ∃ dialog state', dialog_phase worker dialog = some (state', some call)

/-- Every dialog that is over is the dialog of a transaction that has ended. -/
def DialogsEnd (worker : worker_thread_t) : Prop :=
  ∀ dialog call, dialog_phase worker dialog = some (.TERMINATED, call) →
    ∃ a t, worker.transactions.heap.cells a = some t ∧ t.dialog = some dialog ∧ Ended t

/-- A transaction in the dialog of a call that failed while it was set up. -/
def InFailedCall (worker : worker_thread_t) (transaction : Nat) : Prop :=
  ∃ t dialog call state, worker.transactions.heap.cells transaction = some t ∧ t.dialog = some dialog ∧
    dialog_phase worker dialog = some (state, some call) ∧ call_phase worker call = some .FAILED

instance (worker : worker_thread_t) : DecidablePred (InFailedCall worker) := fun transaction =>
  decidable_of_iff (∃ t ∈ worker.transactions.heap.cells transaction, ∃ dialog ∈ t.dialog,
    ∃ phase ∈ dialog_phase worker dialog, ∃ call ∈ phase.2, call_phase worker call = some .FAILED) (by
    constructor
    · rintro ⟨t, ht, dialog, hdialog, ⟨state, _⟩, hphase, call, rfl, hfailed⟩
      exact ⟨t, dialog, call, state, ht, hdialog, hphase, hfailed⟩
    · rintro ⟨t, dialog, call, state, ht, hdialog, hphase, hfailed⟩
      exact ⟨t, ht, dialog, hdialog, _, hphase, call, rfl, hfailed⟩)

/-- A step with nothing but sends failing that adds no transaction to a full dialog. Where it
is a deletion, it deletes a transaction that has ended and whose call has not failed. -/
structure Reclaiming (run : Run) (input : Input) : Prop where
  room : HasRoom run input
  ended : EndedOnly run input
  failed : ∀ a, Deletes run a input → ¬ InFailedCall run.worker a

/-- No call is left without its dialog, and no dialog that is over without a transaction that
is going to be deleted. -/
structure Reclaimed (run : Run) : Prop where
  call : ∀ call ∈ run.worker.calls.list, ∃ dialog ∈ run.worker.dialogs.list, ∃ d,
    run.worker.dialogs.heap.cells dialog = some d ∧ d.call = some call
  dialog : ∀ dialog ∈ run.worker.dialogs.list, ∀ d, run.worker.dialogs.heap.cells dialog = some d →
    d.state = .TERMINATED → ∃ a t, some a ∈ d.transaction.items ∧ a ∈ run.worker.transactions.list ∧
      run.worker.transactions.heap.cells a = some t ∧ Ended t ∧ ∃ event ∈ run.pending, event_key event = key_of t
  pending : EndedCovered run
  rest : run.pending = [] →
    (∀ dialog ∈ run.worker.dialogs.list, ∀ d, run.worker.dialogs.heap.cells dialog = some d → d.state = .CONFIRMED) ∧
      ∀ call ∈ run.worker.calls.list, ∀ c, run.worker.calls.heap.cells call = some c → c.state = .ESTABLISHED

theorem dialog_phase_eq_some_iff {worker : worker_thread_t} {dialog : Nat} {state : sip_dialog_state_t}
    {call : Option Nat} :
    dialog_phase worker dialog = some (state, call) ↔
      ∃ d, worker.dialogs.heap.cells dialog = some d ∧ d.state = state ∧ d.call = call := by
  rw [dialog_phase, Option.map_eq_some_iff]
  exact exists_congr fun d => and_congr_right fun _ => Prod.mk.injEq .. ▸ Iff.rfl

theorem dialog_phase_next (worker : worker_thread_t) : dialog_phase worker worker.dialogs.heap.next = none := by
  rw [dialog_phase, Heap.cells_next]
  rfl

/-- A call stays with its dialog, unless the dialog ends and the call does not. -/
theorem Shift.calls_belong {before after : worker_thread_t} {hung : Option Nat} (h : Shift before after hung)
    (hbelong : CallsBelong before)
    (hended : ∀ dialog call state, dialog_phase before dialog = some (state, some call) →
      dialog_phase after dialog = none → call_phase after call = none) : CallsBelong after := by
  have hkept : ∀ call state, call_phase before call = some state → call_phase after call ≠ none →
      (∀ dialog phase, dialog_phase before dialog = some phase → dialog_phase after dialog ≠ none →
        ∃ state', dialog_phase after dialog = some (state', phase.2)) →
      ∃ dialog state', dialog_phase after dialog = some (state', some call) := by
    intro call state hcall hlive hsame
    obtain ⟨dialog, state', hdialog⟩ := hbelong call state hcall
    have hstays : dialog_phase after dialog ≠ none := fun hnone => hlive (hended dialog call state' hdialog hnone)
    exact ⟨dialog, hsame dialog _ hdialog hstays⟩
  intro call state hcall
  have hlive : call_phase after call ≠ none := by
    rw [hcall]
    nofun
  cases h with
  | still hdialogs hcalls =>
    refine hkept call state (hcalls call ▸ hcall) hlive fun dialog phase hphase _ => ?_
    exact ⟨phase.1, by rw [hdialogs, hphase]⟩
  | failed hdialogs hcalls =>
    refine hkept call state (hcalls call ▸ hcall) hlive fun dialog phase hphase _ => ?_
    refine ⟨phase.1, ?_⟩
    rw [hdialogs, if_neg, hphase]
    rintro rfl
    rw [dialog_phase_next] at hphase
    cases hphase
  | @begun new _ _ hdialogs hcalls =>
    rw [hcalls] at hcall
    split at hcall
    · rename_i hnew
      subst hnew
      exact ⟨_, new, by rw [hdialogs, if_pos rfl]⟩
    · refine hkept call state hcall hlive fun dialog phase hphase _ => ?_
      refine ⟨phase.1, ?_⟩
      rw [hdialogs, if_neg, hphase]
      rintro rfl
      rw [dialog_phase_next] at hphase
      cases hphase
  | @hung_up dialog ended hdialog hdialogs hcalls =>
    rw [hcalls] at hcall
    split at hcall
    · rename_i hsame
      subst hsame
      exact ⟨dialog, .TERMINATED, by rw [hdialogs, if_pos rfl]⟩
    · refine hkept call state hcall hlive fun other phase hphase _ => ?_
      rw [hdialogs]
      split
      · rename_i hsame
        subst hsame
        rw [hdialog, Option.some.injEq] at hphase
        subst hphase
        exact ⟨.TERMINATED, rfl⟩
      · exact ⟨phase.1, hphase⟩
  | @ended dialog gone hdialog hdialogs hcalls =>
    rw [hcalls] at hcall
    split at hcall
    · cases hcall
    · refine hkept call state hcall hlive fun other phase hphase hstays => ?_
      rw [hdialogs] at hstays ⊢
      split at hstays
      · exact absurd rfl hstays
      · rename_i hother
        exact ⟨phase.1, by rw [if_neg hother, hphase]⟩

/-- Of a request that opens a transaction only that transaction's dialog ends. -/
private theorem Fate.ends_dialog {before after : worker_thread_t} {original : Owned sip_message_t} {transaction : Nat}
    {t : sip_transaction_t} {sends : List Sent} (h : Fate before original transaction t after sends) {dialog : Nat}
    {call : Option Nat} (hended : dialog_phase after dialog = some (.TERMINATED, call)) :
    dialog_phase before dialog = some (.TERMINATED, call) ∨ t.dialog = some dialog ∧ Ended t := by
  have hbegun : ∀ {d}, after.dialogs = before.dialogs.push d → t.dialog = some before.dialogs.heap.next → Ended t →
      dialog_phase before dialog = some (.TERMINATED, call) ∨ t.dialog = some dialog ∧ Ended t := by
    intro d hdialogs hdialog ht
    rw [dialog_phase_push hdialogs] at hended
    split at hended
    · rename_i hnew
      exact .inr ⟨hnew ▸ hdialog, ht⟩
    · exact .inl hended
  cases h with
  | @reinvite found d _ _ hcell _ _ _ _ hdialogs =>
    left
    rw [dialog_phase_set hcell _ hdialogs] at hended
    split at hended
    · rename_i hfound
      rw [hfound, dialog_phase, hcell]
      exact hended
    · exact hended
  | acked _ _ _ _ _ hdialogs => exact .inl (by rwa [dialog_phase_attach hdialogs] at hended)
  | refused _ _ _ _ _ _ _ hdialogs => exact .inl (by rwa [dialog_phase_attach hdialogs] at hended)
  | hung_up _ _ hcell _ _ _ hdialog hstate _ _ hdialogs =>
    rw [dialog_phase_set hcell _ hdialogs] at hended
    split at hended
    · rename_i hfound
      exact .inr ⟨hfound ▸ hdialog, .inr hstate⟩
    · exact .inl hended
  | failed_alone _ _ _ _ _ _ hdialogs => exact .inl (by rwa [dialog_phase, hdialogs] at hended)
  | failed_in_dialog _ _ hdialog hstate _ _ _ hdialogs => exact hbegun hdialogs hdialog (.inl hstate)
  | failed_in_call _ _ hdialog hstate _ _ _ hdialogs => exact hbegun hdialogs hdialog (.inl hstate)
  | established _ _ hdialog hstate _ _ _ hdialogs => exact hbegun hdialogs hdialog (.inr hstate)

private theorem Known.keeps_ended {m m' : Machine} {message opened : Owned sip_message_t} {transaction : Nat}
    {t : sip_transaction_t} (h : Known m message transaction t opened m')
    (hcell : m.worker.transactions.heap.cells transaction = some t) {a dialog : Nat} {u : sip_transaction_t}
    (hu : m.worker.transactions.heap.cells a = some u) (hdialog : u.dialog = some dialog) (hended : Ended u) :
    ∃ u', m'.worker.transactions.heap.cells a = some u' ∧ u'.dialog = some dialog ∧ Ended u' := by
  have hset : ∀ {t'}, m'.worker.transactions = m.worker.transactions.set transaction t' →
      (t.dialog = some dialog → t'.dialog = some dialog) → (Ended t → Ended t') →
      ∃ u', m'.worker.transactions.heap.cells a = some u' ∧ u'.dialog = some dialog ∧ Ended u' := by
    intro t' hafter hkeeps hends
    rw [hafter, Store.heap_set, Heap.cells_set hcell]
    split
    · rename_i ha
      rw [ha, hcell, Option.some.injEq] at hu
      subst hu
      exact ⟨t', rfl, hkeeps hdialog, hends hended⟩
    · exact ⟨u, hu, hdialog, hended⟩
  cases h with
  | dropped _ _ hm =>
    subst hm
    exact ⟨u, hu, hdialog, hended⟩
  | resent _ _ _ hm =>
    subst hm
    exact ⟨u, hu, hdialog, hended⟩
  | rewritten _ _ _ hconversed => exact hset hconversed.transactions id id
  | acked _ _ _ hconversed =>
    refine hset hconversed.transactions (fun hsome => ?_) fun _ => .inr rfl
    simp [hsome]

private theorem Handled.dialogs_end {m m' : Machine} {message : Owned sip_message_t} (h : Handled m message m')
    (hends : DialogsEnd m.worker) : DialogsEnd m'.worker := by
  intro dialog call hphase
  cases h with
  | unallocated _ _ _ hm =>
    subst hm
    exact hends dialog call hphase
  | @opened t _ _ _ _ hopened =>
    rw [hopened.transactions]
    rcases hopened.fate.ends_dialog hphase with hbefore | ⟨hdialog, hended⟩
    · obtain ⟨a, u, hu, hdialog, hended⟩ := hends dialog call hbefore
      exact ⟨a, u, Heap.cells_alloc_of_cells hu, hdialog, hended⟩
    · exact ⟨_, t, Heap.cells_alloc_self _ _, hdialog, hended⟩
  | known _ hcell _ hknown =>
    rw [hknown.dialog_phase] at hphase
    obtain ⟨a, u, hu, hdialog, hended⟩ := hends dialog call hphase
    exact ⟨a, hknown.keeps_ended hcell hu hdialog hended⟩

private theorem Deleted.dialogs_end {m m' : Machine} {event : transaction_delete_t} (h : Deleted m event m')
    (hworker : WellFormed m.worker) (hends : DialogsEnd m.worker) : DialogsEnd m'.worker := by
  intro dialog call hphase
  cases h with
  | missing _ hm =>
    subst hm
    exact hends dialog call hphase
  | @removed transaction t _ _ _ hcell hdeletion =>
    have hkept : ∀ {a u}, m.worker.transactions.heap.cells a = some u → u.dialog = some dialog →
        t.dialog ≠ some dialog → (m.worker.transactions.remove transaction).heap.cells a = some u := by
      intro a u hu hdialog hother
      rw [Store.cells_remove, if_neg, hu]
      rintro rfl
      rw [hcell, Option.some.injEq] at hu
      exact hother (hu ▸ hdialog)
    cases hdeletion.removed with
    | alone hnone hafter =>
      rw [hafter] at hphase ⊢
      obtain ⟨a, u, hu, hdialog, hended⟩ := hends dialog call hphase
      exact ⟨a, u, hkept hu hdialog (by rw [hnone]; nofun), hdialog, hended⟩
    | @left other d hother hd hstate hafter =>
      rw [hafter] at hphase ⊢
      rw [dialog_phase_set hd _ rfl] at hphase
      split at hphase
      · exact absurd (Prod.mk.inj (Option.some.inj hphase)).1 hstate
      · rename_i hne
        obtain ⟨a, u, hu, hdialog, hended⟩ := hends dialog call hphase
        refine ⟨a, u, hkept hu hdialog ?_, hdialog, hended⟩
        rw [hother]
        exact fun h => hne (Option.some.inj h).symm
    | @ended other d hother hd _ hafter =>
      rw [hafter] at hphase ⊢
      rw [dialog_phase, Store.cells_remove] at hphase
      split at hphase
      · cases hphase
      · rename_i hne
        obtain ⟨a, u, hu, hdialog, hended⟩ := hends dialog call hphase
        have hstays := hkept hu hdialog (by rw [hother]; exact fun h => hne (Option.some.inj h).symm)
        refine ⟨a, u, ?_, hdialog, hended⟩
        rw [Store.cells_map, hstays, Option.map_some, disband, if_neg]
        intro hslot
        obtain ⟨v, hv, hpoints⟩ : ∃ v, m.worker.transactions.heap.cells a = some v ∧ v.dialog = some other := by
          rw [← Slots.count_pos_iff, Slots.count_remove] at hslot
          exact (hworker.slot hd (a := a) (by omega)).2
        rw [hu, Option.some.injEq] at hv
        rw [hv, hpoints] at hdialog
        exact hne (Option.some.inj hdialog).symm

/-- Only a deletion takes a dialog away: that of its transaction, and the call with it if
that is over. -/
private theorem Run.Stepped.dialog_gone {run run' : Run} {input : Input} (h : Run.Stepped run input run')
    {dialog : Nat} {phase : sip_dialog_state_t × Option Nat} (hbefore : dialog_phase run.worker dialog = some phase)
    (hafter : dialog_phase run'.worker dialog = none) :
    ∃ transaction t, Deletes run transaction input ∧ run.worker.transactions.heap.cells transaction = some t ∧
      t.dialog = some dialog ∧ phase.1 = .TERMINATED ∧
        run'.worker.calls = end_call run.worker.calls dialog phase.2 := by
  have hstays : dialog_phase run'.worker dialog = dialog_phase run.worker dialog → False := by
    intro hsame
    rw [hafter, hbefore] at hsame
    cases hsame
  cases h with
  | unhandled => exact (hstays rfl).elim
  | response => exact (hstays rfl).elim
  | request _ hhandled =>
    cases hhandled with
    | unallocated _ _ _ hm =>
      subst hm
      exact (hstays rfl).elim
    | opened _ _ hopened =>
      obtain ⟨d, hd, -⟩ := Option.map_eq_some_iff.mp hbefore
      obtain ⟨d', hd', -⟩ := hopened.fate.keeps dialog d hd
      rw [dialog_phase, Run.finish, hd'] at hafter
      cases hafter
    | known _ _ _ hknown => exact (hstays (hknown.dialog_phase dialog)).elim
  | delete hdeleted =>
    cases hdeleted with
    | missing _ hm =>
      subst hm
      exact (hstays rfl).elim
    | @removed transaction t _ _ hfound hcell hdeletion =>
      rw [Run.finish] at hafter hstays ⊢
      cases hdeletion.removed with
      | alone _ hafter' =>
        rw [hafter'] at hstays
        exact (hstays rfl).elim
      | left _ hd _ hafter' =>
        rw [hafter', dialog_phase_set hd _ rfl] at hafter
        split at hafter
        · cases hafter
        · cases hbefore.symm.trans hafter
      | @ended other d hother hd hstate hafter' =>
        rw [hafter', dialog_phase, Store.cells_remove] at hafter
        split at hafter
        · rename_i hsame
          subst hsame
          rw [dialog_phase, show run.worker.dialogs.heap.cells dialog = some d from hd, Option.map_some,
            Option.some.injEq] at hbefore
          refine ⟨transaction, t, hfound, hcell, hother, hbefore ▸ hstate, ?_⟩
          rw [hafter', ← hbefore]
          rfl
        · cases hbefore.symm.trans hafter

/-- What is kept at every step boundary. -/
structure Kept (run : Run) : Prop where
  phased : Phased run.worker
  links : Links run.worker
  stamped : ∀ event ∈ run.pending, Stamped event
  calls : CallsBelong run.worker
  dialogs : DialogsEnd run.worker

/-- A call goes with its dialog, unless it has failed. -/
private theorem Run.Stepped.call_gone {run run' : Run} {input : Input} (h : Run.Stepped run input run')
    (hphased : Phased run.worker) (hfailed : ∀ a, Deletes run a input → ¬ InFailedCall run.worker a) {dialog call : Nat}
    {state : sip_dialog_state_t} (hbefore : dialog_phase run.worker dialog = some (state, some call))
    (hafter : dialog_phase run'.worker dialog = none) : call_phase run'.worker call = none := by
  obtain ⟨a, t, hdeletes, ht, hdialog, hover, hcalls⟩ := h.dialog_gone hbefore hafter
  obtain ⟨d, hd, -, hcall⟩ := dialog_phase_eq_some_iff.mp hbefore
  obtain ⟨c, hc, -⟩ := hphased.wellFormed.call hd hcall
  have hstate : call_phase run.worker call = some .TERMINATED := by
    have hsettled := hphased.settled dialog state (some call) hbefore
    rw [show state = .TERMINATED from hover] at hsettled
    cases hsettled with
    | ended hended =>
      rcases hended with hended | hended
      · exact absurd ⟨t, dialog, call, state, ht, hdialog, hbefore, hended⟩ (hfailed a hdeletes)
      · exact hended
  rw [call_phase, hc, Option.map_some, Option.some.injEq] at hstate
  rw [call_phase, hcalls, cells_end_call_self hc, if_pos hstate, Option.map_none]

theorem Run.Stepped.kept {run run' : Run} {input : Input} (h : Run.Stepped run input run')
    (hreclaiming : Reclaiming run input) (hkept : Kept run) : Kept run' := by
  have hworker := hkept.phased.wellFormed
  obtain ⟨hung, hshift, -⟩ := h.shift hworker
  refine ⟨h.phased hkept.phased, ?_, h.stamped hworker hkept.stamped, ?_, ?_⟩
  · exact h.links hworker hreclaiming.room hkept.links
  · exact hshift.calls_belong hkept.calls fun _ _ _ hbefore hafter =>
      h.call_gone hkept.phased hreclaiming.failed hbefore hafter
  · cases h with
    | unhandled => exact hkept.dialogs
    | response => exact hkept.dialogs
    | request _ hhandled => exact hhandled.dialogs_end hkept.dialogs
    | delete hdeleted => exact hdeleted.dialogs_end hworker hkept.dialogs

theorem Run.Initial.kept {run : Run} (h : run.Initial) : Kept run := by
  refine ⟨h.phased, h.links, by rw [h.pending]; nofun, ?_, ?_⟩
  · intro call state hcall
    rw [call_phase, h.calls] at hcall
    cases hcall
  · intro dialog call hdialog
    rw [dialog_phase, h.dialogs] at hdialog
    cases hdialog

/-- While delete events reach transactions only that have ended and whose call has not failed,
every call has its dialog, every dialog that is over is going to be deleted, and once
nothing is left to delete only established calls are left. -/
theorem calls_and_dialogs_reclaimed (run : Run) (h : program.ReachableWhile Reclaiming run) : Reclaimed run := by
  have hcovered : EndedCovered run := by
    obtain ⟨start, hstart, hpath⟩ := h
    exact ReachableWhile.ended_covered ⟨start, hstart, hpath.mono fun _ _ hreclaiming => hreclaiming.ended⟩
  have hkept : Kept run := by
    refine h.invariant (P := fun run => Kept run) (fun run (hinitial : run.Initial) => hinitial.kept) ?_
    intro run input run' _ hreclaiming hstep hkept
    exact ((step_ends hkept.phased.wellFormed input).of_eq_ok hstep).kept hreclaiming hkept
  have hworker := hkept.phased.wellFormed
  have hagree := hkept.phased.agree
  have hcall : ∀ call ∈ run.worker.calls.list, ∃ dialog ∈ run.worker.dialogs.list, ∃ d,
      run.worker.dialogs.heap.cells dialog = some d ∧ d.call = some call := by
    intro call hmem
    obtain ⟨c, hc⟩ := hworker.calls.cells hmem
    obtain ⟨dialog, state, hphase⟩ := hkept.calls call c.state (by rw [call_phase, hc, Option.map_some])
    obtain ⟨d, hd, -, hdcall⟩ := dialog_phase_eq_some_iff.mp hphase
    exact ⟨dialog, hworker.dialogs.mem hd, d, hd, hdcall⟩
  have hdialog : ∀ dialog ∈ run.worker.dialogs.list, ∀ d, run.worker.dialogs.heap.cells dialog = some d →
      d.state = .TERMINATED → ∃ a t, some a ∈ d.transaction.items ∧ a ∈ run.worker.transactions.list ∧
        run.worker.transactions.heap.cells a = some t ∧ Ended t ∧
          ∃ event ∈ run.pending, event_key event = key_of t := by
    intro dialog _ d hd hstate
    obtain ⟨a, t, ht, hpoints, hended⟩ := hkept.dialogs dialog d.call
      (dialog_phase_eq_some_iff.mpr ⟨d, hd, hstate, rfl⟩)
    obtain ⟨d', hd', hcount⟩ := hkept.links a t dialog ht hpoints
    rw [hd, Option.some.injEq] at hd'
    subst hd'
    have hslot : some a ∈ d.transaction.items := Slots.count_pos_iff.mp (by omega)
    exact ⟨a, t, hslot, hworker.transactions.mem ht, ht, hended, hcovered.pending hworker ht hended⟩
  refine ⟨hcall, hdialog, hcovered, fun hnone => ?_⟩
  have hconfirmed : ∀ dialog ∈ run.worker.dialogs.list, ∀ d, run.worker.dialogs.heap.cells dialog = some d →
      d.state = .CONFIRMED := by
    intro dialog hmem d hd
    rcases hagree.dialog dialog d hmem hd with hstate | hstate
    · exact hstate
    · obtain ⟨a, t, -, -, -, -, event, hevent, -⟩ := hdialog dialog hmem d hd hstate
      rw [hnone] at hevent
      cases hevent
  refine ⟨hconfirmed, fun call hmem c hc => ?_⟩
  obtain ⟨dialog, hdmem, d, hd, hdcall⟩ := hcall call hmem
  obtain ⟨call', c', hcall', hc', hstate⟩ := hagree.confirmed dialog d hdmem hd (hconfirmed dialog hdmem d hd)
  rw [hdcall, Option.some.injEq] at hcall'
  subst hcall'
  rw [hc, Option.some.injEq] at hc'
  exact hc' ▸ hstate

/-- Two calls of which the first is hung up, with all deletions done. -/
private def reclaimed_inputs : List Input :=
  first_call ++ [arrival foreign_invite .other, .delete bye_event .obliging, .delete foreign_event .obliging,
    .delete invite_event .obliging]

private theorem reclaimed_run :
    (program.follow_tested (fun run input => HasRoom run input ∧ ∀ a, Deletes run a input →
      (∀ t ∈ run.worker.transactions.heap.cells a, Ended t) ∧ ¬ InFailedCall run.worker a)
      Run.started reclaimed_inputs).map (fun run : Run =>
        (run.pending, run.worker.transactions.list, run.worker.dialogs.list, run.worker.calls.list)) =
      some ([], [], [1], [1]) := by
  decide +kernel

/-- Of a call that is hung up nothing is left, and of the other its dialog and its call. -/
theorem hung_up_call_reclaimed :
    ∃ run : Run, run.pending = [] ∧ run.worker.transactions.list = [] ∧ run.worker.dialogs.list = [1] ∧
      run.worker.calls.list = [1] ∧ Reclaimed run := by
  obtain ⟨run, hrun, hfacts⟩ := Option.map_eq_some_iff.mp reclaimed_run
  simp only [Prod.mk.injEq] at hfacts
  obtain ⟨hpending, htransactions, hdialogs, hcalls⟩ := hfacts
  refine ⟨run, hpending, htransactions, hdialogs, hcalls, calls_and_dialogs_reclaimed run
    ⟨Run.started, Run.started_initial, .of_follow_tested hrun ?_⟩⟩
  have hprovided : ∀ input ∈ reclaimed_inputs, Provided input.env := by
    simp [reclaimed_inputs, first_call, arrival, Input.env, provided_obliging, provided_other]
  rintro run input hinput ⟨hroom, hdeletes⟩
  exact ⟨hroom, ⟨hprovided input hinput, fun a t hfound ht => (hdeletes a hfound).1 t ht⟩,
    fun a hfound => (hdeletes a hfound).2⟩

/-- The network takes one datagram and no more. -/
def Environment.cut_off : Environment := { Environment.obliging with sendto := fun n => n == 0 }

theorem provided_cut_off : Provided .cut_off := ⟨fun _ => rfl, provided_obliging.timer⟩

private def failed_call : List Input := [arrival first_invite .cut_off, .delete invite_event .obliging]

private theorem failed_call_run :
    (program.follow_tested HasRoom Run.started failed_call).map (fun run : Run =>
      (run.worker.calls.list, run.worker.dialogs.list, run.worker.transactions.list, run.pending)) =
      some ([0], [], [], []) := by
  decide +kernel

/-- The 180 to an INVITE does not go out, and its call outlives its dialog and its
transaction. -/
theorem failed_call_never_reclaimed :
    ∃ run, program.ReachableWhile (fun run input => HasRoom run input ∧ Provided input.env) run ∧
      run.pending = [] ∧ run.worker.dialogs.list = [] ∧ run.worker.calls.list = [0] ∧ ¬ Reclaimed run := by
  obtain ⟨run, hrun, hfacts⟩ := Option.map_eq_some_iff.mp failed_call_run
  simp only [Prod.mk.injEq] at hfacts
  obtain ⟨hcalls, hdialogs, -, hpending⟩ := hfacts
  have hprovided : ∀ input ∈ failed_call, Provided input.env := by
    simp [failed_call, arrival, Input.env, provided_obliging, provided_cut_off]
  refine ⟨run, ⟨Run.started, Run.started_initial, .of_follow_tested hrun fun _ input hinput hroom =>
    ⟨hroom, hprovided input hinput⟩⟩, hpending, hdialogs, hcalls, fun hreclaimed => ?_⟩
  obtain ⟨dialog, hmem, -⟩ := hreclaimed.call 0 (by rw [hcalls]; exact List.mem_singleton.mpr rfl)
  rw [hdialogs] at hmem
  cases hmem

/-- Two INVITEs with one branch of which 64 bytes are kept, the second in a dialog. -/
def long_branch_invite : Datagram where
  bytes := request_text (ascii "INVITE") (List.replicate 65 120) (ascii "<sip:b@h>")
  fits := by decide +kernel

def long_branch_reinvite : Datagram where
  bytes := request_text (ascii "INVITE") (List.replicate 65 120) (ascii "<sip:b@h>;tag=0000000000000000")
  fits := by decide +kernel

/-- The event of the first of them. -/
def long_branch_event : transaction_delete_t := { ack_event with serial := 0, owner := 0 }

/-- The first of them fails, and its deletion comes behind the second. -/
private def long_branch_inputs : List Input :=
  [arrival long_branch_invite .cut_off, arrival first_invite .obliging, arrival long_branch_reinvite .obliging,
    .delete long_branch_event .obliging]

private theorem long_branch_run :
    (program.follow_tested HasRoom Run.started long_branch_inputs).map (fun run : Run =>
      ((run.worker.dialogs.heap.cells 0).map (fun d => (d.state, d.transaction.items.filterMap id)),
        (run.worker.transactions.heap.cells 0).map key_of,
        decide (event_key long_branch_event ∈ run.pending.map event_key))) =
      some (some (.TERMINATED, [0]), some (event_key long_branch_event), false) := by
  decide +kernel

/-- The deletion of an INVITE that failed reaches an INVITE in another dialog that has the
same 64 bytes of branch, and the dialog of the failed one stays. -/
theorem terminated_dialog_never_reclaimed :
    ∃ run, program.ReachableWhile (fun run input => HasRoom run input ∧ Provided input.env) run ∧ ¬ Reclaimed run := by
  obtain ⟨run, hrun, hfacts⟩ := Option.map_eq_some_iff.mp long_branch_run
  simp only [Prod.mk.injEq] at hfacts
  obtain ⟨hdialog, hkey, hgone⟩ := hfacts
  have hprovided : ∀ input ∈ long_branch_inputs, Provided input.env := by
    simp [long_branch_inputs, arrival, Input.env, provided_obliging, provided_cut_off]
  have hreach : program.ReachableWhile (fun run input => HasRoom run input ∧ Provided input.env) run :=
    ⟨Run.started, Run.started_initial, .of_follow_tested hrun fun _ input hinput hroom =>
      ⟨hroom, hprovided input hinput⟩⟩
  refine ⟨run, hreach, fun hreclaimed => ?_⟩
  obtain ⟨d, hd, hstate⟩ := Option.map_eq_some_iff.mp hdialog
  rw [Prod.mk.injEq] at hstate
  obtain ⟨hstate, hslots⟩ := hstate
  have hworker := Reachable.wellFormed hreach.reachable
  obtain ⟨a, t, hslot, -, ht, -, event, hevent, hsame⟩ := hreclaimed.dialog 0 (hworker.dialogs.mem hd) d hd hstate
  obtain rfl : a = 0 := by
    have hmem : a ∈ d.transaction.items.filterMap id := List.mem_filterMap.mpr ⟨some a, hslot, rfl⟩
    rwa [hslots, List.mem_singleton] at hmem
  rw [ht, Option.map_some, Option.some.injEq] at hkey
  rw [decide_eq_false_iff_not, ← hkey, ← hsame] at hgone
  exact hgone (List.mem_map_of_mem hevent)

end mock_uas.sip_server
