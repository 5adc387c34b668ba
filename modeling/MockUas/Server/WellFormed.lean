import MockUas.Server.Graph
import MockUas.Server.Step

open clib
open mock_uas.sip_message
open mock_uas.sip_utils

namespace mock_uas.sip_server

/-- A worker that kept its queue and its socket differs in its lists. -/
private theorem worker_eq {before after : worker_thread_t} (hqueue : after.queue = before.queue)
    (hsocket : after.server_socket = before.server_socket) :
    after = { before with
      transactions := after.transactions
      dialogs := after.dialogs
      calls := after.calls } := by
  obtain ⟨queue, calls, dialogs, transactions, socket⟩ := after
  simp only at hqueue hsocket
  rw [hqueue, hsocket]

theorem OpenedFor.held {queue : Nat} {message : Owned sip_message_t} {t : sip_transaction_t}
    (h : OpenedFor queue message t) (hrequest : Request message.contents) : Held queue t where
  queue := h.queue
  message := by
    obtain ⟨contents, hmessage, hsame⟩ := h.message
    exact ⟨_, hmessage, hsame.request hrequest⟩
  branch := by
    rw [h.branch, h.branch_length, stored_branch]
    exact printed_printed _ _ (nul_not_mem_cstr _ _)
  branch_length := by
    rw [h.branch_length]
    exact ⟨hrequest.branch.2, hrequest.branch_length⟩

/-- The transactions once one was opened. -/
theorem Opened.transactions {m m' : Machine} {message : Owned sip_message_t} {t : sip_transaction_t}
    {sends : List Sent} {adds : List TimerAdd} (h : Opened m message m' t sends adds) :
    m'.worker.transactions = m.worker.transactions.push t := by
  rw [h.conversed.transactions]
  exact Store.push_set _ _ _

theorem count_begun {message : sip_message_t} {transaction : Nat} {call : Option Nat}
    {state : sip_dialog_state_t} {d : sip_dialog_t} (h : Begun message transaction call state d) (a : Nat) :
    d.transaction.count a = if a = transaction then 1 else 0 := by
  obtain ⟨to_tag, -, -, rfl⟩ := h
  have hcount := Slots.count_add (Slots.not_full_empty (by decide : 0 < MAX_TXNS_PER_DIALOG))
    (Slots.count_empty transaction) a
  rwa [Slots.count_empty, Nat.zero_add] at hcount

theorem count_set_up_call (message : sip_message_t) (dialog : Nat) (state : sip_call_state_t) (a : Nat) :
    (set_up_call message dialog state).dialog.count a = if a = dialog then 1 else 0 := by
  have hcount := Slots.count_add (Slots.not_full_empty (by decide : 0 < MAX_DIALOGS_PER_CALL))
    (Slots.count_empty dialog) a
  rwa [Slots.count_empty, Nat.zero_add] at hcount

/-- The worker after an INVITE began a dialog. -/
private theorem wellFormed_begun {worker : worker_thread_t} (h : WellFormed worker) {message : sip_message_t}
    {t : sip_transaction_t} {call : Option Nat} {state : sip_dialog_state_t} {d : sip_dialog_t}
    (hheld : Held worker.queue t) (hdialog : t.dialog = some worker.dialogs.heap.next)
    (hbegun : Begun message worker.transactions.heap.next call state d) (hcall : d.call = none) :
    WellFormed { worker with
      transactions := worker.transactions.push t
      dialogs := worker.dialogs.push d } := by
  refine (h.push_transaction hheld).push_dialog hbegun.tagged ?_ hcall
  intro a hpos
  rw [count_begun hbegun] at hpos ⊢
  split at hpos
  · rename_i ha
    exact ⟨if_pos ha, t, by rw [ha]; exact Heap.cells_alloc_self _ _, hdialog⟩
  · omega

private theorem wellFormed_begun_call {worker : worker_thread_t} (h : WellFormed worker) {message : sip_message_t}
    {t : sip_transaction_t} {state : sip_dialog_state_t} {d : sip_dialog_t}
    (hheld : Held worker.queue t) (hdialog : t.dialog = some worker.dialogs.heap.next)
    (hbegun : Begun message worker.transactions.heap.next (some worker.calls.heap.next) state d)
    (call_state : sip_call_state_t) :
    WellFormed { worker with
      transactions := worker.transactions.push t
      dialogs := worker.dialogs.push d
      calls := worker.calls.push (set_up_call message worker.dialogs.heap.next call_state) } := by
  have hbegun' : Begun message worker.transactions.heap.next none state { d with call := none } := by
    obtain ⟨to_tag, hlength, hclean, rfl⟩ := hbegun
    exact ⟨to_tag, hlength, hclean, rfl⟩
  have hcall : d.call = some worker.calls.heap.next := by
    obtain ⟨to_tag, -, -, rfl⟩ := hbegun
    rfl
  have hbefore := wellFormed_begun h hheld hdialog hbegun' rfl
  have hafter := hbefore.push_call (c := set_up_call message worker.dialogs.heap.next call_state)
    (Heap.cells_alloc_self _ _) rfl (count_set_up_call _ _ _)
  rw [Store.push_set] at hafter
  simp only [← hcall] at hafter
  exact hafter

theorem Opened.wellFormed {m m' : Machine} {message : Owned sip_message_t} {t : sip_transaction_t}
    {sends : List Sent} {adds : List TimerAdd} (h : Opened m message m' t sends adds) (hworker : WellFormed m.worker)
    (hrequest : Request message.contents) : WellFormed m'.worker := by
  have hheld := h.opened.held hrequest
  have hpushed := hworker.push_transaction hheld
  have hattached := hpushed.attach (t := t) (Heap.cells_alloc_self _ _)
  rw [worker_eq h.conversed.queue h.conversed.socket, h.transactions]
  cases h.fate with
  | reinvite _ _ hcell hdialog _ _ _ hdialogs hcalls =>
    rw [hdialogs, hcalls, ← attach_some hcell, ← hdialog]
    exact hattached
  | acked _ hdialog _ _ _ hdialogs hcalls =>
    rw [hdialogs, hcalls, ← hdialog]
    exact hattached
  | refused _ _ _ hdialog _ _ _ hdialogs hcalls =>
    rw [hdialogs, hcalls, ← hdialog]
    exact hattached
  | hung_up _ _ hcell _ _ hcall_cell hdialog _ _ _ hdialogs hcalls =>
    rw [hdialog, attach_some hcell] at hattached
    have hended := (hattached.set_dialog_state (Heap.cells_set_self hcell) .TERMINATED).set_call_state hcall_cell
      .TERMINATED
    rw [Store.set_set] at hended
    rw [hdialogs, hcalls]
    exact hended
  | failed_alone _ _ _ _ _ _ hdialogs hcalls =>
    rw [hdialogs, hcalls]
    exact hpushed
  | failed_in_dialog _ _ hdialog _ _ _ hbegun hdialogs hcalls =>
    rw [hdialogs, hcalls]
    refine wellFormed_begun hworker hheld hdialog hbegun ?_
    obtain ⟨to_tag, -, -, rfl⟩ := hbegun
    rfl
  | failed_in_call _ _ hdialog _ _ _ hbegun hdialogs hcalls =>
    rw [hdialogs, hcalls]
    exact wellFormed_begun_call hworker hheld hdialog hbegun _
  | established _ _ hdialog _ _ _ hbegun hdialogs hcalls =>
    rw [hdialogs, hcalls]
    exact wellFormed_begun_call hworker hheld hdialog hbegun _

theorem Held.answered {queue : Nat} {t : sip_transaction_t} {opened : Owned sip_message_t} (h : Held queue t)
    (hholds : t.message = some opened) (status_code : Nat) (output : Bytes) :
    Held queue (answered t opened status_code output) where
  queue := h.queue
  message := by
    obtain ⟨held, hheld, hrequest⟩ := h.message
    rw [hholds, Option.some.injEq] at hheld
    subst hheld
    have hsame := (SameRequest.refl opened.contents).with_response (response_ne_nil hrequest) output
    exact ⟨_, rfl, hsame.request hrequest⟩
  branch := h.branch
  branch_length := h.branch_length

theorem Known.wellFormed {m m' : Machine} {message opened : Owned sip_message_t} {transaction : Nat}
    {t : sip_transaction_t} (h : Known m message transaction t opened m') (hworker : WellFormed m.worker)
    (hcell : m.worker.transactions.heap.cells transaction = some t) (hholds : t.message = some opened) :
    WellFormed m'.worker := by
  have hheld := hworker.held hcell
  cases h with
  | dropped _ _ hm =>
    rw [hm]
    exact hworker
  | resent _ _ _ hm =>
    rw [hm]
    exact hworker
  | @rewritten output _ _ _ _ hconversed hdialogs hcalls _ =>
    have htransactions := hconversed.transactions
    simp only at htransactions
    rw [worker_eq hconversed.queue hconversed.socket, htransactions, hdialogs, hcalls]
    exact hworker.set_transaction _ hcell (hheld.answered hholds RESPONSE_CODE_500 output) fun _ hsome => hsome
  | acked _ _ _ hconversed hdialogs hcalls _ =>
    rw [worker_eq hconversed.queue hconversed.socket, hconversed.transactions, hdialogs, hcalls]
    have hset := hworker.set_transaction { t with
        ack_message := some message
        dialog := if t.dialog = none then dialog_for m.worker message.contents else t.dialog
        state := .TERMINATED } hcell ⟨hheld.queue, hheld.message, hheld.branch, hheld.branch_length⟩
      fun dialog hsome => by simp [hsome]
    by_cases hnone : t.dialog = none
    · have hattached := hset.attach (Heap.cells_set_self hcell)
      simp only [if_pos hnone] at hattached ⊢
      exact hattached
    · simp only [if_neg hnone] at hset ⊢
      exact hset

theorem Handled.wellFormed {m m' : Machine} {message : Owned sip_message_t} (h : Handled m message m')
    (hworker : WellFormed m.worker) (hrequest : Request message.contents) : WellFormed m'.worker := by
  cases h with
  | unallocated _ _ _ hm =>
    rw [hm]
    exact hworker
  | opened _ _ hopened => exact hopened.wellFormed hworker hrequest
  | known _ hcell hholds hknown => exact hknown.wellFormed hworker hcell hholds

theorem Deleted.wellFormed {m m' : Machine} {event : transaction_delete_t} (h : Deleted m event m')
    (hworker : WellFormed m.worker) : WellFormed m'.worker := by
  cases h with
  | missing _ hm =>
    rw [hm]
    exact hworker
  | removed _ hcell hdeletion => exact hdeletion.removed.wellFormed hworker hcell

/-- Every step keeps a worker well formed. -/
theorem Run.Stepped.wellFormed {run run' : Run} {input : Input} (h : Run.Stepped run input run')
    (hworker : WellFormed run.worker) : WellFormed run'.worker := by
  cases h with
  | unhandled => exact hworker
  | response => exact hworker
  | request haccepted hhandled => exact hhandled.wellFormed hworker haccepted.request.1
  | delete hdeleted => exact hdeleted.wellFormed hworker

/-- No step uses an address again. -/
structure Grows (before after : worker_thread_t) : Prop where
  transactions : before.transactions.heap.next ≤ after.transactions.heap.next
  dialogs : before.dialogs.heap.next ≤ after.dialogs.heap.next

theorem grows_refl (worker : worker_thread_t) : Grows worker worker := ⟨Nat.le_refl _, Nat.le_refl _⟩

private theorem next_attach (dialogs : Store sip_dialog_t) (found : Option Nat) (transaction : Nat) :
    (attach dialogs found transaction).heap.next = dialogs.heap.next := by
  unfold attach
  repeat' split
  all_goals rfl

private theorem Fate.dialogs_next_le {before after : worker_thread_t} {original : Owned sip_message_t}
    {transaction : Nat} {t : sip_transaction_t} {sends : List Sent}
    (h : Fate before original transaction t after sends) :
    before.dialogs.heap.next ≤ after.dialogs.heap.next := by
  cases h with
  | reinvite _ _ _ _ _ _ _ hdialogs => exact (congrArg (·.heap.next) hdialogs).ge
  | acked _ _ _ _ _ hdialogs =>
    rw [hdialogs, next_attach]
  | refused _ _ _ _ _ _ _ hdialogs =>
    rw [hdialogs, next_attach]
  | hung_up _ _ _ _ _ _ _ _ _ _ hdialogs => exact (congrArg (·.heap.next) hdialogs).ge
  | failed_alone _ _ _ _ _ _ hdialogs => exact (congrArg (·.heap.next) hdialogs).ge
  | failed_in_dialog _ _ _ _ _ _ _ hdialogs =>
    rw [hdialogs]
    exact Nat.le_succ _
  | failed_in_call _ _ _ _ _ _ _ hdialogs =>
    rw [hdialogs]
    exact Nat.le_succ _
  | established _ _ _ _ _ _ _ hdialogs =>
    rw [hdialogs]
    exact Nat.le_succ _

theorem Known.grows {m m' : Machine} {message opened : Owned sip_message_t} {transaction : Nat}
    {t : sip_transaction_t} (h : Known m message transaction t opened m') : Grows m.worker m'.worker := by
  cases h with
  | dropped _ _ hm =>
    rw [hm]
    exact grows_refl _
  | resent _ _ _ hm =>
    rw [hm]
    exact grows_refl _
  | rewritten _ _ _ hconversed hdialogs =>
    exact ⟨(congrArg (·.heap.next) hconversed.transactions).ge, (congrArg (·.heap.next) hdialogs).ge⟩
  | acked _ _ _ hconversed hdialogs =>
    refine ⟨(congrArg (·.heap.next) hconversed.transactions).ge, ?_⟩
    rw [hdialogs]
    split
    · rw [next_attach]
    · exact Nat.le_refl _

theorem Run.Stepped.grows {run run' : Run} {input : Input} (h : Run.Stepped run input run') :
    Grows run.worker run'.worker := by
  cases h with
  | unhandled => exact grows_refl _
  | response => exact grows_refl _
  | request _ hhandled =>
    cases hhandled with
    | unallocated _ _ _ hm =>
      rw [hm]
      exact grows_refl _
    | opened _ _ hopened =>
      refine ⟨?_, hopened.fate.dialogs_next_le⟩
      rw [show (run.finish _).worker.transactions = _ from hopened.transactions]
      exact Nat.le_succ _
    | known _ _ _ hknown => exact hknown.grows
  | delete hdeleted =>
    cases hdeleted with
    | missing _ hm =>
      rw [hm]
      exact grows_refl _
    | removed _ _ hdeletion =>
      rw [Run.finish]
      cases hdeletion.removed with
      | alone _ hafter =>
        rw [hafter]
        exact ⟨Nat.le_refl _, Nat.le_refl _⟩
      | left _ _ _ hafter =>
        rw [hafter]
        exact ⟨Nat.le_refl _, Nat.le_refl _⟩
      | ended _ _ _ hafter =>
        rw [hafter]
        exact ⟨Nat.le_refl _, Nat.le_refl _⟩

theorem Run.Initial.wellFormed {run : Run} (h : run.Initial) : WellFormed run.worker := by
  obtain ⟨hcalls, hdialogs, htransactions, hsocket, -⟩ := h
  have hcells : ∀ {A : Type} {a : Nat} {v : A}, (Store.empty : Store A).heap.cells a = some v → False := nofun
  refine ⟨⟨?_, ?_, ?_, ?_, ?_, ?_, ?_⟩, hsocket, ?_, ?_⟩
  · rw [htransactions]
    exact Store.sound_empty
  · rw [hdialogs]
    exact Store.sound_empty
  · rw [hcalls]
    exact Store.sound_empty
  · intro dialog d a hcell
    rw [hdialogs] at hcell
    exact (hcells hcell).elim
  · intro dialog d call hcell
    rw [hdialogs] at hcell
    exact (hcells hcell).elim
  · intro call c dialog hcell
    rw [hcalls] at hcell
    exact (hcells hcell).elim
  · intro call c dialog dialog' hcell
    rw [hcalls] at hcell
    exact (hcells hcell).elim
  · intro a t hcell
    rw [htransactions] at hcell
    exact (hcells hcell).elim
  · intro a d hcell
    rw [hdialogs] at hcell
    exact (hcells hcell).elim

/-- A worker is well formed after every step of every run. -/
theorem Reachable.wellFormed {run : Run} (h : program.Reachable run) : WellFormed run.worker :=
  Transitions.ReachableWhile.invariant (P := fun run => WellFormed run.worker) (fun _ => Run.Initial.wellFormed)
    (fun _ input _ _ _ hstep hworker => ((step_ends hworker input).of_eq_ok hstep).wellFormed hworker) h

end mock_uas.sip_server
