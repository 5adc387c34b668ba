import MockUas.Server.OpenOutcome
import MockUas.Worker.Cleanup

open clib
open mock_uas.sip_message
open mock_uas.sip_utils

namespace mock_uas.sip_server

/-- The calls once a dialog was freed: its call leaves it, and goes with it when it is
terminated. -/
def end_call (calls : Store sip_call_t) (dialog : Nat) (call : Option Nat) : Store sip_call_t :=
  match call with
  | none => calls
  | some a =>
    match calls.heap.cells a with
    | none => calls
    | some c => if c.state = .TERMINATED then calls.remove a else leave calls dialog call

/-- What a deleted transaction leaves of a worker. Its dialog goes with it when it is
terminated, and takes the dialog's other transactions out of it. -/
inductive Removed (before : worker_thread_t) (transaction : Nat) (t : sip_transaction_t)
    (armers : List (Nat × sip_transaction_t)) (after : worker_thread_t) : Prop where
  | alone (hdialog : t.dialog = none)
    (hafter : after = { before with transactions := before.transactions.remove transaction })
    (harmers : armers = [])
  | left {dialog : Nat} {d : sip_dialog_t} (hdialog : t.dialog = some dialog)
    (hd : before.dialogs.heap.cells dialog = some d) (hstate : d.state ≠ .TERMINATED)
    (hafter : after = { before with
      transactions := before.transactions.remove transaction
      dialogs := before.dialogs.set dialog { d with transaction := d.transaction.remove transaction } })
    (harmers : armers = [])
  | ended {dialog : Nat} {d : sip_dialog_t} (hdialog : t.dialog = some dialog)
    (hd : before.dialogs.heap.cells dialog = some d) (hstate : d.state = .TERMINATED)
    (hafter : after = { before with
      transactions := (before.transactions.remove transaction).map
        (disband (d.transaction.remove transaction).items)
      dialogs := before.dialogs.remove dialog
      calls := end_call before.calls dialog d.call })
    (harmers : Terminates (before.transactions.remove transaction) (d.transaction.remove transaction).items armers)

@[simp] theorem disband_nil (a : Nat) (t : sip_transaction_t) : disband [] a t = t := rfl

/-- A deletion takes one transaction away, and at most disbands others. -/
theorem Removed.cells {before after : worker_thread_t} {transaction : Nat} {t : sip_transaction_t}
    {armers : List (Nat × sip_transaction_t)} (h : Removed before transaction t armers after) :
    ∃ slots, ∀ a, after.transactions.heap.cells a =
      if a = transaction then none else (before.transactions.heap.cells a).map (disband slots a) := by
  have hkept : ∀ a, (before.transactions.remove transaction).heap.cells a =
      if a = transaction then none else (before.transactions.heap.cells a).map (disband [] a) := by
    intro a
    rw [Store.cells_remove, show disband [] a = id from funext (disband_nil a), Option.map_id_fun, id]
  cases h with
  | alone _ hafter _ =>
    rw [hafter]
    exact ⟨[], hkept⟩
  | left _ _ _ hafter _ =>
    rw [hafter]
    exact ⟨[], hkept⟩
  | @ended dialog d _ _ _ hafter _ =>
    refine ⟨(d.transaction.remove transaction).items, fun a => ?_⟩
    rw [hafter, Store.cells_map, Store.cells_remove]
    split <;> rfl

/-- A deletion takes one transaction out of what a function that does not look at the links
makes of the list. -/
theorem Removed.view_perm {B : Type} (f : sip_transaction_t → B) (hf : ∀ t, f (orphaned t) = f t)
    {before after : worker_thread_t} {transaction : Nat} {t : sip_transaction_t}
    {armers : List (Nat × sip_transaction_t)} (h : Removed before transaction t armers after)
    (hworker : WellFormed before) (hcell : before.transactions.heap.cells transaction = some t) :
    (before.transactions.view f).Perm (f t :: after.transactions.view f) := by
  have hview : after.transactions.view f = (before.transactions.remove transaction).view f := by
    refine Store.view_eq_of_cells ?_ fun a => ?_
    · cases h with
      | alone _ hafter => rw [hafter]
      | left _ _ _ hafter => rw [hafter]
      | ended _ _ _ hafter =>
        rw [hafter]
        rfl
    · obtain ⟨slots, hcells⟩ := h.cells
      rw [hcells, Store.cells_remove]
      split
      · rfl
      · rw [Option.map_map]
        refine congrArg (fun g => (before.transactions.heap.cells a).map g) (funext fun u => ?_)
        rw [Function.comp, disband]
        split
        · exact hf u
        · rfl
  rw [hview]
  exact hworker.transactions.view_remove hcell

/-- A step that deletes a transaction. -/
structure Deletion (m m' : Machine) (transaction : Nat) (t : sip_transaction_t)
    (armers : List (Nat × sip_transaction_t)) (adds : List TimerAdd) : Prop where
  removed : Removed m.worker transaction t armers m'.worker
  arming : Arming m.env m.events armers adds
  sent : m'.sent = m.sent
  timers : m'.timers = m.timers ++ adds
  events : m'.events = m.events + adds.length
  freed : m'.freed = m.freed ++ messages_of t

/-- What a step does with a delete event. -/
inductive Deleted (m : Machine) (event : transaction_delete_t) (m' : Machine) : Prop where
  | missing (hnone : transaction_of m.worker event = none) (hm : m' = m)
  | removed {transaction : Nat} {t : sip_transaction_t} {armers : List (Nat × sip_transaction_t)}
    {adds : List TimerAdd} (hfound : transaction_of m.worker event = some transaction)
    (hcell : m.worker.transactions.heap.cells transaction = some t)
    (hdeletion : Deletion m m' transaction t armers adds)

theorem find_deleted_eq {worker : worker_thread_t} (h : WellFormed worker) (event : transaction_delete_t) :
    find_transaction_by_id worker.transactions (some event.branch.bytes) event.branch_length =
      ok (transaction_of worker event) := by
  by_cases hlength : event.branch_length = 0
  · simp only [find_transaction_by_id, hlength, or_true, if_true]
    cases hfound : transaction_of worker event with
    | none => rfl
    | some transaction =>
      obtain ⟨-, t, hcell, hmatches⟩ := Store.first_eq_some hfound
      have hzero : t.branch_length = 0 := by
        simp only [matches_branch, Bool.and_eq_true, beq_iff_eq] at hmatches
        rw [hmatches.1, hlength]
      exact absurd hzero (h.held hcell).branch_length.1
  · exact find_transaction_by_id_eq h.transactions _ hlength

/-- Once a dialog has left it, its call has no dialog. -/
theorem empty_after_leave {worker : worker_thread_t} (h : Linkage worker) {dialog call : Nat}
    {d : sip_dialog_t} {c : sip_call_t} (hd : worker.dialogs.heap.cells dialog = some d)
    (hcall : d.call = some call) (hc : worker.calls.heap.cells call = some c) (other : Nat) :
    some other ∉ (c.dialog.remove dialog).items := by
  obtain ⟨c', hc', hcount⟩ := h.call hd hcall
  rw [hc, Option.some.injEq] at hc'
  subst hc'
  rw [← Slots.count_eq_zero_iff, Slots.count_remove]
  by_cases ho : other = dialog
  · rw [ho, hcount, if_pos rfl]
  · rw [if_neg ho]
    refine Nat.eq_zero_of_not_pos fun hpos => ho ?_
    exact (h.single hc (by omega) hpos).symm

/-- The end of `delete_transaction`, once the dialog has left its call. -/
private theorem delete_call_of {before : worker_thread_t} {m : Machine} {dialog : Nat} {d : sip_dialog_t}
    (h : Linkage before) (hd : before.dialogs.heap.cells dialog = some d)
    (hcalls : m.worker.calls = leave before.calls dialog d.call) :
    (match d.call with
      | none => ok m
      | some call => do
        let c ← m.call call
        if c.state = .TERMINATED then delete_call_by_pointer m call else ok m) =
      ok (m.with_calls (end_call before.calls dialog d.call)) := by
  cases hcall : d.call with
  | none =>
    rw [hcall] at hcalls
    exact congrArg ok (congrArg m.with_calls hcalls : m.with_calls m.worker.calls = _)
  | some call =>
    obtain ⟨c, hc, -⟩ := h.call hd hcall
    rw [hcall] at hcalls
    have hleave : leave before.calls dialog (some call) =
        before.calls.set call { c with dialog := c.dialog.remove dialog } := by
      simp [leave, hc]
    have hcell : m.worker.calls.heap.cells call = some { c with dialog := c.dialog.remove dialog } := by
      rw [hcalls, hleave]
      exact Heap.cells_set_self hc
    simp only [Machine.call_of_cells hcell, bind_ok, end_call, hc]
    by_cases hstate : c.state = .TERMINATED
    · rw [if_pos hstate, if_pos hstate, delete_call_spec _ hcell (empty_after_leave h hd hcall hc), hcalls, hleave,
        Store.set_remove]
      rw [hcalls, hleave]
      exact h.calls.set _ _
    · rw [if_neg hstate, if_neg hstate]
      exact congrArg ok (congrArg m.with_calls hcalls : m.with_calls m.worker.calls = _)

/-- A dialog's slots hold live transactions after one of them was deleted. -/
theorem live_after_remove {worker : worker_thread_t} (h : Linkage worker) {dialog transaction : Nat}
    {d : sip_dialog_t} (hd : worker.dialogs.heap.cells dialog = some d) {a : Nat}
    (hmem : some a ∈ (d.transaction.remove transaction).items) :
    ∃ t, (worker.transactions.remove transaction).heap.cells a = some t := by
  rw [← Slots.count_pos_iff, Slots.count_remove] at hmem
  obtain ⟨hone, t, ht, -⟩ := h.slot hd (a := a) (by omega)
  have hne : a ≠ transaction := by
    rintro rfl
    rw [hone, if_pos rfl] at hmem
    omega
  exact ⟨t, by rw [Store.cells_remove, if_neg hne, ht]⟩

/-- What follows once a transaction with a live dialog was deleted. -/
private theorem leave_dialog {m : Machine} {transaction dialog : Nat} {t : sip_transaction_t} {d : sip_dialog_t}
    (hworker : Linkage m.worker) (hdialog : t.dialog = some dialog)
    (hd : m.worker.dialogs.heap.cells dialog = some d) (m₁ : Machine)
    (hm₁ : m₁ = { (m.with_transactions (m.worker.transactions.remove transaction)).set_dialog dialog
        { d with transaction := d.transaction.remove transaction } with
      freed := m.freed ++ messages_of t }) :
    Ends (do
        let d ← m₁.dialog dialog
        if d.state ≠ .TERMINATED then ok m₁
        else
          let m ← delete_dialog_by_pointer m₁ dialog
          match d.call with
          | none => ok m
          | some call =>
            let c ← m.call call
            if c.state = .TERMINATED then delete_call_by_pointer m call else ok m)
      (Dangling m.worker) (fun m' => ∃ armers adds, Deletion m m' transaction t armers adds ∧
        adds = deletions m.env m.events armers) := by
  have hd₁ : m₁.worker.dialogs.heap.cells dialog =
      some { d with transaction := d.transaction.remove transaction } := by
    rw [hm₁]
    exact Heap.cells_set_self hd
  rw [Machine.dialog_of_cells hd₁, bind_ok]
  by_cases hstate : d.state = .TERMINATED
  · obtain ⟨m₂, m₃, armers, adds, heq, hcleaned, hterminates, harming, hadds, hm₂⟩ := delete_dialog_spec
      (m := m₁) (by rw [hm₁]; exact hworker.dialogs.set _ _) hd₁
      (by rw [hm₁]; exact fun a hmem => live_after_remove hworker hd hmem)
      (by
        rw [hm₁]
        intro call hcall
        obtain ⟨c, hc, -⟩ := hworker.call hd hcall
        exact ⟨c, hc⟩)
    have hcalls : m₂.worker.calls = leave m.worker.calls dialog d.call := by
      rw [hm₂, hm₁]
      rfl
    rw [if_neg (by simp [hstate]), heq, bind_ok]
    simp only [delete_call_of hworker hd hcalls]
    rw [hm₁] at hcleaned hterminates harming hadds
    refine ⟨armers, adds, ⟨.ended hdialog hd hstate ?_ hterminates, harming, ?_, ?_, ?_, ?_⟩, hadds⟩
    · rw [hm₂, hm₁, Machine.with_calls, Machine.with_calls, Machine.with_dialogs, hcleaned.worker]
      simp [Machine.set_dialog, Machine.with_dialogs, Machine.with_transactions]
    · rw [hm₂]
      exact hcleaned.sent
    · rw [hm₂]
      exact hcleaned.timers
    · rw [hm₂]
      exact hcleaned.events
    · rw [hm₂]
      exact hcleaned.freed
  · rw [if_pos hstate]
    exact ⟨[], [], ⟨.left hdialog hd hstate (by rw [hm₁]; rfl) rfl, .nil _, by rw [hm₁]; rfl,
      by rw [hm₁]; exact (List.append_nil _).symm, by rw [hm₁]; rfl, by rw [hm₁]⟩, rfl⟩

/-- A delete event deletes the transaction it leads to, unless that has a dialog that was freed. -/
theorem delete_found_spec {m : Machine} (hworker : Linkage m.worker) {event : transaction_delete_t} {transaction : Nat}
    {t : sip_transaction_t} (hfind : find_transaction_by_id m.worker.transactions (some event.branch.bytes)
      event.branch_length = ok (some transaction))
    (hcell : m.worker.transactions.heap.cells transaction = some t) :
    Ends (delete_transaction m event) (Dangling m.worker)
      (fun m' => ∃ armers adds, Deletion m m' transaction t armers adds ∧
        adds = deletions m.env m.events armers) := by
  rw [delete_transaction, hfind, bind_ok]
  simp only [Machine.transaction_of_cells hcell, bind_ok]
  cases hdialog : t.dialog with
  | none =>
    rw [delete_transaction_alone hworker.transactions hcell hdialog]
    exact ⟨[], [], ⟨.alone hdialog rfl rfl, .nil _, rfl, (List.append_nil _).symm, rfl, rfl⟩, rfl⟩
  | some dialog =>
    cases hd : m.worker.dialogs.heap.cells dialog with
    | none =>
      rw [delete_transaction_dangling hworker.transactions hcell hdialog hd]
      exact ⟨transaction, t, dialog, hcell, hdialog, hd⟩
    | some d =>
      rw [delete_transaction_in_dialog hworker.transactions hcell hdialog hd, bind_ok]
      exact leave_dialog hworker hdialog hd _ rfl

/-- What a step does with a delete event, and when it faults. -/
theorem delete_transaction_spec {m : Machine} (hworker : WellFormed m.worker) (event : transaction_delete_t) :
    Ends (delete_transaction m event) (Dangling m.worker) (Deleted m event) := by
  have hfind := find_deleted_eq hworker event
  cases hfound : transaction_of m.worker event with
  | none =>
    rw [delete_transaction, hfind, hfound]
    exact .missing hfound rfl
  | some transaction =>
    rw [hfound] at hfind
    obtain ⟨-, t, hcell, -⟩ := Store.first_eq_some hfound
    refine (delete_found_spec hworker.toLinkage hfind hcell).imp ?_
    rintro m' ⟨armers, adds, hdeletion, -⟩
    exact .removed hfound hcell hdeletion

end mock_uas.sip_server
