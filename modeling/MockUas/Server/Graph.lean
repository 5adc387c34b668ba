import MockUas.Server.DeleteOutcome

open clib
open mock_uas.sip_message
open mock_uas.sip_utils

namespace mock_uas.sip_server

variable {worker : worker_thread_t}

theorem WellFormed.push_transaction (h : WellFormed worker) {t : sip_transaction_t} (hheld : Held worker.queue t) :
    WellFormed { worker with transactions := worker.transactions.push t } where
  socket := h.socket
  transactions := h.transactions.push t
  dialogs := h.dialogs
  calls := h.calls
  held {a u} hcell := by
    rw [Store.heap_push, Heap.cells_alloc] at hcell
    split at hcell
    · obtain rfl := Option.some.inj hcell
      exact hheld
    · exact h.held hcell
  tagged := h.tagged
  slot hd hpos := by
    obtain ⟨hone, u, hu, hdialog⟩ := h.slot hd hpos
    exact ⟨hone, u, Heap.cells_alloc_of_cells hu, hdialog⟩
  call := h.call
  dialog := h.dialog
  single := h.single

/-- A transaction may be rewritten as long as it keeps a dialog it has. -/
theorem WellFormed.set_transaction (h : WellFormed worker) {transaction : Nat} {t : sip_transaction_t}
    (t' : sip_transaction_t) (hcell : worker.transactions.heap.cells transaction = some t) (hheld : Held worker.queue t')
    (hdialog : ∀ dialog, t.dialog = some dialog → t'.dialog = some dialog) :
    WellFormed { worker with transactions := worker.transactions.set transaction t' } where
  socket := h.socket
  transactions := h.transactions.set _ _
  dialogs := h.dialogs
  calls := h.calls
  held {a u} hu := by
    rw [Store.heap_set, Heap.cells_set hcell] at hu
    split at hu
    · obtain rfl := Option.some.inj hu
      exact hheld
    · exact h.held hu
  tagged := h.tagged
  slot {dialog d a} hd hpos := by
    obtain ⟨hone, u, hu, hpoints⟩ := h.slot hd hpos
    refine ⟨hone, ?_⟩
    rw [Store.heap_set, Heap.cells_set hcell]
    split
    · rename_i ha
      subst ha
      rw [hcell, Option.some.injEq] at hu
      subst hu
      exact ⟨t', rfl, hdialog dialog hpoints⟩
    · exact ⟨u, hu, hpoints⟩
  call := h.call
  dialog := h.dialog
  single := h.single

/-- A live transaction may be added to the slots of the dialog it points at. -/
theorem WellFormed.attach (h : WellFormed worker) {transaction : Nat} {t : sip_transaction_t}
    (hcell : worker.transactions.heap.cells transaction = some t) :
    WellFormed { worker with dialogs := attach worker.dialogs t.dialog transaction } := by
  have hcells := cells_attach worker.dialogs t.dialog transaction
  have hback : ∀ {dialog d'}, (sip_server.attach worker.dialogs t.dialog transaction).heap.cells dialog = some d' →
      ∃ d, worker.dialogs.heap.cells dialog = some d ∧
        d' = if t.dialog = some dialog then { d with transaction := d.transaction.add transaction } else d := by
    intro dialog d' hd'
    rw [hcells] at hd'
    obtain ⟨d, hd, heq⟩ := Option.map_eq_some_iff.mp hd'
    exact ⟨d, hd, heq.symm⟩
  refine { socket := h.socket, transactions := h.transactions, calls := h.calls, held := h.held,
           single := h.single, dialogs := ?_, slot := ?_, call := ?_, dialog := ?_, tagged := ?_ }
  · cases hdialog : t.dialog with
    | none => exact h.dialogs
    | some dialog =>
      cases hd : worker.dialogs.heap.cells dialog with
      | none =>
        simp only [sip_server.attach, hd]
        exact h.dialogs
      | some d =>
        rw [attach_some hd]
        exact h.dialogs.set _ _
  · intro dialog d' a hd' hpos
    obtain ⟨d, hd, rfl⟩ := hback hd'
    split at hpos
    · rename_i hdialog
      by_cases ha : a = transaction
      · subst ha
        have hle : d.transaction.count a ≤ 1 := by
          by_cases hzero : 0 < d.transaction.count a
          · exact (h.slot hd hzero).1.le
          · omega
        have hle' := Slots.count_add_le_one hle
        rw [if_pos hdialog]
        exact ⟨Nat.le_antisymm hle' hpos, t, hcell, hdialog⟩
      · rw [Slots.count_add_of_ne ha] at hpos
        rw [if_pos hdialog, Slots.count_add_of_ne ha]
        exact h.slot hd hpos
    · rename_i hdialog
      rw [if_neg hdialog]
      exact h.slot hd hpos
  · intro dialog d' call hd' hcall
    obtain ⟨d, hd, rfl⟩ := hback hd'
    refine h.call hd ?_
    split at hcall <;> exact hcall
  · intro call c dialog hc hpos
    obtain ⟨hone, d, hd, hcall⟩ := h.dialog hc hpos
    refine ⟨hone, ?_⟩
    rw [hcells, hd]
    refine ⟨_, rfl, ?_⟩
    split <;> exact hcall
  · intro dialog d' hd'
    obtain ⟨d, hd, rfl⟩ := hback hd'
    have htagged := h.tagged hd
    split
    · exact ⟨htagged.bytes, htagged.to_tag_length⟩
    · exact htagged

/-- A dialog's state may change. -/
theorem WellFormed.set_dialog_state (h : WellFormed worker) {dialog : Nat} {d : sip_dialog_t}
    (hd : worker.dialogs.heap.cells dialog = some d) (state : sip_dialog_state_t) :
    WellFormed { worker with dialogs := worker.dialogs.set dialog { d with state := state } } := by
  have hback : ∀ {a d'}, (worker.dialogs.set dialog { d with state := state }).heap.cells a = some d' →
      ∃ d₀, worker.dialogs.heap.cells a = some d₀ ∧ d'.transaction = d₀.transaction ∧ d'.call = d₀.call ∧
        (Tagged d₀ → Tagged d') := by
    intro a d' hd'
    rw [Store.heap_set, Heap.cells_set hd] at hd'
    split at hd'
    · rename_i ha
      obtain rfl := Option.some.inj hd'
      exact ⟨d, ha ▸ hd, rfl, rfl, fun htagged => ⟨htagged.bytes, htagged.to_tag_length⟩⟩
    · exact ⟨d', hd', rfl, rfl, id⟩
  refine { socket := h.socket, transactions := h.transactions, calls := h.calls, held := h.held,
           single := h.single, dialogs := h.dialogs.set _ _, slot := ?_, call := ?_, dialog := ?_, tagged := ?_ }
  · intro a d' b hd' hpos
    obtain ⟨d₀, hd₀, hslots, -⟩ := hback hd'
    rw [hslots] at hpos ⊢
    exact h.slot hd₀ hpos
  · intro a d' call hd' hcall
    obtain ⟨d₀, hd₀, -, hsame, -⟩ := hback hd'
    exact h.call hd₀ (hsame ▸ hcall)
  · intro call c a hc hpos
    obtain ⟨hone, d₀, hd₀, hcall⟩ := h.dialog hc hpos
    refine ⟨hone, ?_⟩
    rw [Store.heap_set, Heap.cells_set hd]
    split
    · rename_i ha
      rw [ha, hd, Option.some.injEq] at hd₀
      exact ⟨_, rfl, hd₀ ▸ hcall⟩
    · exact ⟨d₀, hd₀, hcall⟩
  · intro a d' hd'
    obtain ⟨d₀, hd₀, -, -, htagged⟩ := hback hd'
    exact htagged (h.tagged hd₀)

/-- A call's state may change. -/
theorem WellFormed.set_call_state (h : WellFormed worker) {call : Nat} {c : sip_call_t}
    (hc : worker.calls.heap.cells call = some c) (state : sip_call_state_t) :
    WellFormed { worker with calls := worker.calls.set call { c with state := state } } := by
  have hback : ∀ {a c'}, (worker.calls.set call { c with state := state }).heap.cells a = some c' →
      ∃ c₀, worker.calls.heap.cells a = some c₀ ∧ c'.dialog = c₀.dialog := by
    intro a c' hc'
    rw [Store.heap_set, Heap.cells_set hc] at hc'
    split at hc'
    · rename_i ha
      obtain rfl := Option.some.inj hc'
      exact ⟨c, ha ▸ hc, rfl⟩
    · exact ⟨c', hc', rfl⟩
  refine { socket := h.socket, transactions := h.transactions, dialogs := h.dialogs, held := h.held,
           tagged := h.tagged, slot := h.slot, calls := h.calls.set _ _, call := ?_, dialog := ?_, single := ?_ }
  · intro dialog d a hd hcall
    obtain ⟨c₀, hc₀, hcount⟩ := h.call hd hcall
    rw [Store.heap_set, Heap.cells_set hc]
    split
    · rename_i ha
      rw [ha, hc, Option.some.injEq] at hc₀
      exact ⟨_, rfl, hc₀ ▸ hcount⟩
    · exact ⟨c₀, hc₀, hcount⟩
  · intro a c' dialog hc' hpos
    obtain ⟨c₀, hc₀, hslots⟩ := hback hc'
    rw [hslots] at hpos ⊢
    exact h.dialog hc₀ hpos
  · intro a c' dialog dialog' hc' hpos hpos'
    obtain ⟨c₀, hc₀, hslots⟩ := hback hc'
    rw [hslots] at hpos hpos'
    exact h.single hc₀ hpos hpos'

/-- A dialog whose slots hold live transactions of its own may be added, without a call. -/
theorem WellFormed.push_dialog (h : WellFormed worker) {d : sip_dialog_t} (htagged : Tagged d)
    (hslots : ∀ {a}, 0 < d.transaction.count a → d.transaction.count a = 1 ∧
      ∃ t, worker.transactions.heap.cells a = some t ∧ t.dialog = some worker.dialogs.heap.next)
    (hcall : d.call = none) : WellFormed { worker with dialogs := worker.dialogs.push d } where
  socket := h.socket
  transactions := h.transactions
  dialogs := h.dialogs.push d
  calls := h.calls
  held := h.held
  tagged {a d'} hd' := by
    rw [Store.heap_push, Heap.cells_alloc] at hd'
    split at hd'
    · exact Option.some.inj hd' ▸ htagged
    · exact h.tagged hd'
  slot {a d' b} hd' hpos := by
    rw [Store.heap_push, Heap.cells_alloc] at hd'
    split at hd'
    · rename_i ha
      obtain rfl := Option.some.inj hd'
      exact ha ▸ hslots hpos
    · exact h.slot hd' hpos
  call {a d' call} hd' hsome := by
    rw [Store.heap_push, Heap.cells_alloc] at hd'
    split at hd'
    · obtain rfl := Option.some.inj hd'
      rw [hcall] at hsome
      cases hsome
    · exact h.call hd' hsome
  dialog {call c a} hc hpos := by
    obtain ⟨hone, d', hd', hsome⟩ := h.dialog hc hpos
    exact ⟨hone, d', Heap.cells_alloc_of_cells hd', hsome⟩
  single := h.single

/-- A dialog without a call may be given one of its own. -/
theorem WellFormed.push_call (h : WellFormed worker) {dialog : Nat} {d : sip_dialog_t} {c : sip_call_t}
    (hd : worker.dialogs.heap.cells dialog = some d) (hnone : d.call = none)
    (hslots : ∀ a, c.dialog.count a = if a = dialog then 1 else 0) :
    WellFormed { worker with
      dialogs := worker.dialogs.set dialog { d with call := some worker.calls.heap.next }
      calls := worker.calls.push c } := by
  have hcells := fun a => Heap.cells_set hd { d with call := some worker.calls.heap.next } a
  refine { socket := h.socket, transactions := h.transactions, held := h.held, dialogs := h.dialogs.set _ _,
           calls := h.calls.push c, slot := ?_, call := ?_, dialog := ?_, single := ?_, tagged := ?_ }
  · intro a d' b hd' hpos
    rw [Store.heap_set, hcells] at hd'
    split at hd'
    · rename_i ha
      subst ha
      obtain rfl := Option.some.inj hd'
      exact h.slot (d := d) hd hpos
    · exact h.slot hd' hpos
  · intro a d' call hd' hsome
    rw [Store.heap_set, hcells] at hd'
    split at hd'
    · rename_i ha
      obtain rfl := Option.some.inj hd'
      obtain rfl := Option.some.inj hsome
      exact ⟨c, Heap.cells_alloc_self _ _, by rw [hslots, if_pos ha]⟩
    · obtain ⟨c', hc', hcount⟩ := h.call hd' hsome
      exact ⟨c', Heap.cells_alloc_of_cells hc', hcount⟩
  · intro call c' a hc' hpos
    rw [Store.heap_push, Heap.cells_alloc] at hc'
    split at hc'
    · rename_i hcall
      obtain rfl := Option.some.inj hc'
      rw [hslots] at hpos ⊢
      split at hpos
      · rename_i ha
        refine ⟨if_pos ha, { d with call := some worker.calls.heap.next }, ?_, congrArg some hcall.symm⟩
        rw [Store.heap_set, hcells, if_pos ha]
      · omega
    · obtain ⟨hone, d', hd', hsome⟩ := h.dialog hc' hpos
      refine ⟨hone, ?_⟩
      rw [Store.heap_set, hcells]
      split
      · rename_i ha
        rw [ha, hd, Option.some.injEq] at hd'
        rw [← hd', hnone] at hsome
        cases hsome
      · exact ⟨d', hd', hsome⟩
  · intro call c' a b hc' hpos hpos'
    rw [Store.heap_push, Heap.cells_alloc] at hc'
    split at hc'
    · obtain rfl := Option.some.inj hc'
      rw [hslots] at hpos hpos'
      split at hpos
      · split at hpos'
        · rename_i ha hb
          exact ha.trans hb.symm
        · omega
      · omega
    · exact h.single hc' hpos hpos'
  · intro a d' hd'
    rw [Store.heap_set, hcells] at hd'
    split at hd'
    · obtain rfl := Option.some.inj hd'
      exact ⟨(h.tagged hd).bytes, (h.tagged hd).to_tag_length⟩
    · exact h.tagged hd'

/-- Deleting a transaction that has no dialog. -/
theorem Linkage.remove_alone (h : Linkage worker) {transaction : Nat} {t : sip_transaction_t}
    (hcell : worker.transactions.heap.cells transaction = some t) (hnone : t.dialog = none) :
    Linkage { worker with transactions := worker.transactions.remove transaction } where
  transactions := h.transactions.remove _
  dialogs := h.dialogs
  calls := h.calls
  slot {dialog d a} hd hpos := by
    obtain ⟨hone, u, hu, hpoints⟩ := h.slot hd hpos
    refine ⟨hone, u, ?_, hpoints⟩
    rw [Store.cells_remove, if_neg]
    · exact hu
    · rintro rfl
      rw [hcell, Option.some.injEq] at hu
      rw [← hu, hnone] at hpoints
      cases hpoints
  call := h.call
  dialog := h.dialog
  single := h.single

/-- Deleting a transaction that leaves its dialog's slots. -/
theorem Linkage.remove_from_dialog (h : Linkage worker) {transaction dialog : Nat} {t : sip_transaction_t}
    {d : sip_dialog_t} (hcell : worker.transactions.heap.cells transaction = some t)
    (hdialog : t.dialog = some dialog) (hd : worker.dialogs.heap.cells dialog = some d) :
    Linkage { worker with
      transactions := worker.transactions.remove transaction
      dialogs := worker.dialogs.set dialog { d with transaction := d.transaction.remove transaction } } := by
  have hcells := fun a => Heap.cells_set hd { d with transaction := d.transaction.remove transaction } a
  refine { calls := h.calls, single := h.single, transactions := h.transactions.remove _,
           dialogs := h.dialogs.set _ _, slot := ?_, call := ?_, dialog := ?_ }
  · intro a d' b hd' hpos
    rw [Store.heap_set, hcells] at hd'
    split at hd'
    · rename_i ha
      subst ha
      obtain rfl := Option.some.inj hd'
      obtain ⟨u, hu⟩ := live_after_remove h hd (Slots.count_pos_iff.mp hpos)
      have hne : b ≠ transaction := by
        rintro rfl
        rw [Store.cells_remove, if_pos rfl] at hu
        cases hu
      have hsame : (d.transaction.remove transaction).count b = d.transaction.count b := by
        rw [Slots.count_remove, if_neg hne, Nat.sub_zero]
      rw [Store.cells_remove, if_neg hne] at hu ⊢
      simp only [hsame] at hpos ⊢
      exact h.slot hd hpos
    · rename_i ha
      obtain ⟨hone, u, hu, hpoints⟩ := h.slot hd' hpos
      refine ⟨hone, u, ?_, hpoints⟩
      rw [Store.cells_remove, if_neg]
      · exact hu
      · rintro rfl
        rw [hcell, Option.some.injEq] at hu
        rw [← hu, hdialog, Option.some.injEq] at hpoints
        exact ha hpoints.symm
  · intro a d' call hd' hcall
    rw [Store.heap_set, hcells] at hd'
    split at hd'
    · rename_i ha
      subst ha
      obtain rfl := Option.some.inj hd'
      exact h.call (d := d) hd hcall
    · exact h.call hd' hcall
  · intro call c a hc hpos
    obtain ⟨hone, d', hd', hcall⟩ := h.dialog hc hpos
    refine ⟨hone, ?_⟩
    rw [Store.heap_set, hcells]
    split
    · rename_i ha
      rw [ha, hd, Option.some.injEq] at hd'
      exact ⟨_, rfl, hd' ▸ hcall⟩
    · exact ⟨d', hd', hcall⟩

theorem sound_end_call {calls : Store sip_call_t} (h : calls.Sound) (dialog : Nat) (call : Option Nat) :
    (end_call calls dialog call).Sound := by
  cases call with
  | none => exact h
  | some a =>
    cases hc : calls.heap.cells a with
    | none => simpa only [sip_server.end_call, hc] using h
    | some c =>
      simp only [sip_server.end_call, leave, hc]
      split
      · exact h.remove a
      · exact h.set a _

theorem cells_end_call_of_ne {calls : Store sip_call_t} {dialog : Nat} {call : Option Nat} {a : Nat}
    (hne : call ≠ some a) : (end_call calls dialog call).heap.cells a = calls.heap.cells a := by
  cases call with
  | none => rfl
  | some b =>
    have hba : a ≠ b := fun h => hne (congrArg some h.symm)
    cases hc : calls.heap.cells b with
    | none => simp [end_call, hc]
    | some c =>
      simp only [end_call, leave, hc]
      split
      · rw [Store.cells_remove, if_neg hba]
      · rw [Store.heap_set, Heap.cells_set_of_ne hba]

theorem cells_end_call_self {calls : Store sip_call_t} {dialog a : Nat} {c : sip_call_t}
    (hc : calls.heap.cells a = some c) :
    (end_call calls dialog (some a)).heap.cells a =
      if c.state = .TERMINATED then none else some { c with dialog := c.dialog.remove dialog } := by
  simp only [end_call, leave, hc]
  split
  · rw [Store.cells_remove, if_pos rfl]
  · rw [Store.heap_set, Heap.cells_set_self hc]

/-- A call that is left when a dialog of its own was freed has no dialog. -/
theorem Linkage.end_call_cells (h : Linkage worker) {dialog a : Nat} {d : sip_dialog_t} {c : sip_call_t}
    (hd : worker.dialogs.heap.cells dialog = some d)
    (hc : (end_call worker.calls dialog d.call).heap.cells a = some c) :
    (d.call ≠ some a ∧ worker.calls.heap.cells a = some c) ∨ ∀ b, c.dialog.count b = 0 := by
  by_cases hne : d.call = some a
  · right
    obtain ⟨c₀, hc₀, -⟩ := h.call hd hne
    rw [hne, cells_end_call_self hc₀] at hc
    split at hc
    · cases hc
    · obtain rfl := Option.some.inj hc
      exact fun b => Slots.count_eq_zero_iff.mpr (empty_after_leave h hd hne hc₀ b)
  · rw [cells_end_call_of_ne hne] at hc
    exact .inl ⟨hne, hc⟩

/-- Deleting a transaction together with its dialog. -/
theorem Linkage.remove_dialog (h : Linkage worker) {transaction dialog : Nat} {t : sip_transaction_t}
    {d : sip_dialog_t} (hcell : worker.transactions.heap.cells transaction = some t)
    (hdialog : t.dialog = some dialog) (hd : worker.dialogs.heap.cells dialog = some d) :
    Linkage { worker with
      transactions := (worker.transactions.remove transaction).map
        (disband (d.transaction.remove transaction).items)
      dialogs := worker.dialogs.remove dialog
      calls := end_call worker.calls dialog d.call } := by
  have hother : ∀ {a d'}, (worker.dialogs.remove dialog).heap.cells a = some d' →
      a ≠ dialog ∧ worker.dialogs.heap.cells a = some d' := by
    intro a d' hd'
    rw [Store.cells_remove] at hd'
    split at hd'
    · cases hd'
    · exact ⟨by assumption, hd'⟩
  refine { transactions := (h.transactions.remove _).map _, dialogs := h.dialogs.remove _,
           calls := sound_end_call h.calls _ _, slot := ?_, call := ?_, dialog := ?_, single := ?_ }
  · intro a d' b hd' hpos
    obtain ⟨hne, hd'⟩ := hother hd'
    obtain ⟨hone, u, hu, hpoints⟩ := h.slot hd' hpos
    have hb : b ≠ transaction := by
      rintro rfl
      rw [hcell, Option.some.injEq] at hu
      rw [← hu, hdialog, Option.some.injEq] at hpoints
      exact hne hpoints.symm
    have hmem : some b ∉ (d.transaction.remove transaction).items := by
      intro hmem
      rw [← Slots.count_pos_iff, Slots.count_remove] at hmem
      obtain ⟨-, v, hv, hv_points⟩ := h.slot hd (a := b) (by omega)
      rw [hu, Option.some.injEq] at hv
      rw [← hv, hpoints, Option.some.injEq] at hv_points
      exact hne hv_points
    refine ⟨hone, u, ?_, hpoints⟩
    rw [Store.cells_map, Store.cells_remove, if_neg hb, hu, Option.map_some, disband, if_neg hmem]
  · intro a d' call hd' hcall
    obtain ⟨hne, hd'⟩ := hother hd'
    obtain ⟨c, hc, hcount⟩ := h.call hd' hcall
    refine ⟨c, ?_, hcount⟩
    rw [cells_end_call_of_ne, hc]
    intro hsame
    obtain ⟨c', hc', hcount'⟩ := h.call hd hsame
    rw [hc, Option.some.injEq] at hc'
    subst hc'
    exact hne (h.single hc (by omega) (by omega))
  · intro call c a hc hpos
    rcases h.end_call_cells hd hc with ⟨hne, hc⟩ | hempty
    · obtain ⟨hone, d', hd', hcall⟩ := h.dialog hc hpos
      refine ⟨hone, d', ?_, hcall⟩
      rw [Store.cells_remove, if_neg]
      · exact hd'
      · rintro rfl
        rw [hd, Option.some.injEq] at hd'
        exact hne (hd' ▸ hcall)
    · rw [hempty] at hpos
      omega
  · intro call c a b hc hpos hpos'
    rcases h.end_call_cells hd hc with ⟨-, hc⟩ | hempty
    · exact h.single hc hpos hpos'
    · rw [hempty] at hpos
      omega

/-- A deletion leaves links that are exact. -/
theorem Removed.linkage {before after : worker_thread_t} {transaction : Nat} {t : sip_transaction_t}
    {armers : List (Nat × sip_transaction_t)} (h : Removed before transaction t armers after) (hbefore : Linkage before)
    (hcell : before.transactions.heap.cells transaction = some t) : Linkage after := by
  cases h with
  | alone hdialog hafter _ =>
    rw [hafter]
    exact hbefore.remove_alone hcell hdialog
  | left hdialog hd _ hafter _ =>
    rw [hafter]
    exact hbefore.remove_from_dialog hcell hdialog hd
  | ended hdialog hd _ hafter _ =>
    rw [hafter]
    exact hbefore.remove_dialog hcell hdialog hd

/-- A deletion leaves the other transactions with all but their links. -/
theorem Removed.held {before after : worker_thread_t} {transaction : Nat} {t : sip_transaction_t}
    {armers : List (Nat × sip_transaction_t)} (h : Removed before transaction t armers after)
    (hheld : ∀ {a t}, before.transactions.heap.cells a = some t → Held before.queue t) {a : Nat}
    {u : sip_transaction_t} (hu : after.transactions.heap.cells a = some u) : Held before.queue u := by
  obtain ⟨slots, hcells⟩ := h.cells
  rw [hcells] at hu
  split at hu
  · cases hu
  · obtain ⟨v, hv, rfl⟩ := Option.map_eq_some_iff.mp hu
    obtain ⟨hqueue, hmessage, hbranch, hlength⟩ := hheld hv
    unfold disband
    split
    · exact ⟨hqueue, hmessage, hbranch, hlength⟩
    · exact ⟨hqueue, hmessage, hbranch, hlength⟩

theorem Removed.tagged {before after : worker_thread_t} {transaction : Nat} {t : sip_transaction_t}
    {armers : List (Nat × sip_transaction_t)} (h : Removed before transaction t armers after)
    (htagged : ∀ {a d}, before.dialogs.heap.cells a = some d → Tagged d) {a : Nat} {d : sip_dialog_t}
    (hd : after.dialogs.heap.cells a = some d) : Tagged d := by
  cases h with
  | alone _ hafter _ =>
    rw [hafter] at hd
    exact htagged hd
  | left _ hold _ hafter _ =>
    rw [hafter, Store.heap_set, Heap.cells_set hold] at hd
    split at hd
    · obtain rfl := Option.some.inj hd
      exact ⟨(htagged hold).bytes, (htagged hold).to_tag_length⟩
    · exact htagged hd
  | ended _ _ _ hafter _ =>
    rw [hafter, Store.cells_remove] at hd
    split at hd
    · cases hd
    · exact htagged hd

theorem Removed.wellFormed {before after : worker_thread_t} {transaction : Nat} {t : sip_transaction_t}
    {armers : List (Nat × sip_transaction_t)} (h : Removed before transaction t armers after)
    (hbefore : WellFormed before) (hcell : before.transactions.heap.cells transaction = some t) :
    WellFormed after := by
  have hqueue : after.queue = before.queue ∧ after.server_socket = before.server_socket := by
    cases h with
    | alone _ hafter _ =>
      rw [hafter]
      exact ⟨rfl, rfl⟩
    | left _ _ _ hafter _ =>
      rw [hafter]
      exact ⟨rfl, rfl⟩
    | ended _ _ _ hafter _ =>
      rw [hafter]
      exact ⟨rfl, rfl⟩
  have hsocket : 0 ≤ after.server_socket := hqueue.2 ▸ hbefore.socket
  refine ⟨h.linkage hbefore.toLinkage hcell, hsocket, ?_, h.tagged hbefore.tagged⟩
  rw [hqueue.1]
  exact h.held hbefore.held

end mock_uas.sip_server
