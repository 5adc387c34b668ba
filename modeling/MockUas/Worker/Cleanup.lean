import MockUas.Worker.Steps

open clib
open mock_uas.sip_message
open mock_uas.sip_utils

namespace mock_uas.sip_server

/-- Delete events armed in a row, each by one of some transactions. -/
inductive Arming (env : Environment) : Nat → List (Nat × sip_transaction_t) → List TimerAdd → Prop where
  | nil (serial : Nat) : Arming env serial [] []
  | cons {serial owner : Nat} {t : sip_transaction_t} {armers : List (Nat × sip_transaction_t)}
    {adds adds' : List TimerAdd} (harms : Arms env serial owner t adds)
    (hrest : Arming env (serial + adds.length) armers adds') :
    Arming env serial ((owner, t) :: armers) (adds ++ adds')

/-- The timers asked for when transactions are terminated one after another. The allocator
has an answer for each transaction, and the timer manager one for each event. -/
def deletions (env : Environment) (serial : Nat) : List (Nat × sip_transaction_t) → List TimerAdd
  | [] => []
  | (owner, t) :: armers =>
    let rest := { env with malloc := fun n => env.malloc (n + 1) }
    if env.malloc 0 = false then deletions rest serial armers
    else
      let event := delete_event serial owner t
      { initial_ms := SIP_TRANSACTION_DELETE_TIMEOUT
        callback := .transaction_delete_timeout
        event := event
        armed := (timer_manager.timer_one_shot_add env.epfd (env.timer 0) .transaction_delete_timeout event).2 } ::
        deletions { rest with timer := fun n => env.timer (n + 1) } (serial + 1) armers

/-- A transaction as the cleanup of its dialog leaves it. -/
def orphaned (t : sip_transaction_t) : sip_transaction_t := { t with dialog := none, state := .TERMINATED }

/-- What the cleanup of a dialog with these slots does to each transaction. -/
def disband (slots : List (Option Nat)) (a : Nat) (t : sip_transaction_t) : sip_transaction_t :=
  if some a ∈ slots then orphaned t else t

/-- The transactions that a cleanup of a dialog with these slots terminates. -/
structure Terminates (transactions : Store sip_transaction_t) (slots : List (Option Nat))
    (armers : List (Nat × sip_transaction_t)) : Prop where
  mem : ∀ owner t, (owner, t) ∈ armers ↔
    some owner ∈ slots ∧ transactions.heap.cells owner = some t ∧ t.state ≠ .TERMINATED
  nodup : (armers.map (·.1)).Nodup

/-- The messages that are freed with a transaction. -/
def messages_of (t : sip_transaction_t) : List Nat :=
  (t.message.map (·.address)).toList ++ (t.ack_message.map (·.address)).toList

/-- The calls once a dialog has left its call. -/
def leave (calls : Store sip_call_t) (dialog : Nat) : Option Nat → Store sip_call_t
  | none => calls
  | some call =>
    match calls.heap.cells call with
    | none => calls
    | some c => calls.set call { c with dialog := c.dialog.remove dialog }

/-- A part of a step that works on transactions and timers only. -/
structure Cleaned (m m' : Machine) (transactions : Store sip_transaction_t) (adds : List TimerAdd) : Prop where
  worker : m'.worker = { m.worker with transactions := transactions }
  sent : m'.sent = m.sent
  timers : m'.timers = m.timers ++ adds
  events : m'.events = m.events + adds.length
  freed : m'.freed = m.freed
  later : Later m.env m'.env

theorem Arming.earlier {e₁ e₂ : Environment} {serial : Nat} {armers : List (Nat × sip_transaction_t)}
    {adds : List TimerAdd} (h : Arming e₂ serial armers adds) (hlater : Later e₁ e₂) :
    Arming e₁ serial armers adds := by
  induction h with
  | nil serial => exact .nil serial
  | cons harms _ ih => exact .cons (harms.earlier hlater) ih

theorem Cleaned.refl (m : Machine) : Cleaned m m m.worker.transactions [] where
  worker := rfl
  sent := rfl
  timers := (List.append_nil _).symm
  events := rfl
  freed := rfl
  later := .refl _

theorem Cleaned.trans {m m' m'' : Machine} {transactions transactions' : Store sip_transaction_t}
    {adds adds' : List TimerAdd} (h : Cleaned m m' transactions adds)
    (h' : Cleaned m' m'' transactions' adds') : Cleaned m m'' transactions' (adds ++ adds') where
  worker := by rw [h'.worker, h.worker]
  sent := h'.sent.trans h.sent
  timers := by rw [h'.timers, h.timers, List.append_assoc]
  events := by rw [h'.events, h.events, List.length_append, Nat.add_assoc]
  freed := h'.freed.trans h.freed
  later := h.later.trans h'.later

theorem Conversed.cleaned {m m' : Machine} {transaction : Nat} {t : sip_transaction_t} {adds : List TimerAdd}
    (h : Conversed m m' transaction t [] adds) (hdialogs : m'.worker.dialogs = m.worker.dialogs)
    (hcalls : m'.worker.calls = m.worker.calls) :
    Cleaned m m' (m.worker.transactions.set transaction t) adds where
  worker := by
    have hqueue := h.queue
    have hsocket := h.socket
    have htransactions := h.transactions
    obtain ⟨worker, env, events, sent, timers, freed⟩ := m'
    obtain ⟨queue, calls, dialogs, transactions, socket⟩ := worker
    simp only at hqueue hsocket htransactions hdialogs hcalls
    simp only [hqueue, hsocket, htransactions, hdialogs, hcalls]
  sent := by rw [h.sent, List.append_nil]
  timers := h.timers
  events := h.events
  freed := h.freed
  later := h.later

@[simp] theorem orphaned_orphaned (t : sip_transaction_t) : orphaned (orphaned t) = orphaned t := rfl

/-- A transaction that is terminated takes the next answers. -/
private theorem terminate_deletions {m m' : Machine} {transaction : Nat} {t : sip_transaction_t} {adds : List TimerAdd}
    (hcell : m.worker.transactions.heap.cells transaction = some t) (hstate : t.state ≠ .TERMINATED)
    (hset : set_transaction_state m transaction .TERMINATED = ok m') (htimers : m'.timers = m.timers ++ adds)
    (armers : List (Nat × sip_transaction_t)) :
    adds ++ deletions m'.env m'.events armers = deletions m.env m.events ((transaction, t) :: armers) := by
  rw [set_transaction_state, Machine.transaction_of_cells hcell, bind_ok, if_neg hstate] at hset
  cases hset
  cases halloc : m.env.malloc 0 with
  | false =>
    simp only [arm_delete_event, Machine.malloc, Machine.set_transaction, Machine.with_transactions, halloc, if_true,
      deletions] at htimers ⊢
    rw [List.self_eq_append_right.mp htimers, List.nil_append]
  | true =>
    simp only [arm_delete_event, Machine.malloc, Machine.set_transaction, Machine.with_transactions, halloc,
      Bool.true_eq_false, if_false, Machine.timer_one_shot_add, deletions] at htimers ⊢
    rw [← List.append_cancel_left htimers]
    rfl

/-- One turn of the loop of `cleanup_dialog`. -/
private theorem cleanup_dialog_slot {m : Machine} {transaction : Nat} {t : sip_transaction_t}
    (hcell : m.worker.transactions.heap.cells transaction = some t) (slots : List (Option Nat)) :
    ∃ m' adds, cleanup_dialog_slots m (some transaction :: slots) = cleanup_dialog_slots m' slots ∧
      Cleaned m m' (m.worker.transactions.set transaction (orphaned t)) adds ∧
      (if t.state = .TERMINATED then adds = [] else Arms m.env m.events transaction t adds) ∧
      ∀ armers, adds ++ deletions m'.env m'.events armers = deletions m.env m.events
        (if t.state = .TERMINATED then armers else (transaction, t) :: armers) := by
  rw [cleanup_dialog_slots, Machine.transaction_of_cells hcell, bind_ok]
  by_cases hstate : t.state = .TERMINATED
  · have hset := Machine.conversed_set_transaction m transaction (orphaned t)
    refine ⟨_, [], ?_, hset.cleaned rfl rfl, by rw [if_pos hstate], fun armers => by rw [if_pos hstate]; rfl⟩
    rw [if_neg (by simp [hstate])]
    simp only [bind_ok, Machine.transaction_of_cells hcell, orphaned, hstate]
  · obtain ⟨m₁, adds, heq, hconversed, hdialogs, hcalls, harms, -⟩ :=
      set_transaction_state_spec .TERMINATED hcell hstate
    have hset := hconversed.trans (Machine.conversed_set_transaction m₁ transaction (orphaned t))
    rw [List.append_nil, List.append_nil] at hset
    refine ⟨m₁.set_transaction transaction (orphaned t), adds, ?_, hset.cleaned hdialogs hcalls, ?_, fun armers => ?_⟩
    · rw [if_pos hstate, heq]
      simp only [bind_ok, Machine.transaction_of_cells (hconversed.cells hcell)]
      rfl
    · rw [if_neg hstate]
      exact harms (.inr rfl)
    · rw [if_neg hstate]
      exact terminate_deletions hcell hstate heq hconversed.timers armers

theorem Terminates.cons {transactions : Store sip_transaction_t} {transaction : Nat} {t : sip_transaction_t}
    {slots : List (Option Nat)} {armers : List (Nat × sip_transaction_t)}
    (hcell : transactions.heap.cells transaction = some t)
    (h : Terminates (transactions.set transaction (orphaned t)) slots armers) :
    Terminates transactions (some transaction :: slots)
      (if t.state = .TERMINATED then armers else (transaction, t) :: armers) := by
  have hself : ∀ u, (transaction, u) ∉ armers := by
    intro u hu
    obtain ⟨-, hcell', hstate⟩ := (h.mem _ _).mp hu
    rw [Store.heap_set, Heap.cells_set_self hcell, Option.some.injEq] at hcell'
    exact hstate (hcell' ▸ rfl)
  have hother : ∀ owner u, owner ≠ transaction → ((owner, u) ∈ armers ↔
      some owner ∈ some transaction :: slots ∧ transactions.heap.cells owner = some u ∧ u.state ≠ .TERMINATED) := by
    intro owner u hne
    rw [h.mem, Store.heap_set, Heap.cells_set_of_ne hne, List.mem_cons, Option.some.injEq]
    simp [hne]
  have hmem : ∀ u, transactions.heap.cells transaction = some u ↔ u = t := by
    intro u
    rw [hcell, Option.some.injEq, eq_comm]
  split
  · rename_i hstate
    refine ⟨fun owner u => ?_, h.nodup⟩
    by_cases ho : owner = transaction
    · subst ho
      simp only [hself, hmem, List.mem_cons, true_or, true_and, false_iff, not_and, not_not]
      rintro rfl
      exact hstate
    · exact hother owner u ho
  · rename_i hstate
    refine ⟨fun owner u => ?_, ?_⟩
    · rw [List.mem_cons, Prod.mk.injEq]
      by_cases ho : owner = transaction
      · subst ho
        simp only [hself, hmem, List.mem_cons, true_or, true_and, or_false]
        exact ⟨fun hu => ⟨hu, hu ▸ hstate⟩, And.left⟩
      · rw [hother owner u ho]
        simp [ho]
    · rw [List.map_cons, List.nodup_cons]
      refine ⟨fun hmem => ?_, h.nodup⟩
      obtain ⟨⟨owner, u⟩, hu, howner⟩ := List.mem_map.mp hmem
      obtain rfl : owner = transaction := howner
      exact hself u hu

/-- The loop of `cleanup_dialog` terminates the transactions in the slots and takes their
dialog from them. -/
theorem cleanup_dialog_slots_spec {m : Machine} (slots : List (Option Nat))
    (hlive : ∀ a, some a ∈ slots → ∃ t, m.worker.transactions.heap.cells a = some t) :
    ∃ m' armers adds, cleanup_dialog_slots m slots = ok m' ∧
      Cleaned m m' (m.worker.transactions.map (disband slots)) adds ∧
      Terminates m.worker.transactions slots armers ∧ Arming m.env m.events armers adds ∧
      adds = deletions m.env m.events armers := by
  induction slots generalizing m with
  | nil =>
    refine ⟨m, [], [], rfl, ?_, ⟨by simp, List.nodup_nil⟩, .nil _, rfl⟩
    rw [Store.map_id fun a v _ => by simp [disband]]
    exact .refl m
  | cons slot slots ih =>
    have hrest : ∀ a, some a ∈ slots → ∃ t, m.worker.transactions.heap.cells a = some t := fun a ha =>
      hlive a (List.mem_cons_of_mem _ ha)
    cases slot with
    | none =>
      obtain ⟨m', armers, adds, heq, hcleaned, hterminates, harming, hadds⟩ := ih hrest
      refine ⟨m', armers, adds, heq, ?_, ⟨by simpa using hterminates.mem, hterminates.nodup⟩, harming, hadds⟩
      have hsame : disband (none :: slots) = disband slots := by
        funext a t
        simp [disband]
      rwa [hsame]
    | some transaction =>
      obtain ⟨t, hcell⟩ := hlive transaction (by simp)
      obtain ⟨m₁, adds₁, hstep, hcleaned₁, harms, hadds₁⟩ := cleanup_dialog_slot hcell slots
      have htransactions : m₁.worker.transactions = m.worker.transactions.set transaction (orphaned t) := by
        rw [hcleaned₁.worker]
      obtain ⟨m', armers, adds, heq, hcleaned, hterminates, harming, hadds⟩ := ih (m := m₁) (by
        intro a ha
        rw [htransactions, ← Option.isSome_iff_exists, Store.heap_set, Heap.isSome_cells_set,
          Option.isSome_iff_exists]
        exact hrest a ha)
      rw [htransactions] at hcleaned hterminates
      refine ⟨m', _, adds₁ ++ adds, hstep.trans heq, ?_, hterminates.cons hcell, ?_, hadds ▸ hadds₁ armers⟩
      · have hall := hcleaned₁.trans hcleaned
        have hmap : (m.worker.transactions.set transaction (orphaned t)).map (disband slots) =
            m.worker.transactions.map (disband (some transaction :: slots)) :=
          Store.set_map hcell (by simp [disband]) fun b u hb => by simp [disband, hb]
        rwa [hmap] at hall
      · have hlater := harming.earlier hcleaned₁.later
        rw [hcleaned₁.events] at hlater
        split
        · rename_i hstate
          rw [if_pos hstate] at harms
          subst harms
          exact hlater
        · rename_i hstate
          rw [if_neg hstate] at harms
          exact .cons harms hlater

/-- A transaction in the slots that was freed is read all the same. -/
theorem cleanup_dialog_slots_dangling {m : Machine} {slots : List (Option Nat)} {transaction : Nat}
    (hslot : some transaction ∈ slots) (hfreed : m.worker.transactions.heap.cells transaction = none) :
    cleanup_dialog_slots m slots = error .useAfterFree := by
  induction slots generalizing m with
  | nil => cases hslot
  | cons slot slots ih =>
    cases slot with
    | none => exact ih ((List.mem_cons.mp hslot).resolve_left (Option.some_ne_none transaction)) hfreed
    | some a =>
      cases hcell : m.worker.transactions.heap.cells a with
      | none =>
        have hread : m.transaction a = error .useAfterFree := by simp [Machine.transaction, Heap.read, hcell]
        rw [cleanup_dialog_slots, hread]
        rfl
      | some t =>
        have hne : transaction ≠ a := by
          rintro rfl
          cases hcell.symm.trans hfreed
        obtain ⟨m', adds, hturn, hcleaned, -, -⟩ := cleanup_dialog_slot hcell slots
        rw [hturn]
        refine ih ((List.mem_cons.mp hslot).resolve_left fun heq => hne (Option.some.inj heq)) ?_
        rw [hcleaned.worker]
        exact (Heap.cells_set_of_ne hne).trans hfreed

/-- What `cleanup_call` does to a dialog in one of the slots: it ends without its call. -/
def abandon (slots : List (Option Nat)) (dialog : Nat) (d : sip_dialog_t) : sip_dialog_t :=
  if some dialog ∈ slots then { d with state := .TERMINATED, call := none } else d

/-- One turn of the loop of `cleanup_call`. -/
private theorem cleanup_call_slot {m : Machine} {dialog : Nat} {d : sip_dialog_t}
    (hd : m.worker.dialogs.heap.cells dialog = some d) (slots : List (Option Nat)) :
    cleanup_call_slots m (some dialog :: slots) =
      cleanup_call_slots (m.set_dialog dialog { d with state := .TERMINATED, call := none }) slots := by
  rw [cleanup_call_slots, Machine.dialog_of_cells hd, bind_ok]
  by_cases hstate : d.state = .TERMINATED
  · rw [if_neg (by simp [hstate])]
    simp only [bind_ok, Machine.dialog_of_cells hd, hstate]
  · have hread : ∀ e, (m.set_dialog dialog e).dialog dialog = ok e := fun e =>
      Heap.read_of_cells (Heap.cells_set_self hd)
    simp only [if_pos hstate, set_dialog_state, Machine.dialog_of_cells hd, bind_ok, hread]
    simp only [Machine.set_dialog, Machine.with_dialogs, Store.set_set]

/-- The loop of `cleanup_call` ends the dialogs in the slots and takes their call from them. -/
theorem cleanup_call_slots_spec {m : Machine} (slots : List (Option Nat))
    (hlive : ∀ b, some b ∈ slots → ∃ d, m.worker.dialogs.heap.cells b = some d) :
    cleanup_call_slots m slots = ok (m.with_dialogs (m.worker.dialogs.map (abandon slots))) := by
  induction slots generalizing m with
  | nil =>
    rw [Store.map_id fun b d _ => by simp [abandon]]
    rfl
  | cons slot slots ih =>
    have hrest : ∀ b, some b ∈ slots → ∃ d, m.worker.dialogs.heap.cells b = some d := fun b hb =>
      hlive b (List.mem_cons_of_mem _ hb)
    cases slot with
    | none =>
      have hsame : abandon (none :: slots) = abandon slots := by
        funext b d
        simp [abandon]
      rw [hsame]
      exact ih hrest
    | some dialog =>
      obtain ⟨d, hd⟩ := hlive dialog (by simp)
      rw [cleanup_call_slot hd, ih fun b hb => ?_]
      · have hmap : (m.worker.dialogs.set dialog { d with state := .TERMINATED, call := none }).map (abandon slots) =
            m.worker.dialogs.map (abandon (some dialog :: slots)) :=
          Store.set_map hd (by simp [abandon]) fun b e hb => by simp [abandon, hb]
        simp only [Machine.set_dialog, Machine.with_dialogs, hmap]
      · rw [← Option.isSome_iff_exists]
        change ((m.worker.dialogs.set dialog _).heap.cells b).isSome
        rw [Store.heap_set, Heap.isSome_cells_set, Option.isSome_iff_exists]
        exact hrest b hb

/-- A dialog in the slots that was freed is read all the same. -/
theorem cleanup_call_slots_dangling {m : Machine} {slots : List (Option Nat)} {dialog : Nat}
    (hslot : some dialog ∈ slots) (hfreed : m.worker.dialogs.heap.cells dialog = none) :
    cleanup_call_slots m slots = error .useAfterFree := by
  induction slots generalizing m with
  | nil => cases hslot
  | cons slot slots ih =>
    cases slot with
    | none => exact ih ((List.mem_cons.mp hslot).resolve_left (Option.some_ne_none dialog)) hfreed
    | some b =>
      cases hcell : m.worker.dialogs.heap.cells b with
      | none =>
        have hread : m.dialog b = error .useAfterFree := by simp [Machine.dialog, Heap.read, hcell]
        rw [cleanup_call_slots, hread]
        rfl
      | some d =>
        have hne : dialog ≠ b := by
          rintro rfl
          cases hcell.symm.trans hfreed
        rw [cleanup_call_slot hcell]
        refine ih ((List.mem_cons.mp hslot).resolve_left fun heq => hne (Option.some.inj heq)) ?_
        exact (Heap.cells_set_of_ne hne).trans hfreed

theorem cleanup_messages (m : Machine) (t : sip_transaction_t) :
    (m.cleanup_sip_message t.message).cleanup_sip_message t.ack_message =
      { m with freed := m.freed ++ messages_of t } := by
  cases hmessage : t.message <;> cases hack : t.ack_message <;>
    simp [Machine.cleanup_sip_message, messages_of, hmessage, hack]

/-- A transaction without a dialog is taken out of the list and freed with its messages. -/
theorem delete_transaction_alone {m : Machine} {transaction : Nat} {t : sip_transaction_t}
    (hsound : m.worker.transactions.Sound) (hcell : m.worker.transactions.heap.cells transaction = some t)
    (hdialog : t.dialog = none) :
    delete_transaction_by_pointer m transaction =
      ok { m.with_transactions (m.worker.transactions.remove transaction) with
        freed := m.freed ++ messages_of t } := by
  have hread : ∀ list, (m.with_transactions { m.worker.transactions with list := list }).transaction transaction =
      ok t := fun _ => Heap.read_of_cells hcell
  rw [delete_transaction_by_pointer, hsound.unlink (hsound.mem hcell), bind_ok]
  simp only [cleanup_transaction, hread, bind_ok, hdialog, cleanup_messages]
  rfl

/-- A transaction in a dialog also leaves its slot there. -/
theorem delete_transaction_in_dialog {m : Machine} {transaction dialog : Nat} {t : sip_transaction_t}
    {d : sip_dialog_t} (hsound : m.worker.transactions.Sound)
    (hcell : m.worker.transactions.heap.cells transaction = some t) (hdialog : t.dialog = some dialog)
    (hd : m.worker.dialogs.heap.cells dialog = some d) :
    delete_transaction_by_pointer m transaction =
      ok { (m.with_transactions (m.worker.transactions.remove transaction)).set_dialog dialog
          { d with transaction := d.transaction.remove transaction } with
        freed := m.freed ++ messages_of t } := by
  have hread : ∀ list, (m.with_transactions { m.worker.transactions with list := list }).transaction transaction =
      ok t := fun _ => Heap.read_of_cells hcell
  have hread_d : ∀ list, (m.with_transactions { m.worker.transactions with list := list }).dialog dialog =
      ok d := fun _ => Heap.read_of_cells hd
  have hread' : ∀ list v, ((m.with_transactions { m.worker.transactions with list := list }).set_dialog dialog
      v).transaction transaction = ok t := fun _ _ => Heap.read_of_cells hcell
  rw [delete_transaction_by_pointer, hsound.unlink (hsound.mem hcell), bind_ok]
  simp only [cleanup_transaction, hread, bind_ok, hdialog, remove_transaction_from_dialog, hread_d, hread',
    cleanup_messages]
  rfl

theorem delete_transaction_dangling {m : Machine} {transaction dialog : Nat} {t : sip_transaction_t}
    (hsound : m.worker.transactions.Sound) (hcell : m.worker.transactions.heap.cells transaction = some t)
    (hdialog : t.dialog = some dialog) (hfreed : m.worker.dialogs.heap.cells dialog = none) :
    delete_transaction_by_pointer m transaction = error .useAfterFree := by
  have hread : ∀ list, (m.with_transactions { m.worker.transactions with list := list }).transaction transaction =
      ok t := fun _ => Heap.read_of_cells hcell
  have hread_d : ∀ list, (m.with_transactions { m.worker.transactions with list := list }).dialog dialog =
      error .useAfterFree := fun _ => by simp [Machine.dialog, Machine.with_transactions, Heap.read, hfreed]
  rw [delete_transaction_by_pointer, hsound.unlink (hsound.mem hcell), bind_ok]
  simp only [cleanup_transaction, hread, bind_ok, hdialog, remove_transaction_from_dialog, hread_d, bind_error]

/-- A dialog is freed once its transactions are terminated and its call is left. -/
theorem delete_dialog_spec {m : Machine} {dialog : Nat} {d : sip_dialog_t} (hsound : m.worker.dialogs.Sound)
    (hcell : m.worker.dialogs.heap.cells dialog = some d)
    (hlive : ∀ a, some a ∈ d.transaction.items → ∃ t, m.worker.transactions.heap.cells a = some t)
    (hcall : ∀ call, d.call = some call → ∃ c, m.worker.calls.heap.cells call = some c) :
    ∃ m' m₁ armers adds, delete_dialog_by_pointer m dialog = ok m' ∧
      Cleaned m m₁ (m.worker.transactions.map (disband d.transaction.items)) adds ∧
      Terminates m.worker.transactions d.transaction.items armers ∧ Arming m.env m.events armers adds ∧
      adds = deletions m.env m.events armers ∧
      m' = (m₁.with_dialogs (m.worker.dialogs.remove dialog)).with_calls (leave m.worker.calls dialog d.call) := by
  obtain ⟨m₀, hm₀⟩ : ∃ m₀, m₀ = m.with_dialogs { m.worker.dialogs with list := m.worker.dialogs.list.erase dialog } :=
    ⟨_, rfl⟩
  obtain ⟨m₁, armers, adds, heq, hcleaned, hterminates, harming, hadds⟩ := cleanup_dialog_slots_spec (m := m₀)
    d.transaction.items (by rw [hm₀]; exact hlive)
  have hread₀ : m₀.dialog dialog = ok d := by
    rw [hm₀]
    exact Heap.read_of_cells hcell
  have hread₁ : m₁.dialog dialog = ok d := by
    rw [Machine.dialog, hcleaned.worker]
    exact hread₀
  have hread_call : ∀ call, m₁.call call = m.call call := by
    intro call
    rw [Machine.call, hcleaned.worker, hm₀]
    rfl
  rw [hm₀] at hcleaned hterminates harming hadds
  refine ⟨_, { m₁ with worker := { m₁.worker with dialogs := m.worker.dialogs } }, armers, adds, ?_,
    { hcleaned with worker := ?_ }, hterminates, harming, hadds, rfl⟩
  · rw [delete_dialog_by_pointer, hsound.unlink (hsound.mem hcell), bind_ok]
    simp only [← hm₀, cleanup_dialog, hread₀, heq, hread₁, bind_ok]
    have hworker : m₁.worker = { m₀.worker with transactions := m₁.worker.transactions } := by
      rw [hcleaned.worker, hm₀]
    cases hnone : d.call with
    | none =>
      simp only [Machine.free_dialog, Machine.with_dialogs, Machine.with_calls, leave]
      rw [hworker, hm₀]
      rfl
    | some call =>
      obtain ⟨c, hc⟩ := hcall call hnone
      simp only [remove_dialog_from_call, hread_call, Machine.call_of_cells hc, bind_ok, Machine.set_call,
        Machine.free_dialog, Machine.with_dialogs, Machine.with_calls, leave, hc]
      rw [hworker, hm₀]
      rfl
  · rw [hcleaned.worker]
    rfl

/-- A call without dialogs is freed. -/
theorem delete_call_spec {m : Machine} {call : Nat} {c : sip_call_t} (hsound : m.worker.calls.Sound)
    (hcell : m.worker.calls.heap.cells call = some c) (hempty : ∀ dialog, some dialog ∉ c.dialog.items) :
    delete_call_by_pointer m call = ok (m.with_calls (m.worker.calls.remove call)) := by
  have hslots : ∀ (m : Machine) (slots : List (Option Nat)), (∀ dialog, some dialog ∉ slots) →
      cleanup_call_slots m slots = ok m := by
    intro m slots hnone
    induction slots with
    | nil => rfl
    | cons slot slots ih =>
      cases slot with
      | none => exact ih fun dialog hmem => hnone dialog (List.mem_cons_of_mem _ hmem)
      | some dialog => exact absurd List.mem_cons_self (hnone dialog)
  have hread : ∀ list, (m.with_calls { m.worker.calls with list := list }).call call = ok c := fun _ =>
    Heap.read_of_cells hcell
  rw [delete_call_by_pointer, hsound.unlink (hsound.mem hcell), bind_ok]
  simp only [cleanup_call, hread, hslots _ _ hempty, bind_ok]
  rfl

end mock_uas.sip_server
