import MockUas.Server.WellFormed

open clib
open mock_uas.sip_message
open mock_uas.sip_utils

namespace mock_uas.sip_server

/-- A request that makes a worker add a transaction to the dialog its tags lead to: it opens
one, or it acknowledges an INVITE that has no dialog. -/
def Attaches (worker : worker_thread_t) (env : Environment) (message : sip_message_t) : Prop :=
  (transaction_for worker message = none ∧ env.malloc 0 = true) ∨
    ∃ transaction t opened, transaction_for worker message = some transaction ∧
      worker.transactions.heap.cells transaction = some t ∧ t.dialog = none ∧ t.message = some opened ∧
      opened.contents.method_type = .INVITE ∧ message.method_type = .ACK ∧
      is_different message opened.contents = ok true

/-- Whenever a step adds a transaction to an existing dialog, one of its slots is free. -/
def HasRoom (run : Run) : Input → Prop
  | .incoming datagram client_addr _ env => ∀ message, Accepted datagram client_addr message →
      Attaches run.worker env message → ∀ dialog d, dialog_for run.worker message = some dialog →
        run.worker.dialogs.heap.cells dialog = some d → ¬ d.transaction.Full
  | _ => True

instance (worker : worker_thread_t) (env : Environment) (message : sip_message_t) :
    Decidable (Attaches worker env message) :=
  decidable_of_iff ((transaction_for worker message = none ∧ env.malloc 0 = true) ∨
    ∃ transaction ∈ transaction_for worker message, ∃ t ∈ worker.transactions.heap.cells transaction,
      ∃ opened ∈ t.message, t.dialog = none ∧ opened.contents.method_type = .INVITE ∧ message.method_type = .ACK ∧
        is_different message opened.contents = ok true) (by
    refine or_congr_right ⟨?_, ?_⟩
    · rintro ⟨transaction, hfound, t, hcell, opened, hholds, hdialog, hall⟩
      exact ⟨transaction, t, opened, hfound, hcell, hdialog, hholds, hall⟩
    · rintro ⟨transaction, t, opened, hfound, hcell, hdialog, hholds, hall⟩
      exact ⟨transaction, hfound, t, hcell, opened, hholds, hdialog, hall⟩)

instance (run : Run) (input : Input) : Decidable (HasRoom run input) :=
  match input with
  | .incoming datagram client_addr _ env =>
    decidable_of_iff (∀ message ∈ accepted_message datagram client_addr, Attaches run.worker env message →
      ∀ dialog ∈ dialog_for run.worker message, ∀ d ∈ run.worker.dialogs.heap.cells dialog, ¬ d.transaction.Full) (by
      constructor
      · exact fun h message haccepted hattaches dialog d hfound hd =>
          h message (accepted_iff.mp haccepted) hattaches dialog hfound d hd
      · exact fun h message haccepted hattaches dialog hfound d hd =>
          h message (accepted_iff.mpr haccepted) hattaches dialog d hfound hd)
  | .response .. => isTrue trivial
  | .delete .. => isTrue trivial

/-- Every dialog is still there and holds the same transactions, but perhaps one. -/
def Keeps (before after : Store sip_dialog_t) (transaction : Nat) : Prop :=
  ∀ dialog d, before.heap.cells dialog = some d → ∃ d', after.heap.cells dialog = some d' ∧
    ∀ a, a ≠ transaction → d'.transaction.count a = d.transaction.count a

theorem keeps_refl (dialogs : Store sip_dialog_t) (transaction : Nat) : Keeps dialogs dialogs transaction :=
  fun _ d hd => ⟨d, hd, fun _ _ => rfl⟩

theorem keeps_push (dialogs : Store sip_dialog_t) (d : sip_dialog_t) (transaction : Nat) :
    Keeps dialogs (dialogs.push d) transaction :=
  fun _ d' hd' => ⟨d', Heap.cells_alloc_of_cells hd', fun _ _ => rfl⟩

theorem keeps_attach (dialogs : Store sip_dialog_t) (dialog : Option Nat) (transaction : Nat) :
    Keeps dialogs (attach dialogs dialog transaction) transaction := by
  intro b d hd
  rw [cells_attach, hd]
  refine ⟨_, rfl, fun a ha => ?_⟩
  split
  · exact Slots.count_add_of_ne ha
  · rfl

theorem keeps_set {dialogs : Store sip_dialog_t} {dialog : Nat} {d : sip_dialog_t} {transaction : Nat}
    (hd : dialogs.heap.cells dialog = some d) (d' : sip_dialog_t)
    (hslots : d'.transaction = d.transaction.add transaction) : Keeps dialogs (dialogs.set dialog d') transaction := by
  intro b e he
  rw [Store.heap_set, Heap.cells_set hd]
  split
  · rename_i hb
    rw [hb, hd, Option.some.injEq] at he
    subst he
    exact ⟨d', rfl, fun a ha => by rw [hslots, Slots.count_add_of_ne ha]⟩
  · exact ⟨e, he, fun _ _ => rfl⟩

theorem Fate.keeps {before after : worker_thread_t} {original : Owned sip_message_t} {transaction : Nat}
    {t : sip_transaction_t} {sends : List Sent} (h : Fate before original transaction t after sends) :
    Keeps before.dialogs after.dialogs transaction := by
  cases h with
  | reinvite _ _ hcell _ _ _ _ hdialogs =>
    rw [hdialogs]
    exact keeps_set hcell _ rfl
  | acked _ _ _ _ _ hdialogs =>
    rw [hdialogs]
    exact keeps_attach _ _ _
  | refused _ _ _ _ _ _ _ hdialogs =>
    rw [hdialogs]
    exact keeps_attach _ _ _
  | hung_up _ _ hcell _ _ _ _ _ _ _ hdialogs =>
    rw [hdialogs]
    exact keeps_set hcell _ rfl
  | failed_alone _ _ _ _ _ _ hdialogs =>
    rw [hdialogs]
    exact keeps_refl _ _
  | failed_in_dialog _ _ _ _ _ _ _ hdialogs =>
    rw [hdialogs]
    exact keeps_push _ _ _
  | failed_in_call _ _ _ _ _ _ _ hdialogs =>
    rw [hdialogs]
    exact keeps_push _ _ _
  | established _ _ _ _ _ _ _ hdialogs =>
    rw [hdialogs]
    exact keeps_push _ _ _

/-- A transaction that was not in the slots takes one, where one is free. -/
private theorem linked_attach {dialogs : Store sip_dialog_t} {found : Option Nat} {transaction : Nat}
    (hsound : ∀ dialog, found = some dialog → ∃ d, dialogs.heap.cells dialog = some d)
    (hroom : ∀ dialog d, found = some dialog → dialogs.heap.cells dialog = some d → ¬ d.transaction.Full)
    (hnew : ∀ dialog d, dialogs.heap.cells dialog = some d → d.transaction.count transaction = 0) (dialog : Nat)
    (hdialog : found = some dialog) :
    ∃ d', (attach dialogs found transaction).heap.cells dialog = some d' ∧
      d'.transaction.count transaction = 1 := by
  obtain ⟨d, hd⟩ := hsound dialog hdialog
  rw [cells_attach, hd]
  refine ⟨_, rfl, ?_⟩
  simp only [if_pos hdialog]
  rw [Slots.count_add (hroom dialog d hdialog hd) (hnew dialog d hd), hnew dialog d hd, if_pos rfl]

/-- The transaction a request opens is in a slot of the dialog it points at. -/
theorem Fate.linked {before after : worker_thread_t} {original : Owned sip_message_t} {transaction : Nat}
    {t : sip_transaction_t} {sends : List Sent} (h : Fate before original transaction t after sends)
    (hroom : ∀ dialog d, dialog_for before original.contents = some dialog →
      before.dialogs.heap.cells dialog = some d → ¬ d.transaction.Full)
    (hnew : ∀ dialog d, before.dialogs.heap.cells dialog = some d → d.transaction.count transaction = 0)
    {dialog : Nat} (hdialog : t.dialog = some dialog) :
    ∃ d', after.dialogs.heap.cells dialog = some d' ∧ d'.transaction.count transaction = 1 := by
  have hlive : ∀ dialog, dialog_for before original.contents = some dialog →
      ∃ d, before.dialogs.heap.cells dialog = some d := by
    intro dialog hfound
    obtain ⟨-, d, hd, -⟩ := Store.first_eq_some hfound
    exact ⟨d, hd⟩
  have hattached := linked_attach hlive hroom hnew
  have hbegun : ∀ {call state d}, Begun original.contents transaction call state d →
      t.dialog = some before.dialogs.heap.next → after.dialogs = before.dialogs.push d →
      ∃ d', after.dialogs.heap.cells dialog = some d' ∧ d'.transaction.count transaction = 1 := by
    intro call state d hbegun hnext hdialogs
    rw [hdialog, Option.some.injEq] at hnext
    rw [hdialogs, hnext]
    exact ⟨d, Heap.cells_alloc_self _ _, by rw [count_begun hbegun, if_pos rfl]⟩
  cases h with
  | reinvite _ hfound hcell hsame _ _ _ hdialogs =>
    rw [hdialogs, ← attach_some hcell, ← hfound]
    exact hattached dialog (hfound.trans (hsame.symm.trans hdialog))
  | acked _ hsame _ _ _ hdialogs =>
    rw [hdialogs]
    exact hattached dialog (hsame.symm.trans hdialog)
  | refused _ _ _ hsame _ _ _ hdialogs =>
    rw [hdialogs]
    exact hattached dialog (hsame.symm.trans hdialog)
  | @hung_up found _ d _ _ hfound hcell _ _ _ hsame _ _ _ hdialogs =>
    rw [hsame, Option.some.injEq] at hdialog
    subst hdialog
    rw [hdialogs]
    refine ⟨_, Heap.cells_set_self hcell, ?_⟩
    change (d.transaction.add transaction).count transaction = 1
    rw [Slots.count_add (hroom _ _ hfound hcell) (hnew _ _ hcell), hnew _ _ hcell, if_pos rfl]
  | failed_alone _ _ hsame =>
    rw [hsame] at hdialog
    cases hdialog
  | failed_in_dialog _ _ hsame _ _ _ hd hdialogs => exact hbegun hd hsame hdialogs
  | failed_in_call _ _ hsame _ _ _ hd hdialogs => exact hbegun hd hsame hdialogs
  | established _ _ hsame _ _ _ hd hdialogs => exact hbegun hd hsame hdialogs

/-- No slot holds the address the next transaction will get. -/
private theorem count_next {worker : worker_thread_t} (h : WellFormed worker) (dialog : Nat) (d : sip_dialog_t)
    (hd : worker.dialogs.heap.cells dialog = some d) : d.transaction.count worker.transactions.heap.next = 0 := by
  refine Nat.eq_zero_of_not_pos fun hpos => ?_
  obtain ⟨-, t, ht, -⟩ := h.slot hd hpos
  rw [Heap.cells_next] at ht
  cases ht

/-- Links that were there stay, and those of one transaction are found anew. -/
private theorem links_of_keeps {before after : worker_thread_t} {transaction : Nat} (hlinks : Links before)
    (hkeeps : Keeps before.dialogs after.dialogs transaction)
    (hcells : ∀ {a t}, a ≠ transaction → after.transactions.heap.cells a = some t →
      before.transactions.heap.cells a = some t)
    (hself : ∀ {t dialog}, after.transactions.heap.cells transaction = some t → t.dialog = some dialog →
      ∃ d, after.dialogs.heap.cells dialog = some d ∧ d.transaction.count transaction = 1) : Links after := by
  intro a t dialog hcell hdialog
  by_cases ha : a = transaction
  · subst ha
    exact hself hcell hdialog
  · obtain ⟨d, hd, hcount⟩ := hlinks a t dialog (hcells ha hcell) hdialog
    obtain ⟨d', hd', hsame⟩ := hkeeps dialog d hd
    exact ⟨d', hd', by rw [hsame a ha, hcount]⟩

theorem Handled.links {m m' : Machine} {message : Owned sip_message_t} (h : Handled m message m')
    (hworker : WellFormed m.worker) (hlinks : Links m.worker)
    (hroom : Attaches m.worker m.env message.contents → ∀ dialog d,
      dialog_for m.worker message.contents = some dialog → m.worker.dialogs.heap.cells dialog = some d →
      ¬ d.transaction.Full) : Links m'.worker := by
  cases h with
  | unallocated _ _ _ hm =>
    rw [hm]
    exact hlinks
  | @opened t _ _ hnew hmalloc hopened =>
    have htransactions := hopened.transactions
    refine links_of_keeps hlinks hopened.fate.keeps ?_ ?_
    · intro a u ha hu
      rw [htransactions, Store.heap_push, Heap.cells_alloc, if_neg ha] at hu
      exact hu
    · intro u dialog hu hdialog
      rw [htransactions, Store.heap_push, Heap.cells_alloc_self, Option.some.injEq] at hu
      subst hu
      exact hopened.fate.linked (hroom (.inl ⟨hnew, hmalloc⟩)) (count_next hworker) hdialog
  | @known transaction t opened hfound hcell hholds hknown =>
    cases hknown with
    | dropped _ _ hm =>
      rw [hm]
      exact hlinks
    | resent _ _ _ hm =>
      rw [hm]
      exact hlinks
    | rewritten _ _ _ hconversed hdialogs _ _ =>
      have htransactions := hconversed.transactions
      simp only at htransactions
      refine links_of_keeps hlinks (by rw [hdialogs]; exact keeps_refl _ transaction) ?_ ?_
      · intro a u ha hu
        rwa [htransactions, Store.heap_set, Heap.cells_set_of_ne ha] at hu
      · intro u dialog hu hdialog
        rw [htransactions, Store.heap_set, Heap.cells_set_self hcell, Option.some.injEq] at hu
        subst hu
        rw [hdialogs]
        exact hlinks _ _ _ hcell hdialog
    | acked hdifferent hinvite hack hconversed hdialogs _ _ =>
      have htransactions := hconversed.transactions
      have hkeeps : Keeps m.worker.dialogs m'.worker.dialogs transaction := by
        rw [hdialogs]
        split
        · exact keeps_attach _ _ _
        · exact keeps_refl _ _
      refine links_of_keeps hlinks hkeeps ?_ ?_
      · intro a u ha hu
        rwa [htransactions, Store.heap_set, Heap.cells_set_of_ne ha] at hu
      · intro u dialog hu hdialog
        rw [htransactions, Store.heap_set, Heap.cells_set_self hcell, Option.some.injEq] at hu
        subst hu
        rw [hdialogs]
        by_cases hnone : t.dialog = none
        · simp only [if_pos hnone] at hdialog ⊢
          refine linked_attach ?_ (hroom (.inr ⟨transaction, t, opened, hfound, hcell, hnone, hholds, hinvite, hack,
            hdifferent⟩)) ?_ dialog hdialog
          · intro b hb
            obtain ⟨-, d, hd, -⟩ := Store.first_eq_some hb
            exact ⟨d, hd⟩
          · intro b d hd
            refine Nat.eq_zero_of_not_pos fun hpos => ?_
            obtain ⟨-, u, hu, hpoints⟩ := hworker.slot hd hpos
            rw [hcell, Option.some.injEq] at hu
            rw [← hu, hnone] at hpoints
            cases hpoints
        · simp only [if_neg hnone] at hdialog ⊢
          exact hlinks _ _ _ hcell hdialog

/-- Deleting a transaction cuts its links only, and with its dialog all links to that. -/
theorem Removed.links {before after : worker_thread_t} {transaction : Nat} {t : sip_transaction_t}
    {armers : List (Nat × sip_transaction_t)} (h : Removed before transaction t armers after)
    (hlinks : Links before) : Links after := by
  have hremoved : ∀ {a u}, (before.transactions.remove transaction).heap.cells a = some u →
      a ≠ transaction ∧ before.transactions.heap.cells a = some u := by
    intro a u hu
    rw [Store.cells_remove] at hu
    split at hu
    · cases hu
    · exact ⟨by assumption, hu⟩
  cases h with
  | alone hdialog hafter _ =>
    rw [hafter]
    exact fun a u b hu => hlinks a u b (hremoved hu).2
  | @left dialog d hdialog hd _ hafter _ =>
    rw [hafter]
    intro a u b hu hpoints
    obtain ⟨ha, hu⟩ := hremoved hu
    obtain ⟨e, he, hcount⟩ := hlinks _ _ _ hu hpoints
    rw [Store.heap_set, Heap.cells_set hd]
    split
    · rename_i hb
      rw [hb, hd, Option.some.injEq] at he
      subst he
      exact ⟨_, rfl, by rw [Slots.count_remove, if_neg ha, hcount]⟩
    · exact ⟨e, he, hcount⟩
  | @ended dialog d hdialog hd _ hafter _ =>
    rw [hafter]
    intro a u b hu hpoints
    rw [Store.cells_map] at hu
    obtain ⟨v, hv, rfl⟩ := Option.map_eq_some_iff.mp hu
    obtain ⟨ha, hv⟩ := hremoved hv
    unfold disband at hpoints
    split at hpoints
    · cases hpoints
    · rename_i hout
      obtain ⟨e, he, hcount⟩ := hlinks _ _ _ hv hpoints
      refine ⟨e, ?_, hcount⟩
      rw [Store.cells_remove, if_neg]
      · exact he
      · rintro rfl
        rw [hd, Option.some.injEq] at he
        subst he
        rw [← Slots.count_pos_iff, Slots.count_remove, if_neg ha] at hout
        omega

theorem Deleted.links {m m' : Machine} {event : transaction_delete_t} (h : Deleted m event m')
    (hlinks : Links m.worker) : Links m'.worker := by
  cases h with
  | missing _ hm =>
    rw [hm]
    exact hlinks
  | removed _ _ hdeletion => exact hdeletion.removed.links hlinks

/-- The links between the structures of a worker agree in both directions, and lead from
live structures to live structures. -/
structure Integrity (worker : worker_thread_t) : Prop where
  transaction_dialog : ∀ a t dialog, a ∈ worker.transactions.list → worker.transactions.heap.cells a = some t →
    t.dialog = some dialog → dialog ∈ worker.dialogs.list ∧
      ∃ d, worker.dialogs.heap.cells dialog = some d ∧ d.transaction.count a = 1
  dialog_transaction : ∀ dialog d a, dialog ∈ worker.dialogs.list → worker.dialogs.heap.cells dialog = some d →
    some a ∈ d.transaction.items → a ∈ worker.transactions.list ∧
      ∃ t, worker.transactions.heap.cells a = some t ∧ t.dialog = some dialog
  dialog_call : ∀ dialog d call, dialog ∈ worker.dialogs.list → worker.dialogs.heap.cells dialog = some d →
    d.call = some call → call ∈ worker.calls.list ∧
      ∃ c, worker.calls.heap.cells call = some c ∧ c.dialog.count dialog = 1
  call_dialog : ∀ call c dialog, call ∈ worker.calls.list → worker.calls.heap.cells call = some c →
    some dialog ∈ c.dialog.items → dialog ∈ worker.dialogs.list ∧
      ∃ d, worker.dialogs.heap.cells dialog = some d ∧ d.call = some call

theorem Linkage.integrity {worker : worker_thread_t} (h : Linkage worker) (hlinks : Links worker) :
    Integrity worker where
  transaction_dialog a t dialog _ hcell hdialog := by
    obtain ⟨d, hd, hcount⟩ := hlinks a t dialog hcell hdialog
    exact ⟨h.dialogs.mem hd, d, hd, hcount⟩
  dialog_transaction dialog d a _ hd hmem := by
    obtain ⟨-, t, ht, hdialog⟩ := h.slot hd (Slots.count_pos_iff.mpr hmem)
    exact ⟨h.transactions.mem ht, t, ht, hdialog⟩
  dialog_call dialog d call _ hd hcall := by
    obtain ⟨c, hc, hcount⟩ := h.call hd hcall
    exact ⟨h.calls.mem hc, c, hc, hcount⟩
  call_dialog call c dialog _ hc hmem := by
    obtain ⟨-, d, hd, hcall⟩ := h.dialog hc (Slots.count_pos_iff.mpr hmem)
    exact ⟨h.dialogs.mem hd, d, hd, hcall⟩

theorem Run.Initial.links {run : Run} (h : run.Initial) : Links run.worker := by
  intro a t dialog hcell
  rw [h.transactions] at hcell
  cases hcell

theorem Run.Stepped.links {run run' : Run} {input : Input} (h : Run.Stepped run input run')
    (hworker : WellFormed run.worker) (hroom : HasRoom run input) (hlinks : Links run.worker) : Links run'.worker := by
  cases h with
  | unhandled => exact hlinks
  | response => exact hlinks
  | request haccepted hhandled => exact hhandled.links hworker hlinks (hroom _ haccepted)
  | delete hdeleted => exact hdeleted.links hlinks

/-- The links stay exact as long as no full dialog is given one more transaction. -/
theorem ReachableWhile.links {run : Run} (h : program.ReachableWhile HasRoom run) :
    WellFormed run.worker ∧ Links run.worker := by
  refine h.invariant (P := fun run => WellFormed run.worker ∧ Links run.worker)
    (fun _ hinit => ⟨Run.Initial.wellFormed hinit, Run.Initial.links hinit⟩) ?_
  rintro run input run' - hroom hstep ⟨hworker, hlinks⟩
  have hstepped := (step_ends hworker input).of_eq_ok hstep
  exact ⟨hstepped.wellFormed hworker, hstepped.links hworker hroom hlinks⟩

/-- In a run that never adds a transaction to a full dialog, the object graph keeps its
integrity, and no step reads a structure that was freed. -/
theorem integrity_while_dialogs_have_room (run : Run) (h : program.ReachableWhile HasRoom run) :
    Integrity run.worker ∧ ∀ input, run.step input ≠ error .useAfterFree := by
  obtain ⟨hworker, hlinks⟩ := ReachableWhile.links h
  refine ⟨hworker.toLinkage.integrity hlinks, fun input hfault => ?_⟩
  rcases (step_ends hworker input).of_eq_error hfault with hdangling | hbounds
  · exact hlinks.not_dangling hdangling
  · rw [hfault] at hbounds
    cases hbounds

/-- An ACK in the dialog the first INVITE begins. -/
def long_branch_ack : Datagram where
  bytes := request_text (ascii "ACK") (List.replicate 65 120) (ascii "<sip:b@h>;tag=0000000000000000")
  fits := by decide +kernel

/-- The event the first of these ACKs arms. -/
def ack_event : transaction_delete_t where
  serial := 1
  owner := 1
  branch := printed SIP_BRANCH_MAX_LENGTH (List.replicate 65 120)
  branch_length := 65
  queue := some 0

/-- 32 ACKs in a dialog that has 31 slots left, a BYE, and the deletion of the INVITE. -/
def crowded_inputs : List Input :=
  arrival first_invite .obliging :: List.replicate 32 (arrival long_branch_ack .obliging) ++
    [arrival first_bye .obliging, .delete invite_event .obliging]

private theorem crowded_run :
    (program.follow Run.started crowded_inputs).map (fun run : Run =>
      (((run.worker.transactions.heap.cells 32).bind (·.dialog), run.worker.dialogs.list),
        decide (ack_event ∈ run.pending), faultOf (run.step (.delete ack_event .obliging)))) =
      some ((some 0, []), true, some Fault.useAfterFree) := by
  decide +kernel

/-- The transaction of the last ACK points at its dialog without being in one of its slots,
and keeps pointing there once the dialog is freed. The first deletion that reaches it
reads the freed dialog. -/
theorem integrity_lost_in_full_dialog :
    ∃ (run : Run) (event : transaction_delete_t) (env : Environment), program.Reachable run ∧
      ¬ Integrity run.worker ∧ program.enabled run (.delete event env) ∧
      run.step (.delete event env) = error .useAfterFree := by
  obtain ⟨run, hrun, hfacts⟩ := Option.map_eq_some_iff.mp crowded_run
  simp only [Prod.mk.injEq, decide_eq_true_eq, faultOf_eq_some_iff] at hfacts
  obtain ⟨⟨hdialog, hdialogs⟩, hpending, hfault⟩ := hfacts
  have hreach := reachable_of_follow hrun
  refine ⟨run, ack_event, .obliging, hreach, fun hintegrity => ?_, hpending, hfault⟩
  obtain ⟨t, hcell, hpoints⟩ := Option.bind_eq_some_iff.mp hdialog
  have hmem := (Reachable.wellFormed hreach).transactions.mem hcell
  have hlive := (hintegrity.transaction_dialog 32 t 0 hmem hcell hpoints).1
  rw [hdialogs] at hlive
  cases hlive

/-- A dialog with room for an ACK that is deleted and for the BYE behind it. -/
private theorem roomy_run :
    (program.follow_tested HasRoom Run.started [arrival first_invite .obliging, arrival long_branch_ack .obliging,
      .delete ack_event .obliging, arrival first_bye .obliging]).map (fun run : Run =>
        (run.worker.calls.list, run.worker.dialogs.list, run.worker.transactions.list)) = some ([0], [0], [2, 0]) := by
  decide +kernel

/-- The integrity of a worker whose dialog has lost an ACK and holds an INVITE and a BYE. -/
theorem integrity_after_bye :
    ∃ run : Run, run.worker.calls.list = [0] ∧ run.worker.dialogs.list = [0] ∧ run.worker.transactions.list = [2, 0] ∧
      Integrity run.worker ∧ ∀ input, run.step input ≠ error .useAfterFree := by
  obtain ⟨run, hrun, hlists⟩ := Option.map_eq_some_iff.mp roomy_run
  simp only [Prod.mk.injEq] at hlists
  obtain ⟨hcalls, hdialogs, htransactions⟩ := hlists
  obtain ⟨hintegrity, hsafe⟩ :=
    integrity_while_dialogs_have_room run (.of_follow_tested Run.started_initial hrun)
  exact ⟨run, hcalls, hdialogs, htransactions, hintegrity, hsafe⟩

end mock_uas.sip_server
