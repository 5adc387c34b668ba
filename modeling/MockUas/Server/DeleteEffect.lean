import MockUas.Server.Reclaim

open clib
open mock_uas.sip_message
open mock_uas.sip_utils

namespace mock_uas.sip_server

/-- The lists of a worker run through its live records, whose links are closed and symmetric,
and each call has at most one dialog. -/
structure Closed (worker : worker_thread_t) : Prop where
  transactions : worker.transactions.Sound
  dialogs : worker.dialogs.Sound
  calls : worker.calls.Sound
  integrity : Integrity worker
  single : ∀ call c dialog dialog', worker.calls.heap.cells call = some c → some dialog ∈ c.dialog.items →
    some dialog' ∈ c.dialog.items → dialog = dialog'

/-- The dialog, and the call, that go with a deleted transaction. -/
def TakesDialog (worker : worker_thread_t) (t : sip_transaction_t) (dialog : Nat) : Prop :=
  t.dialog = some dialog ∧ ∃ d, worker.dialogs.heap.cells dialog = some d ∧ d.state = .TERMINATED

def TakesCall (worker : worker_thread_t) (t : sip_transaction_t) (call : Nat) : Prop :=
  ∃ dialog d c, TakesDialog worker t dialog ∧ worker.dialogs.heap.cells dialog = some d ∧ d.call = some call ∧
    worker.calls.heap.cells call = some c ∧ c.state = .TERMINATED

/-- What a deletion does to the records. Those it does not name keep their contents, and no
list changes its order. -/
structure Effect (before after : worker_thread_t) (transaction : Nat) (t : sip_transaction_t) : Prop where
  order : after.transactions.list = before.transactions.list.erase transaction ∧
    after.dialogs.list.Sublist before.dialogs.list ∧ after.calls.list.Sublist before.calls.list
  removed : after.transactions.heap.cells transaction = none
  disbanded : ∀ a u dialog, a ≠ transaction → before.transactions.heap.cells a = some u → u.dialog = some dialog →
    TakesDialog before t dialog → after.transactions.heap.cells a = some { u with dialog := none, state := .TERMINATED }
  kept : ∀ a u, a ≠ transaction → before.transactions.heap.cells a = some u →
    (∀ dialog, u.dialog = some dialog → ¬ TakesDialog before t dialog) → after.transactions.heap.cells a = some u
  dialog_removed : ∀ dialog, TakesDialog before t dialog → after.dialogs.heap.cells dialog = none
  dialog_kept : ∀ dialog d, before.dialogs.heap.cells dialog = some d → ¬ TakesDialog before t dialog →
    after.dialogs.heap.cells dialog = some (if t.dialog = some dialog then
      { d with transaction := d.transaction.remove transaction } else d)
  call_removed : ∀ call, TakesCall before t call → after.calls.heap.cells call = none
  call_left : ∀ call c dialog d, before.calls.heap.cells call = some c → ¬ TakesCall before t call →
    TakesDialog before t dialog → before.dialogs.heap.cells dialog = some d → d.call = some call →
    after.calls.heap.cells call = some { c with dialog := c.dialog.remove dialog }
  call_kept : ∀ call c, before.calls.heap.cells call = some c →
    (∀ dialog d, TakesDialog before t dialog → before.dialogs.heap.cells dialog = some d → d.call ≠ some call) →
    after.calls.heap.cells call = some c

/-- The transactions a deletion terminates, in the order in which it does. -/
structure Terminated (worker : worker_thread_t) (transaction : Nat) (t : sip_transaction_t)
    (armers : List (Nat × sip_transaction_t)) : Prop where
  mem : ∀ a u, (a, u) ∈ armers ↔ a ≠ transaction ∧ worker.transactions.heap.cells a = some u ∧
    u.state ≠ .TERMINATED ∧ ∃ dialog, u.dialog = some dialog ∧ TakesDialog worker t dialog
  once : (armers.map (·.1)).Nodup

/-- What a step does with the delete event of a transaction that is found. Each transaction it
terminates gets one new timer where its event can be allocated, and no other does. -/
structure DeleteEffect (m m' : Machine) (transaction : Nat) (t : sip_transaction_t) : Prop where
  worker : Effect m.worker m'.worker transaction t
  messages : m'.freed = m.freed ++ messages_of t
  sent : m'.sent = m.sent
  timers : ∃ armers adds, Terminated m.worker transaction t armers ∧ m'.timers = m.timers ++ adds ∧
    (∀ i a u, armers[i]? = some (a, u) → (adds.countP fun add => add.event.owner == a) =
      if m.env.malloc i = true then 1 else 0) ∧
    ∀ add ∈ adds, add.initial_ms = SIP_TRANSACTION_DELETE_TIMEOUT ∧ add.callback = .transaction_delete_timeout ∧
      ∃ u serial, (add.event.owner, u) ∈ armers ∧ add.event = delete_event serial add.event.owner u

theorem Closed.linkage {worker : worker_thread_t} (h : Closed worker) : Linkage worker ∧ Links worker := by
  obtain ⟨htransactions, hdialogs, hcalls, hintegrity, hsingle⟩ := h
  have hslots : ∀ {dialog d a}, worker.dialogs.heap.cells dialog = some d → 0 < d.transaction.count a →
      ∃ t, worker.transactions.heap.cells a = some t ∧ t.dialog = some dialog := by
    intro dialog d a hd hpos
    exact (hintegrity.dialog_transaction dialog d a (hdialogs.mem hd) hd (Slots.count_pos_iff.mp hpos)).2
  have hcall_slots : ∀ {call c dialog}, worker.calls.heap.cells call = some c → 0 < c.dialog.count dialog →
      ∃ d, worker.dialogs.heap.cells dialog = some d ∧ d.call = some call := by
    intro call c dialog hc hpos
    exact (hintegrity.call_dialog call c dialog (hcalls.mem hc) hc (Slots.count_pos_iff.mp hpos)).2
  have hlinks : Links worker := fun a t dialog ht hdialog =>
    (hintegrity.transaction_dialog a t dialog (htransactions.mem ht) ht hdialog).2
  have hcall : ∀ {dialog d call}, worker.dialogs.heap.cells dialog = some d → d.call = some call →
      ∃ c, worker.calls.heap.cells call = some c ∧ c.dialog.count dialog = 1 := fun {dialog d call} hd hcall =>
    (hintegrity.dialog_call dialog d call (hdialogs.mem hd) hd hcall).2
  refine ⟨⟨htransactions, hdialogs, hcalls, fun hd hpos => ?_, hcall, fun hc hpos => ?_, fun hc hpos hpos' =>
    hsingle _ _ _ _ hc (Slots.count_pos_iff.mp hpos) (Slots.count_pos_iff.mp hpos')⟩, hlinks⟩
  · obtain ⟨t, ht, hdialog⟩ := hslots hd hpos
    obtain ⟨d', hd', hone⟩ := hlinks _ _ _ ht hdialog
    rw [hd, Option.some.injEq] at hd'
    exact ⟨hd' ▸ hone, t, ht, hdialog⟩
  · obtain ⟨d, hd, hof⟩ := hcall_slots hc hpos
    obtain ⟨c', hc', hone⟩ := hcall hd hof
    rw [hc, Option.some.injEq] at hc'
    exact ⟨hc' ▸ hone, d, hd, hof⟩

theorem Linkage.closed {worker : worker_thread_t} (h : Linkage worker) (hlinks : Links worker) : Closed worker where
  transactions := h.transactions
  dialogs := h.dialogs
  calls := h.calls
  integrity := h.integrity hlinks
  single _ _ _ _ hc hmem hmem' := h.single hc (Slots.count_pos_iff.mpr hmem) (Slots.count_pos_iff.mpr hmem')

theorem mem_deletions {env : Environment} {serial : Nat} {armers : List (Nat × sip_transaction_t)} {add : TimerAdd}
    (h : add ∈ deletions env serial armers) :
    add.initial_ms = SIP_TRANSACTION_DELETE_TIMEOUT ∧ add.callback = .transaction_delete_timeout ∧
      ∃ u serial, (add.event.owner, u) ∈ armers ∧ add.event = delete_event serial add.event.owner u := by
  induction armers generalizing env serial with
  | nil => cases h
  | cons armer armers ih =>
    have hrest : ∀ {env serial}, add ∈ deletions env serial armers →
        add.initial_ms = SIP_TRANSACTION_DELETE_TIMEOUT ∧ add.callback = .transaction_delete_timeout ∧
          ∃ u serial, (add.event.owner, u) ∈ armer :: armers ∧ add.event = delete_event serial add.event.owner u := by
      intro env serial hmem
      obtain ⟨hms, hcallback, u, serial', hu, hevent⟩ := ih hmem
      exact ⟨hms, hcallback, u, serial', List.mem_cons_of_mem _ hu, hevent⟩
    obtain ⟨owner, u⟩ := armer
    simp only [deletions] at h
    split at h
    · exact hrest h
    · rcases List.mem_cons.mp h with rfl | hmem
      · exact ⟨rfl, rfl, u, serial, List.mem_cons_self, rfl⟩
      · exact hrest hmem

/-- Each transaction takes the allocator's answer in its turn. -/
theorem count_deletions {env : Environment} {serial : Nat} {armers : List (Nat × sip_transaction_t)}
    (honce : (armers.map (·.1)).Nodup) {i a : Nat} {u : sip_transaction_t} (h : armers[i]? = some (a, u)) :
    ((deletions env serial armers).countP fun add => add.event.owner == a) = if env.malloc i = true then 1 else 0 := by
  induction armers generalizing env serial i with
  | nil => cases h
  | cons armer armers ih =>
    obtain ⟨owner, v⟩ := armer
    rw [List.map_cons, List.nodup_cons] at honce
    cases i with
    | zero =>
      obtain ⟨rfl, rfl⟩ := Prod.mk.inj (Option.some.inj h)
      have hnone : ∀ env serial, ((deletions env serial armers).countP fun add => add.event.owner == owner) = 0 := by
        intro env serial
        refine List.countP_eq_zero.mpr fun add hadd howner => honce.1 ?_
        obtain ⟨-, -, w, -, hw, -⟩ := mem_deletions hadd
        rw [beq_iff_eq] at howner
        exact List.mem_map.mpr ⟨_, hw, howner⟩
      simp only [deletions]
      cases halloc : env.malloc 0 with
      | false => simp [hnone]
      | true => simp [hnone, delete_event]
    | succ i =>
      rw [List.getElem?_cons_succ] at h
      have hmem : a ∈ armers.map (·.1) := List.mem_map.mpr ⟨_, List.mem_of_getElem? h, rfl⟩
      have hne : owner ≠ a := by
        rintro rfl
        exact honce.1 hmem
      simp only [deletions]
      cases halloc : env.malloc 0 with
      | false =>
        rw [if_pos rfl]
        exact ih honce.2 h
      | true =>
        rw [if_neg (by decide), List.countP_cons, ih honce.2 h]
        simp [delete_event, hne]

section

variable {before after : worker_thread_t} {transaction : Nat} {t : sip_transaction_t}
  {armers : List (Nat × sip_transaction_t)}

private theorem takes_iff {dialog : Nat} {d : sip_dialog_t} (hdialog : t.dialog = some dialog)
    (hd : before.dialogs.heap.cells dialog = some d) (other : Nat) :
    TakesDialog before t other ↔ other = dialog ∧ d.state = .TERMINATED := by
  constructor
  · rintro ⟨hother, d', hd', hstate⟩
    rw [hdialog, Option.some.injEq] at hother
    subst hother
    rw [hd, Option.some.injEq] at hd'
    exact ⟨rfl, hd' ▸ hstate⟩
  · rintro ⟨rfl, hstate⟩
    exact ⟨hdialog, d, hd, hstate⟩

private theorem not_takesCall (h : ∀ dialog, ¬ TakesDialog before t dialog) (call : Nat) :
    ¬ TakesCall before t call := by
  rintro ⟨dialog, d, c, htakes, -⟩
  exact h dialog htakes

/-- A deletion that takes no dialog along. -/
private theorem effect_of_no_dialog (hnone : ∀ dialog, ¬ TakesDialog before t dialog)
    (hdialogs : after.dialogs.list.Sublist before.dialogs.list)
    (htransactions : after.transactions = before.transactions.remove transaction) (hcalls : after.calls = before.calls)
    (hkept : ∀ dialog d, before.dialogs.heap.cells dialog = some d → after.dialogs.heap.cells dialog =
      some (if t.dialog = some dialog then { d with transaction := d.transaction.remove transaction } else d)) :
    Effect before after transaction t where
  order := ⟨by rw [htransactions]; rfl, hdialogs, hcalls ▸ .refl _⟩
  removed := by rw [htransactions, Store.cells_remove, if_pos rfl]
  disbanded _ _ dialog _ _ _ htakes := absurd htakes (hnone dialog)
  kept a u hne hu _ := by rw [htransactions, Store.cells_remove, if_neg hne, hu]
  dialog_removed dialog htakes := absurd htakes (hnone dialog)
  dialog_kept dialog d hd _ := hkept dialog d hd
  call_removed call htakes := absurd htakes (not_takesCall hnone call)
  call_left _ _ dialog _ _ _ htakes := absurd htakes (hnone dialog)
  call_kept call c hc _ := by rw [hcalls, hc]

private theorem list_end_call (calls : Store sip_call_t) (dialog : Nat) (call : Option Nat) :
    (end_call calls dialog call).list.Sublist calls.list := by
  cases call with
  | none => exact .refl _
  | some a =>
    cases hc : calls.heap.cells a with
    | none => simp [end_call, hc]
    | some c =>
      simp only [end_call, leave, hc]
      split
      · exact List.erase_sublist
      · exact .refl _

/-- The slots that are left of a dialog hold its other transactions. -/
private theorem mem_slots_iff (h : Linkage before) (hlinks : Links before) {dialog : Nat} {d : sip_dialog_t}
    (hd : before.dialogs.heap.cells dialog = some d) {a : Nat} {u : sip_transaction_t} (hne : a ≠ transaction)
    (hu : before.transactions.heap.cells a = some u) :
    some a ∈ (d.transaction.remove transaction).items ↔ u.dialog = some dialog := by
  rw [← Slots.count_pos_iff, Slots.count_remove, if_neg hne, Nat.sub_zero]
  constructor
  · intro hpos
    obtain ⟨-, v, hv, hpoints⟩ := h.slot hd hpos
    rw [hu, Option.some.injEq] at hv
    exact hv ▸ hpoints
  · intro hpoints
    obtain ⟨e, he, hone⟩ := hlinks a u dialog hu hpoints
    rw [hd, Option.some.injEq] at he
    rw [he, hone]
    exact Nat.one_pos

theorem Removed.effect (h : Removed before transaction t armers after) (hbefore : Linkage before)
    (hlinks : Links before) : Effect before after transaction t := by
  cases h with
  | alone hdialog hafter _ =>
    have hnone : ∀ dialog, ¬ TakesDialog before t dialog := by
      rintro dialog ⟨hof, -⟩
      rw [hdialog] at hof
      cases hof
    rw [hafter]
    exact effect_of_no_dialog hnone (.refl _) rfl rfl fun dialog d hd => by rw [if_neg (by simp [hdialog])]; exact hd
  | @left dialog d hdialog hd hstate hafter _ =>
    have hnone : ∀ other, ¬ TakesDialog before t other := fun other htakes =>
      hstate ((takes_iff hdialog hd other).mp htakes).2
    rw [hafter]
    refine effect_of_no_dialog hnone (.refl _) rfl rfl fun other e he => ?_
    rw [Store.heap_set, Heap.cells_set hd]
    by_cases hother : other = dialog
    · subst hother
      rw [hd, Option.some.injEq] at he
      rw [if_pos rfl, if_pos hdialog, he]
    · rw [if_neg hother, if_neg fun hsame => hother (Option.some.inj (hdialog.symm.trans hsame)).symm, he]
  | @ended dialog d hdialog hd hstate hafter _ =>
    have htakes : ∀ other, TakesDialog before t other ↔ other = dialog := fun other => by
      rw [takes_iff hdialog hd, and_iff_left hstate]
    have hcells : ∀ {a u}, a ≠ transaction → before.transactions.heap.cells a = some u →
        after.transactions.heap.cells a = some (if u.dialog = some dialog then orphaned u else u) := by
      intro a u hne hu
      rw [hafter, Store.cells_map, Store.cells_remove, if_neg hne, hu, Option.map_some, disband]
      simp only [mem_slots_iff hbefore hlinks hd hne hu]
    have htakes_call : ∀ call, TakesCall before t call ↔
        d.call = some call ∧ ∃ c, before.calls.heap.cells call = some c ∧ c.state = .TERMINATED := by
      intro call
      constructor
      · rintro ⟨other, e, c, hother, he, hcall, hc⟩
        rw [htakes] at hother
        subst hother
        rw [hd, Option.some.injEq] at he
        exact ⟨he ▸ hcall, c, hc⟩
      · rintro ⟨hcall, c, hc⟩
        exact ⟨dialog, d, c, (htakes dialog).mpr rfl, hd, hcall, hc⟩
    have hcalls : after.calls = end_call before.calls dialog d.call := by rw [hafter]
    constructor
    · rw [hafter]
      exact ⟨rfl, List.erase_sublist, list_end_call _ _ _⟩
    · rw [hafter, Store.cells_map, Store.cells_remove, if_pos rfl]
      rfl
    · intro a u other hne hu hpoints hother
      rw [htakes] at hother
      subst hother
      rw [hcells hne hu, if_pos hpoints]
      rfl
    · intro a u hne hu hout
      rw [hcells hne hu, if_neg fun hpoints => hout dialog hpoints ((htakes dialog).mpr rfl)]
    · intro other hother
      rw [htakes] at hother
      rw [hafter, Store.cells_remove, if_pos hother]
    · intro other e he hout
      rw [htakes] at hout
      rw [hafter, Store.cells_remove, if_neg hout, he, if_neg]
      intro hsame
      exact hout (Option.some.inj (hdialog.symm.trans hsame)).symm
    · intro call hcall
      obtain ⟨hof, c, hc, hended⟩ := (htakes_call call).mp hcall
      rw [hcalls, hof, cells_end_call_self hc, if_pos hended]
    · intro call c other e hc hout hother he hof
      rw [htakes] at hother
      subst hother
      rw [hd, Option.some.injEq] at he
      subst he
      rw [hcalls, hof, cells_end_call_self hc, if_neg fun hended => hout ((htakes_call call).mpr ⟨hof, c, hc, hended⟩)]
    · intro call c hc hout
      rw [hcalls, cells_end_call_of_ne (hout dialog d ((htakes dialog).mpr rfl) hd), hc]

end

/-- The transactions that are terminated are those in the slots of the dialog that goes. -/
private theorem Removed.terminated {before after : worker_thread_t} {transaction : Nat} {t : sip_transaction_t}
    {armers : List (Nat × sip_transaction_t)} (h : Removed before transaction t armers after) (hbefore : Linkage before)
    (hlinks : Links before) : Terminated before transaction t armers := by
  have hnobody : (∀ dialog, ¬ TakesDialog before t dialog) → Terminated before transaction t [] := by
    intro hnone
    refine ⟨fun a u => ⟨fun hmem => absurd hmem List.not_mem_nil, ?_⟩, List.nodup_nil⟩
    rintro ⟨-, -, -, dialog, -, htakes⟩
    exact absurd htakes (hnone dialog)
  cases h with
  | alone hdialog _ harmers =>
    rw [harmers]
    refine hnobody ?_
    rintro dialog ⟨hof, -⟩
    rw [hdialog] at hof
    cases hof
  | left hdialog hd hstate _ harmers =>
    rw [harmers]
    exact hnobody fun other htakes => hstate ((takes_iff hdialog hd other).mp htakes).2
  | @ended dialog d hdialog hd hstate _ harmers =>
    refine ⟨fun a u => ?_, harmers.nodup⟩
    rw [harmers.mem, Store.cells_remove]
    by_cases hne : a = transaction
    · simp [hne]
    · rw [if_neg hne]
      constructor
      · rintro ⟨hmem, hu, hlives⟩
        exact ⟨hne, hu, hlives, dialog, (mem_slots_iff hbefore hlinks hd hne hu).mp hmem,
          (takes_iff hdialog hd dialog).mpr ⟨rfl, hstate⟩⟩
      · rintro ⟨-, hu, hlives, other, hpoints, htakes⟩
        obtain ⟨rfl, -⟩ := (takes_iff hdialog hd other).mp htakes
        exact ⟨(mem_slots_iff hbefore hlinks hd hne hu).mpr hpoints, hu, hlives⟩

/-- A delete event whose branch leads to no transaction changes nothing. Any other one deletes
what it leads to, with what goes along, and leaves everything else as it was and the links
closed. -/
theorem delete_event_effect (m : Machine) (h : Closed m.worker) (event : transaction_delete_t) :
    ∃ found, find_transaction_by_id m.worker.transactions (some event.branch.bytes) event.branch_length = ok found ∧
      match found with
      | none => delete_transaction m event = ok m
      | some transaction => ∃ t m', m.worker.transactions.heap.cells transaction = some t ∧
        delete_transaction m event = ok m' ∧ DeleteEffect m m' transaction t ∧ Closed m'.worker := by
  obtain ⟨hlinkage, hlinks⟩ := h.linkage
  have hmissing : find_transaction_by_id m.worker.transactions (some event.branch.bytes) event.branch_length = ok none →
      delete_transaction m event = ok m := by
    intro hfind
    rw [delete_transaction, hfind]
    rfl
  by_cases hlength : event.branch_length = 0
  · have hfind : find_transaction_by_id m.worker.transactions (some event.branch.bytes) event.branch_length =
        ok none := by simp [find_transaction_by_id, hlength]
    exact ⟨none, hfind, hmissing hfind⟩
  · have hfind := find_transaction_by_id_eq hlinkage.transactions event.branch.bytes hlength
    refine ⟨_, hfind, ?_⟩
    cases hfound : m.worker.transactions.first (matches_branch event.branch.bytes event.branch_length) with
    | none => exact hmissing (hfound ▸ hfind)
    | some transaction =>
      rw [hfound] at hfind
      obtain ⟨-, t, hcell, -⟩ := Store.first_eq_some hfound
      have hends := delete_found_spec hlinkage hfind hcell
      cases hrun : delete_transaction m event with
      | error fault => exact absurd (hends.of_eq_error hrun) hlinks.not_dangling
      | ok m' =>
        obtain ⟨armers, adds, hdeletion, hadds⟩ := hends.of_eq_ok hrun
        have hterminated := hdeletion.removed.terminated hlinkage hlinks
        refine ⟨t, m', hcell, rfl, ⟨hdeletion.removed.effect hlinkage hlinks, hdeletion.freed, hdeletion.sent, armers,
          adds, hterminated, hdeletion.timers, fun i a u hi => ?_, fun add hadd => ?_⟩,
          (hdeletion.removed.linkage hlinkage hcell).closed (hdeletion.removed.links hlinks)⟩
        · rw [hadds]
          exact count_deletions hterminated.once hi
        · rw [hadds] at hadd
          exact mem_deletions hadd

/-- The transactions of the list that have a dialog are in one slot of it. -/
def links_hold (worker : worker_thread_t) : Bool :=
  worker.transactions.list.all fun a => (worker.transactions.heap.cells a).all fun t => t.dialog.all fun dialog =>
    (worker.dialogs.heap.cells dialog).any fun d => d.transaction.count a == 1

theorem closed_of_links_hold {run : Run} (h : program.Reachable run) (hcheck : links_hold run.worker = true) :
    Closed run.worker := by
  have hworker := Reachable.wellFormed h
  refine hworker.toLinkage.closed fun a t dialog ht hdialog => ?_
  have hone := List.all_eq_true.mp hcheck a (hworker.transactions.mem ht)
  rw [ht, Option.all_some, hdialog, Option.all_some] at hone
  cases hd : run.worker.dialogs.heap.cells dialog with
  | none => simp [hd] at hone
  | some d => exact ⟨d, rfl, by simpa [hd] using hone⟩

/-- An allocator that has nothing left. -/
def Environment.exhausted : Environment := { Environment.obliging with malloc := fun _ => false }

/-- The failure of an INVITE has terminated its dialog, in which a BYE then got a 403. The
deletion of the BYE arms no timer when the allocator is exhausted. -/
def failed_and_refused (run : Run) : Bool :=
  links_hold run.worker &&
    decide ((run.worker.transactions.heap.cells 0).map (fun t => (t.dialog, t.state)) = some (some 0, .COMPLETED)) &&
    decide ((run.worker.transactions.heap.cells 1).map (·.dialog) = some (some 0)) &&
    decide ((run.worker.dialogs.heap.cells 0).map (·.state) = some .TERMINATED) &&
    decide ((find_transaction_by_id run.worker.transactions (some bye_event.branch.bytes) 8).toOption =
      some (some 1)) &&
    decide ((delete_transaction (run.start .exhausted) bye_event).toOption.map (·.timers) = some [])

private theorem failed_and_refused_run :
    (program.follow Run.started [arrival first_invite .cut_off, arrival first_bye .obliging]).map failed_and_refused =
      some true := by
  decide +kernel

/-- A worker with an INVITE that failed and a BYE that was refused, in a dialog that is over. -/
private theorem refused_bye : ∃ run : Run, Closed run.worker ∧
    (∃ t, run.worker.transactions.heap.cells 0 = some t ∧ t.dialog = some 0 ∧ t.state = .COMPLETED) ∧
    (∃ t, run.worker.transactions.heap.cells 1 = some t ∧ t.dialog = some 0 ∧ TakesDialog run.worker t 0) ∧
    find_transaction_by_id run.worker.transactions (some bye_event.branch.bytes) 8 = ok (some 1) ∧
    ∃ m', delete_transaction (run.start .exhausted) bye_event = ok m' ∧ m'.timers = [] := by
  obtain ⟨run, hrun, hfacts⟩ := Option.map_eq_some_iff.mp failed_and_refused_run
  simp only [failed_and_refused, Bool.and_eq_true, Option.map_eq_some_iff, decide_eq_true_eq, Prod.mk.injEq] at hfacts
  obtain ⟨⟨⟨⟨⟨hcheck, t, ht, hdialog, hstate⟩, u, hu, hof⟩, d, hd, hended⟩, hfind⟩, m', hdeleted, htimers⟩ := hfacts
  exact ⟨run, closed_of_links_hold (reachable_of_follow hrun) hcheck, ⟨t, ht, hdialog, hstate⟩,
    ⟨u, hu, hof, hof, d, hd, hended⟩, eq_ok_of_toOption hfind, m', eq_ok_of_toOption hdeleted, htimers⟩

/-- The BYE's transaction is deleted, and takes the dialog along. -/
theorem bye_deletion : ∃ (m : Machine) (t : sip_transaction_t) (m' : Machine), Closed m.worker ∧
    m.worker.transactions.heap.cells 1 = some t ∧ delete_transaction m bye_event = ok m' ∧
    DeleteEffect m m' 1 t ∧ Closed m'.worker := by
  obtain ⟨run, hclosed, -, -, hfind, -⟩ := refused_bye
  obtain ⟨found, hfound, heffect⟩ := delete_event_effect (run.start .obliging) hclosed bye_event
  obtain rfl : found = some 1 := by
    have hsame := hfound.symm.trans hfind
    exact Except.ok.inj hsame
  obtain ⟨t, m', ht, hdeleted, heffect, hafter⟩ := heffect
  exact ⟨run.start .obliging, t, m', hclosed, ht, hdeleted, heffect, hafter⟩

/-- The INVITE's transaction, which was not terminated, gets no new timer when its delete
event cannot be allocated. -/
theorem deletion_not_armed :
    ¬ ∀ (m m' : Machine) (event : transaction_delete_t) (transaction a : Nat) (t u : sip_transaction_t) (dialog : Nat),
      Closed m.worker →
      find_transaction_by_id m.worker.transactions (some event.branch.bytes) event.branch_length =
        ok (some transaction) →
      m.worker.transactions.heap.cells transaction = some t → delete_transaction m event = ok m' →
      a ≠ transaction → m.worker.transactions.heap.cells a = some u → u.dialog = some dialog →
      TakesDialog m.worker t dialog → u.state ≠ .TERMINATED →
      ((m'.timers.drop m.timers.length).countP fun add => add.event.owner == a) = 1 := by
  intro hall
  obtain ⟨run, hclosed, ⟨u, hu, hdialog, hstate⟩, ⟨t, ht, -, htakes⟩, hfind, m', hdeleted, htimers⟩ := refused_bye
  have hone := hall (run.start .exhausted) m' bye_event 1 0 t u 0 hclosed hfind ht hdeleted (by decide) hu hdialog
    htakes (by rw [hstate]; decide)
  rw [htimers] at hone
  simp at hone

end mock_uas.sip_server
