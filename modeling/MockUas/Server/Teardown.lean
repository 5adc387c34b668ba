import Mathlib.Data.List.Basic
import MockUas.Server.Links
import MockUas.Server.Ownership

open clib
open mock_uas.sip_message
open mock_uas.sip_server

namespace mock_uas.sip_utils

/-- The loop of a `delete_all_*` function, which reads the `next` of a node before it cleans the
node up. -/
def cleanup_all {A : Type} (heap : Machine → Heap A) (cleanup : Machine → Nat → Result Machine) (m : Machine) :
    List Nat → Result Machine
  | [] => ok m
  | current :: nodes => do
    let _ ← (heap m).read current
    let m ← cleanup m current
    cleanup_all heap cleanup m nodes

def delete_all_calls (m : Machine) : Result Machine := do
  let m ← cleanup_all (fun m => m.worker.calls.heap) cleanup_call m m.worker.calls.list
  ok (m.with_calls { m.worker.calls with list := [] })

def delete_all_dialogs (m : Machine) : Result Machine := do
  let m ← cleanup_all (fun m => m.worker.dialogs.heap) cleanup_dialog m m.worker.dialogs.list
  ok (m.with_dialogs { m.worker.dialogs with list := [] })

def delete_all_transactions (m : Machine) : Result Machine := do
  let m ← cleanup_all (fun m => m.worker.transactions.heap) cleanup_transaction m m.worker.transactions.list
  ok (m.with_transactions { m.worker.transactions with list := [] })

/-- The three kinds of records. -/
inductive Kind where
  | calls
  | dialogs
  | transactions
  deriving DecidableEq

/-- The `delete_all_*` functions, called one after the other. -/
def delete_all (m : Machine) : List Kind → Result Machine
  | [] => ok m
  | .calls :: kinds => do delete_all (← delete_all_calls m) kinds
  | .dialogs :: kinds => do delete_all (← delete_all_dialogs m) kinds
  | .transactions :: kinds => do delete_all (← delete_all_transactions m) kinds

end mock_uas.sip_utils

namespace mock_uas.sip_server

open mock_uas.sip_utils

/-- The links between the records of a worker lead both ways. -/
structure Paired (worker : worker_thread_t) : Prop where
  transaction : ∀ {a t dialog}, worker.transactions.heap.cells a = some t → t.dialog = some dialog →
    ∃ d, worker.dialogs.heap.cells dialog = some d ∧ d.transaction.count a = 1
  slot : ∀ {dialog d a}, worker.dialogs.heap.cells dialog = some d → 0 < d.transaction.count a →
    ∃ t, worker.transactions.heap.cells a = some t ∧ t.dialog = some dialog
  call : ∀ {dialog d call}, worker.dialogs.heap.cells dialog = some d → d.call = some call →
    ∃ c, worker.calls.heap.cells call = some c ∧ c.dialog.count dialog = 1
  dialog : ∀ {call c dialog}, worker.calls.heap.cells call = some c → 0 < c.dialog.count dialog →
    ∃ d, worker.dialogs.heap.cells dialog = some d ∧ d.call = some call

theorem WellFormed.paired {worker : worker_thread_t} (h : WellFormed worker) (hlinks : Links worker) :
    Paired worker where
  transaction ht hdialog := hlinks _ _ _ ht hdialog
  slot hd hpos := (h.slot hd hpos).2
  call := h.call
  dialog hc hpos := (h.dialog hc hpos).2

def Live (worker : worker_thread_t) (a : Nat) : Kind → Prop
  | .calls => (worker.calls.heap.cells a).isSome
  | .dialogs => (worker.dialogs.heap.cells a).isSome
  | .transactions => (worker.transactions.heap.cells a).isSome

def nodes_of (worker : worker_thread_t) : Kind → List Nat
  | .calls => worker.calls.list
  | .dialogs => worker.dialogs.list
  | .transactions => worker.transactions.list

/-- The messages that a transaction holds. -/
def messages_at (worker : worker_thread_t) (a : Nat) : List Nat :=
  ((worker.transactions.heap.cells a).map messages_of).getD []

/-- What the cleanup of one record does. -/
structure Cleans (kind : Kind) (m m' : Machine) (a : Nat) : Prop where
  paired : Paired m'.worker
  live : ∀ b other, Live m'.worker b other ↔ Live m.worker b other ∧ ¬ (other = kind ∧ b = a)
  nodes : ∀ other, nodes_of m'.worker other = nodes_of m.worker other
  messages : ∀ b, (kind = .transactions → b ≠ a) → messages_at m'.worker b = messages_at m.worker b
  freed : m'.freed = m.freed ++ if kind = .transactions then messages_at m.worker a else []

private theorem isSome_free {A : Type} (heap : Heap A) (a b : Nat) :
    ((heap.free a).cells b).isSome = true ↔ (heap.cells b).isSome = true ∧ b ≠ a := by
  rw [Heap.cells_free]
  split
  · rename_i hb
    exact ⟨fun hn => (by cases hn), fun hand => absurd hb hand.2⟩
  · rename_i hb
    exact ⟨fun hsome => ⟨hsome, hb⟩, And.left⟩

/-- One record goes. -/
private theorem live_iff {worker worker' : worker_thread_t} {kind : Kind} {a : Nat}
    (hkind : ∀ b, Live worker' b kind ↔ Live worker b kind ∧ b ≠ a)
    (hothers : ∀ b other, other ≠ kind → (Live worker' b other ↔ Live worker b other)) (b : Nat) (other : Kind) :
    Live worker' b other ↔ Live worker b other ∧ ¬ (other = kind ∧ b = a) := by
  by_cases hother : other = kind
  · subst hother
    rw [hkind]
    exact and_congr_right fun _ => ⟨fun hne hn => hne hn.2, fun hn hb => hn ⟨rfl, hb⟩⟩
  · rw [hothers b other hother]
    exact ⟨fun hlive => ⟨hlive, fun hn => hother hn.1⟩, And.left⟩

/-- The links once a transaction has left its dialog and is freed. -/
private theorem Paired.without_transaction {worker : worker_thread_t} (h : Paired worker) {a : Nat}
    {t : sip_transaction_t} (ht : worker.transactions.heap.cells a = some t) {dialogs : Store sip_dialog_t}
    (hdialogs : ∀ b, dialogs.heap.cells b = (worker.dialogs.heap.cells b).map fun d =>
      if t.dialog = some b then { d with transaction := d.transaction.remove a } else d) :
    Paired { worker with
      dialogs := dialogs
      transactions := { worker.transactions with heap := worker.transactions.heap.free a } } where
  transaction {b u dialog} hu hdialog := by
    change (worker.transactions.heap.free a).cells b = some u at hu
    rw [Heap.cells_free] at hu
    split at hu
    · cases hu
    · rename_i hb
      obtain ⟨d, hd, hone⟩ := h.transaction hu hdialog
      refine ⟨_, by rw [hdialogs, hd, Option.map_some], ?_⟩
      split
      · rw [Slots.count_remove, if_neg hb, hone]
      · exact hone
  slot {dialog d b} hd hpos := by
    rw [hdialogs] at hd
    obtain ⟨e, he, rfl⟩ := Option.map_eq_some_iff.mp hd
    have hpos' : 0 < e.transaction.count b ∧ b ≠ a := by
      split at hpos
      · rename_i hdialog
        obtain ⟨e', he', hone⟩ := h.transaction ht hdialog
        obtain rfl := Option.some.inj (he.symm.trans he')
        rw [Slots.count_remove] at hpos
        refine ⟨by omega, ?_⟩
        rintro rfl
        rw [if_pos rfl, hone] at hpos
        omega
      · rename_i hdialog
        refine ⟨hpos, ?_⟩
        rintro rfl
        obtain ⟨u, hu, hback⟩ := h.slot he hpos
        obtain rfl := Option.some.inj (ht.symm.trans hu)
        exact hdialog hback
    obtain ⟨u, hu, hback⟩ := h.slot he hpos'.1
    exact ⟨u, by rw [← hu]; exact Heap.cells_free_of_ne hpos'.2, hback⟩
  call {dialog d call} hd hcall := by
    rw [hdialogs] at hd
    obtain ⟨e, he, rfl⟩ := Option.map_eq_some_iff.mp hd
    refine h.call he ?_
    split at hcall <;> exact hcall
  dialog {call c dialog} hc hpos := by
    obtain ⟨d, hd, hcall⟩ := h.dialog hc hpos
    refine ⟨_, by rw [hdialogs, hd, Option.map_some], ?_⟩
    split <;> exact hcall

private theorem messages_at_of_cells {worker : worker_thread_t} {a : Nat} {t : sip_transaction_t}
    (ht : worker.transactions.heap.cells a = some t) : messages_at worker a = messages_of t := by
  unfold messages_at
  rw [ht]
  rfl

private theorem cleans_transaction {m : Machine} {a : Nat} {t : sip_transaction_t}
    (ht : m.worker.transactions.heap.cells a = some t) (dialogs : Store sip_dialog_t)
    (hlist : dialogs.list = m.worker.dialogs.list)
    (hlive : ∀ b, (dialogs.heap.cells b).isSome = (m.worker.dialogs.heap.cells b).isSome)
    (hpaired : Paired { m.worker with
      dialogs := dialogs
      transactions := { m.worker.transactions with heap := m.worker.transactions.heap.free a } }) :
    Cleans .transactions m
      ({ m.with_dialogs dialogs with freed := m.freed ++ messages_of t }.free_transaction a) a where
  paired := hpaired
  live := by
    refine live_iff (isSome_free m.worker.transactions.heap a) fun b other hother => ?_
    cases other with
    | calls => exact .rfl
    | dialogs => exact iff_of_eq (congrArg (· = true) (hlive b))
    | transactions => exact absurd rfl hother
  nodes other := by
    cases other with
    | dialogs => exact hlist
    | _ => rfl
  messages b hb := by
    change ((m.worker.transactions.heap.free a).cells b |>.map messages_of).getD [] = _
    rw [Heap.cells_free_of_ne (hb rfl)]
    rfl
  freed := by
    rw [if_pos rfl, messages_at_of_cells ht]
    rfl

theorem cleanup_transaction_cleans {m : Machine} (h : Paired m.worker) {a : Nat} {t : sip_transaction_t}
    (ht : m.worker.transactions.heap.cells a = some t) :
    ∃ m', cleanup_transaction m a = ok m' ∧ Cleans .transactions m m' a := by
  rw [cleanup_transaction, Machine.transaction_of_cells ht, bind_ok]
  cases hdialog : t.dialog with
  | none =>
    simp only [bind_ok, Machine.transaction_of_cells ht, cleanup_messages]
    refine ⟨_, rfl, cleans_transaction ht m.worker.dialogs rfl (fun _ => rfl) (h.without_transaction ht fun b => ?_)⟩
    simp [hdialog]
  | some dialog =>
    obtain ⟨d, hd, -⟩ := h.transaction ht hdialog
    have hread : ∀ v, (m.set_dialog dialog v).transaction a = ok t := fun _ => Heap.read_of_cells ht
    simp only [remove_transaction_from_dialog, Machine.dialog_of_cells hd, bind_ok, hread, cleanup_messages]
    refine ⟨_, rfl, cleans_transaction ht (m.worker.dialogs.set dialog _) rfl
      (fun _ => Heap.isSome_cells_set _ _ _ _) (h.without_transaction ht fun b => ?_)⟩
    rw [Store.heap_set, Heap.cells_set hd, hdialog]
    split
    · rename_i hb
      rw [hb, hd, Option.map_some, if_pos rfl]
    · rename_i hb
      have hne : some dialog ≠ some b := fun heq => hb (Option.some.inj heq).symm
      simp [hne]

/-- The links once a dialog has let go of its transactions, left its call and is freed. -/
private theorem Paired.without_dialog {worker : worker_thread_t} (h : Paired worker) {dialog : Nat} {d : sip_dialog_t}
    (hd : worker.dialogs.heap.cells dialog = some d) {calls : Store sip_call_t}
    (hcalls : ∀ b, calls.heap.cells b = (worker.calls.heap.cells b).map fun c =>
      if d.call = some b then { c with dialog := c.dialog.remove dialog } else c) :
    Paired { worker with
      calls := calls
      dialogs := { worker.dialogs with heap := worker.dialogs.heap.free dialog }
      transactions := worker.transactions.map (disband d.transaction.items) } where
  transaction {a t' other} ht' hother := by
    change (worker.transactions.heap.cells a).map (disband d.transaction.items a) = some t' at ht'
    obtain ⟨t, ht, rfl⟩ := Option.map_eq_some_iff.mp ht'
    rw [disband] at hother
    split at hother
    · cases hother
    · rename_i hslot
      obtain ⟨e, he, hone⟩ := h.transaction ht hother
      refine ⟨e, (Heap.cells_free_of_ne ?_).trans he, hone⟩
      rintro rfl
      obtain rfl := Option.some.inj (hd.symm.trans he)
      exact hslot (Slots.count_pos_iff.mp (by omega))
  slot {other e a} he hpos := by
    change (worker.dialogs.heap.free dialog).cells other = some e at he
    rw [Heap.cells_free] at he
    split at he
    · cases he
    · rename_i hne
      obtain ⟨t, ht, hback⟩ := h.slot he hpos
      refine ⟨t, ?_, hback⟩
      change (worker.transactions.heap.cells a).map (disband d.transaction.items a) = some t
      rw [ht, Option.map_some, disband, if_neg]
      intro hslot
      obtain ⟨u, hu, hpoints⟩ := h.slot hd (Slots.count_pos_iff.mpr hslot)
      obtain rfl := Option.some.inj (ht.symm.trans hu)
      exact hne (Option.some.inj (hback.symm.trans hpoints))
  call {other e call} he hcall := by
    change (worker.dialogs.heap.free dialog).cells other = some e at he
    rw [Heap.cells_free] at he
    split at he
    · cases he
    · rename_i hne
      obtain ⟨c, hc, hone⟩ := h.call he hcall
      refine ⟨_, by rw [hcalls, hc, Option.map_some], ?_⟩
      split
      · rw [Slots.count_remove, if_neg hne, hone]
      · exact hone
  dialog {call c' other} hc' hpos := by
    rw [hcalls] at hc'
    obtain ⟨c, hc, rfl⟩ := Option.map_eq_some_iff.mp hc'
    have hpos' : 0 < c.dialog.count other ∧ other ≠ dialog := by
      split at hpos
      · rename_i hcall
        obtain ⟨c'', hc'', hone⟩ := h.call hd hcall
        obtain rfl := Option.some.inj (hc.symm.trans hc'')
        rw [Slots.count_remove] at hpos
        refine ⟨by omega, ?_⟩
        rintro rfl
        rw [if_pos rfl, hone] at hpos
        omega
      · rename_i hcall
        refine ⟨hpos, ?_⟩
        rintro rfl
        obtain ⟨e, he, hback⟩ := h.dialog hc hpos
        obtain rfl := Option.some.inj (hd.symm.trans he)
        exact hcall hback
    obtain ⟨e, he, hback⟩ := h.dialog hc hpos'.1
    exact ⟨e, (Heap.cells_free_of_ne hpos'.2).trans he, hback⟩

/-- The messages stay with the transactions that a cleanup disbands. -/
private theorem messages_of_disband (slots : List (Option Nat)) (a : Nat) (t : sip_transaction_t) :
    messages_of (disband slots a t) = messages_of t := by
  rw [disband]
  split <;> rfl

private theorem cleans_dialog {m m' : Machine} {dialog : Nat} {d : sip_dialog_t} (calls : Store sip_call_t)
    (hlist : calls.list = m.worker.calls.list)
    (hlive : ∀ b, (calls.heap.cells b).isSome = (m.worker.calls.heap.cells b).isSome)
    (hworker : m'.worker = { m.worker with
      calls := calls
      dialogs := { m.worker.dialogs with heap := m.worker.dialogs.heap.free dialog }
      transactions := m.worker.transactions.map (disband d.transaction.items) })
    (hpaired : Paired m'.worker) (hfreed : m'.freed = m.freed) : Cleans .dialogs m m' dialog where
  paired := hpaired
  live := by
    rw [hworker]
    refine live_iff (isSome_free m.worker.dialogs.heap dialog) fun b other hother => ?_
    cases other with
    | calls => exact iff_of_eq (congrArg (· = true) (hlive b))
    | dialogs => exact absurd rfl hother
    | transactions => exact iff_of_eq (congrArg (· = true) Option.isSome_map)
  nodes other := by
    rw [hworker]
    cases other with
    | calls => exact hlist
    | _ => rfl
  messages b _ := by
    rw [hworker]
    change (((m.worker.transactions.heap.cells b).map (disband d.transaction.items b)).map messages_of).getD [] = _
    rw [Option.map_map]
    exact congrArg (fun f => ((m.worker.transactions.heap.cells b).map f).getD []) (funext (messages_of_disband _ b))
  freed := by
    rw [hfreed, if_neg fun hn => (by cases hn), List.append_nil]

theorem cleanup_dialog_cleans {m : Machine} (h : Paired m.worker) {dialog : Nat} {d : sip_dialog_t}
    (hd : m.worker.dialogs.heap.cells dialog = some d) :
    ∃ m', cleanup_dialog m dialog = ok m' ∧ Cleans .dialogs m m' dialog := by
  obtain ⟨m₁, armers, adds, heq, hcleaned, -⟩ := cleanup_dialog_slots_spec (m := m) d.transaction.items fun a ha => by
    obtain ⟨t, ht, -⟩ := h.slot hd (Slots.count_pos_iff.mpr ha)
    exact ⟨t, ht⟩
  have hread : m₁.dialog dialog = ok d := by
    rw [Machine.dialog, hcleaned.worker]
    exact Heap.read_of_cells hd
  rw [cleanup_dialog, Machine.dialog_of_cells hd, bind_ok, heq, bind_ok, hread, bind_ok]
  cases hcall : d.call with
  | none =>
    have hworker : (m₁.free_dialog dialog).worker = { m.worker with
        calls := m.worker.calls
        dialogs := { m.worker.dialogs with heap := m.worker.dialogs.heap.free dialog }
        transactions := m.worker.transactions.map (disband d.transaction.items) } := by
      rw [Machine.free_dialog, Machine.with_dialogs, hcleaned.worker]
    refine ⟨_, rfl, cleans_dialog m.worker.calls rfl (fun _ => rfl) hworker ?_ hcleaned.freed⟩
    rw [hworker]
    refine h.without_dialog hd fun b => ?_
    simp [hcall]
  | some call =>
    obtain ⟨c, hc, -⟩ := h.call hd hcall
    have hread_call : m₁.call call = ok c := by
      rw [Machine.call, hcleaned.worker]
      exact Heap.read_of_cells hc
    simp only [remove_dialog_from_call, hread_call, bind_ok]
    have hworker : ((m₁.set_call call { c with dialog := c.dialog.remove dialog }).free_dialog dialog).worker =
        { m.worker with
          calls := m.worker.calls.set call { c with dialog := c.dialog.remove dialog }
          dialogs := { m.worker.dialogs with heap := m.worker.dialogs.heap.free dialog }
          transactions := m.worker.transactions.map (disband d.transaction.items) } := by
      simp only [Machine.free_dialog, Machine.with_dialogs, Machine.set_call, Machine.with_calls, hcleaned.worker]
    refine ⟨_, rfl, cleans_dialog (m.worker.calls.set call _) rfl (fun _ => Heap.isSome_cells_set _ _ _ _) hworker ?_
      hcleaned.freed⟩
    rw [hworker]
    refine h.without_dialog hd fun b => ?_
    rw [Store.heap_set, Heap.cells_set hc, hcall]
    split
    · rename_i hb
      rw [hb, hc, Option.map_some, if_pos rfl]
    · rename_i hb
      have hne : some call ≠ some b := fun heq => hb (Option.some.inj heq).symm
      simp [hne]

/-- The links once a call has let go of its dialogs and is freed. -/
private theorem Paired.without_call {worker : worker_thread_t} (h : Paired worker) {call : Nat} {c : sip_call_t}
    (hc : worker.calls.heap.cells call = some c) :
    Paired { worker with
      calls := { worker.calls with heap := worker.calls.heap.free call }
      dialogs := worker.dialogs.map (abandon c.dialog.items) } where
  transaction {a t dialog} ht hdialog := by
    obtain ⟨d, hd, hone⟩ := h.transaction ht hdialog
    refine ⟨abandon c.dialog.items dialog d, ?_, ?_⟩
    · change (worker.dialogs.heap.cells dialog).map _ = _
      rw [hd, Option.map_some]
    · rw [abandon]
      split <;> exact hone
  slot {dialog d' a} hd' hpos := by
    change (worker.dialogs.heap.cells dialog).map (abandon c.dialog.items dialog) = some d' at hd'
    obtain ⟨d, hd, rfl⟩ := Option.map_eq_some_iff.mp hd'
    refine h.slot hd ?_
    rw [abandon] at hpos
    split at hpos <;> exact hpos
  call {dialog d' other} hd' hother := by
    change (worker.dialogs.heap.cells dialog).map (abandon c.dialog.items dialog) = some d' at hd'
    obtain ⟨d, hd, rfl⟩ := Option.map_eq_some_iff.mp hd'
    rw [abandon] at hother
    split at hother
    · cases hother
    · rename_i hslot
      obtain ⟨e, he, hone⟩ := h.call hd hother
      refine ⟨e, (Heap.cells_free_of_ne ?_).trans he, hone⟩
      rintro rfl
      obtain rfl := Option.some.inj (hc.symm.trans he)
      exact hslot (Slots.count_pos_iff.mp (by omega))
  dialog {other e dialog} he hpos := by
    change (worker.calls.heap.free call).cells other = some e at he
    rw [Heap.cells_free] at he
    split at he
    · cases he
    · rename_i hne
      obtain ⟨d, hd, hback⟩ := h.dialog he hpos
      refine ⟨d, ?_, hback⟩
      change (worker.dialogs.heap.cells dialog).map (abandon c.dialog.items dialog) = some d
      rw [hd, Option.map_some, abandon, if_neg]
      intro hslot
      obtain ⟨d', hd', hpoints⟩ := h.dialog hc (Slots.count_pos_iff.mpr hslot)
      obtain rfl := Option.some.inj (hd.symm.trans hd')
      exact hne (Option.some.inj (hback.symm.trans hpoints))

theorem cleanup_call_cleans {m : Machine} (h : Paired m.worker) {call : Nat} {c : sip_call_t}
    (hc : m.worker.calls.heap.cells call = some c) :
    ∃ m', cleanup_call m call = ok m' ∧ Cleans .calls m m' call := by
  have hlive : ∀ b, some b ∈ c.dialog.items → ∃ d, m.worker.dialogs.heap.cells b = some d := fun b hb => by
    obtain ⟨d, hd, -⟩ := h.dialog hc (Slots.count_pos_iff.mpr hb)
    exact ⟨d, hd⟩
  rw [cleanup_call, Machine.call_of_cells hc, bind_ok, cleanup_call_slots_spec _ hlive, bind_ok]
  refine ⟨_, rfl, h.without_call hc, ?_, fun other => ?_, fun b _ => rfl, ?_⟩
  · refine live_iff (isSome_free m.worker.calls.heap call) fun b other hother => ?_
    cases other with
    | calls => exact absurd rfl hother
    | dialogs => exact iff_of_eq (congrArg (· = true) Option.isSome_map)
    | transactions => exact .rfl
  · cases other <;> rfl
  · rw [if_neg fun hn => (by cases hn), List.append_nil]
    rfl

/-- What the loop of a `delete_all_*` function has done once it is past some nodes. -/
structure Clears (kind : Kind) (m m' : Machine) (cleared : List Nat) : Prop where
  paired : Paired m'.worker
  live : ∀ b other, Live m'.worker b other ↔ Live m.worker b other ∧ ¬ (other = kind ∧ b ∈ cleared)
  nodes : ∀ other, nodes_of m'.worker other = nodes_of m.worker other
  messages : ∀ b, (kind = .transactions → b ∉ cleared) → messages_at m'.worker b = messages_at m.worker b
  freed : m'.freed = m.freed ++ if kind = .transactions then cleared.flatMap (messages_at m.worker) else []

theorem Cleans.cons {kind : Kind} {m m₁ m' : Machine} {current : Nat} {nodes : List Nat}
    (h : Cleans kind m m₁ current) (hrest : Clears kind m₁ m' nodes) (hnew : current ∉ nodes) :
    Clears kind m m' (current :: nodes) where
  paired := hrest.paired
  live b other := by
    rw [hrest.live, h.live, List.mem_cons, and_assoc]
    refine and_congr_right fun _ => ?_
    rw [← not_or, ← and_or_left]
  nodes other := (hrest.nodes other).trans (h.nodes other)
  messages b hb := by
    rw [hrest.messages b fun hkind hmem => hb hkind (List.mem_cons_of_mem _ hmem)]
    exact h.messages b fun hkind heq => hb hkind (heq ▸ List.mem_cons_self)
  freed := by
    rw [hrest.freed, h.freed, List.append_assoc]
    split
    · rw [List.flatMap_cons]
      refine congrArg (fun messages => m.freed ++ (messages_at m.worker current ++ messages)) ?_
      refine List.flatMap_congr fun b hb => h.messages b fun _ heq => hnew (heq ▸ hb)
    · rfl

/-- The loop reads each node before the node is freed, and the nodes that are left stay live. -/
theorem cleanup_all_clears {A : Type} (kind : Kind) (heap : Machine → Heap A)
    {cleanup : Machine → Nat → Result Machine}
    (hlive : ∀ {m : Machine} {a}, Live m.worker a kind → ∃ v, (heap m).cells a = some v)
    (hcleans : ∀ {m : Machine} {a}, Paired m.worker → Live m.worker a kind →
      ∃ m', cleanup m a = ok m' ∧ Cleans kind m m' a)
    {m : Machine} (h : Paired m.worker) {nodes : List Nat} (hnodup : nodes.Nodup)
    (hnodes : ∀ a ∈ nodes, Live m.worker a kind) :
    ∃ m', cleanup_all heap cleanup m nodes = ok m' ∧ Clears kind m m' nodes := by
  induction nodes generalizing m with
  | nil =>
    refine ⟨m, rfl, h, fun b other => ?_, fun _ => rfl, fun _ _ => rfl, ?_⟩
    · exact ⟨fun hb => ⟨hb, fun hn => by cases hn.2⟩, And.left⟩
    · rw [List.flatMap_nil, ite_self, List.append_nil]
  | cons current nodes ih =>
    obtain ⟨hnew, hnodup⟩ := List.nodup_cons.mp hnodup
    have hcurrent := hnodes current List.mem_cons_self
    obtain ⟨v, hv⟩ := hlive hcurrent
    obtain ⟨m₁, hcleanup, hone⟩ := hcleans h hcurrent
    obtain ⟨m', hloop, hrest⟩ := ih hone.paired hnodup fun a ha => (hone.live a kind).mpr
      ⟨hnodes a (List.mem_cons_of_mem _ ha), fun hn => hnew (hn.2 ▸ ha)⟩
    refine ⟨m', ?_, hone.cons hrest hnew⟩
    rw [cleanup_all, Heap.read_of_cells hv, bind_ok, hcleanup, bind_ok, hloop]

/-- The lists of a worker hold its live records, each once. -/
structure Listed (worker : worker_thread_t) : Prop where
  nodup : ∀ kind, (nodes_of worker kind).Nodup
  live : ∀ a kind, a ∈ nodes_of worker kind ↔ Live worker a kind

theorem WellFormed.listed {worker : worker_thread_t} (h : WellFormed worker) : Listed worker where
  nodup kind := by
    cases kind with
    | calls => exact h.calls.nodup
    | dialogs => exact h.dialogs.nodup
    | transactions => exact h.transactions.nodup
  live a kind := by
    cases kind with
    | calls => exact h.calls.live a
    | dialogs => exact h.dialogs.live a
    | transactions => exact h.transactions.live a

/-- The messages that the transactions of the list hold. -/
theorem held_messages_eq (worker : worker_thread_t) :
    held_messages worker = (nodes_of worker .transactions).flatMap (messages_at worker) := by
  rw [held_messages, Store.view, nodes_of]
  induction worker.transactions.list with
  | nil => rfl
  | cons a nodes ih =>
    rw [List.flatMap_cons, ← ih, messages_at, List.filterMap_cons]
    cases worker.transactions.heap.cells a <;> rfl

/-- The lists of the kinds are empty, no record of them is left, and the others are as before. -/
structure Emptied (kinds : List Kind) (m m' : Machine) : Prop where
  paired : Paired m'.worker
  listed : Listed m'.worker
  nodes : ∀ kind, nodes_of m'.worker kind = if kind ∈ kinds then [] else nodes_of m.worker kind
  held : held_messages m'.worker = if .transactions ∈ kinds then [] else held_messages m.worker
  freed : m'.freed = m.freed ++ if .transactions ∈ kinds then held_messages m.worker else []

/-- A loop over a whole list, after which the list is emptied. -/
private theorem Clears.emptied {kind : Kind} {m m' : Machine} (h : Clears kind m m' (nodes_of m.worker kind))
    (hlisted : Listed m.worker) {m'' : Machine} (hpaired : Paired m''.worker)
    (hlive : ∀ b other, Live m''.worker b other ↔ Live m'.worker b other)
    (hnodes : ∀ other, nodes_of m''.worker other = if other = kind then [] else nodes_of m'.worker other)
    (hmessages : ∀ b, messages_at m''.worker b = messages_at m'.worker b) (hfreed : m''.freed = m'.freed) :
    Emptied [kind] m m'' where
  paired := hpaired
  listed := by
    refine ⟨fun other => ?_, fun b other => ?_⟩
    · rw [hnodes, h.nodes]
      split
      · exact List.nodup_nil
      · exact hlisted.nodup other
    · rw [hnodes, hlive, h.live, h.nodes]
      split
      · rename_i hother
        subst hother
        refine ⟨fun hn => (by cases hn), fun hand => absurd ⟨rfl, (hlisted.live b other).mpr hand.1⟩ hand.2⟩
      · rename_i hother
        rw [hlisted.live]
        exact ⟨fun hb => ⟨hb, fun hn => hother hn.1⟩, And.left⟩
  nodes other := by
    rw [hnodes, h.nodes]
    simp only [List.mem_singleton]
  held := by
    rw [held_messages_eq, held_messages_eq, hnodes, h.nodes]
    simp only [List.mem_singleton]
    split
    · rfl
    · rename_i hother
      refine List.flatMap_congr fun b _ => (hmessages b).trans (h.messages b fun hkind => ?_)
      exact absurd hkind.symm hother
  freed := by
    rw [hfreed, h.freed, held_messages_eq]
    simp only [List.mem_singleton]
    by_cases hkind : kind = .transactions
    · subst hkind
      rfl
    · rw [if_neg hkind, if_neg (Ne.symm hkind)]

theorem Emptied.trans {kind : Kind} {kinds : List Kind} {m m₁ m' : Machine} (h : Emptied [kind] m m₁)
    (hrest : Emptied kinds m₁ m') : Emptied (kind :: kinds) m m' where
  paired := hrest.paired
  listed := hrest.listed
  nodes other := by
    rw [hrest.nodes, h.nodes]
    by_cases hkind : other = kind <;> simp [hkind]
  held := by
    rw [hrest.held, h.held]
    by_cases hkind : Kind.transactions = kind <;> simp [hkind]
  freed := by
    rw [hrest.freed, h.freed, h.held]
    by_cases hkind : Kind.transactions = kind <;> simp [hkind]

private theorem delete_all_calls_empties {m : Machine} (h : Paired m.worker) (hlisted : Listed m.worker) :
    ∃ m', delete_all_calls m = ok m' ∧ Emptied [.calls] m m' := by
  obtain ⟨m', hloop, hclears⟩ := cleanup_all_clears .calls (fun m => m.worker.calls.heap)
    Option.isSome_iff_exists.mp (fun h hlive => by
      obtain ⟨c, hc⟩ := Option.isSome_iff_exists.mp hlive
      exact cleanup_call_cleans h hc)
    h (hlisted.nodup .calls) fun a => (hlisted.live a .calls).mp
  have hpaired := hclears.paired
  change cleanup_all _ _ m m.worker.calls.list = ok m' at hloop
  refine ⟨m'.with_calls { m'.worker.calls with list := [] }, by rw [delete_all_calls, hloop, bind_ok],
    hclears.emptied hlisted ⟨hpaired.transaction, hpaired.slot, hpaired.call, hpaired.dialog⟩
      (fun b other => ?_) (fun other => ?_) (fun b => rfl) rfl⟩
  · cases other <;> exact .rfl
  · cases other <;> rfl

private theorem delete_all_dialogs_empties {m : Machine} (h : Paired m.worker) (hlisted : Listed m.worker) :
    ∃ m', delete_all_dialogs m = ok m' ∧ Emptied [.dialogs] m m' := by
  obtain ⟨m', hloop, hclears⟩ := cleanup_all_clears .dialogs (fun m => m.worker.dialogs.heap)
    Option.isSome_iff_exists.mp (fun h hlive => by
      obtain ⟨d, hd⟩ := Option.isSome_iff_exists.mp hlive
      exact cleanup_dialog_cleans h hd)
    h (hlisted.nodup .dialogs) fun a => (hlisted.live a .dialogs).mp
  have hpaired := hclears.paired
  change cleanup_all _ _ m m.worker.dialogs.list = ok m' at hloop
  refine ⟨m'.with_dialogs { m'.worker.dialogs with list := [] }, by rw [delete_all_dialogs, hloop, bind_ok],
    hclears.emptied hlisted ⟨hpaired.transaction, hpaired.slot, hpaired.call, hpaired.dialog⟩
      (fun b other => ?_) (fun other => ?_) (fun b => rfl) rfl⟩
  · cases other <;> exact .rfl
  · cases other <;> rfl

private theorem delete_all_transactions_empties {m : Machine} (h : Paired m.worker) (hlisted : Listed m.worker) :
    ∃ m', delete_all_transactions m = ok m' ∧ Emptied [.transactions] m m' := by
  obtain ⟨m', hloop, hclears⟩ := cleanup_all_clears .transactions (fun m => m.worker.transactions.heap)
    Option.isSome_iff_exists.mp (fun h hlive => by
      obtain ⟨t, ht⟩ := Option.isSome_iff_exists.mp hlive
      exact cleanup_transaction_cleans h ht)
    h (hlisted.nodup .transactions) fun a => (hlisted.live a .transactions).mp
  have hpaired := hclears.paired
  change cleanup_all _ _ m m.worker.transactions.list = ok m' at hloop
  refine ⟨m'.with_transactions { m'.worker.transactions with list := [] },
    by rw [delete_all_transactions, hloop, bind_ok],
    hclears.emptied hlisted ⟨hpaired.transaction, hpaired.slot, hpaired.call, hpaired.dialog⟩
      (fun b other => ?_) (fun other => ?_) (fun b => rfl) rfl⟩
  · cases other <;> exact .rfl
  · cases other <;> rfl

theorem delete_all_empties {m : Machine} (h : Paired m.worker) (hlisted : Listed m.worker) (kinds : List Kind) :
    ∃ m', delete_all m kinds = ok m' ∧ Emptied kinds m m' := by
  induction kinds generalizing m with
  | nil => exact ⟨m, rfl, h, hlisted, fun _ => rfl, rfl, (List.append_nil _).symm⟩
  | cons kind kinds ih =>
    obtain ⟨m₁, hdelete, hone⟩ : ∃ m₁, delete_all m (kind :: kinds) = delete_all m₁ kinds ∧ Emptied [kind] m m₁ := by
      cases kind with
      | calls =>
        obtain ⟨m₁, heq, hone⟩ := delete_all_calls_empties h hlisted
        exact ⟨m₁, by rw [delete_all, heq, bind_ok], hone⟩
      | dialogs =>
        obtain ⟨m₁, heq, hone⟩ := delete_all_dialogs_empties h hlisted
        exact ⟨m₁, by rw [delete_all, heq, bind_ok], hone⟩
      | transactions =>
        obtain ⟨m₁, heq, hone⟩ := delete_all_transactions_empties h hlisted
        exact ⟨m₁, by rw [delete_all, heq, bind_ok], hone⟩
    obtain ⟨m', hrest, hall⟩ := ih hone.paired hone.listed
    exact ⟨m', hdelete.trans hrest, hone.trans hall⟩

/-- Whatever a worker did while its dialogs had room, its lists can be torn down in any order and
more than once. Nothing freed is read; the lists named are empty and no record of them is left,
the others keep theirs, and the messages freed are those that the transactions held. -/
theorem teardown_frees_everything {run : Run} (h : program.ReachableWhile HasRoom run) (env : Environment)
    (kinds : List Kind) :
    ∃ m, delete_all (run.start env) kinds = ok m ∧ Paired m.worker ∧
      (∀ kind, nodes_of m.worker kind = if kind ∈ kinds then [] else nodes_of run.worker kind) ∧
      (∀ kind a, Live m.worker a kind ↔ kind ∉ kinds ∧ Live run.worker a kind) ∧
      m.freed = if .transactions ∈ kinds then held_messages run.worker else [] := by
  obtain ⟨hworker, hlinks⟩ := ReachableWhile.links h
  have hlisted := hworker.listed
  obtain ⟨m, hdelete, hall⟩ := delete_all_empties (m := run.start env) (hworker.paired hlinks) hlisted kinds
  refine ⟨m, hdelete, hall.paired, hall.nodes, fun kind a => ?_, ?_⟩
  · rw [← hall.listed.live, hall.nodes]
    split
    · rename_i hmem
      exact ⟨fun hn => (by cases hn), fun hand => absurd hmem hand.1⟩
    · rename_i hmem
      exact ⟨fun ha => ⟨hmem, (hlisted.live a kind).mp ha⟩, fun hand => (hlisted.live a kind).mpr hand.2⟩
  · rw [hall.freed]
    rfl

private theorem roomy_calls_run :
    (program.follow_tested HasRoom Run.started (first_call ++ [arrival foreign_invite .other])).map (fun run : Run =>
      (run.worker.transactions.list, run.worker.dialogs.list, run.worker.calls.list)) =
      some ([2, 1, 0], [1, 0], [1, 0]) := by
  decide +kernel

/-- A worker with two calls, one of which is hung up, torn down from the dialogs on. -/
theorem two_calls_torn_down :
    ∃ (run : Run) (m : Machine), run.worker.transactions.list = [2, 1, 0] ∧ run.worker.dialogs.list = [1, 0] ∧
      run.worker.calls.list = [1, 0] ∧
      delete_all (run.start .obliging) [.dialogs, .transactions, .calls, .dialogs] = ok m ∧
      (∀ kind, nodes_of m.worker kind = []) ∧ m.freed = held_messages run.worker := by
  obtain ⟨run, hrun, hlists⟩ := Option.map_eq_some_iff.mp roomy_calls_run
  simp only [Prod.mk.injEq] at hlists
  obtain ⟨htransactions, hdialogs, hcalls⟩ := hlists
  obtain ⟨m, hdelete, -, hnodes, -, hfreed⟩ := teardown_frees_everything
    (.of_follow_tested Run.started_initial hrun) .obliging [.dialogs, .transactions, .calls, .dialogs]
  refine ⟨run, m, htransactions, hdialogs, hcalls, hdelete, fun kind => (hnodes kind).trans (if_pos ?_), hfreed⟩
  cases kind <;> decide

end mock_uas.sip_server
