import MockUas.Clib.Linked
import MockUas.Worker.Cleanup

open clib
open mock_uas.sip_message
open mock_uas.sip_server

namespace mock_uas.sip_utils

/-- A worker in the middle of a step, with the `next` pointers of its three lists. The list
of a store is then no more than what these lead through. -/
structure Pointers where
  calls : Linked
  dialogs : Linked
  transactions : Linked
  machine : Machine

namespace Pointers

def find_call_by_id (w : Pointers) (call_id : Option Bytes) (call_id_length : Nat) : Result (Option Nat) :=
  match call_id with
  | none => ok none
  | some call_id =>
    if w.calls.head = none ∨ call_id_length = 0 then ok none
    else w.calls.find w.machine.worker.calls.heap fun _ current =>
      current.call_id_length == call_id_length && strncmp current.call_id.bytes call_id call_id_length

/-- `cleanup_call(current)`, where the loop has taken a call out of the list. -/
def drop_call (w : Pointers) : Option (Nat × Linked) → Result Pointers
  | none => ok w
  | some (current, calls) => do
    let store := w.machine.worker.calls
    let m ← cleanup_call (w.machine.with_calls { store with list := calls.nodes store.heap }) current
    ok { w with calls := calls, machine := m }

def delete_call_by_id (w : Pointers) (call_id : Option Bytes) (call_id_length : Nat) : Result Pointers :=
  match call_id with
  | none => ok w
  | some call_id =>
    if call_id_length = 0 then ok w
    else do
      let unlinked ← w.calls.delete w.machine.worker.calls.heap fun _ current =>
        current.call_id_length == call_id_length && strncmp current.call_id.bytes call_id call_id_length
      w.drop_call unlinked

def delete_call_by_pointer (w : Pointers) : Option Nat → Result Pointers
  | none => ok w
  | some call => do
    let unlinked ← w.calls.delete w.machine.worker.calls.heap fun current _ => current == call
    w.drop_call unlinked

def find_dialog_by_id (w : Pointers) (from_tag : Option Bytes) (from_tag_length : Nat) (to_tag : Option Bytes)
    (to_tag_length : Nat) : Result (Option Nat) :=
  match from_tag with
  | none => ok none
  | some from_tag =>
    if w.dialogs.head = none ∨ from_tag_length = 0 then ok none
    else w.dialogs.find w.machine.worker.dialogs.heap fun _ current =>
      current.from_tag_length == from_tag_length && strncmp current.from_tag.bytes from_tag from_tag_length &&
        (current.to_tag_length == to_tag_length && match to_tag with
          | none => false
          | some to_tag => strncmp current.to_tag.bytes to_tag to_tag_length)

/-- `cleanup_dialog(current)`, where the loop has taken a dialog out of the list. -/
def drop_dialog (w : Pointers) : Option (Nat × Linked) → Result Pointers
  | none => ok w
  | some (current, dialogs) => do
    let store := w.machine.worker.dialogs
    let m ← cleanup_dialog (w.machine.with_dialogs { store with list := dialogs.nodes store.heap }) current
    ok { w with dialogs := dialogs, machine := m }

def delete_dialog_by_id (w : Pointers) (from_tag : Option Bytes) (from_tag_length : Nat) (to_tag : Option Bytes)
    (to_tag_length : Nat) : Result Pointers :=
  match from_tag with
  | none => ok w
  | some from_tag =>
    if from_tag_length = 0 then ok w
    else do
      let unlinked ← w.dialogs.delete w.machine.worker.dialogs.heap fun _ current =>
        current.from_tag_length == from_tag_length && strncmp current.from_tag.bytes from_tag from_tag_length &&
          (current.to_tag_length == to_tag_length && match to_tag with
            | none => false
            | some to_tag => strncmp current.to_tag.bytes to_tag to_tag_length)
      w.drop_dialog unlinked

def delete_dialog_by_pointer (w : Pointers) : Option Nat → Result Pointers
  | none => ok w
  | some dialog => do
    let unlinked ← w.dialogs.delete w.machine.worker.dialogs.heap fun current _ => current == dialog
    w.drop_dialog unlinked

def find_transaction_by_id (w : Pointers) (branch : Option Bytes) (branch_length : Nat) : Result (Option Nat) :=
  match branch with
  | none => ok none
  | some branch =>
    if w.transactions.head = none ∨ branch_length = 0 then ok none
    else w.transactions.find w.machine.worker.transactions.heap fun _ current =>
      current.branch_length == branch_length && strncmp current.branch.bytes branch branch_length

/-- `cleanup_transaction(current)`, where the loop has taken a transaction out of the list. -/
def drop_transaction (w : Pointers) : Option (Nat × Linked) → Result Pointers
  | none => ok w
  | some (current, transactions) => do
    let store := w.machine.worker.transactions
    let m ← cleanup_transaction
      (w.machine.with_transactions { store with list := transactions.nodes store.heap }) current
    ok { w with transactions := transactions, machine := m }

def delete_transaction_by_id (w : Pointers) (branch : Option Bytes) (branch_length : Nat) : Result Pointers :=
  match branch with
  | none => ok w
  | some branch =>
    if branch_length = 0 then ok w
    else do
      let unlinked ← w.transactions.delete w.machine.worker.transactions.heap fun _ current =>
        current.branch_length == branch_length && strncmp current.branch.bytes branch branch_length
      w.drop_transaction unlinked

def delete_transaction_by_pointer (w : Pointers) : Option Nat → Result Pointers
  | none => ok w
  | some transaction => do
    let unlinked ← w.transactions.delete w.machine.worker.transactions.heap fun current _ => current == transaction
    w.drop_transaction unlinked

/-- The test of a `find` and a `delete_*_by_id` function. -/
def is_call (call_id : Bytes) (call_id_length : Nat) (c : sip_call_t) : Bool :=
  c.call_id_length == call_id_length && strncmp c.call_id.bytes call_id call_id_length

def is_dialog (from_tag : Bytes) (from_tag_length : Nat) (to_tag : Bytes) (to_tag_length : Nat)
    (d : sip_dialog_t) : Bool :=
  d.from_tag_length == from_tag_length && strncmp d.from_tag.bytes from_tag from_tag_length &&
    (d.to_tag_length == to_tag_length && strncmp d.to_tag.bytes to_tag to_tag_length)

def is_transaction (branch : Bytes) (branch_length : Nat) (t : sip_transaction_t) : Bool :=
  t.branch_length == branch_length && strncmp t.branch.bytes branch branch_length

def call_store (w : Pointers) : Store sip_call_t := w.machine.worker.calls
def dialog_store (w : Pointers) : Store sip_dialog_t := w.machine.worker.dialogs
def transaction_store (w : Pointers) : Store sip_transaction_t := w.machine.worker.transactions

/-- What the record of a call leads its cleanup to is live. -/
def call_links (w : Pointers) (call : Nat) : Prop :=
  ∀ c, w.call_store.heap.cells call = some c → ∀ dialog, some dialog ∈ c.dialog.items →
    (w.dialog_store.heap.cells dialog).isSome

def dialog_links (w : Pointers) (dialog : Nat) : Prop :=
  ∀ d, w.dialog_store.heap.cells dialog = some d →
    (∀ transaction, some transaction ∈ d.transaction.items → (w.transaction_store.heap.cells transaction).isSome) ∧
    ∀ call, d.call = some call → (w.call_store.heap.cells call).isSome

def transaction_links (w : Pointers) (transaction : Nat) : Prop :=
  ∀ t, w.transaction_store.heap.cells transaction = some t → ∀ dialog, t.dialog = some dialog →
    (w.dialog_store.heap.cells dialog).isSome

/-- The lists, and which blocks are live. -/
structure SameBlocks (m m' : Machine) : Prop where
  calls : m'.worker.calls.list = m.worker.calls.list ∧
    ∀ a, (m'.worker.calls.heap.cells a).isSome = (m.worker.calls.heap.cells a).isSome
  dialogs : m'.worker.dialogs.list = m.worker.dialogs.list ∧
    ∀ a, (m'.worker.dialogs.heap.cells a).isSome = (m.worker.dialogs.heap.cells a).isSome
  transactions : m'.worker.transactions.list = m.worker.transactions.list ∧
    ∀ a, (m'.worker.transactions.heap.cells a).isSome = (m.worker.transactions.heap.cells a).isSome

theorem SameBlocks.of_worker {m m' : Machine} (h : m'.worker = m.worker) : SameBlocks m m' := by
  constructor <;> exact ⟨by rw [h], fun _ => by rw [h]⟩

theorem SameBlocks.refl (m : Machine) : SameBlocks m m := .of_worker rfl

theorem SameBlocks.trans {m m' m'' : Machine} (h : SameBlocks m m') (h' : SameBlocks m' m'') : SameBlocks m m'' where
  calls := ⟨h'.calls.1.trans h.calls.1, fun a => (h'.calls.2 a).trans (h.calls.2 a)⟩
  dialogs := ⟨h'.dialogs.1.trans h.dialogs.1, fun a => (h'.dialogs.2 a).trans (h.dialogs.2 a)⟩
  transactions :=
    ⟨h'.transactions.1.trans h.transactions.1, fun a => (h'.transactions.2 a).trans (h.transactions.2 a)⟩

theorem SameBlocks.set_call (m : Machine) (a : Nat) (v : sip_call_t) : SameBlocks m (m.set_call a v) where
  calls := ⟨rfl, fun b => Heap.isSome_cells_set _ _ b _⟩
  dialogs := ⟨rfl, fun _ => rfl⟩
  transactions := ⟨rfl, fun _ => rfl⟩

theorem SameBlocks.set_dialog (m : Machine) (a : Nat) (v : sip_dialog_t) : SameBlocks m (m.set_dialog a v) where
  calls := ⟨rfl, fun _ => rfl⟩
  dialogs := ⟨rfl, fun b => Heap.isSome_cells_set _ _ b _⟩
  transactions := ⟨rfl, fun _ => rfl⟩

theorem SameBlocks.set_transaction (m : Machine) (a : Nat) (v : sip_transaction_t) :
    SameBlocks m (m.set_transaction a v) where
  calls := ⟨rfl, fun _ => rfl⟩
  dialogs := ⟨rfl, fun _ => rfl⟩
  transactions := ⟨rfl, fun b => Heap.isSome_cells_set _ _ b _⟩

theorem worker_arm_delete_event (m : Machine) (transaction : Nat) (t : sip_transaction_t) (initial_ms : Nat)
    (callback : timer_callback_t) : (arm_delete_event m transaction t initial_ms callback).worker = m.worker := by
  simp only [arm_delete_event]
  split <;> rfl

theorem set_dialog_state_blocks {m m' : Machine} {dialog : Nat} {state : sip_dialog_state_t}
    (h : set_dialog_state m dialog state = ok m') : SameBlocks m m' := by
  obtain ⟨d, -, h⟩ := bind_eq_ok_iff.mp h
  cases h
  exact .set_dialog _ _ _

theorem set_transaction_state_blocks {m m' : Machine} {transaction : Nat} {state : sip_transaction_state_t}
    (h : set_transaction_state m transaction state = ok m') : SameBlocks m m' := by
  obtain ⟨t, -, h⟩ := bind_eq_ok_iff.mp h
  have hset := SameBlocks.set_transaction m transaction { t with state := state }
  split at h
  · cases h
    exact .refl m
  · split at h <;> cases h
    · exact hset.trans (.of_worker (worker_arm_delete_event _ _ _ _ _))
    · exact hset.trans (.of_worker (worker_arm_delete_event _ _ _ _ _))
    · exact hset

theorem cleanup_call_slots_blocks {slots : List (Option Nat)} {m m' : Machine}
    (h : cleanup_call_slots m slots = ok m') : SameBlocks m m' := by
  induction slots generalizing m with
  | nil =>
    cases h
    exact .refl _
  | cons slot slots ih =>
    cases slot with
    | none => exact ih h
    | some dialog =>
      obtain ⟨d, -, h⟩ := bind_eq_ok_iff.mp h
      dsimp only at h
      split at h
      · obtain ⟨m₁, hstate, h⟩ := bind_eq_ok_iff.mp h
        obtain ⟨d', -, h⟩ := bind_eq_ok_iff.mp h
        exact ((set_dialog_state_blocks hstate).trans (.set_dialog _ _ _)).trans (ih h)
      · rw [bind_ok] at h
        obtain ⟨d', -, h⟩ := bind_eq_ok_iff.mp h
        exact (SameBlocks.set_dialog m _ _).trans (ih h)

theorem cleanup_dialog_slots_blocks {slots : List (Option Nat)} {m m' : Machine}
    (h : cleanup_dialog_slots m slots = ok m') : SameBlocks m m' := by
  induction slots generalizing m with
  | nil =>
    cases h
    exact .refl _
  | cons slot slots ih =>
    cases slot with
    | none => exact ih h
    | some transaction =>
      obtain ⟨t, -, h⟩ := bind_eq_ok_iff.mp h
      dsimp only at h
      split at h
      · obtain ⟨m₁, hstate, h⟩ := bind_eq_ok_iff.mp h
        obtain ⟨t', -, h⟩ := bind_eq_ok_iff.mp h
        exact ((set_transaction_state_blocks hstate).trans (.set_transaction _ _ _)).trans (ih h)
      · rw [bind_ok] at h
        obtain ⟨t', -, h⟩ := bind_eq_ok_iff.mp h
        exact (SameBlocks.set_transaction m _ _).trans (ih h)

/-- A cleanup frees the record it is given and no other. -/
theorem cleanup_call_blocks {m m' : Machine} {call : Nat} (h : cleanup_call m call = ok m') :
    ∃ m₁, SameBlocks m m₁ ∧ m' = m₁.free_call call := by
  obtain ⟨c, -, h⟩ := bind_eq_ok_iff.mp h
  obtain ⟨m₁, hslots, h⟩ := bind_eq_ok_iff.mp h
  cases h
  exact ⟨m₁, cleanup_call_slots_blocks hslots, rfl⟩

theorem cleanup_dialog_blocks {m m' : Machine} {dialog : Nat} (h : cleanup_dialog m dialog = ok m') :
    ∃ m₁, SameBlocks m m₁ ∧ m' = m₁.free_dialog dialog := by
  obtain ⟨d, -, h⟩ := bind_eq_ok_iff.mp h
  obtain ⟨m₁, hslots, h⟩ := bind_eq_ok_iff.mp h
  obtain ⟨d', -, h⟩ := bind_eq_ok_iff.mp h
  have hblocks := cleanup_dialog_slots_blocks hslots
  dsimp only at h
  split at h
  · cases h
    exact ⟨m₁, hblocks, rfl⟩
  · obtain ⟨m₂, hleave, h⟩ := bind_eq_ok_iff.mp h
    obtain ⟨c, -, hleave⟩ := bind_eq_ok_iff.mp hleave
    cases hleave
    cases h
    exact ⟨_, hblocks.trans (.set_call _ _ _), rfl⟩

private theorem worker_cleanup_sip_messages (m : Machine) (message ack_message : Option (Owned sip_message_t)) :
    ((m.cleanup_sip_message message).cleanup_sip_message ack_message).worker = m.worker := by
  cases message <;> cases ack_message <;> rfl

theorem cleanup_transaction_blocks {m m' : Machine} {transaction : Nat}
    (h : cleanup_transaction m transaction = ok m') : ∃ m₁, SameBlocks m m₁ ∧ m' = m₁.free_transaction transaction := by
  obtain ⟨t, -, h⟩ := bind_eq_ok_iff.mp h
  dsimp only at h
  split at h
  · rw [bind_ok] at h
    obtain ⟨t', -, h⟩ := bind_eq_ok_iff.mp h
    cases h
    exact ⟨_, .of_worker (worker_cleanup_sip_messages _ _ _), rfl⟩
  · obtain ⟨m₁, hleave, h⟩ := bind_eq_ok_iff.mp h
    obtain ⟨d, -, hleave⟩ := bind_eq_ok_iff.mp hleave
    obtain ⟨t', -, h⟩ := bind_eq_ok_iff.mp h
    cases hleave
    cases h
    exact ⟨_, (SameBlocks.set_dialog m _ _).trans (.of_worker (worker_cleanup_sip_messages _ _ _)), rfl⟩

/-- A computation that reads freed memory exactly when something it is led to is gone. -/
def Needs {A : Type} (x : Result A) (p : Prop) : Prop := (p → ∃ a, x = ok a) ∧ (¬ p → x = error .useAfterFree)

private theorem needs_read {A : Type} (heap : Heap A) (a : Nat) : Needs (heap.read a) (heap.cells a).isSome := by
  constructor
  · intro hlive
    obtain ⟨v, hv⟩ := Option.isSome_iff_exists.mp hlive
    exact ⟨v, Heap.read_of_cells hv⟩
  · intro hfreed
    rw [Option.not_isSome_iff_eq_none] at hfreed
    simp [Heap.read, hfreed]

private theorem Needs.bind {A B : Type} {x : Result A} {f : A → Result B} {p q : Prop} (hx : Needs x p)
    (hf : ∀ a, x = ok a → Needs (f a) q) : Needs (x >>= f) (p ∧ q) := by
  by_cases hp : p
  · obtain ⟨a, ha⟩ := hx.1 hp
    rw [ha, bind_ok]
    simpa [hp] using hf a ha
  · refine ⟨fun hpq => absurd hpq.1 hp, fun _ => ?_⟩
    rw [hx.2 hp]
    rfl

private theorem needs_ok {A : Type} (a : A) : Needs (ok a) True := ⟨fun _ => ⟨a, rfl⟩, fun h => absurd trivial h⟩

private theorem needs_cleanup_call {m : Machine} {call : Nat} {c : sip_call_t}
    (hc : m.worker.calls.heap.cells call = some c) : Needs (cleanup_call m call)
      (∀ dialog, some dialog ∈ c.dialog.items → (m.worker.dialogs.heap.cells dialog).isSome) := by
  have hslots : Needs (cleanup_call_slots m c.dialog.items)
      (∀ dialog, some dialog ∈ c.dialog.items → (m.worker.dialogs.heap.cells dialog).isSome) := by
    constructor
    · intro hlive
      exact ⟨_, cleanup_call_slots_spec _ fun b hb => Option.isSome_iff_exists.mp (hlive b hb)⟩
    · intro hdead
      obtain ⟨dialog, hdead⟩ := not_forall.mp hdead
      obtain ⟨hslot, hfreed⟩ := Classical.not_imp.mp hdead
      exact cleanup_call_slots_dangling hslot (Option.not_isSome_iff_eq_none.mp hfreed)
  have hneeds := hslots.bind fun m₁ _ => needs_ok (m₁.free_call call)
  rw [and_true] at hneeds
  rwa [cleanup_call, Machine.call_of_cells hc, bind_ok]

private theorem needs_cleanup_dialog {m : Machine} {dialog : Nat} {d : sip_dialog_t}
    (hd : m.worker.dialogs.heap.cells dialog = some d) : Needs (cleanup_dialog m dialog)
      ((∀ transaction, some transaction ∈ d.transaction.items →
        (m.worker.transactions.heap.cells transaction).isSome) ∧
      ∀ call, d.call = some call → (m.worker.calls.heap.cells call).isSome) := by
  rw [cleanup_dialog, Machine.dialog_of_cells hd, bind_ok]
  have hslots : Needs (cleanup_dialog_slots m d.transaction.items)
      (∀ transaction, some transaction ∈ d.transaction.items →
        (m.worker.transactions.heap.cells transaction).isSome) := by
    constructor
    · intro hlive
      obtain ⟨m₁, -, -, heq, -⟩ := cleanup_dialog_slots_spec (m := m) d.transaction.items fun a ha =>
        Option.isSome_iff_exists.mp (hlive a ha)
      exact ⟨m₁, heq⟩
    · intro hdead
      obtain ⟨transaction, hdead⟩ := not_forall.mp hdead
      obtain ⟨hslot, hfreed⟩ := Classical.not_imp.mp hdead
      exact cleanup_dialog_slots_dangling hslot (Option.not_isSome_iff_eq_none.mp hfreed)
  refine hslots.bind fun m₁ hm₁ => ?_
  have hsame : m₁.worker.dialogs = m.worker.dialogs ∧ m₁.worker.calls = m.worker.calls := by
    have hlive : ∀ a, some a ∈ d.transaction.items → ∃ t, m.worker.transactions.heap.cells a = some t := by
      by_contra hdead
      have hfails := hslots.2 fun hlive => hdead fun a ha => Option.isSome_iff_exists.mp (hlive a ha)
      cases hm₁.symm.trans hfails
    obtain ⟨m₂, _, _, heq, hcleaned, -⟩ := cleanup_dialog_slots_spec d.transaction.items hlive
    obtain rfl := Except.ok.inj (heq.symm.trans hm₁)
    rw [hcleaned.worker]
    exact ⟨rfl, rfl⟩
  have hread : m₁.dialog dialog = ok d := Heap.read_of_cells (by rw [hsame.1, hd])
  rw [hread, bind_ok]
  cases hcall : d.call with
  | none => exact ⟨fun _ => ⟨_, rfl⟩, fun hnot => absurd (fun _ hc => by cases hc) hnot⟩
  | some call =>
    have hleave : Needs (remove_dialog_from_call m₁ call dialog) (m.worker.calls.heap.cells call).isSome := by
      have hneeds := (needs_read m₁.worker.calls.heap call).bind fun c _ =>
        needs_ok (m₁.set_call call { c with dialog := c.dialog.remove dialog })
      rw [and_true] at hneeds
      rw [← hsame.2]
      exact hneeds
    have hneeds := hleave.bind fun m₂ _ => needs_ok (m₂.free_dialog dialog)
    simpa using hneeds

private theorem needs_cleanup_transaction {m : Machine} {transaction : Nat} {t : sip_transaction_t}
    (ht : m.worker.transactions.heap.cells transaction = some t) : Needs (cleanup_transaction m transaction)
      (∀ dialog, t.dialog = some dialog → (m.worker.dialogs.heap.cells dialog).isSome) := by
  rw [cleanup_transaction, Machine.transaction_of_cells ht, bind_ok]
  cases hdialog : t.dialog with
  | none =>
    simp only [bind_ok, Machine.transaction_of_cells ht]
    exact ⟨fun _ => ⟨_, rfl⟩, fun hnot => absurd (fun _ hd => by cases hd) hnot⟩
  | some dialog =>
    have hneeds := (needs_read m.worker.dialogs.heap dialog).bind fun d _ =>
      needs_ok (m.set_dialog dialog { d with transaction := d.transaction.remove transaction })
    rw [and_true] at hneeds
    have hall := Needs.bind (x := remove_transaction_from_dialog m dialog transaction) hneeds (q := True)
      (f := fun m₁ => do
        let t ← m₁.transaction transaction
        ok (((m₁.cleanup_sip_message t.message).cleanup_sip_message t.ack_message).free_transaction transaction))
      fun m₁ hm₁ => by
        obtain ⟨d, -, hm₁⟩ := bind_eq_ok_iff.mp hm₁
        cases hm₁
        have hread : (m.set_dialog dialog { d with transaction := d.transaction.remove transaction }).transaction
            transaction = ok t := Heap.read_of_cells ht
        rw [hread, bind_ok]
        exact needs_ok _
    simpa using hall

/-- What is left of a list whose node was deleted. -/
structure Removed {A : Type} (list : Pointers → Linked) (store : Pointers → Store A)
    (others : Pointers → Linked × Linked) (w : Pointers) (nodes : List Nat) (a : Nat) (w' : Pointers) : Prop where
  through : (list w').Through (store w').heap (nodes.erase a)
  nodup : (nodes.erase a).Nodup
  order : (store w').list = nodes.erase a
  freed : (store w').heap.cells a = none
  others : others w' = others w

/-- How the three functions of one store work together on a worker whose list runs through
these nodes. -/
structure Agree {A : Type} (list : Pointers → Linked) (store : Pointers → Store A) (others : Pointers → Linked × Linked)
    (links : Pointers → Nat → Prop) (w : Pointers) (nodes : List Nat) (test : A → Bool) (find : Result (Option Nat))
    (by_id : Result Pointers) (by_pointer : Option Nat → Result Pointers) : Prop where
  first : find = ok (nodes.find? (Linked.passes (store w).heap fun _ => test))
  same : by_id = find >>= by_pointer
  missing : find = ok none → by_id = ok w
  removed : ∀ a, find = ok (some a) → links w a → ∃ w', by_id = ok w' ∧ Removed list store others w nodes a w'
  dangling : ∀ a, find = ok (some a) → ¬ links w a → by_id = error .useAfterFree

/-- What the cleanup after an unlinking does to the list. -/
private structure Dropped {A : Type} (list : Pointers → Linked) (store : Pointers → Store A)
    (others : Pointers → Linked × Linked) (w w' : Pointers) (a : Nat) (l : Linked) : Prop where
  list : list w' = l
  others : others w' = others w
  order : (store w').list = l.nodes (store w).heap
  cells : ∀ b, ((store w').heap.cells b).isSome = (b ≠ a && ((store w).heap.cells b).isSome)

private theorem agree_of_drop {A : Type} {list : Pointers → Linked} {store : Pointers → Store A}
    {others : Pointers → Linked × Linked} {links : Pointers → Nat → Prop} {w : Pointers} {nodes : List Nat}
    {test : A → Bool} {find : Result (Option Nat)} {by_id : Result Pointers} {by_pointer : Option Nat → Result Pointers}
    {drop : Option (Nat × Linked) → Result Pointers} (hthrough : (list w).Through (store w).heap nodes)
    (hfind : find = if (list w).head = none then ok none else (list w).find (store w).heap fun _ => test)
    (hby_id : by_id = (list w).delete (store w).heap (fun _ => test) >>= drop)
    (hby_pointer : ∀ a, by_pointer (some a) = (list w).delete (store w).heap (fun current _ => current == a) >>= drop)
    (hby_null : by_pointer none = ok w) (hdrop_none : drop none = ok w)
    (hdrop : ∀ a l w', drop (some (a, l)) = ok w' → Dropped list store others w w' a l)
    (hneeds : ∀ a l v, (store w).heap.cells a = some v → Needs (drop (some (a, l))) (links w a)) :
    Agree list store others links w nodes test find by_id by_pointer := by
  have hfirst : find = ok (nodes.find? (Linked.passes (store w).heap fun _ => test)) := by
    rw [hfind, ← hthrough.find]
    split
    · rename_i hnull
      have hnodes := hthrough.leads
      rw [hnull] at hnodes
      cases hnodes
      exact (hthrough.find _).symm
    · rfl
  have hmissing : find = ok none → by_id = ok w := by
    intro hnone
    rw [hfirst, Except.ok.injEq] at hnone
    rw [hby_id, hthrough.delete, hnone, ← hdrop_none]
    rfl
  have hfound : ∀ a, find = ok (some a) → a ∈ nodes ∧ (∃ v, (store w).heap.cells a = some v) ∧
      by_id = drop (some (a, (list w).bypass (Linked.before none nodes a) a)) := by
    intro a hfound
    rw [hfirst, Except.ok.injEq] at hfound
    have hmem := List.mem_of_find?_eq_some hfound
    refine ⟨hmem, Option.isSome_iff_exists.mp (hthrough.live a hmem), ?_⟩
    rw [hby_id, hthrough.delete, hfound]
    rfl
  refine ⟨hfirst, ?_, hmissing, fun a ha hlinks => ?_, fun a ha hlinks => ?_⟩
  · cases hsome : nodes.find? (Linked.passes (store w).heap fun _ => test) with
    | none =>
      rw [hmissing (hsome ▸ hfirst), hfirst, hsome, bind_ok, hby_null]
    | some a =>
      rw [hby_id, hthrough.delete_found hsome, ← hby_pointer, hfirst, hsome, bind_ok]
  · obtain ⟨hmem, ⟨v, hv⟩, hdropped⟩ := hfound a ha
    obtain ⟨w', hw'⟩ := (hneeds a _ v hv).1 hlinks
    obtain ⟨hlist, hothers, horder, hcells⟩ := hdrop _ _ _ hw'
    have hbypass := hthrough.bypass hmem
    have hnodup := hthrough.leads.nodup
    refine ⟨w', hdropped.trans hw', ⟨hlist ▸ hbypass.leads, fun b hb => ?_⟩, hnodup.erase a,
      horder.trans hbypass.nodes, ?_, hothers⟩
    · have hne : b ≠ a := ((hnodup.mem_erase_iff).mp hb).1
      rw [hcells, hbypass.live b hb]
      simpa using hne
    · have hfreed := hcells a
      simpa using hfreed
  · obtain ⟨-, ⟨v, hv⟩, hdropped⟩ := hfound a ha
    exact hdropped.trans ((hneeds a _ v hv).2 hlinks)

private theorem isSome_cells_free {A : Type} {h k : Heap A} (hsame : ∀ b, (k.cells b).isSome = (h.cells b).isSome)
    (a b : Nat) : ((k.free a).cells b).isSome = (b ≠ a && (h.cells b).isSome) := by
  rw [Heap.cells_free, ← hsame]
  by_cases hb : b = a <;> simp [hb]

private theorem dropped_call {w w' : Pointers} {a : Nat} {l : Linked} (h : w.drop_call (some (a, l)) = ok w') :
    Dropped calls call_store (fun w => (w.dialogs, w.transactions)) w w' a l := by
  obtain ⟨m, hcleanup, h⟩ := bind_eq_ok_iff.mp h
  obtain ⟨m₁, hblocks, rfl⟩ := cleanup_call_blocks hcleanup
  cases h
  exact ⟨rfl, rfl, hblocks.calls.1, fun b => isSome_cells_free hblocks.calls.2 a b⟩

private theorem dropped_dialog {w w' : Pointers} {a : Nat} {l : Linked} (h : w.drop_dialog (some (a, l)) = ok w') :
    Dropped dialogs dialog_store (fun w => (w.calls, w.transactions)) w w' a l := by
  obtain ⟨m, hcleanup, h⟩ := bind_eq_ok_iff.mp h
  obtain ⟨m₁, hblocks, rfl⟩ := cleanup_dialog_blocks hcleanup
  cases h
  exact ⟨rfl, rfl, hblocks.dialogs.1, fun b => isSome_cells_free hblocks.dialogs.2 a b⟩

private theorem dropped_transaction {w w' : Pointers} {a : Nat} {l : Linked}
    (h : w.drop_transaction (some (a, l)) = ok w') :
    Dropped transactions transaction_store (fun w => (w.calls, w.dialogs)) w w' a l := by
  obtain ⟨m, hcleanup, h⟩ := bind_eq_ok_iff.mp h
  obtain ⟨m₁, hblocks, rfl⟩ := cleanup_transaction_blocks hcleanup
  cases h
  exact ⟨rfl, rfl, hblocks.transactions.1, fun b => isSome_cells_free hblocks.transactions.2 a b⟩

private theorem needs_drop_call {w : Pointers} {a : Nat} {c : sip_call_t} (l : Linked)
    (hc : w.call_store.heap.cells a = some c) : Needs (w.drop_call (some (a, l))) (w.call_links a) := by
  have hcleanup := @needs_cleanup_call (w.machine.with_calls { w.machine.worker.calls with
    list := l.nodes w.machine.worker.calls.heap }) a c hc
  have hneeds := hcleanup.bind fun m _ => needs_ok { w with calls := l, machine := m }
  rw [and_true] at hneeds
  have hlinks : w.call_links a ↔ ∀ dialog, some dialog ∈ c.dialog.items →
      (w.dialog_store.heap.cells dialog).isSome := by
    simp [call_links, hc]
  rw [hlinks]
  exact hneeds

private theorem needs_drop_dialog {w : Pointers} {a : Nat} {d : sip_dialog_t} (l : Linked)
    (hd : w.dialog_store.heap.cells a = some d) : Needs (w.drop_dialog (some (a, l))) (w.dialog_links a) := by
  have hcleanup := @needs_cleanup_dialog (w.machine.with_dialogs { w.machine.worker.dialogs with
    list := l.nodes w.machine.worker.dialogs.heap }) a d hd
  have hneeds := hcleanup.bind fun m _ => needs_ok { w with dialogs := l, machine := m }
  rw [and_true] at hneeds
  have hlinks : w.dialog_links a ↔ (∀ transaction, some transaction ∈ d.transaction.items →
      (w.transaction_store.heap.cells transaction).isSome) ∧
      ∀ call, d.call = some call → (w.call_store.heap.cells call).isSome := by
    simp [dialog_links, hd]
  rw [hlinks]
  exact hneeds

private theorem needs_drop_transaction {w : Pointers} {a : Nat} {t : sip_transaction_t} (l : Linked)
    (ht : w.transaction_store.heap.cells a = some t) :
    Needs (w.drop_transaction (some (a, l))) (w.transaction_links a) := by
  have hcleanup := @needs_cleanup_transaction (w.machine.with_transactions { w.machine.worker.transactions with
    list := l.nodes w.machine.worker.transactions.heap }) a t ht
  have hneeds := hcleanup.bind fun m _ => needs_ok { w with transactions := l, machine := m }
  rw [and_true] at hneeds
  have hlinks : w.transaction_links a ↔ ∀ dialog, t.dialog = some dialog →
      (w.dialog_store.heap.cells dialog).isSome := by
    simp [transaction_links, ht]
  rw [hlinks]
  exact hneeds

/-- Deleting by identifier is deleting what is found by identifier: the same links, records
and freed block, or the same fault of the cleanup, where the record found has a link that was
freed. -/
theorem delete_by_id_agrees (w : Pointers) (nodes : List Nat) (id : Bytes) (length : Nat) (hlength : length ≠ 0) :
    (w.calls.Through w.call_store.heap nodes →
      Agree calls call_store (fun w => (w.dialogs, w.transactions)) call_links w nodes (is_call id length)
        (w.find_call_by_id (some id) length) (w.delete_call_by_id (some id) length) w.delete_call_by_pointer) ∧
    (w.dialogs.Through w.dialog_store.heap nodes → ∀ (to_tag : Bytes) (to_tag_length : Nat),
      Agree dialogs dialog_store (fun w => (w.calls, w.transactions)) dialog_links w nodes
        (is_dialog id length to_tag to_tag_length)
        (w.find_dialog_by_id (some id) length (some to_tag) to_tag_length)
        (w.delete_dialog_by_id (some id) length (some to_tag) to_tag_length) w.delete_dialog_by_pointer) ∧
    (w.transactions.Through w.transaction_store.heap nodes →
      Agree transactions transaction_store (fun w => (w.calls, w.dialogs)) transaction_links w nodes
        (is_transaction id length)
        (w.find_transaction_by_id (some id) length) (w.delete_transaction_by_id (some id) length)
        w.delete_transaction_by_pointer) := by
  refine ⟨fun hthrough => ?_, fun hthrough to_tag to_tag_length => ?_, fun hthrough => ?_⟩
  · refine agree_of_drop hthrough ?_ ?_ (fun _ => rfl) rfl rfl (fun _ _ _ => dropped_call) fun _ l _ => needs_drop_call l
    · simp only [find_call_by_id, hlength, or_false]
      rfl
    · simp only [delete_call_by_id, hlength, if_false]
      rfl
  · refine agree_of_drop hthrough ?_ ?_ (fun _ => rfl) rfl rfl (fun _ _ _ => dropped_dialog) fun _ l _ =>
      needs_drop_dialog l
    · simp only [find_dialog_by_id, hlength, or_false]
      rfl
    · simp only [delete_dialog_by_id, hlength, if_false]
      rfl
  · refine agree_of_drop hthrough ?_ ?_ (fun _ => rfl) rfl rfl (fun _ _ _ => dropped_transaction) fun _ l _ =>
      needs_drop_transaction l
    · simp only [find_transaction_by_id, hlength, or_false]
      rfl
    · simp only [delete_transaction_by_id, hlength, if_false]
      rfl

/-- A worker with two calls, two dialogs and two transactions of the same keys, the second ones
linked with each other. -/
def doubled : Pointers where
  calls := ⟨some 1, fun a => if a = 1 then some 0 else none⟩
  dialogs := ⟨some 1, fun a => if a = 1 then some 0 else none⟩
  transactions := ⟨some 1, fun a => if a = 1 then some 0 else none⟩
  machine :=
    { worker :=
        { queue := 0
          calls :=
            let call := new_call (ascii "c") 1
            (Store.empty.push call).push { call with dialog := call.dialog.add 1 }
          dialogs :=
            let dialog := new_dialog (ascii "c") 1 (ascii "0000000000000000")
            (Store.empty.push dialog).push { dialog with transaction := dialog.transaction.add 1, call := some 1 }
          transactions :=
            let transaction := new_transaction (ascii "c") 1
            (Store.empty.push transaction).push { transaction with dialog := some 1 }
          server_socket := 3 }
      env :=
        { malloc := fun _ => true
          sendto := fun _ => true
          epfd := 4
          timer := fun _ => ⟨true, true, true, true⟩
          rand := fun _ => 0 }
      events := 0
      sent := []
      timers := []
      freed := [] }

private theorem doubled_links :
    doubled.call_links 1 ∧ doubled.dialog_links 1 ∧ doubled.transaction_links 1 := by
  have hcall : ∃ c, doubled.call_store.heap.cells 1 = some c ∧ ∀ slot ∈ c.dialog.items, slot = none ∨ slot = some 1 :=
    ⟨_, rfl, by decide⟩
  have hdialog : ∃ d, doubled.dialog_store.heap.cells 1 = some d ∧ d.call = some 1 ∧
      ∀ slot ∈ d.transaction.items, slot = none ∨ slot = some 1 :=
    ⟨_, rfl, rfl, by decide⟩
  have htransaction : ∃ t, doubled.transaction_store.heap.cells 1 = some t ∧ t.dialog = some 1 := ⟨_, rfl, rfl⟩
  refine ⟨fun c hc dialog hslot => ?_, fun d hd => ⟨fun transaction hslot => ?_, fun call hlink => ?_⟩,
    fun t ht dialog hlink => ?_⟩
  · obtain ⟨c', hc', hslots⟩ := hcall
    obtain rfl := Option.some.inj (hc.symm.trans hc')
    obtain rfl : dialog = 1 := by simpa using hslots _ hslot
    rfl
  · obtain ⟨d', hd', -, hslots⟩ := hdialog
    obtain rfl := Option.some.inj (hd.symm.trans hd')
    obtain rfl : transaction = 1 := by simpa using hslots _ hslot
    rfl
  · obtain ⟨d', hd', hcalled, -⟩ := hdialog
    obtain rfl := Option.some.inj (hd.symm.trans hd')
    obtain rfl := Option.some.inj (hlink.symm.trans hcalled)
    rfl
  · obtain ⟨t', ht', hled⟩ := htransaction
    obtain rfl := Option.some.inj (ht.symm.trans ht')
    obtain rfl := Option.some.inj (hlink.symm.trans hled)
    rfl

/-- Each of the three deletions takes the second record, which is the first in its list. -/
theorem doubled_agrees :
    (∃ w', doubled.delete_call_by_id (some (ascii "c")) 1 = ok w' ∧
      Removed calls call_store (fun w => (w.dialogs, w.transactions)) doubled [1, 0] 1 w') ∧
    (∃ w', doubled.delete_dialog_by_id (some (ascii "c")) 1 (some (ascii "0000000000000000")) 16 = ok w' ∧
      Removed dialogs dialog_store (fun w => (w.calls, w.transactions)) doubled [1, 0] 1 w') ∧
    ∃ w', doubled.delete_transaction_by_id (some (ascii "c")) 1 = ok w' ∧
      Removed transactions transaction_store (fun w => (w.calls, w.dialogs)) doubled [1, 0] 1 w' := by
  obtain ⟨hcalls, hdialogs, htransactions⟩ := delete_by_id_agrees doubled [1, 0] (ascii "c") 1 (by decide)
  obtain ⟨hcall, hdialog, htransaction⟩ := doubled_links
  refine ⟨?_, ?_, ?_⟩
  · exact (hcalls ⟨.cons (.cons .nil), by decide⟩).removed 1 (by decide +kernel) hcall
  · exact (hdialogs ⟨.cons (.cons .nil), by decide⟩ (ascii "0000000000000000") 16).removed 1 (by decide +kernel) hdialog
  · exact (htransactions ⟨.cons (.cons .nil), by decide⟩).removed 1 (by decide +kernel) htransaction

private theorem head_eq_none_iff {A : Type} {l : Linked} {s : Store A} (h : l.Through s.heap s.list) :
    l.head = none ↔ s.list = [] := by
  obtain ⟨hleads, -⟩ := h
  generalize l.head = p, s.list = nodes at hleads
  cases hleads <;> simp

private theorem find_refines {A : Type} {l : Linked} {s : Store A} (h : l.Through s.heap s.list) (length : Nat)
    (test : A → Bool) : (if l.head = none ∨ length = 0 then ok none else l.find s.heap fun _ => test) =
      if s.list = [] ∨ length = 0 then ok none else s.find test := by
  simp only [head_eq_none_iff h, h.find_eq]

/-- A deletion by pointer, in both ways to write the unlinking. -/
private theorem unlink_refines {A : Type} {l : Linked} {s : Store A} (h : l.Through s.heap s.list) (a : Nat)
    {drop : Option (Nat × Linked) → Result Pointers} {cleanup : Option (Store A) → Result Machine}
    (hnone : (do let w' ← drop none; ok w'.machine) = cleanup none)
    (hsome : ∀ l, (do let w' ← drop (some (a, l)); ok w'.machine) =
      cleanup (some { s with list := l.nodes s.heap })) :
    (do let w' ← l.delete s.heap (fun current _ => current == a) >>= drop; ok w'.machine) =
      s.unlink a >>= cleanup := by
  rw [h.delete_pointer, h.unlink_eq, bind_ok, bind_ok]
  split
  · exact hsome _
  · exact hnone

private theorem drop_machine {x : Result Machine} (f : Machine → Pointers) (hf : ∀ m, (f m).machine = m) :
    (do let w' ← (do let m ← x; ok (f m)); ok w'.machine) = x := by
  cases x with
  | error fault => rfl
  | ok m => exact congrArg ok (hf m)

/-- The functions over pointers do what those over the lists of a worker do. -/
theorem pointers_refine (w : Pointers) :
    (w.calls.Through w.call_store.heap w.call_store.list →
      (∀ call_id length, w.find_call_by_id call_id length =
        sip_utils.find_call_by_id w.machine.worker.calls call_id length) ∧
      ∀ a, (do let w' ← w.delete_call_by_pointer (some a); ok w'.machine) =
        sip_utils.delete_call_by_pointer w.machine a) ∧
    (w.dialogs.Through w.dialog_store.heap w.dialog_store.list →
      (∀ from_tag length to_tag to_tag_length, w.find_dialog_by_id from_tag length to_tag to_tag_length =
        sip_utils.find_dialog_by_id w.machine.worker.dialogs from_tag length to_tag to_tag_length) ∧
      ∀ a, (do let w' ← w.delete_dialog_by_pointer (some a); ok w'.machine) =
        sip_utils.delete_dialog_by_pointer w.machine a) ∧
    (w.transactions.Through w.transaction_store.heap w.transaction_store.list →
      (∀ branch length, w.find_transaction_by_id branch length =
        sip_utils.find_transaction_by_id w.machine.worker.transactions branch length) ∧
      ∀ a, (do let w' ← w.delete_transaction_by_pointer (some a); ok w'.machine) =
        sip_utils.delete_transaction_by_pointer w.machine a) := by
  refine ⟨fun h => ⟨fun call_id length => ?_, fun a => ?_⟩, fun h => ⟨fun from_tag length to_tag to_tag_length => ?_,
    fun a => ?_⟩, fun h => ⟨fun branch length => ?_, fun a => ?_⟩⟩
  · cases call_id with
    | none => rfl
    | some call_id => exact find_refines h length _
  · exact unlink_refines h a rfl fun l => drop_machine _ fun _ => rfl
  · cases from_tag with
    | none => rfl
    | some from_tag => exact find_refines h length _
  · exact unlink_refines h a rfl fun l => drop_machine _ fun _ => rfl
  · cases branch with
    | none => rfl
    | some branch => exact find_refines h length _
  · exact unlink_refines h a rfl fun l => drop_machine _ fun _ => rfl

end Pointers

end mock_uas.sip_utils
