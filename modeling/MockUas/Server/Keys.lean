import MockUas.Server.Phases

open clib
open mock_uas.sip_message
open mock_uas.sip_utils

namespace mock_uas.sip_server

/-- What a request or a delete event is matched to a transaction by: the recorded length of
the branch, and as much of the branch as a transaction keeps. -/
structure Key where
  branch_length : Nat
  branch : Text SIP_BRANCH_MAX_LENGTH
  deriving DecidableEq

def key_of (t : sip_transaction_t) : Key := ⟨t.branch_length, t.branch⟩

def request_key (message : sip_message_t) : Key := ⟨message.branch_length, stored_branch message⟩

def event_key (event : transaction_delete_t) : Key := ⟨event.branch_length, event.branch⟩

/-- The branch of a request, as far as its recorded length goes. -/
def branch_value (message : sip_message_t) : Bytes := (branch_text message).take message.branch_length

/-- A branch that a transaction keeps whole. -/
def KeepsBranch (message : sip_message_t) : Prop :=
  ((branch_text message).take message.branch_length).length ≤ SIP_BRANCH_MAX_LENGTH

instance (message : sip_message_t) : Decidable (KeepsBranch message) := Nat.decLe _ _

/-- A delete event keeps its branch the way a transaction does. -/
def Stamped (event : transaction_delete_t) : Prop :=
  printed SIP_BRANCH_MAX_LENGTH (precision (intCast event.branch_length) event.branch.bytes) = event.branch

theorem Stamped.of_delete_event {queue : Nat} {t : sip_transaction_t} (h : Held queue t) (serial owner : Nat) :
    Stamped (delete_event serial owner t) ∧ event_key (delete_event serial owner t) = key_of t := by
  have hbranch : (delete_event serial owner t).branch = t.branch := h.branch
  constructor
  · rw [Stamped, hbranch]
    exact h.branch
  · rw [event_key, hbranch]
    rfl

private theorem nul_not_mem_branch_text (message : sip_message_t) : NUL ∉ branch_text message := nul_not_mem_cstr _ _

theorem length_branch_text {message : sip_message_t} (h : Request message) :
    (branch_text message).length < 2 ^ 31 := by
  obtain ⟨⟨branch, hbranch, hterm⟩, -⟩ := h.branch
  have hlt := length_cstr_lt hterm
  rw [branch_text, hbranch, Option.getD_some]
  rw [h.buffer, BUFFER_SIZE] at hlt
  omega

/-- The key of a request is made of its branch. -/
theorem request_key_eq {message : sip_message_t} (h : Request message) :
    request_key message = ⟨message.branch_length, printed SIP_BRANCH_MAX_LENGTH (branch_value message)⟩ := by
  rw [request_key, stored_branch, precision_of_recorded h.branch_length (length_branch_text h)]
  rfl

private theorem precision_text {capacity n : Nat} (hcapacity : capacity < 2 ^ 31) (hn : Recorded n) (text : Text capacity) :
    precision (intCast n) text.bytes = text.bytes.take n :=
  precision_of_recorded hn (text.fits.trans_lt hcapacity)

/-- A request leads to the transactions with its key, as long as they keep its branch whole,
and else to none. -/
theorem matches_branch_iff {queue : Nat} {message : sip_message_t} {t : sip_transaction_t} (hrequest : Request message)
    (hheld : Held queue t) :
    matches_branch (branch_text message) message.branch_length t = true ↔
      KeepsBranch message ∧ key_of t = request_key message := by
  have hfits := t.branch.fits
  have hprinted : (stored_branch message).bytes = ((branch_text message).take message.branch_length).take
      SIP_BRANCH_MAX_LENGTH := by
    rw [stored_branch, bytes_printed _ (nul_not_mem_precision (nul_not_mem_branch_text message)),
      precision_of_recorded hrequest.branch_length (length_branch_text hrequest)]
  simp only [matches_branch, Bool.and_eq_true, beq_iff_eq, strncmp_eq_true_iff, key_of, request_key, Key.mk.injEq]
  constructor
  · rintro ⟨hlength, htake⟩
    have hkeeps : KeepsBranch message := by
      rw [KeepsBranch, ← htake, List.length_take]
      omega
    refine ⟨hkeeps, hlength, ?_⟩
    have hbranch := congrArg Text.bytes hheld.branch
    rw [bytes_printed _ (nul_not_mem_precision t.branch.clean), precision_text (by decide) hheld.branch_length.2,
      hlength, htake, ← hprinted] at hbranch
    exact (Text.ext hbranch).symm
  · rintro ⟨hkeeps, hlength, hbranch⟩
    refine ⟨hlength, ?_⟩
    rw [hbranch, hprinted, List.take_of_length_le hkeeps, List.take_take, Nat.min_self]

/-- A delete event leads to the transactions with its key. -/
theorem matches_event_iff {queue : Nat} {event : transaction_delete_t} {t : sip_transaction_t} (hevent : Stamped event)
    (hheld : Held queue t) :
    matches_branch event.branch.bytes event.branch_length t = true ↔ key_of t = event_key event := by
  simp only [matches_branch, Bool.and_eq_true, beq_iff_eq, strncmp_eq_true_iff, key_of, event_key, Key.mk.injEq]
  constructor
  · rintro ⟨hlength, htake⟩
    refine ⟨hlength, ?_⟩
    have hprecision : ∀ text : Text SIP_BRANCH_MAX_LENGTH,
        precision (intCast t.branch_length) text.bytes = text.bytes.take t.branch_length :=
      precision_text (by decide) hheld.branch_length.2
    rw [← hheld.branch, ← hevent, hprecision, ← hlength, hprecision, hlength, htake]
  · rintro ⟨hlength, hbranch⟩
    exact ⟨hlength, by rw [hbranch]⟩

section Lookup

variable {worker : worker_thread_t} {message : sip_message_t} {event : transaction_delete_t} {a : Nat}

theorem transaction_for_eq_none_iff (h : WellFormed worker) (hrequest : Request message) :
    transaction_for worker message = none ↔ (KeepsBranch message →
      ∀ a t, worker.transactions.heap.cells a = some t → key_of t ≠ request_key message) := by
  rw [transaction_for, h.transactions.first_eq_none_iff]
  constructor
  · intro hnone hkeeps a t ht hkey
    have hmatches := (matches_branch_iff hrequest (h.held ht)).mpr ⟨hkeeps, hkey⟩
    rw [hnone a t ht] at hmatches
    cases hmatches
  · intro hfresh a t ht
    rw [Bool.eq_false_iff]
    intro hmatches
    obtain ⟨hkeeps, hkey⟩ := (matches_branch_iff hrequest (h.held ht)).mp hmatches
    exact hfresh hkeeps a t ht hkey

theorem transaction_for_eq_some (h : WellFormed worker) (hrequest : Request message)
    (hfound : transaction_for worker message = some a) :
    KeepsBranch message ∧ ∃ t, worker.transactions.heap.cells a = some t ∧ key_of t = request_key message := by
  obtain ⟨-, t, ht, hmatches⟩ := Store.first_eq_some hfound
  obtain ⟨hkeeps, hkey⟩ := (matches_branch_iff hrequest (h.held ht)).mp hmatches
  exact ⟨hkeeps, t, ht, hkey⟩

theorem transaction_for_of_unique (h : WellFormed worker) (hrequest : Request message) (hkeeps : KeepsBranch message)
    {t : sip_transaction_t} (ht : worker.transactions.heap.cells a = some t) (hkey : key_of t = request_key message)
    (hunique : ∀ b u, worker.transactions.heap.cells b = some u → key_of u = request_key message → b = a) :
    transaction_for worker message = some a :=
  h.transactions.first_eq_some_of_unique ht ((matches_branch_iff hrequest (h.held ht)).mpr ⟨hkeeps, hkey⟩)
    fun b u hu hmatches => hunique b u hu ((matches_branch_iff hrequest (h.held hu)).mp hmatches).2

theorem transaction_of_eq_none_iff (h : WellFormed worker) (hevent : Stamped event) :
    transaction_of worker event = none ↔
      ∀ a t, worker.transactions.heap.cells a = some t → key_of t ≠ event_key event := by
  rw [transaction_of, h.transactions.first_eq_none_iff]
  refine forall_congr' fun a => forall_congr' fun t => forall_congr' fun ht => ?_
  rw [Bool.eq_false_iff, Ne, matches_event_iff hevent (h.held ht)]

theorem transaction_of_eq_some (h : WellFormed worker) (hevent : Stamped event)
    (hfound : transaction_of worker event = some a) :
    ∃ t, worker.transactions.heap.cells a = some t ∧ key_of t = event_key event := by
  obtain ⟨-, t, ht, hmatches⟩ := Store.first_eq_some hfound
  exact ⟨t, ht, (matches_event_iff hevent (h.held ht)).mp hmatches⟩

end Lookup

/-- A step in which a request opens a transaction. -/
def Opens (run : Run) (message : sip_message_t) : Input → Prop
  | .incoming datagram client_addr _ env => Accepted datagram client_addr message ∧
      transaction_for run.worker message = none ∧ env.malloc 0 = true
  | _ => False

/-- A step in which a delete event finds a transaction. -/
def Deletes (run : Run) (transaction : Nat) : Input → Prop
  | .delete event _ => transaction_of run.worker event = some transaction
  | _ => False

instance (run : Run) (input : Input) (P : sip_message_t → Prop) [DecidablePred P] :
    Decidable (∀ message, Opens run message input → P message) :=
  match input with
  | .incoming datagram client_addr _ env =>
    decidable_of_iff (∀ message ∈ accepted_message datagram client_addr,
      transaction_for run.worker message = none → env.malloc 0 = true → P message) (by
      constructor
      · exact fun h message hopens => h message (accepted_iff.mp hopens.1) hopens.2.1 hopens.2.2
      · exact fun h message haccepted hnew hmalloc => h message ⟨accepted_iff.mpr haccepted, hnew, hmalloc⟩)
  | .response .. => isTrue fun _ hopens => hopens.elim
  | .delete .. => isTrue fun _ hopens => hopens.elim

instance (run : Run) (input : Input) (P : Nat → Prop) [DecidablePred P] :
    Decidable (∀ a, Deletes run a input → P a) :=
  match input with
  | .incoming .. => isTrue fun _ hdeletes => hdeletes.elim
  | .response .. => isTrue fun _ hdeletes => hdeletes.elim
  | .delete event _ => inferInstanceAs (Decidable (∀ a ∈ transaction_of run.worker event, P a))

theorem OpenedFor.key {queue : Nat} {message : Owned sip_message_t} {t : sip_transaction_t}
    (h : OpenedFor queue message t) : key_of t = request_key message.contents := by
  rw [key_of, h.branch, h.branch_length]
  rfl

@[simp] theorem key_of_disband (slots : List (Option Nat)) (a : Nat) (t : sip_transaction_t) :
    key_of (disband slots a t) = key_of t := by
  unfold disband
  split <;> rfl

@[simp] theorem key_of_answered (t : sip_transaction_t) (opened : Owned sip_message_t) (status_code : Nat)
    (output : Bytes) : key_of (answered t opened status_code output) = key_of t := rfl

private theorem key_set {before : Store sip_transaction_t} {transaction : Nat} {t : sip_transaction_t}
    (ht : before.heap.cells transaction = some t) (t' : sip_transaction_t) (hkey : key_of t' = key_of t) (a : Nat) :
    ((before.set transaction t').heap.cells a).map key_of = (before.heap.cells a).map key_of := by
  rw [Store.heap_set, Heap.cells_set ht]
  split
  · rename_i ha
    rw [ha, ht, Option.map_some, Option.map_some, hkey]
  · rfl

/-- The keys of the transactions that a known request leaves. -/
theorem Known.keys {m m' : Machine} {message opened : Owned sip_message_t} {transaction : Nat}
    {t : sip_transaction_t} (h : Known m message transaction t opened m')
    (hcell : m.worker.transactions.heap.cells transaction = some t) (a : Nat) :
    (m'.worker.transactions.heap.cells a).map key_of = (m.worker.transactions.heap.cells a).map key_of := by
  cases h with
  | dropped _ _ hm =>
    rw [hm]
    rfl
  | resent _ _ _ hm =>
    rw [hm]
    rfl
  | rewritten _ _ _ hconversed =>
    rw [show m'.worker.transactions = _ from hconversed.transactions]
    exact key_set hcell _ (by rfl) a
  | acked _ _ _ hconversed =>
    rw [hconversed.transactions]
    exact key_set hcell _ (by rfl) a

/-- What a step does to the key at an address of a transaction. -/
inductive KeyMove (run run' : Run) (input : Input) (a : Nat) : Prop where
  | kept (hkey : (run'.worker.transactions.heap.cells a).map key_of =
      (run.worker.transactions.heap.cells a).map key_of) (hstays : ¬ Deletes run a input)
  | opened {message : sip_message_t} (hopens : Opens run message input)
    (ha : a = run.worker.transactions.heap.next)
    (hkey : (run'.worker.transactions.heap.cells a).map key_of = some (request_key message))
  | deleted (hdeletes : Deletes run a input) (hgone : run'.worker.transactions.heap.cells a = none)

/-- A transaction that is deleted is removed, and the keys of the others stay. -/
theorem Removed.keys {before after : worker_thread_t} {transaction : Nat} {t : sip_transaction_t}
    {armers : List (Nat × sip_transaction_t)} (h : Removed before transaction t armers after) (a : Nat) :
    (after.transactions.heap.cells a).map key_of =
      if a = transaction then none else (before.transactions.heap.cells a).map key_of := by
  obtain ⟨slots, hcells⟩ := h.cells
  rw [hcells]
  split
  · rfl
  · rw [Option.map_map]
    exact congrArg (fun f => (before.transactions.heap.cells a).map f) (funext (key_of_disband slots a))

/-- A step opens at most one transaction, with the key of its request, deletes at most one,
and keeps the keys of the others. -/
theorem Run.Stepped.keys {run run' : Run} {input : Input} (h : Run.Stepped run input run') (a : Nat) :
    KeyMove run run' input a := by
  cases h with
  | unhandled => exact .kept rfl id
  | response => exact .kept rfl id
  | request haccepted hhandled =>
    cases hhandled with
    | unallocated _ _ _ hm =>
      subst hm
      exact .kept rfl id
    | opened hnew hmalloc hopened =>
      rw [Run.finish]
      by_cases ha : a = run.worker.transactions.heap.next
      · refine .opened ⟨haccepted, hnew, hmalloc⟩ ha ?_
        rw [hopened.transactions, ha]
        exact (congrArg (Option.map key_of) (Heap.cells_alloc_self _ _)).trans (congrArg some hopened.opened.key)
      · refine .kept ?_ id
        rw [hopened.transactions, Store.heap_push, Heap.cells_alloc]
        exact congrArg (Option.map key_of) (if_neg ha)
    | known _ hcell _ hknown => exact .kept (hknown.keys hcell a) id
  | delete hdeleted =>
    cases hdeleted with
    | missing hnone hm =>
      subst hm
      refine .kept rfl fun hdeletes => ?_
      rw [Deletes, show transaction_of run.worker _ = none from hnone] at hdeletes
      cases hdeletes
    | @removed transaction t _ _ hfound _ hdeletion =>
      have hkeys := hdeletion.removed.keys a
      by_cases ha : a = transaction
      · rw [if_pos ha, Option.map_eq_none_iff] at hkeys
        exact .deleted (ha ▸ hfound) hkeys
      · rw [if_neg ha] at hkeys
        refine .kept hkeys fun hdeletes => ha ?_
        rw [Deletes, show transaction_of run.worker _ = some transaction from hfound, Option.some.injEq] at hdeletes
        exact hdeletes.symm

/-- A transaction that is not deleted stays, with its key. -/
theorem KeyMove.stays {run run' : Run} {input : Input} {a : Nat} (h : KeyMove run run' input a)
    (hdeletes : ¬ Deletes run a input) {t : sip_transaction_t}
    (ht : run.worker.transactions.heap.cells a = some t) :
    ∃ t', run'.worker.transactions.heap.cells a = some t' ∧ key_of t' = key_of t := by
  cases h with
  | kept hkey =>
    rw [ht] at hkey
    exact Option.map_eq_some_iff.mp hkey
  | opened _ ha =>
    rw [ha, Heap.cells_next] at ht
    cases ht
  | deleted hdeletes' => exact absurd hdeletes' hdeletes

/-- A transaction was there before with its key, or was opened for it. -/
theorem KeyMove.comes {run run' : Run} {input : Input} {a : Nat} (h : KeyMove run run' input a)
    {t' : sip_transaction_t} (ht' : run'.worker.transactions.heap.cells a = some t') :
    (∃ t, run.worker.transactions.heap.cells a = some t ∧ key_of t = key_of t') ∨
      ∃ message, Opens run message input ∧ a = run.worker.transactions.heap.next ∧ key_of t' = request_key message := by
  cases h with
  | kept hkey =>
    rw [ht'] at hkey
    exact .inl (Option.map_eq_some_iff.mp hkey.symm)
  | opened hopens ha hkey =>
    rw [ht', Option.map_some, Option.some.injEq] at hkey
    exact .inr ⟨_, hopens, ha, hkey⟩
  | deleted _ hgone =>
    rw [hgone] at ht'
    cases ht'

/-- The transaction a request opens holds the request. -/
theorem Run.Stepped.opens {run run' : Run} {input : Input} {message : sip_message_t} (h : Run.Stepped run input run')
    (hopens : Opens run message input) :
    ∃ t opened, run'.worker.transactions.heap.cells run.worker.transactions.heap.next = some t ∧
      t.message = some opened ∧ SameRequest opened.contents message := by
  cases h with
  | unhandled _ hrejected => exact absurd hopens.1 (hrejected message)
  | response => exact hopens.elim
  | request haccepted hhandled =>
    obtain ⟨haccepted', hnew, hmalloc⟩ := hopens
    obtain rfl := accepted_unique haccepted haccepted'
    cases hhandled with
    | unallocated _ hfails => exact absurd hmalloc (Bool.eq_false_iff.mp hfails)
    | known hfound => cases hnew.symm.trans hfound
    | @opened t _ _ _ _ hopened =>
      obtain ⟨contents, hholds, hsame⟩ := hopened.opened.message
      refine ⟨t, _, ?_, hholds, hsame⟩
      rw [Run.finish, hopened.transactions]
      exact Heap.cells_alloc_self _ _
  | delete => exact hopens.elim

end mock_uas.sip_server
