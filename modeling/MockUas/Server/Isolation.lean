import MockUas.Server.DeleteEvents

open clib
open mock_uas.sip_message
open mock_uas.sip_utils

namespace mock_uas.sip_server

/-- The value of a request's Call-ID header. -/
def call_id_value (message : sip_message_t) : Bytes :=
  (cstr message.buffer (message.call_id.getD 0)).take message.call_id_length

/-- A request has led from one worker to another, and of the records that were there it has
touched only those its tags and its branch lead to, whatever Call-ID they were created for. -/
structure KeptApart (before : worker_thread_t) (message : sip_message_t) (after : worker_thread_t) : Prop where
  dialogs : ∀ a d, before.dialogs.heap.cells a = some d → dialog_for before message ≠ some a →
    after.dialogs.heap.cells a = some d
  calls : ∀ a c, before.calls.heap.cells a = some c →
    (∀ dialog d, dialog_for before message = some dialog → before.dialogs.heap.cells dialog = some d →
      d.call ≠ some a) → after.calls.heap.cells a = some c
  transactions : ∀ a t, before.transactions.heap.cells a = some t → transaction_for before message ≠ some a →
    after.transactions.heap.cells a = some t

private theorem cells_set_of_other {A : Type} {s : Store A} {x a : Nat} {v w : A} (hcell : s.heap.cells a = some w)
    (hne : some x ≠ some a) : (s.set x v).heap.cells a = some w := by
  rw [Store.heap_set, Heap.cells_set_of_ne fun ha => hne (congrArg some ha.symm), hcell]

private theorem cells_attach_of_ne {dialogs : Store sip_dialog_t} {found : Option Nat} {a : Nat} {d : sip_dialog_t}
    (transaction : Nat) (hcell : dialogs.heap.cells a = some d) (hne : found ≠ some a) :
    (attach dialogs found transaction).heap.cells a = some d := by
  rw [cells_attach, hcell, Option.map_some, if_neg hne]

/-- A request that opens a transaction touches no dialog but the one its tags lead to. -/
private theorem Fate.dialogs_kept {before after : worker_thread_t} {original : Owned sip_message_t} {transaction : Nat}
    {t : sip_transaction_t} {sends : List Sent} (h : Fate before original transaction t after sends) {a : Nat}
    {d : sip_dialog_t} (hcell : before.dialogs.heap.cells a = some d)
    (hne : dialog_for before original.contents ≠ some a) : after.dialogs.heap.cells a = some d := by
  cases h with
  | reinvite _ hfound _ _ _ _ _ hdialogs =>
    rw [hdialogs]
    exact cells_set_of_other hcell (hfound ▸ hne)
  | acked _ _ _ _ _ hdialogs => rw [hdialogs, cells_attach_of_ne transaction hcell hne]
  | refused _ _ _ _ _ _ _ hdialogs => rw [hdialogs, cells_attach_of_ne transaction hcell hne]
  | hung_up _ hfound _ _ _ _ _ _ _ _ hdialogs =>
    rw [hdialogs]
    exact cells_set_of_other hcell (hfound ▸ hne)
  | failed_alone _ _ _ _ _ _ hdialogs => rw [hdialogs, hcell]
  | failed_in_dialog _ _ _ _ _ _ _ hdialogs => rw [hdialogs, Store.heap_push, Heap.cells_alloc_of_cells hcell]
  | failed_in_call _ _ _ _ _ _ _ hdialogs => rw [hdialogs, Store.heap_push, Heap.cells_alloc_of_cells hcell]
  | established _ _ _ _ _ _ _ hdialogs => rw [hdialogs, Store.heap_push, Heap.cells_alloc_of_cells hcell]

/-- It touches no call but that of this dialog. -/
private theorem Fate.calls_kept {before after : worker_thread_t} {original : Owned sip_message_t} {transaction : Nat}
    {t : sip_transaction_t} {sends : List Sent} (h : Fate before original transaction t after sends) {a : Nat}
    {c : sip_call_t} (hcell : before.calls.heap.cells a = some c)
    (hne : ∀ dialog d, dialog_for before original.contents = some dialog →
      before.dialogs.heap.cells dialog = some d → d.call ≠ some a) : after.calls.heap.cells a = some c := by
  cases h with
  | reinvite _ _ _ _ _ _ _ _ hcalls => rw [hcalls, hcell]
  | acked _ _ _ _ _ _ hcalls => rw [hcalls, hcell]
  | refused _ _ _ _ _ _ _ _ hcalls => rw [hcalls, hcell]
  | hung_up _ hfound hdialog _ hcall _ _ _ _ _ _ hcalls =>
    rw [hcalls]
    exact cells_set_of_other hcell (hcall ▸ hne _ _ hfound hdialog)
  | failed_alone _ _ _ _ _ _ _ hcalls => rw [hcalls, hcell]
  | failed_in_dialog _ _ _ _ _ _ _ _ hcalls => rw [hcalls, hcell]
  | failed_in_call _ _ _ _ _ _ _ _ hcalls => rw [hcalls, Store.heap_push, Heap.cells_alloc_of_cells hcell]
  | established _ _ _ _ _ _ _ _ hcalls => rw [hcalls, Store.heap_push, Heap.cells_alloc_of_cells hcell]

private theorem kept_apart_refl (worker : worker_thread_t) (message : sip_message_t) :
    KeptApart worker message worker :=
  ⟨fun _ _ hcell _ => hcell, fun _ _ hcell _ => hcell, fun _ _ hcell _ => hcell⟩

/-- A request whose branch is known touches its transaction and, as an ACK, the dialog its
tags lead to. -/
private theorem Known.kept_apart {m m' : Machine} {message opened : Owned sip_message_t} {transaction : Nat}
    {t : sip_transaction_t} (h : Known m message transaction t opened m')
    (hfound : transaction_for m.worker message.contents = some transaction) :
    KeptApart m.worker message.contents m'.worker := by
  have hset : ∀ {t'}, m'.worker.transactions = m.worker.transactions.set transaction t' →
      ∀ a u, m.worker.transactions.heap.cells a = some u → transaction_for m.worker message.contents ≠ some a →
        m'.worker.transactions.heap.cells a = some u := by
    intro t' htransactions a u hcell hne
    rw [htransactions]
    exact cells_set_of_other hcell (hfound ▸ hne)
  cases h with
  | dropped _ _ hm =>
    rw [hm]
    exact kept_apart_refl _ _
  | resent _ _ _ hm =>
    rw [hm]
    exact kept_apart_refl _ _
  | rewritten _ _ _ hconversed hdialogs hcalls =>
    exact ⟨fun a d hcell _ => by rw [hdialogs, hcell], fun a c hcell _ => by rw [hcalls, hcell],
      hset hconversed.transactions⟩
  | acked _ _ _ hconversed hdialogs hcalls =>
    refine ⟨fun a d hcell hne => ?_, fun a c hcell _ => by rw [hcalls, hcell], hset hconversed.transactions⟩
    rw [hdialogs]
    split
    · exact cells_attach_of_ne transaction hcell hne
    · exact hcell

theorem Handled.kept_apart {m m' : Machine} {message : Owned sip_message_t} (h : Handled m message m') :
    KeptApart m.worker message.contents m'.worker := by
  cases h with
  | unallocated _ _ _ hm =>
    rw [hm]
    exact kept_apart_refl _ _
  | opened _ _ hopened =>
    refine ⟨fun a d hcell hne => hopened.fate.dialogs_kept hcell hne,
      fun a c hcell hne => hopened.fate.calls_kept hcell hne, fun a t hcell _ => ?_⟩
    rw [hopened.transactions, Store.heap_push, Heap.cells_alloc_of_cells hcell]
  | known hfound _ _ hknown => exact hknown.kept_apart hfound

/-- In every reachable state a request leaves every record as it is that its tags and its
branch do not lead to. -/
theorem calls_kept_apart (run : Run) (h : program.Reachable run) (datagram : Datagram) (client_addr : sockaddr_in)
    (message : sip_message_t) (haccepted : Accepted datagram client_addr message) (address : Nat) (env : Environment)
    (run' : Run) (hstep : run.step (.incoming datagram client_addr address env) = ok run') :
    KeptApart run.worker message run'.worker := by
  have hstepped := (step_ends (Reachable.wellFormed h) _).of_eq_ok hstep
  cases hstepped with
  | unhandled _ hrejected => exact absurd haccepted (hrejected message)
  | request haccepted' hhandled =>
    obtain rfl := accepted_unique haccepted haccepted'
    exact hhandled.kept_apart

/-- The state and the links of a dialog, a call and a transaction. -/
def dialog_links (worker : worker_thread_t) (a : Nat) :
    Option (sip_dialog_state_t × Option Nat × Slots MAX_TXNS_PER_DIALOG) :=
  (worker.dialogs.heap.cells a).map fun d => (d.state, d.call, d.transaction)

def call_links (worker : worker_thread_t) (a : Nat) : Option (sip_call_state_t × Slots MAX_DIALOGS_PER_CALL) :=
  (worker.calls.heap.cells a).map fun c => (c.state, c.dialog)

def transaction_links (worker : worker_thread_t) (a : Nat) : Option (sip_transaction_state_t × Option Nat) :=
  (worker.transactions.heap.cells a).map fun t => (t.state, t.dialog)

/-- An INVITE with that Call-ID has opened a transaction in a step that used the addresses
of these records. -/
def CreatedFor (run : Run) (address : worker_thread_t → Nat) (a : Nat) (call_id : Bytes) : Prop :=
  ∃ before message input after, program.Reachable before ∧ Opens before message input ∧
    message.method_type = .INVITE ∧ before.step input = ok after ∧
    Transitions.Path program (fun _ _ => True) after run ∧
    a = address before.worker ∧ address before.worker < address after.worker ∧ call_id_value message = call_id

/-- A request of one Call-ID leaves the dialogs, the calls and the transactions alone that
belong to another. -/
def DialogsSeparate (run : Run) (message : sip_message_t) (run' : Run) : Prop :=
  ∀ a call_id, CreatedFor run (·.dialogs.heap.next) a call_id → call_id ≠ call_id_value message →
    dialog_links run'.worker a = dialog_links run.worker a

def CallsSeparate (run : Run) (message : sip_message_t) (run' : Run) : Prop :=
  ∀ a call_id, CreatedFor run (·.calls.heap.next) a call_id → call_id ≠ call_id_value message →
    call_links run'.worker a = call_links run.worker a

def TransactionsSeparate (run : Run) (message : sip_message_t) (run' : Run) : Prop :=
  ∀ a t opened, run.worker.transactions.heap.cells a = some t → t.message = some opened →
    call_id_value opened.contents ≠ call_id_value message →
    transaction_links run'.worker a = transaction_links run.worker a

/-- A BYE with the tags of the first dialog. -/
def foreign_bye : Datagram where
  bytes := foreign_text (ascii "BYE") (ascii "z9hG4bK2") (ascii "<sip:b@h>;tag=0000000000000000")
  fits := by decide +kernel

/-- An ACK with the branch of the first INVITE. -/
def foreign_ack : Datagram where
  bytes := foreign_text (ascii "ACK") (ascii "z9hG4bK1") (ascii "<sip:b@h>")
  fits := by decide +kernel

/-- A step in which no datagram goes out. -/
def Environment.unsent : Environment := { Environment.obliging with sendto := fun _ => false }

private theorem first_call_id :
    (accepted_message first_invite ⟨2, 5060, 1⟩).map (fun message => (message.method_type, call_id_value message)) =
      some (.INVITE, ascii "c@h") := by
  decide +kernel

private theorem foreign_bye_facts :
    ((program.follow Run.started [arrival first_invite .obliging]).bind fun run : Run =>
      (accepted_message foreign_bye ⟨2, 5060, 1⟩).bind fun message =>
        (run.step (arrival foreign_bye .obliging)).toOption.map fun run' : Run =>
          (call_id_value message, (dialog_links run.worker 0).map (·.1), (dialog_links run'.worker 0).map (·.1),
            (call_links run.worker 0).map (·.1), (call_links run'.worker 0).map (·.1))) =
      some (ascii "j@h", some .CONFIRMED, some .TERMINATED, some .ESTABLISHED, some .TERMINATED) := by
  decide +kernel

private theorem foreign_ack_facts :
    ((program.follow Run.started [arrival first_invite .unsent]).bind fun run : Run =>
      (accepted_message foreign_ack ⟨2, 5060, 1⟩).bind fun message =>
        (run.step (arrival foreign_ack .obliging)).toOption.bind fun run' : Run =>
          (run.worker.transactions.heap.cells 0).bind fun t => t.message.map fun opened =>
            (call_id_value message, call_id_value opened.contents, (transaction_links run.worker 0).map (·.1),
              (transaction_links run'.worker 0).map (·.1))) =
      some (ascii "j@h", ascii "c@h", some .COMPLETED, some .TERMINATED) := by
  decide +kernel

private theorem differ_of_state {A B : Type} {x y : Option (A × B)} {a b : A} (hx : x.map (·.1) = some a)
    (hy : y.map (·.1) = some b) (hne : a ≠ b) : y ≠ x := by
  rintro rfl
  exact hne (Option.some.inj (hx.symm.trans hy))

private theorem next_pos_of_links {A B : Type} {s : Store A} {f : A → B} {b : B}
    (h : ((s.heap.cells 0).map f) = some b) : 0 < s.heap.next := by
  obtain ⟨v, hv, -⟩ := Option.map_eq_some_iff.mp h
  exact Heap.lt_next_of_cells hv

/-- A BYE with another Call-ID ends the dialog and the call its tags lead to, and an ACK
with another Call-ID terminates the transaction its branch leads to. -/
theorem foreign_requests_interfere :
    (∃ run message run', program.Reachable run ∧ Accepted foreign_bye ⟨2, 5060, 1⟩ message ∧
      run.step (arrival foreign_bye .obliging) = ok run' ∧ ¬ DialogsSeparate run message run' ∧
      ¬ CallsSeparate run message run') ∧
    ∃ run message run', program.Reachable run ∧ Accepted foreign_ack ⟨2, 5060, 1⟩ message ∧
      run.step (arrival foreign_ack .obliging) = ok run' ∧ ¬ TransactionsSeparate run message run' := by
  constructor
  · obtain ⟨run, hrun, hfacts⟩ := Option.bind_eq_some_iff.mp foreign_bye_facts
    obtain ⟨message, hmessage, hfacts⟩ := Option.bind_eq_some_iff.mp hfacts
    obtain ⟨run', hrun', hfacts⟩ := Option.map_eq_some_iff.mp hfacts
    simp only [Prod.mk.injEq] at hfacts
    obtain ⟨hforeign, hdialog, hdialog', hcall, hcall'⟩ := hfacts
    obtain ⟨invite, hinvite, hinvite_facts⟩ := Option.map_eq_some_iff.mp first_call_id
    simp only [Prod.mk.injEq] at hinvite_facts
    obtain ⟨hmethod, hown⟩ := hinvite_facts
    have hcreated : ∀ address : worker_thread_t → Nat, address Run.started.worker = 0 → 0 < address run.worker →
        CreatedFor run address 0 (ascii "c@h") := fun address hzero hpos =>
      ⟨Run.started, invite, arrival first_invite .obliging, run, .initial Run.started_initial,
        ⟨accepted_iff.mpr hinvite, rfl, rfl⟩, hmethod, (Transitions.follow_single hrun).2, .refl run, hzero.symm,
        by rwa [hzero], hown⟩
    have hother : ascii "c@h" ≠ call_id_value message := by
      rw [hforeign]
      decide
    obtain ⟨dialog, hdialog_links, -⟩ := Option.map_eq_some_iff.mp hdialog
    obtain ⟨call, hcall_links, -⟩ := Option.map_eq_some_iff.mp hcall
    refine ⟨run, message, run', reachable_of_follow hrun, accepted_iff.mpr hmessage, eq_ok_of_toOption hrun', ?_, ?_⟩
    · intro hseparate
      refine differ_of_state hdialog hdialog' nofun (hseparate 0 _ (hcreated _ rfl ?_) hother)
      exact next_pos_of_links hdialog_links
    · intro hseparate
      refine differ_of_state hcall hcall' nofun (hseparate 0 _ (hcreated _ rfl ?_) hother)
      exact next_pos_of_links hcall_links
  · obtain ⟨run, hrun, hfacts⟩ := Option.bind_eq_some_iff.mp foreign_ack_facts
    obtain ⟨message, hmessage, hfacts⟩ := Option.bind_eq_some_iff.mp hfacts
    obtain ⟨run', hrun', hfacts⟩ := Option.bind_eq_some_iff.mp hfacts
    obtain ⟨t, ht, hfacts⟩ := Option.bind_eq_some_iff.mp hfacts
    obtain ⟨opened, hopened, hfacts⟩ := Option.map_eq_some_iff.mp hfacts
    simp only [Prod.mk.injEq] at hfacts
    obtain ⟨hforeign, hown, hbefore, hafter⟩ := hfacts
    refine ⟨run, message, run', reachable_of_follow hrun, accepted_iff.mpr hmessage, eq_ok_of_toOption hrun', ?_⟩
    intro hseparate
    refine differ_of_state hbefore hafter nofun (hseparate 0 t opened ht hopened ?_)
    rw [hforeign, hown]
    decide

private theorem foreign_invite_facts :
    ((program.follow Run.started [arrival first_invite .obliging]).bind fun run : Run =>
      (accepted_message foreign_invite ⟨2, 5060, 1⟩).bind fun message =>
        (run.step (arrival foreign_invite .obliging)).toOption.map fun run' : Run =>
          (dialog_for run.worker message, run.worker.dialogs.list, run'.worker.dialogs.list)) =
      some (none, [0], [1, 0]) := by
  decide +kernel

/-- An INVITE of another call leaves the first dialog as it is. -/
theorem foreign_invite_kept_apart :
    ∃ (run : Run) (message : sip_message_t) (run' : Run), dialog_for run.worker message = none ∧
      run.worker.dialogs.list = [0] ∧ run'.worker.dialogs.list = [1, 0] ∧
      KeptApart run.worker message run'.worker := by
  obtain ⟨run, hrun, hfacts⟩ := Option.bind_eq_some_iff.mp foreign_invite_facts
  obtain ⟨message, hmessage, hfacts⟩ := Option.bind_eq_some_iff.mp hfacts
  obtain ⟨run', hrun', hfacts⟩ := Option.map_eq_some_iff.mp hfacts
  simp only [Prod.mk.injEq] at hfacts
  obtain ⟨hnone, hbefore, hafter⟩ := hfacts
  refine ⟨run, message, run', hnone, hbefore, hafter, ?_⟩
  exact calls_kept_apart run (reachable_of_follow hrun) foreign_invite ⟨2, 5060, 1⟩ message (accepted_iff.mpr hmessage)
    0 .obliging run' (eq_ok_of_toOption hrun')

end mock_uas.sip_server
