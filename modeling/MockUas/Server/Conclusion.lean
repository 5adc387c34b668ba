import MockUas.Server.DeleteEvents
import MockUas.Server.Lifecycle

open clib
open mock_uas.sip_message
open mock_uas.sip_utils

namespace mock_uas.sip_server

/-- System calls of a step of which every allocation and every timer succeeds. Datagrams
may fail to go out. -/
structure Provided (env : Environment) : Prop where
  malloc : ∀ n, env.malloc n = true
  timer : ∀ n, timer_manager.Succeeds env.epfd (env.timer n)

/-- An INVITE whose tags lead to a dialog. -/
def Reinvites (worker : worker_thread_t) (message : sip_message_t) : Prop :=
  message.method_type = .INVITE ∧ dialog_for worker message ≠ none

instance (worker : worker_thread_t) : DecidablePred (Reinvites worker) :=
  fun message => inferInstanceAs (Decidable (message.method_type = .INVITE ∧ dialog_for worker message ≠ none))

/-- A transaction that a final response or an ACK has concluded. -/
def Ended (t : sip_transaction_t) : Prop := t.state = .COMPLETED ∨ t.state = .TERMINATED

instance : DecidablePred Ended :=
  fun t => inferInstanceAs (Decidable (t.state = .COMPLETED ∨ t.state = .TERMINATED))

/-- The transaction a request has opened is concluded, one delete event of it is armed, and
a final response was handed to `send_message`, if the request is no ACK. -/
structure Concluded (run run' : Run) (message : sip_message_t) : Prop where
  transaction : ∃ t, run'.worker.transactions.heap.cells run.worker.transactions.heap.next = some t ∧ Ended t ∧
    (∃ opened, t.message = some opened ∧ SameRequest opened.contents message) ∧
    ∃ event, run'.pending = run.pending ++ [event] ∧ event.owner = run.worker.transactions.heap.next ∧
      event_key event = key_of t
  answered : message.method_type ≠ .ACK → ∃ sends, run'.sent = run.sent ++ sends ∧
    ∃ s ∈ sends, s.transaction = some run.worker.transactions.heap.next ∧ 200 ≤ s.status_code

/-- A step with nothing but sends failing, in which no INVITE in a dialog opens a
transaction. -/
def Concluding (run : Run) (input : Input) : Prop :=
  Provided input.env ∧ ∀ message, Opens run message input → ¬ Reinvites run.worker message

/-- Of each key there are as many deletions pending as transactions in the list. -/
def Covered (run : Run) : Prop :=
  ∀ key, (run.worker.transactions.view key_of).count key ≤ (run.pending.map event_key).count key

/-- Every transaction in the list is concluded, has a pending deletion of its own, and was
answered by a final response, if it is not of an ACK. -/
structure Scheduled (run : Run) : Prop where
  ended : ∀ a t, run.worker.transactions.heap.cells a = some t → Ended t
  pending : Covered run
  answered : ∀ a t opened, run.worker.transactions.heap.cells a = some t → t.message = some opened →
    opened.contents.method_type ≠ .ACK → ∃ s ∈ run.sent, s.transaction = some a ∧ 200 ≤ s.status_code

theorem Provided.armed {env : Environment} (h : Provided env) {serial owner : Nat} {t : sip_transaction_t}
    {adds : List TimerAdd} (harms : Arms env serial owner t adds) : armed adds = [delete_event serial owner t] := by
  rcases harms with ⟨-, k, hfails⟩ | ⟨add, k, rfl, hevent, harmed⟩
  · rw [h.malloc k] at hfails
    cases hfails
  · rw [timer_manager.timer_one_shot_add_of_succeeds (h.timer k)] at harmed
    simp [mock_uas.sip_server.armed, harmed, hevent]

theorem Answer.final {transaction : Nat} {original : Owned sip_message_t} {t : sip_transaction_t} {sends : List Sent}
    (h : Answer transaction original t sends) (hfinal : 200 ≤ t.final_response_code) :
    ∃ s ∈ sends, s.transaction = some transaction ∧ 200 ≤ s.status_code := by
  obtain ⟨contents, provisional, success, -, -, -, rfl, -⟩ := h
  exact ⟨datagram_of transaction t contents success, by simp, rfl, hfinal⟩

/-- Of the requests that open a transaction, only an INVITE in a dialog leaves it idle. -/
theorem Fate.ended_iff {before after : worker_thread_t} {original : Owned sip_message_t} {transaction : Nat}
    {t : sip_transaction_t} {sends : List Sent} (h : Fate before original transaction t after sends) :
    Ended t ↔ ¬ Reinvites before original.contents := by
  have hnew : ∀ {state : sip_transaction_state_t}, t.state = state → state = .COMPLETED ∨ state = .TERMINATED →
      original.contents.method_type ≠ .INVITE ∨ dialog_for before original.contents = none →
      (Ended t ↔ ¬ Reinvites before original.contents) := by
    rintro state hstate hended hother
    refine ⟨fun _ hreinvites => ?_, fun _ => by rwa [Ended, hstate]⟩
    rcases hother with hmethod | hnone
    · exact hmethod hreinvites.1
    · exact hreinvites.2 hnone
  cases h with
  | reinvite hmethod hfound _ _ hstate =>
    rw [Ended, hstate]
    simp [Reinvites, hmethod, hfound]
  | acked hmethod _ hstate => exact hnew hstate (.inr rfl) (.inl (by rw [hmethod]; nofun))
  | refused hmethod _ _ _ hstate => exact hnew hstate (.inr rfl) (.inl hmethod)
  | hung_up hmethod _ _ _ _ _ _ hstate => exact hnew hstate (.inr rfl) (.inl (by rw [hmethod]; nofun))
  | failed_alone _ hfound _ hstate => exact hnew hstate (.inl rfl) (.inr hfound)
  | failed_in_dialog _ hfound _ hstate => exact hnew hstate (.inl rfl) (.inr hfound)
  | failed_in_call _ hfound _ hstate => exact hnew hstate (.inl rfl) (.inr hfound)
  | established _ hfound _ hstate => exact hnew hstate (.inr rfl) (.inr hfound)

/-- A request that opens a transaction is an ACK, an INVITE in a dialog, or answered. -/
theorem Fate.answers {before after : worker_thread_t} {original : Owned sip_message_t} {transaction : Nat}
    {t : sip_transaction_t} {sends : List Sent} (h : Fate before original transaction t after sends)
    (hack : original.contents.method_type ≠ .ACK) (hreinvites : ¬ Reinvites before original.contents) :
    ∃ s ∈ sends, s.transaction = some transaction ∧ 200 ≤ s.status_code := by
  cases h with
  | reinvite hmethod hfound => exact absurd ⟨hmethod, by rw [hfound]; nofun⟩ hreinvites
  | acked hmethod => exact absurd hmethod hack
  | refused _ _ _ _ _ hcode hanswer => exact hanswer.final (by omega)
  | hung_up _ _ _ _ _ _ _ _ hcode hanswer => exact hanswer.final (by omega)
  | failed_alone _ _ _ _ hcode hanswer => exact hanswer.final (by omega)
  | failed_in_dialog _ _ _ _ hcode hanswer => exact hanswer.final (by omega)
  | failed_in_call _ _ _ _ hcode hanswer => exact hanswer.final (by omega)
  | established _ _ _ _ hcode hanswer => exact hanswer.final (by omega)

/-- What a request leaves that opens a transaction, with nothing but sends failing. -/
theorem Opened.concluded_iff {run : Run} {env : Environment} {message : Owned sip_message_t} {m' : Machine}
    {t : sip_transaction_t} {sends : List Sent} {adds : List TimerAdd}
    (h : Opened (run.start env) message m' t sends adds) (hrequest : Request message.contents)
    (hprovided : Provided env) :
    Concluded run (run.finish m') message.contents ↔ ¬ Reinvites run.worker message.contents := by
  have hcell : (run.finish m').worker.transactions.heap.cells run.worker.transactions.heap.next = some t := by
    rw [Run.finish, h.transactions]
    exact Heap.cells_alloc_self _ _
  have hended : Ended t ↔ ¬ Reinvites run.worker message.contents := h.fate.ended_iff
  constructor
  · rintro ⟨⟨u, hu, hconcluded, -⟩, -⟩
    rw [hcell, Option.some.injEq] at hu
    exact hended.mp (hu ▸ hconcluded)
  · intro hreinvites
    have hidle : t.state ≠ .IDLE := by
      intro hidle
      rcases hended.mpr hreinvites with hstate | hstate <;> cases hidle.symm.trans hstate
    have harms := h.arms
    rw [if_neg hidle] at harms
    obtain ⟨-, hkey⟩ := Stamped.of_delete_event (h.opened.held hrequest) run.events
      run.worker.transactions.heap.next
    obtain ⟨contents, hholds, hsame⟩ := h.opened.message
    refine ⟨⟨t, hcell, hended.mpr hreinvites, ⟨_, hholds, hsame⟩, _, ?_, rfl, hkey⟩, fun hack => ⟨sends, ?_, ?_⟩⟩
    · rw [show [delete_event run.events run.worker.transactions.heap.next t] = armed adds from
        (hprovided.armed harms).symm]
      exact congrArg (fun timers => run.pending ++ armed timers) h.conversed.timers
    · exact congrArg (run.sent ++ ·) h.conversed.sent
    · exact h.fate.answers hack hreinvites

theorem Known.view_eq {m m' : Machine} {message opened : Owned sip_message_t} {transaction : Nat}
    {t : sip_transaction_t} (h : Known m message transaction t opened m')
    (hcell : m.worker.transactions.heap.cells transaction = some t) :
    m'.worker.transactions.view key_of = m.worker.transactions.view key_of := by
  refine Store.view_eq_of_cells ?_ (h.keys hcell)
  cases h with
  | dropped _ _ hm => rw [hm, Machine.cleanup_sip_message]
  | resent _ _ _ hm =>
    rw [hm]
    rfl
  | rewritten _ _ _ hconversed =>
    rw [show m'.worker.transactions = _ from hconversed.transactions]
    rfl
  | acked _ _ _ hconversed =>
    rw [hconversed.transactions]
    rfl

private theorem Opened.covered {run : Run} {env : Environment} {message : Owned sip_message_t} {m' : Machine}
    {t : sip_transaction_t} {sends : List Sent} {adds : List TimerAdd}
    (h : Opened (run.start env) message m' t sends adds) (hworker : WellFormed run.worker)
    (hrequest : Request message.contents) (hprovided : Provided env)
    (hreinvites : ¬ Reinvites run.worker message.contents) (hcovered : Covered run) : Covered (run.finish m') := by
  intro key
  obtain ⟨⟨u, hu, -, -, event, hpending, -, hkey⟩, -⟩ := (h.concluded_iff hrequest hprovided).mpr hreinvites
  have hpush : (run.finish m').worker.transactions = run.worker.transactions.push t := h.transactions
  rw [hpush, Store.heap_push, Heap.cells_alloc_self, Option.some.injEq] at hu
  subst hu
  rw [hpush, hworker.transactions.view_push, hpending, List.map_append, List.map_singleton, hkey, List.count_append,
    List.count_cons, List.count_singleton]
  exact Nat.add_le_add_right (hcovered key) _

private theorem Deleted.covered {run : Run} {env : Environment} {event : transaction_delete_t} {m' : Machine}
    (h : Deleted (run.start env) event m') (hworker : WellFormed run.worker) (hstamped : Stamped event)
    (hpending : event ∈ run.pending) (hcovered : Covered run) :
    Covered ({ run with pending := run.pending.erase event }.finish m') := by
  intro key
  have hbefore : (run.pending.map event_key).count key =
      ((run.pending.erase event).map event_key).count key + if event_key event == key then 1 else 0 := by
    rw [((List.perm_cons_erase hpending).map event_key).count_eq, List.map_cons, List.count_cons]
  have hafter : ((run.pending.erase event).map event_key).count key ≤
      ((run.pending.erase event ++ armed m'.timers).map event_key).count key := by
    rw [List.map_append, List.count_append]
    exact Nat.le_add_right _ _
  have hkey := hcovered key
  suffices hview : (m'.worker.transactions.view key_of).count key ≤
      ((run.pending.erase event).map event_key).count key from hview.trans hafter
  cases h with
  | missing hnone hm =>
    subst hm
    have hnone' := (transaction_of_eq_none_iff hworker hstamped).mp hnone
    change (run.worker.transactions.view key_of).count key ≤ _
    by_cases hsame : event_key event = key
    · have hgone : key ∉ run.worker.transactions.view key_of := by
        rw [hworker.transactions.mem_view, ← hsame]
        rintro ⟨a, t, ht, hkey⟩
        exact hnone' a t ht hkey
      rw [List.count_eq_zero.mpr hgone]
      exact Nat.zero_le _
    · rw [if_neg (by simpa using hsame)] at hbefore
      omega
  | removed hfound hcell hdeletion =>
    obtain ⟨u, hu, hsame⟩ := transaction_of_eq_some hworker hstamped hfound
    rw [show run.worker.transactions.heap.cells _ = some _ from hcell, Option.some.injEq] at hu
    have hview := (hdeletion.removed.view_perm key_of (fun _ => rfl) hworker hcell).count_eq key
    rw [List.count_cons, hu, hsame] at hview
    change (run.worker.transactions.view key_of).count key = _ at hview
    omega

/-- A step leaves as many deletions pending as transactions in the list. -/
private theorem Run.Stepped.covered {run run' : Run} {input : Input} (h : Run.Stepped run input run')
    (hworker : WellFormed run.worker) (henabled : program.enabled run input) (hconcluding : Concluding run input)
    (hstamped : ∀ event ∈ run.pending, Stamped event) (hcovered : Covered run) : Covered run' := by
  cases h with
  | unhandled => exact hcovered
  | response => exact hcovered
  | request haccepted hhandled =>
    cases hhandled with
    | unallocated _ hfails => exact absurd (hconcluding.1.malloc 0) (Bool.eq_false_iff.mp hfails)
    | opened hnew hmalloc hopened =>
      exact hopened.covered hworker haccepted.request.1 hconcluding.1 (hconcluding.2 _ ⟨haccepted, hnew, hmalloc⟩)
        hcovered
    | known _ hcell _ hknown =>
      intro key
      rw [Run.finish, hknown.view_eq hcell, List.map_append, List.count_append]
      exact (hcovered key).trans (Nat.le_add_right _ _)
  | delete hdeleted => exact hdeleted.covered hworker (hstamped _ henabled) henabled hcovered

/-- What a step leaves in which a request opens a transaction. -/
theorem Run.Stepped.concluded_iff {run run' : Run} {input : Input} {message : sip_message_t}
    (h : Run.Stepped run input run') (hopens : Opens run message input) (hprovided : Provided input.env) :
    Concluded run run' message ↔ ¬ Reinvites run.worker message := by
  cases h with
  | unhandled _ hrejected => exact absurd hopens.1 (hrejected message)
  | response => exact hopens.elim
  | request haccepted hhandled =>
    obtain ⟨haccepted', hnew, hmalloc⟩ := hopens
    obtain rfl := accepted_unique haccepted haccepted'
    cases hhandled with
    | unallocated _ hfails => exact absurd hmalloc (Bool.eq_false_iff.mp hfails)
    | opened _ _ hopened => exact hopened.concluded_iff haccepted.request.1 hprovided
    | known hfound => cases hnew.symm.trans hfound
  | delete => exact hopens.elim

theorem Run.Stepped.sent_prefix {run run' : Run} {input : Input} (h : Run.Stepped run input run') :
    run.sent <+: run'.sent := by
  cases h with
  | unhandled => exact List.prefix_refl _
  | response => exact List.prefix_refl _
  | request => exact List.prefix_append _ _
  | delete => exact List.prefix_append _ _

theorem Rewritten.ended {t t' : sip_transaction_t} (h : Rewritten t t') (hended : Ended t) : Ended t' := by
  cases h with
  | same ht => exact ht ▸ hended
  | answered _ ht => exact ht ▸ hended
  | terminated hstate => exact .inr hstate

theorem Run.Stepped.stamped {run run' : Run} {input : Input} (h : Run.Stepped run input run')
    (hworker : WellFormed run.worker) (hstamped : ∀ event ∈ run.pending, Stamped event) :
    ∀ event ∈ run'.pending, Stamped event := by
  obtain ⟨events, hpending, harms⟩ := h.arms hworker
  intro event hevent
  rw [hpending] at hevent
  rcases List.mem_append.mp hevent with hevent | hevent
  · exact hstamped event (mem_of_mem_awaiting hevent)
  · exact (harms event hevent).1

theorem Run.Stepped.scheduled {run run' : Run} {input : Input} (h : Run.Stepped run input run')
    (hworker : WellFormed run.worker) (henabled : program.enabled run input) (hconcluding : Concluding run input)
    (hstamped : ∀ event ∈ run.pending, Stamped event) (hscheduled : Scheduled run) : Scheduled run' := by
  have hnew : ∀ {a t'}, run'.worker.transactions.heap.cells a = some t' →
      a = run.worker.transactions.heap.next → ∃ message, Concluded run run' message := by
    rintro a t' ht' rfl
    rcases (h.keys _).comes ht' with ⟨t, ht, -⟩ | ⟨message, hopens, -⟩
    · rw [Heap.cells_next] at ht
      cases ht
    · exact ⟨message, (h.concluded_iff hopens hconcluding.1).mpr (hconcluding.2 message hopens)⟩
  refine ⟨fun a t' ht' => ?_, h.covered hworker henabled hconcluding hstamped hscheduled.pending,
    fun a t' opened' ht' hmessage hack => ?_⟩
  · rcases h.transactions_move a t' ht' with ⟨t, ht, hrewritten⟩ | ⟨rfl, -⟩
    · exact hrewritten.ended (hscheduled.ended a t ht)
    · obtain ⟨message, ⟨u, hu, hended, -⟩, -⟩ := hnew ht' rfl
      rw [ht', Option.some.injEq] at hu
      exact hu ▸ hended
  · rcases h.transactions_move a t' ht' with ⟨t, ht, hrewritten⟩ | ⟨rfl, -⟩
    · obtain ⟨opened, hholds, hmethod⟩ := hrewritten.keeps (f := (·.method_type)) (fun _ _ => rfl) hmessage
      obtain ⟨s, hs, hfinal⟩ := hscheduled.answered a t opened ht hholds (hmethod ▸ hack)
      exact ⟨s, h.sent_prefix.subset hs, hfinal⟩
    · obtain ⟨message, ⟨u, hu, -, ⟨opened, hholds, hsame⟩, -⟩, hanswered⟩ := hnew ht' rfl
      rw [ht', Option.some.injEq] at hu
      subst hu
      rw [hmessage, Option.some.injEq] at hholds
      subst hholds
      have hmethod : opened'.contents.method_type = message.method_type := congrArg (·.method_type) hsame.same
      obtain ⟨sends, hsent, s, hs, hfinal⟩ := hanswered (hmethod ▸ hack)
      exact ⟨s, by rw [hsent]; exact List.mem_append_right _ hs, hfinal⟩

theorem Run.Initial.scheduled {run : Run} (h : run.Initial) : Scheduled run := by
  constructor
  · intro a t ht
    rw [h.transactions] at ht
    cases ht
  · intro key
    rw [h.transactions]
    exact Nat.zero_le _
  · intro a t opened ht
    rw [h.transactions] at ht
    cases ht

/-- Where nothing but sends fails, a request that opens a transaction is concluded exactly
when it is no INVITE in a dialog, and in runs without those no transaction is left without
a pending deletion or an answer. -/
theorem requests_concluded_iff (run : Run) :
    (∀ (datagram : Datagram) (client_addr : sockaddr_in) (message : sip_message_t) (address : Nat)
        (env : Environment), program.Reachable run → Accepted datagram client_addr message →
        transaction_for run.worker message = none → Provided env →
        ∃ run', run.step (.incoming datagram client_addr address env) = ok run' ∧
          (Concluded run run' message ↔ ¬ Reinvites run.worker message)) ∧
      (program.ReachableWhile Concluding run → Scheduled run) := by
  constructor
  · intro datagram client_addr message address env hreach haccepted hnew hprovided
    have hworker := Reachable.wellFormed hreach
    obtain ⟨m', hstep, -⟩ := step_new_branch hworker haccepted hnew address env
    exact ⟨run.finish m', hstep, ((step_ends hworker _).of_eq_ok hstep).concluded_iff
      ⟨haccepted, hnew, hprovided.malloc 0⟩ hprovided⟩
  · intro h
    have hall : WellFormed run.worker ∧ (∀ event ∈ run.pending, Stamped event) ∧ Scheduled run := by
      refine h.invariant (P := fun run => WellFormed run.worker ∧ (∀ event ∈ run.pending, Stamped event) ∧
        Scheduled run) ?_ ?_
      · intro run (hinitial : run.Initial)
        exact ⟨hinitial.wellFormed, by rw [hinitial.pending]; nofun, hinitial.scheduled⟩
      · rintro run input run' henabled hconcluding hstep ⟨hworker, hstamped, hscheduled⟩
        have hstepped := (step_ends hworker input).of_eq_ok hstep
        exact ⟨hstepped.wellFormed hworker, hstepped.stamped hworker hstamped,
          hstepped.scheduled hworker henabled hconcluding hstamped hscheduled⟩
    exact hall.2.2

theorem provided_obliging : Provided .obliging where
  malloc _ := rfl
  timer _ := ⟨by decide, rfl, rfl, rfl, rfl⟩

theorem provided_other : Provided .other := ⟨fun _ => rfl, provided_obliging.timer⟩

private theorem first_bye_facts :
    (program.follow Run.started [arrival first_invite .obliging]).bind (fun run : Run =>
      (accepted_message first_bye ⟨2, 5060, 1⟩).map fun message =>
        (message.method_type, dialog_for run.worker message, transaction_for run.worker message)) =
      some (.BYE, some 0, none) := by
  decide +kernel

/-- A whole call without an INVITE in its dialog, which leaves two deletions pending. -/
private theorem concluding_run :
    (program.follow_tested (fun run input => ∀ message, Opens run message input → ¬ Reinvites run.worker message)
      Run.started first_call).map (fun run : Run =>
        (run.worker.transactions.list, run.pending.map (·.owner))) = some ([1, 0], [0, 1]) := by
  decide +kernel

/-- The BYE of the first call is concluded, and after the call the worker has the deletions of
the INVITE and the BYE pending. -/
theorem first_bye_concluded :
    (∃ run message run', program.Reachable run ∧ Accepted first_bye ⟨2, 5060, 1⟩ message ∧
      dialog_for run.worker message = some 0 ∧ run.step (arrival first_bye .obliging) = ok run' ∧
      Concluded run run' message) ∧
    ∃ run : Run, run.worker.transactions.list = [1, 0] ∧ run.pending.map (·.owner) = [0, 1] ∧ Scheduled run := by
  constructor
  · obtain ⟨run, hrun, hfacts⟩ := Option.bind_eq_some_iff.mp first_bye_facts
    obtain ⟨message, hmessage, hfacts⟩ := Option.map_eq_some_iff.mp hfacts
    simp only [Prod.mk.injEq] at hfacts
    obtain ⟨hmethod, hdialog, hnew⟩ := hfacts
    have hreach := reachable_of_follow hrun
    have haccepted := accepted_iff.mpr hmessage
    obtain ⟨run', hstep, hiff⟩ := (requests_concluded_iff run).1 first_bye ⟨2, 5060, 1⟩ message 0 .obliging hreach
      haccepted hnew provided_obliging
    have hreinvites : ¬ Reinvites run.worker message := by
      rintro ⟨hinvite, -⟩
      cases hmethod.symm.trans hinvite
    exact ⟨run, message, run', hreach, haccepted, hdialog, hstep, hiff.mpr hreinvites⟩
  · obtain ⟨run, hrun, hfacts⟩ := Option.map_eq_some_iff.mp concluding_run
    simp only [Prod.mk.injEq] at hfacts
    have hprovided : ∀ input ∈ first_call, Provided input.env := by
      simp [first_call, arrival, Input.env, provided_obliging]
    exact ⟨run, hfacts.1, hfacts.2, (requests_concluded_iff run).2 ⟨Run.started, Run.started_initial,
      .of_follow_tested hrun fun _ input hinput hreinvites => ⟨hprovided input hinput, hreinvites⟩⟩⟩

/-- The second INVITE of a dialog gets neither an answer nor a delete timer. -/
theorem reinvite_never_concluded :
    ∃ run message, program.Reachable run ∧ Accepted second_invite ⟨2, 5060, 1⟩ message ∧
      transaction_for run.worker message = none ∧ Provided .obliging ∧
      ∃ run', run.step (arrival second_invite .obliging) = ok run' ∧ ¬ Concluded run run' message := by
  obtain ⟨run, hrun, hfacts⟩ := Option.bind_eq_some_iff.mp second_invite_facts
  obtain ⟨message, hmessage, hfacts⟩ := Option.map_eq_some_iff.mp hfacts
  simp only [Prod.mk.injEq] at hfacts
  obtain ⟨hmethod, hnew, hdialog⟩ := hfacts
  have hreach := reachable_of_follow hrun
  have haccepted := accepted_iff.mpr hmessage
  have hworker := Reachable.wellFormed hreach
  obtain ⟨m', hstep, -⟩ := step_new_branch hworker haccepted hnew 0 .obliging
  refine ⟨run, message, hreach, haccepted, hnew, provided_obliging, run.finish m', hstep, fun hconcluded => ?_⟩
  refine (((step_ends hworker _).of_eq_ok hstep).concluded_iff ⟨haccepted, hnew, rfl⟩ provided_obliging).mp
    hconcluded ⟨hmethod, fun hnone => ?_⟩
  rw [hnone] at hdialog
  cases hdialog

end mock_uas.sip_server
