import MockUas.Server.FinalResponse
import MockUas.Server.Links

open clib
open mock_uas.sip_message
open mock_uas.sip_utils

namespace mock_uas.sip_server

/-- The events that one arming leaves pending. -/
theorem Arms.mem_armed {env : Environment} {serial owner : Nat} {t : sip_transaction_t} {adds : List TimerAdd}
    (h : Arms env serial owner t adds) {event : transaction_delete_t} (hevent : event ∈ armed adds) :
    event = delete_event serial owner t := by
  rcases h with ⟨rfl, -⟩ | ⟨add, k, rfl, hadd, harmed⟩
  · cases hevent
  · obtain ⟨timed, htimed, hfires⟩ := List.mem_filterMap.mp hevent
    obtain rfl := List.mem_singleton.mp htimed
    obtain ⟨timer, htimer, rfl⟩ := Option.map_eq_some_iff.mp hfires
    rw [timer_manager.timer_one_shot_add_armed (harmed.symm.trans htimer), hadd]

theorem Arming.mem_armed {env : Environment} {serial : Nat} {armers : List (Nat × sip_transaction_t)}
    {adds : List TimerAdd} (h : Arming env serial armers adds) {event : transaction_delete_t}
    (hevent : event ∈ armed adds) : ∃ serial owner t, (owner, t) ∈ armers ∧ event = delete_event serial owner t := by
  induction h with
  | nil => cases hevent
  | cons harms _ ih =>
    rw [armed, List.filterMap_append] at hevent
    rcases List.mem_append.mp hevent with hevent | hevent
    · exact ⟨_, _, _, List.mem_cons_self, harms.mem_armed hevent⟩
    · obtain ⟨serial, owner, t, hmem, heq⟩ := ih hevent
      exact ⟨serial, owner, t, List.mem_cons_of_mem _ hmem, heq⟩

/-- A deletion arms events of other transactions than the one it removes. -/
theorem Removed.armer_cells {before after : worker_thread_t} {transaction : Nat} {t : sip_transaction_t}
    {armers : List (Nat × sip_transaction_t)} (h : Removed before transaction t armers after) {owner : Nat}
    {u : sip_transaction_t} (hmem : (owner, u) ∈ armers) :
    owner ≠ transaction ∧ before.transactions.heap.cells owner = some u := by
  cases h with
  | alone _ _ harmers =>
    rw [harmers] at hmem
    cases hmem
  | left _ _ _ _ harmers =>
    rw [harmers] at hmem
    cases hmem
  | ended _ _ _ _ harmers =>
    obtain ⟨-, hleft, -⟩ := (harmers.mem owner u).mp hmem
    rw [Store.cells_remove] at hleft
    split at hleft
    · cases hleft
    · rename_i hne
      exact ⟨hne, hleft⟩

/-- The delete events a step finds pending and leaves so. -/
def awaiting (run : Run) : Input → List transaction_delete_t
  | .delete event _ => run.pending.erase event
  | _ => run.pending

theorem mem_of_mem_awaiting {run : Run} {input : Input} {event : transaction_delete_t}
    (h : event ∈ awaiting run input) : event ∈ run.pending := by
  cases input with
  | delete => exact List.mem_of_mem_erase h
  | incoming => exact h
  | response => exact h

/-- A delete event of a live transaction. -/
def ArmedBy (worker : worker_thread_t) (event : transaction_delete_t) : Prop :=
  Stamped event ∧ ∃ t, worker.transactions.heap.cells event.owner = some t ∧ key_of t = event_key event

private theorem armedBy_delete_event {after : worker_thread_t} {queue serial owner : Nat} {t : sip_transaction_t}
    (hheld : Held queue t)
    (hafter : (after.transactions.heap.cells owner).map key_of = some (key_of t)) :
    ArmedBy after (delete_event serial owner t) := by
  obtain ⟨hstamped, hkey⟩ := Stamped.of_delete_event hheld serial owner
  obtain ⟨t', ht', hsame⟩ := Option.map_eq_some_iff.mp hafter
  exact ⟨hstamped, t', ht', hsame.trans hkey.symm⟩

/-- Every event that a step arms is one of a transaction that is live after the step. -/
theorem Run.Stepped.arms {run run' : Run} {input : Input} (h : Run.Stepped run input run')
    (hworker : WellFormed run.worker) :
    ∃ events, run'.pending = awaiting run input ++ events ∧ ∀ event ∈ events, ArmedBy run'.worker event := by
  cases h with
  | unhandled => exact ⟨[], (List.append_nil _).symm, nofun⟩
  | response => exact ⟨[], (List.append_nil _).symm, nofun⟩
  | request haccepted hhandled =>
    cases hhandled with
    | unallocated _ _ _ hm =>
      subst hm
      exact ⟨[], rfl, nofun⟩
    | @opened t _ adds _ _ hopened =>
      refine ⟨armed adds, congrArg (fun timers => run.pending ++ armed timers) hopened.conversed.timers, ?_⟩
      intro event hevent
      have harms := hopened.arms
      split at harms
      · rw [harms] at hevent
        cases hevent
      · rw [harms.mem_armed hevent]
        refine armedBy_delete_event (hopened.opened.held haccepted.request.1) ?_
        rw [Run.finish, hopened.transactions]
        exact congrArg (Option.map key_of) (Heap.cells_alloc_self _ _)
    | @known transaction t _ _ hcell _ hknown =>
      have hkeys := hknown.keys hcell transaction
      cases hknown with
      | dropped _ _ hm =>
        subst hm
        exact ⟨[], rfl, nofun⟩
      | resent _ _ _ hm =>
        subst hm
        exact ⟨[], rfl, nofun⟩
      | rewritten _ _ _ hconversed =>
        exact ⟨[], congrArg (fun timers => run.pending ++ armed timers) hconversed.timers, nofun⟩
      | @acked adds _ _ _ hconversed _ _ harms =>
        refine ⟨armed adds, congrArg (fun timers => run.pending ++ armed timers) hconversed.timers, ?_⟩
        intro event hevent
        split at harms
        · rw [harms] at hevent
          cases hevent
        · rw [harms.mem_armed hevent]
          refine armedBy_delete_event (hworker.held hcell) ?_
          exact hkeys.trans (congrArg (Option.map key_of) hcell)
  | @delete event env m' hdeleted =>
    cases hdeleted with
    | missing _ hm =>
      subst hm
      exact ⟨[], rfl, nofun⟩
    | @removed transaction t armers adds _ _ hdeletion =>
      refine ⟨armed adds, congrArg (fun timers => run.pending.erase event ++ armed timers) hdeletion.timers, ?_⟩
      intro fired hfired
      obtain ⟨serial, owner, u, hmem, rfl⟩ := hdeletion.arming.mem_armed hfired
      obtain ⟨hne, hleft⟩ := hdeletion.removed.armer_cells hmem
      refine armedBy_delete_event (hworker.held hleft) ?_
      have hkeys := hdeletion.removed.keys owner
      rw [if_neg hne, show (run.start env).worker.transactions.heap.cells owner = some u from hleft] at hkeys
      exact hkeys

/-- A request that opens a transaction brings a key that no transaction and no pending
event has. -/
def FreshKey (run : Run) (input : Input) : Prop :=
  ∀ message, Opens run message input →
    (∀ a t, run.worker.transactions.heap.cells a = some t → key_of t ≠ request_key message) ∧
      ∀ event ∈ run.pending, event_key event ≠ request_key message

instance (run : Run) (input : Input) : Decidable (FreshKey run input) :=
  inferInstanceAs (Decidable (∀ message, Opens run message input →
    (∀ a t, run.worker.transactions.heap.cells a = some t → key_of t ≠ request_key message) ∧
      ∀ event ∈ run.pending, event_key event ≠ request_key message))

/-- Every key belongs to one transaction, and every pending event to the transaction with
its key. -/
structure Claimed (run : Run) : Prop where
  distinct : ∀ a b t u, run.worker.transactions.heap.cells a = some t →
    run.worker.transactions.heap.cells b = some u → key_of t = key_of u → a = b
  stamped : ∀ event ∈ run.pending, Stamped event ∧ event.owner < run.worker.transactions.heap.next
  owner : ∀ event ∈ run.pending, ∀ a t, run.worker.transactions.heap.cells a = some t →
    (key_of t = event_key event ↔ a = event.owner)

private theorem Run.Stepped.claimed {run run' : Run} {input : Input} (h : Run.Stepped run input run')
    (hworker : WellFormed run.worker) (hfresh : FreshKey run input) (hclaimed : Claimed run) : Claimed run' := by
  have hdistinct : ∀ a b t u, run'.worker.transactions.heap.cells a = some t →
      run'.worker.transactions.heap.cells b = some u → key_of t = key_of u → a = b := by
    intro a b t u ht hu hkey
    rcases (h.keys a).comes ht with ⟨v, hv, hsame⟩ | ⟨message, hopens, ha, hnew⟩
    · rcases (h.keys b).comes hu with ⟨w, hw, hsame'⟩ | ⟨message, hopens, -, hnew⟩
      · exact hclaimed.distinct a b v w hv hw (hsame.trans (hkey.trans hsame'.symm))
      · exact absurd (hsame.trans (hkey.trans hnew)) ((hfresh message hopens).1 a v hv)
    · rcases (h.keys b).comes hu with ⟨w, hw, hsame'⟩ | ⟨-, -, hb, -⟩
      · exact absurd (hsame'.trans (hkey.symm.trans hnew)) ((hfresh message hopens).1 b w hw)
      · rw [ha, hb]
  obtain ⟨events, hpending, harms⟩ := h.arms hworker
  refine ⟨hdistinct, fun event hevent => ?_, fun event hevent a t ht => ?_⟩
  · rw [hpending] at hevent
    rcases List.mem_append.mp hevent with hevent | hevent
    · obtain ⟨hstamped, hlt⟩ := hclaimed.stamped event (mem_of_mem_awaiting hevent)
      exact ⟨hstamped, hlt.trans_le h.grows.transactions⟩
    · obtain ⟨hstamped, u, hu, -⟩ := harms event hevent
      exact ⟨hstamped, Heap.lt_next_of_cells hu⟩
  · rw [hpending] at hevent
    rcases List.mem_append.mp hevent with hevent | hevent
    · have hmem := mem_of_mem_awaiting hevent
      rcases (h.keys a).comes ht with ⟨u, hu, hsame⟩ | ⟨message, hopens, ha, hnew⟩
      · rw [← hsame]
        exact hclaimed.owner event hmem a u hu
      · constructor
        · intro hkey
          exact absurd (hkey.symm.trans hnew) ((hfresh message hopens).2 event hmem)
        · intro howner
          have hlt := (hclaimed.stamped event hmem).2
          omega
    · obtain ⟨-, u, hu, hkey⟩ := harms event hevent
      constructor
      · exact fun hsame => hdistinct a event.owner t u ht hu (hsame.trans hkey.symm)
      · rintro rfl
        rw [ht, Option.some.injEq] at hu
        rw [hu, hkey]

private theorem Run.Initial.claimed {run : Run} (h : run.Initial) : Claimed run := by
  constructor
  · intro a b t u ht
    rw [h.transactions] at ht
    cases ht
  · rw [h.pending]
    nofun
  · rw [h.pending]
    nofun

/-- While no request brings a key that is in use, a delete event removes the transaction that
armed it, if that is still there, and no other. -/
theorem delete_events_keep_to_their_owner (run : Run) (h : program.ReachableWhile FreshKey run)
    (event : transaction_delete_t) (env : Environment) (run' : Run) (hpending : event ∈ run.pending)
    (hstep : run.step (.delete event env) = ok run') (a : Nat) (t : sip_transaction_t)
    (ht : run.worker.transactions.heap.cells a = some t) :
    run'.worker.transactions.heap.cells a = none ↔ a = event.owner := by
  obtain ⟨hworker, hclaimed⟩ : WellFormed run.worker ∧ Claimed run := by
    refine h.invariant (P := fun run => WellFormed run.worker ∧ Claimed run)
      (fun run (hinitial : run.Initial) => ⟨hinitial.wellFormed, hinitial.claimed⟩) ?_
    rintro run input run' - hfresh hstep ⟨hworker, hclaimed⟩
    have hstepped := (step_ends hworker input).of_eq_ok hstep
    exact ⟨hstepped.wellFormed hworker, hstepped.claimed hworker hfresh hclaimed⟩
  have hstepped := (step_ends hworker _).of_eq_ok hstep
  have hstamped := (hclaimed.stamped event hpending).1
  have hdeletes : Deletes run a (.delete event env) ↔ a = event.owner := by
    constructor
    · intro hfound
      obtain ⟨u, hu, hkey⟩ := transaction_of_eq_some hworker hstamped hfound
      exact (hclaimed.owner event hpending a u hu).mp hkey
    · rintro rfl
      have hkey := (hclaimed.owner event hpending _ t ht).mpr rfl
      cases hfound : transaction_of run.worker event with
      | none => exact absurd hkey ((transaction_of_eq_none_iff hworker hstamped).mp hfound _ t ht)
      | some b =>
        obtain ⟨u, hu, hsame⟩ := transaction_of_eq_some hworker hstamped hfound
        rw [(hclaimed.owner event hpending b u hu).mp hsame] at hfound
        exact hfound
  rw [← hdeletes]
  constructor
  · intro hgone
    by_contra hstays
    obtain ⟨t', ht', -⟩ := (hstepped.keys a).stays hstays ht
    rw [hgone] at ht'
    cases ht'
  · intro hfound
    cases hstepped.keys a with
    | kept _ hstays => exact absurd hfound hstays
    | opened hopens => exact hopens.elim
    | deleted _ hgone => exact hgone

/-- A whole call whose requests bring keys of their own, and the deletion of its BYE. -/
private theorem bye_event_run :
    (program.follow_tested FreshKey Run.started first_call).bind (fun run : Run =>
      (run.step (.delete bye_event .obliging)).toOption.map fun run' : Run =>
        (run.worker.transactions.list, decide (bye_event ∈ run.pending), run'.worker.transactions.list)) =
      some ([1, 0], true, [0]) := by
  decide +kernel

/-- The event of the BYE deletes the BYE, and the INVITE stays. -/
theorem delete_event_removes_bye :
    ∃ (run run' : Run), run.worker.transactions.list = [1, 0] ∧
      run.step (.delete bye_event .obliging) = ok run' ∧ run'.worker.transactions.list = [0] ∧
      ∀ a t, run.worker.transactions.heap.cells a = some t →
        (run'.worker.transactions.heap.cells a = none ↔ a = bye_event.owner) := by
  obtain ⟨run, hrun, hfacts⟩ := Option.bind_eq_some_iff.mp bye_event_run
  obtain ⟨run', hrun', hfacts⟩ := Option.map_eq_some_iff.mp hfacts
  simp only [Prod.mk.injEq, decide_eq_true_eq] at hfacts
  obtain ⟨hbefore, hpending, hafter⟩ := hfacts
  have hstep := eq_ok_of_toOption hrun'
  exact ⟨run, run', hbefore, hstep, hafter, delete_events_keep_to_their_owner run
    (.of_follow_tested Run.started_initial hrun) bye_event .obliging run' hpending hstep⟩

/-- The event an ACK for the first INVITE arms, if the INVITE failed. -/
def second_event : transaction_delete_t := { invite_event with serial := 1 }

/-- An INVITE that fails and its ACK arm an event each. The ACK's event deletes the
transaction, and another INVITE comes with the same branch. -/
def reused_branch_inputs : List Input :=
  [arrival first_invite .reluctant, arrival first_ack .obliging, .delete second_event .obliging,
    arrival first_invite .obliging]

private theorem reused_branch_run :
    (program.follow Run.started reused_branch_inputs).map (fun run : Run =>
      (run.worker.transactions.list, decide (invite_event ∈ run.pending),
        (run.step (.delete invite_event .obliging)).toOption.map fun run' : Run => run'.worker.transactions.list)) =
      some ([1], true, some []) := by
  decide +kernel

/-- The event of a transaction that is gone deletes the one that came after it. -/
theorem stale_event_removes_successor :
    ∃ (run run' : Run) (event : transaction_delete_t) (t : sip_transaction_t), program.Reachable run ∧
      event ∈ run.pending ∧ run.step (.delete event .obliging) = ok run' ∧ event.owner ≠ 1 ∧
      run.worker.transactions.heap.cells 1 = some t ∧ run'.worker.transactions.heap.cells 1 = none := by
  obtain ⟨run, hrun, hfacts⟩ := Option.map_eq_some_iff.mp reused_branch_run
  simp only [Prod.mk.injEq, decide_eq_true_eq] at hfacts
  obtain ⟨hlist, hpending, hsteps⟩ := hfacts
  obtain ⟨run', hstep, hempty⟩ := Option.map_eq_some_iff.mp hsteps
  have hreach := reachable_of_follow hrun
  have hworker := Reachable.wellFormed hreach
  have hok := eq_ok_of_toOption hstep
  obtain ⟨t, ht⟩ := hworker.transactions.cells (a := 1) (by rw [hlist]; exact List.mem_singleton.mpr rfl)
  have hworker' := ((step_ends hworker _).of_eq_ok hok).wellFormed hworker
  refine ⟨run, run', invite_event, t, hreach, hpending, hok, by decide, ht, ?_⟩
  cases hcell : run'.worker.transactions.heap.cells 1 with
  | none => rfl
  | some u =>
    have hmem := hworker'.transactions.mem hcell
    rw [hempty] at hmem
    cases hmem

end mock_uas.sip_server
