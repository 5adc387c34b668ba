import MockUas.Server.Reclaim
import MockUas.System.Ownership
import MockUas.System.Rest

open clib
open mock_uas.sip_message
open mock_uas.sip_utils
open mock_uas.sip_server
open mock_uas.message_queue
open mock_uas.timer_manager

namespace mock_uas.main

/-- A step of a worker in which nothing but sends fails, no INVITE in a dialog opens a transaction,
no dialog runs out of slots, and no deletion is of a call that failed. -/
structure Regular (run : Run) (input : Input) : Prop where
  concluding : Concluding run input
  room : HasRoom run input
  failed : ∀ a, Deletes run a input → ¬ InFailedCall run.worker a

/-- A step of the server that loses no delete event and no message, and is a regular one for the
worker that takes it. -/
structure Orderly (system : System) (action : System.Action) : Prop where
  kept : Kept system action
  single : SingleAcks system action
  regular : Turns Regular system action

/-- A worker that has nothing but established calls, each with one confirmed dialog all of whose
slots are free. -/
structure OnlyCalls (run : Run) : Prop where
  pending : run.pending = []
  transactions : run.worker.transactions.list = []
  dialog : ∀ dialog ∈ run.worker.dialogs.list, ∃ d call c, run.worker.dialogs.heap.cells dialog = some d ∧
    d.state = .CONFIRMED ∧ (∀ a, d.transaction.count a = 0) ∧ d.call = some call ∧
      run.worker.calls.heap.cells call = some c ∧ c.state = .ESTABLISHED
  call : ∀ call ∈ run.worker.calls.list, ∃ c, run.worker.calls.heap.cells call = some c ∧ c.state = .ESTABLISHED ∧
    ∃! dialog, ∃ d, run.worker.dialogs.heap.cells dialog = some d ∧ d.call = some call

/-- A server that has finished what it began: all that was allocated for a message or for a delete
event was freed once, and of the rest only established calls are left. -/
structure Finished (system : System) : Prop where
  calls : ∀ k, OnlyCalls (system.threads k).run
  messages : (system.freed ++ (List.finRange MAX_THREADS).flatMap fun k => (system.threads k).run.freed).Perm
    (List.range system.messages)
  events : ∀ k, (system.threads k).processed.Perm (system.threads k).allocated

/-- What regular steps keep of a worker. -/
private structure Regulated (run : Run) : Prop where
  kept : sip_server.Kept run
  scheduled : Scheduled run

private theorem regulated {run : Run} (h : sip_server.program.ReachableWhile Regular run) : Regulated run := by
  refine h.invariant (P := Regulated) (fun run (hinitial : run.Initial) => ⟨hinitial.kept, hinitial.scheduled⟩) ?_
  intro run input run' henabled hregular hstep hbefore
  have hworker := hbefore.kept.phased.wellFormed
  have hstepped := (step_ends hworker input).of_eq_ok hstep
  have hended : EndedOnly run input :=
    ⟨hregular.concluding.1, fun a t _ ht => hbefore.scheduled.ended a t ht⟩
  exact ⟨hstepped.kept ⟨hregular.room, hended, hregular.failed⟩ hbefore.kept,
    hstepped.scheduled hworker henabled hregular.concluding hbefore.kept.stamped hbefore.scheduled⟩

/-- A worker without deletions ahead has no transactions left. -/
private theorem Regulated.transactions {run : Run} (h : Regulated run) (hpending : run.pending = []) :
    run.worker.transactions.list = [] := by
  have hworker := h.kept.phased.wellFormed
  cases hlist : run.worker.transactions.list with
  | nil => rfl
  | cons a rest =>
    obtain ⟨t, ht⟩ := hworker.transactions.cells (hlist ▸ List.mem_cons_self : a ∈ run.worker.transactions.list)
    have hview : key_of t ∈ run.worker.transactions.view key_of :=
      hworker.transactions.mem_view.mpr ⟨a, t, ht, rfl⟩
    have hcovered := h.scheduled.pending (key_of t)
    have hcount := List.count_pos_iff.mpr hview
    rw [hpending, List.map_nil, List.count_nil] at hcovered
    omega

private theorem Regulated.only_calls {run : Run} (h : Regulated run) (hpending : run.pending = []) :
    OnlyCalls run := by
  have hworker := h.kept.phased.wellFormed
  have hagree := h.kept.phased.agree
  have hnone := h.transactions hpending
  have hfree : ∀ a t, run.worker.transactions.heap.cells a ≠ some t := by
    intro a t ht
    have hmem := hworker.transactions.mem ht
    rw [hnone] at hmem
    cases hmem
  have hconfirmed : ∀ dialog d, run.worker.dialogs.heap.cells dialog = some d → d.state = .CONFIRMED := by
    intro dialog d hd
    rcases hagree.dialog dialog d (hworker.dialogs.mem hd) hd with hstate | hstate
    · exact hstate
    · obtain ⟨a, t, ht, -⟩ := h.kept.dialogs dialog d.call (dialog_phase_eq_some_iff.mpr ⟨d, hd, hstate, rfl⟩)
      exact absurd ht (hfree a t)
  have hestablished : ∀ dialog d, run.worker.dialogs.heap.cells dialog = some d →
      ∃ call c, d.call = some call ∧ run.worker.calls.heap.cells call = some c ∧ c.state = .ESTABLISHED :=
    fun dialog d hd => hagree.confirmed dialog d (hworker.dialogs.mem hd) hd (hconfirmed dialog d hd)
  refine ⟨hpending, hnone, fun dialog hmem => ?_, fun call hmem => ?_⟩
  · obtain ⟨d, hd⟩ := hworker.dialogs.cells hmem
    obtain ⟨call, c, hcall, hc, hstate⟩ := hestablished dialog d hd
    refine ⟨d, call, c, hd, hconfirmed dialog d hd, fun a => ?_, hcall, hc, hstate⟩
    refine Nat.eq_zero_of_not_pos fun hpos => ?_
    obtain ⟨-, t, ht, -⟩ := hworker.slot hd hpos
    exact hfree a t ht
  · obtain ⟨c, hc⟩ := hworker.calls.cells hmem
    obtain ⟨dialog, state, hphase⟩ := h.kept.calls call c.state (by rw [call_phase, hc, Option.map_some])
    obtain ⟨d, hd, -, hcall⟩ := dialog_phase_eq_some_iff.mp hphase
    obtain ⟨call', c', hcall', hc', hstate⟩ := hestablished dialog d hd
    obtain rfl := Option.some.inj (hcall.symm.trans hcall')
    obtain rfl := Option.some.inj (hc.symm.trans hc')
    refine ⟨c, hc, hstate, dialog, ⟨d, hd, hcall⟩, fun other hother => ?_⟩
    obtain ⟨e, he, hecall⟩ := hother
    have hslot : ∀ {dialog d}, run.worker.dialogs.heap.cells dialog = some d → d.call = some call →
        0 < c.dialog.count dialog := by
      intro dialog d hd hcall
      obtain ⟨c', hc', hcount⟩ := hworker.call hd hcall
      obtain rfl := Option.some.inj (hc.symm.trans hc')
      omega
    exact hworker.single hc (hslot he hecall) (hslot hd hcall)

/-- At rest, a server whose steps were orderly has freed every message and every delete event once,
and keeps established calls only. -/
theorem rest_leaves_calls_only (system : System) (h : program.ReachableWhile Orderly system)
    (hrest : AtRest system) : Finished system := by
  have hguarded : Guarded system := by
    refine (invariant_of_advances (P := Guarded) ?_ ?_ h).2
    · exact fun _ hinitial => hinitial.guarded
    · exact fun _ _ _ hcoherent horderly hadvanced hguarded => hguarded.advances hcoherent horderly.kept hadvanced
  have howned : OwnedOnce system := by
    refine (invariant_of_advances (P := OwnedOnce) ?_ ?_ h).2
    · exact fun _ hinitial => hinitial.ownedOnce
    · exact fun _ _ _ hcoherent horderly hadvanced howned => hadvanced.ownedOnce hcoherent horderly.single howned
  obtain ⟨start, hinitial, hpath⟩ := h
  obtain ⟨actions, htrace⟩ := hpath.trace
  have hserved := all_served hinitial (htrace.mono fun _ _ horderly => horderly.regular)
  have hunderway : ∀ k, underway system.timers k (system.threads k) = [] := by
    intro k
    rw [underway, hrest.timers, hrest.carried k]
    rfl
  have hevents : ∀ k, (system.threads k).processed.Perm (system.threads k).allocated := by
    intro k
    refine List.perm_iff_count.mpr fun event => ?_
    have hheld := hguarded.held k event
    rw [unfinished, hunderway, List.count_nil] at hheld
    omega
  have hpending : ∀ k, (system.threads k).run.pending = [] := by
    intro k
    refine List.eq_nil_iff_forall_not_mem.mpr fun event hevent => ?_
    have hcount := List.count_pos_iff.mpr hevent
    have hexpected := hguarded.pending k event
    have hprocessed := (hevents k).count_eq event
    omega
  have hcalls : ∀ k, OnlyCalls (system.threads k).run := by
    intro k
    obtain ⟨inputs, hworker⟩ := hserved.served k
    exact (regulated ⟨_, hinitial.run k, hworker.trace.path⟩).only_calls (hpending k)
  refine ⟨hcalls, ?_, hevents⟩
  have hreferences : ∀ k, references (system.threads k) = [] := by
    intro k
    rw [references, hrest.carried k, held_messages, Store.view, (hcalls k).transactions]
    rfl
  have hnone : (List.finRange MAX_THREADS).flatMap (fun k => references (system.threads k)) = [] :=
    List.flatMap_eq_nil_iff.mpr fun k _ => hreferences k
  rwa [OwnedOnce, hnone, List.nil_append] at howned

/-- The delete event of the first INVITE, as the worker that takes the INVITE allocates it. -/
private def first_event : transaction_delete_t := { invite_event with queue := some 1 }

/-- The timer of an INVITE that was answered fires, and the worker takes the event. -/
private def event_taken : List System.Action :=
  [.fire ⟨.transaction_delete_timeout, first_event⟩ ⟨true, true, true, true⟩, .take ⟨1, one_lt_max_threads⟩]

private theorem deletion_run :
    (program.follow started [datagram_in first_invite, .take ⟨1, one_lt_max_threads⟩]).bind (fun taken : System =>
      (program.follow taken [.work ⟨1, one_lt_max_threads⟩ .obliging]).bind fun answered : System =>
        (program.follow answered event_taken).bind fun fired : System =>
          (program.follow fired [.work ⟨1, one_lt_max_threads⟩ .obliging]).map fun system : System =>
            ([(taken.threads ⟨1, one_lt_max_threads⟩).run.worker.dialogs.list,
                (taken.threads ⟨1, one_lt_max_threads⟩).run.worker.transactions.list,
                (fired.threads ⟨1, one_lt_max_threads⟩).run.worker.calls.list,
                (system.threads ⟨1, one_lt_max_threads⟩).run.worker.calls.list],
              [(queued (answered.threads ⟨1, one_lt_max_threads⟩)).isEmpty,
                ((fired.threads ⟨1, one_lt_max_threads⟩).current.bind address_of).isNone, system.timers.isEmpty,
                (List.finRange MAX_THREADS).all fun k => (carried (system.threads k)).isEmpty],
              call_phase (fired.threads ⟨1, one_lt_max_threads⟩).run.worker 0)) =
      some ([[], [], [0], [0]], [true, true, true, true], some .ESTABLISHED) := by
  decide +kernel

/-- A turn that finds no dialog and deletes no failed call. -/
private theorem regular_turn {run : Run} {env : Environment} {packet : Packet} {input : Input}
    (hturn : Turn env packet input) (hprovided : Provided env)
    (hdialogs : address_of packet ≠ none → ∀ message, dialog_for run.worker message = none)
    (hdeletions : ∀ event a, transaction_of run.worker event = some a → ¬ InFailedCall run.worker a) :
    Regular run input := by
  cases hturn with
  | incoming hgiven =>
    have hnone := hdialogs (Option.some_ne_none _)
    refine ⟨⟨hprovided, fun message _ hreinvites => hreinvites.2 (hnone message)⟩, ?_, fun a hdeletes => hdeletes.elim⟩
    intro message _ _ dialog d hfound
    rw [hnone] at hfound
    cases hfound
  | delete event => exact ⟨⟨hprovided, fun message hopens => hopens.elim⟩, trivial, hdeletions event⟩

/-- The first INVITE is answered and its transaction deleted; its call is all that is left. -/
theorem first_invite_leaves_its_call :
    ∃ system : System, (system.threads ⟨1, one_lt_max_threads⟩).run.worker.calls.list = [0] ∧ AtRest system ∧
      Finished system := by
  obtain ⟨taken, htaken, hrest⟩ := Option.bind_eq_some_iff.mp deletion_run
  obtain ⟨answered, hanswered, hrest⟩ := Option.bind_eq_some_iff.mp hrest
  obtain ⟨fired, hfired, hrest⟩ := Option.bind_eq_some_iff.mp hrest
  obtain ⟨system, hsystem, hfacts⟩ := Option.map_eq_some_iff.mp hrest
  simp only [Prod.mk.injEq, List.cons.injEq, List.isEmpty_iff, Option.isNone_iff_eq_none, and_true] at hfacts
  obtain ⟨⟨hdialogs, htransactions, hcalls, hleft⟩, ⟨hqueued, hevent, htimers, hcarried⟩, hestablished⟩ := hfacts
  have hsucceeds : ∀ n, Succeeds Environment.obliging.epfd (Environment.obliging.timer n) := provided_obliging.timer
  have hpath : program.Path Orderly started taken := by
    refine .of_follow_while htaken fun system action haction => ?_
    simp only [List.mem_cons, List.not_mem_nil, or_false] at haction
    rcases haction with rfl | rfl <;> exact ⟨trivial, trivial, trivial⟩
  have hempty : ∀ test, (taken.threads ⟨1, one_lt_max_threads⟩).run.worker.transactions.first test = none := by
    intro test
    rw [Store.first, htransactions]
    rfl
  have hinvite : Orderly taken (.work ⟨1, one_lt_max_threads⟩ .obliging) := by
    refine ⟨hsucceeds, fun packet _ => ?_, fun packet input _ hturn => ?_⟩
    · cases packet with
      | PACKET_TYPE_DELETE_TRANSACTION => trivial
      | PACKET_TYPE_INCOMING_SIP =>
        intro request _ transaction t opened hfound
        cases (hempty _).symm.trans hfound
    · refine regular_turn hturn provided_obliging (fun _ message => ?_) fun event a hfound => ?_
      · rw [dialog_for, Store.first, hdialogs]
        rfl
      · cases (hempty _).symm.trans hfound
  obtain ⟨henabled, hstep⟩ := Transitions.follow_single hanswered
  have hanswered := hpath.tail henabled hinvite hstep
  obtain ⟨expired, hfire, hexpired, htake⟩ := Transitions.follow_cons hfired
  have hfiring : Orderly answered (.fire ⟨.transaction_delete_timeout, first_event⟩ ⟨true, true, true, true⟩) := by
    refine ⟨fun k hk => ?_, trivial, trivial⟩
    obtain rfl : k = ⟨1, one_lt_max_threads⟩ := Fin.ext (Option.some.inj hk).symm
    rw [hqueued]
    exact Nat.ne_of_lt (by decide)
  obtain ⟨henabled, hstep⟩ := Transitions.follow_single htake
  have hfired := (hanswered.tail hfire hfiring hexpired).tail henabled ⟨trivial, trivial, trivial⟩ hstep
  obtain ⟨actions, htrace⟩ := hfired.trace
  have hworker := ((all_served started_initial (htrace.mono fun _ _ horderly => horderly.regular)).coherent.threads
    ⟨1, one_lt_max_threads⟩).wellFormed
  have hdeletion : Orderly fired (.work ⟨1, one_lt_max_threads⟩ .obliging) := by
    have hdelete : ∀ packet, (fired.threads ⟨1, one_lt_max_threads⟩).current = some packet → address_of packet = none := by
      intro packet hcurrent
      rwa [hcurrent] at hevent
    refine ⟨hsucceeds, fun packet hcurrent => ?_, fun packet input hcurrent hturn => ?_⟩
    · cases packet with
      | PACKET_TYPE_DELETE_TRANSACTION => trivial
      | PACKET_TYPE_INCOMING_SIP => cases hdelete _ hcurrent
    · refine regular_turn hturn provided_obliging (fun hsome => absurd (hdelete packet hcurrent) hsome) ?_
      rintro event a - ⟨t, dialog, call, state, -, -, -, hfailed⟩
      obtain ⟨c, hc, -⟩ := Option.map_eq_some_iff.mp hfailed
      have hmem := hworker.calls.mem hc
      rw [hcalls, List.mem_singleton] at hmem
      rw [hmem, hestablished] at hfailed
      cases hfailed
  obtain ⟨henabled, hstep⟩ := Transitions.follow_single hsystem
  have hrest : AtRest system := by
    refine ⟨htimers, fun k => ?_⟩
    exact List.isEmpty_iff.mp (List.all_eq_true.mp hcarried k (List.mem_finRange k))
  exact ⟨system, hleft, hrest, rest_leaves_calls_only system
    ⟨started, started_initial, hfired.tail henabled hdeletion hstep⟩ hrest⟩

end mock_uas.main
