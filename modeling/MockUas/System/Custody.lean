import Mathlib.Data.List.Nodup
import MockUas.System.Advance

open clib
open mock_uas.sip_message
open mock_uas.sip_utils
open mock_uas.sip_server
open mock_uas.message_queue
open mock_uas.timer_manager

namespace mock_uas.main

/-- Every timer that the step adds can be added, and no delete event comes to a queue that is
full. -/
def Kept (system : System) : System.Action → Prop
  | .fire timer answers =>
    match timer.cb with
    | .transaction_wait_ack_timeout => Succeeds system.epfd answers
    | .transaction_delete_timeout => ∀ k : Fin MAX_THREADS, timer.user_data.queue = some k.val →
      (queued (system.threads k)).length ≠ slots QUEUE_CAPACITY
  | .work _ env => ∀ n, Succeeds env.epfd (env.timer n)
  | _ => True

/-- Of the events a step has allocated, those are lost whose timer could not be added. -/
private theorem armed_or_lost {env : Environment} {queue serial : Nat} {adds : List TimerAdd}
    (h : Numbered env queue serial adds) : ∃ lost, ((∀ n, Succeeds env.epfd (env.timer n)) → lost = []) ∧
      ∀ event, (adds.map TimerAdd.event).count event = (armed adds).count event + lost.count event := by
  induction h with
  | nil => exact ⟨[], fun _ => rfl, fun _ => rfl⟩
  | @cons serial add adds _ _ harmed _ ih =>
    obtain ⟨lost, hnone, hcount⟩ := ih
    obtain ⟨n, hn⟩ := harmed
    have harmed_cons : armed (add :: adds) = (add.armed.map timer_s.user_data).toList ++ armed adds := by
      rw [armed, List.filterMap_cons]
      cases add.armed <;> rfl
    cases hadd : add.armed with
    | none =>
      refine ⟨add.event :: lost, fun hsucceeds => ?_, fun event => ?_⟩
      · rw [timer_one_shot_add_of_succeeds (hsucceeds n), hadd] at hn
        cases hn
      · rw [harmed_cons, hadd, List.map_cons, List.count_cons, List.count_cons, hcount event]
        exact Nat.add_assoc _ _ _
    | some timer =>
      have htimer : timer.user_data = add.event := by rw [timer_one_shot_add_armed (hn.symm.trans hadd)]
      refine ⟨lost, hnone, fun event => ?_⟩
      rw [harmed_cons, hadd, List.map_cons, List.count_cons, List.count_append, hcount event, Option.map_some,
        Option.toList_some, List.count_singleton, htimer]
      omega

/-- How many copies of a delete event a worker still has to finish. -/
def unfinished (system : System) (j : Fin MAX_THREADS) (event : transaction_delete_t) : Nat :=
  (underway system.timers j (system.threads j)).count event + (system.threads j).processed.count event

/-- A step passes the delete events on. It loses one only where a timer cannot be added or a
queue is full. -/
theorem Advanced.passes_on {system system' : System} {action : System.Action} (h : Advanced system action system')
    (j : Fin MAX_THREADS) : ∃ lost, (Kept system action → lost = []) ∧
      ∀ event, unfinished system j event + (system'.threads j).allocated.count event =
        unfinished system' j event + (system.threads j).allocated.count event + lost.count event := by
  cases h with
  | idle => exact ⟨[], fun _ => rfl, fun _ => rfl⟩
  | discarded => exact ⟨[], fun _ => rfl, fun _ => rfl⟩
  | refused => exact ⟨[], fun _ => rfl, fun _ => rfl⟩
  | @dispatched _ message arrival queue _ _ hqueue =>
    refine ⟨[], fun _ => rfl, fun event => ?_⟩
    simp only [unfinished, underway, System.threads_set_thread]
    split
    · rename_i hj
      rw [carried_enqueue hqueue, List.filterMap_append, hj]
      simp only [List.filterMap_cons, event_of, List.filterMap_nil, List.append_nil, List.count_nil]
      rfl
    · rfl
  | @rearmed timer answers hcb hmem =>
    cases harmed : (timer_one_shot_add system.epfd answers .transaction_delete_timeout timer.user_data).2 with
    | none =>
      refine ⟨if timer.user_data.queue = some j.val then [timer.user_data] else [], fun hkept => ?_, fun event => ?_⟩
      · rw [Kept, hcb] at hkept
        rw [timer_one_shot_add_of_succeeds hkept] at harmed
        cases harmed
      · have hcount := (ticking_erase hmem j).count_eq event
        simp only [unfinished, underway, Option.toList_none, List.append_nil, List.count_append] at hcount ⊢
        omega
    | some armed =>
      obtain rfl := timer_one_shot_add_armed harmed
      refine ⟨[], fun _ => rfl, fun event => ?_⟩
      have hsame : (⟨.transaction_delete_timeout, timer.user_data⟩ : timer_s).user_data = timer.user_data := rfl
      have hcount := (ticking_replace hmem hsame j).count_eq event
      simp only [unfinished, underway, Option.toList_some, List.count_append, List.count_nil] at hcount ⊢
      omega
  | @expired timer answers k queue hcb hmem hk hqueue =>
    refine ⟨[], fun _ => rfl, fun event => ?_⟩
    have hcount := (ticking_erase hmem j).count_eq event
    simp only [unfinished, underway, System.threads_set_thread]
    split
    · rename_i hj
      rw [hj, if_pos hk] at hcount
      rw [carried_enqueue hqueue, List.filterMap_append, hj]
      simp only [List.filterMap_cons, event_of, List.filterMap_nil, List.count_append, List.count_nil] at hcount ⊢
      change _ = (ticking (system.timers.erase timer) k).count event + _ + _ + _ + _
      omega
    · rename_i hj
      have hne : timer.user_data.queue ≠ some j.val := by
        rw [hk]
        exact fun he => hj (Fin.ext (Option.some.inj he).symm)
      rw [if_neg hne, List.nil_append] at hcount
      simp only [List.count_append, List.count_nil] at hcount ⊢
      change _ = (ticking (system.timers.erase timer) j).count event + _ + _ + _ + _
      omega
  | @lost timer answers k hcb hmem hk hfull =>
    refine ⟨if timer.user_data.queue = some j.val then [timer.user_data] else [], fun hkept => ?_, fun event => ?_⟩
    · rw [Kept, hcb] at hkept
      exact absurd hfull (hkept k hk)
    · have hcount := (ticking_erase hmem j).count_eq event
      simp only [unfinished, underway, List.count_append] at hcount ⊢
      omega
  | @taken k packet rest queue hcurrent hqueued hqueue =>
    refine ⟨[], fun _ => rfl, fun event => ?_⟩
    simp only [unfinished, underway, System.threads_set_thread]
    split
    · rename_i hj
      rw [carried_take _ hcurrent hqueued hqueue, hj]
      rfl
    · rfl
  | @worked k env packet m' hcurrent hepfd hprocessed hworker hevents hnumbered hreachable =>
    by_cases hj : j = k
    · obtain ⟨lost, hnone, hlost⟩ := armed_or_lost hnumbered
      refine ⟨lost, hnone, fun event => ?_⟩
      have hallocated := hlost event
      rw [hj]
      have hfinished := @underway_finish system.timers k (system.threads k) { system.threads k with
        run := (settle (system.threads k).run packet).finish m'
        current := none
        allocated := (system.threads k).allocated ++ m'.timers.map TimerAdd.event
        processed := (system.threads k).processed ++ (event_of packet).toList } packet env _ m'.timers hcurrent rfl rfl
        hnumbered event
      simp only [unfinished, System.threads_set_thread, if_true, List.count_append] at hfinished ⊢
      change _ = (underway (system.timers ++ m'.timers.filterMap TimerAdd.armed) k _).count event + _ + _ + _
      omega
    · refine ⟨[], fun _ => rfl, fun event => ?_⟩
      simp only [unfinished, underway, System.threads_set_thread, if_neg hj]
      change _ = (ticking (system.timers ++ m'.timers.filterMap TimerAdd.armed) j ++ _).count event + _ + _ + _
      rw [ticking_append, ticking_armed hnumbered, if_neg hj, List.append_nil]
      rfl

/-- The delete events a worker has allocated are told apart by their addresses, and lead to
its queue. -/
structure Allotted (k : Fin MAX_THREADS) (thread : Thread) : Prop where
  serials : thread.allocated.map transaction_delete_t.serial = List.range thread.run.events
  queue : ∀ event ∈ thread.allocated, event.queue = some k.val

theorem Allotted.nodup {k : Fin MAX_THREADS} {thread : Thread} (h : Allotted k thread) : thread.allocated.Nodup := by
  refine List.Nodup.of_map transaction_delete_t.serial ?_
  rw [h.serials]
  exact List.nodup_range

theorem System.Initial.allotted {system : System} (h : system.Initial) (k : Fin MAX_THREADS) :
    Allotted k (system.threads k) := by
  constructor
  · rw [h.allocated, (h.run k).events]
    rfl
  · intro event hevent
    rw [h.allocated] at hevent
    cases hevent

theorem Advanced.allotted {system system' : System} {action : System.Action} (h : Advanced system action system')
    (hallotted : ∀ k, Allotted k (system.threads k)) (j : Fin MAX_THREADS) : Allotted j (system'.threads j) := by
  have hsame : ∀ {thread : Thread}, thread.allocated = (system.threads j).allocated →
      thread.run.events = (system.threads j).run.events → Allotted j thread := by
    intro thread hallocated hevents
    refine ⟨?_, fun event hevent => (hallotted j).queue event (hallocated ▸ hevent)⟩
    rw [hallocated, hevents]
    exact (hallotted j).serials
  cases h with
  | idle => exact hallotted j
  | discarded => exact hallotted j
  | refused => exact hallotted j
  | rearmed => exact hallotted j
  | lost => exact hallotted j
  | dispatched =>
    rw [System.threads_set_thread]
    split
    · rename_i hj
      rw [← hj]
      exact hsame rfl rfl
    · exact hallotted j
  | expired =>
    rw [System.threads_set_thread]
    split
    · rename_i hj
      rw [← hj]
      exact hsame rfl rfl
    · exact hallotted j
  | taken =>
    rw [System.threads_set_thread]
    split
    · rename_i hj
      rw [← hj]
      exact hsame rfl rfl
    · exact hallotted j
  | @worked k env packet m' hcurrent hepfd hprocessed hworker hevents hnumbered hreachable =>
    rw [System.threads_set_thread]
    split
    · rename_i hj
      rw [hj]
      constructor
      · have hserials := hnumbered.serials
        rw [List.map_append, (hallotted k).serials, List.map_map]
        change _ ++ m'.timers.map (fun add => add.event.serial) = List.range m'.events
        rw [hserials, hevents, List.range_eq_range', List.range_eq_range', ← List.range'_append_1, Nat.zero_add]
      · intro event hevent
        rcases List.mem_append.mp hevent with hevent | hevent
        · exact (hallotted k).queue event hevent
        · obtain ⟨add, hadd, rfl⟩ := List.mem_map.mp hevent
          exact hnumbered.queue hadd
    · exact hallotted j

/-- Every delete event that a worker has allocated is in one place, which is one of its own:
with a timer, in its queue, in its hands, or processed. -/
structure Custody (system : System) : Prop where
  once : ∀ k, (system.threads k).allocated.Nodup
  apart : ∀ j k, ∀ event ∈ (system.threads j).allocated, event ∈ (system.threads k).allocated → j = k
  held : ∀ k, (underway system.timers k (system.threads k) ++ (system.threads k).processed).Perm
    (system.threads k).allocated

/-- The deletions that a worker's run expects are on their way. -/
private theorem Advanced.expects {system system' : System} {action : System.Action}
    (h : Advanced system action system') (hcoherent : Coherent system) (hkept : Kept system action)
    (j : Fin MAX_THREADS) (event : transaction_delete_t) :
    (system.threads j).run.pending.count event + (system.threads j).processed.count event +
        (system'.threads j).allocated.count event =
      (system'.threads j).run.pending.count event + (system'.threads j).processed.count event +
        (system.threads j).allocated.count event := by
  cases h with
  | idle => rfl
  | discarded => rfl
  | refused => rfl
  | rearmed => rfl
  | lost => rfl
  | dispatched =>
    rw [System.threads_set_thread]
    split
    · rename_i hj
      rw [hj]
    · rfl
  | expired =>
    rw [System.threads_set_thread]
    split
    · rename_i hj
      rw [hj]
    · rfl
  | taken =>
    rw [System.threads_set_thread]
    split
    · rename_i hj
      rw [hj]
    · rfl
  | @worked k env packet m' hcurrent hepfd hprocessed hworker hevents hnumbered hreachable =>
    rw [System.threads_set_thread]
    split
    · rename_i hj
      rw [hj]
      have hsettled := (hcoherent.threads k).settled hcurrent event
      simp only [Run.finish, hnumbered.armed_of_succeeds hkept, List.count_append]
      change _ = _ + (m'.timers.map TimerAdd.event).count event + _ + _
      omega
    · rfl

/-- What holds of the delete events while none is lost. -/
structure Guarded (system : System) : Prop where
  allotted : ∀ k, Allotted k (system.threads k)
  held : ∀ k event, unfinished system k event = (system.threads k).allocated.count event
  pending : ∀ k event, (system.threads k).run.pending.count event + (system.threads k).processed.count event =
    (system.threads k).allocated.count event

theorem System.Initial.guarded {system : System} (h : system.Initial) : Guarded system := by
  have hcarried : ∀ k, carried (system.threads k) = [] := by
    intro k
    have hholds := initialize_message_queue_spec (P := Packet) QUEUE_CAPACITY
    rw [← h.queue k] at hholds
    rw [carried, h.current, queued_of_holds _ hholds]
    rfl
  constructor
  · exact h.allotted
  · intro k event
    rw [unfinished, underway, hcarried, h.timers, h.processed, h.allocated]
    rfl
  · intro k event
    rw [(h.run k).pending, h.processed, h.allocated]
    rfl

theorem Guarded.advances {system system' : System} {action : System.Action} (h : Guarded system)
    (hcoherent : Coherent system) (hkept : Kept system action) (hadvanced : Advanced system action system') :
    Guarded system' := by
  refine ⟨hadvanced.allotted h.allotted, fun k event => ?_, fun k event => ?_⟩
  · obtain ⟨lost, hnone, hcount⟩ := hadvanced.passes_on k
    have hevent := hcount event
    have hheld := h.held k event
    rw [hnone hkept, List.count_nil] at hevent
    omega
  · have hexpects := hadvanced.expects hcoherent hkept k event
    have hpending := h.pending k event
    omega

/-- As long as timers can be added and no delete event finds its queue full, no delete event
is lost, and every deletion that a worker expects is on its way to it. -/
theorem delete_events_in_custody (system : System) (h : program.ReachableWhile Kept system) :
    Custody system ∧ ∀ k, (underway system.timers k (system.threads k)).Perm (system.threads k).run.pending := by
  obtain ⟨-, hguarded⟩ := invariant_of_advances (P := Guarded) (fun _ hinitial => hinitial.guarded)
    (fun _ _ _ hcoherent hkept hadvanced hguarded => hguarded.advances hcoherent hkept hadvanced) h
  refine ⟨⟨fun k => (hguarded.allotted k).nodup, fun j k event hj hk => ?_, fun k => ?_⟩, fun k => ?_⟩
  · have hqueue := ((hguarded.allotted j).queue event hj).symm.trans ((hguarded.allotted k).queue event hk)
    exact Fin.ext (Option.some.inj hqueue)
  · refine List.perm_iff_count.mpr fun event => ?_
    rw [List.count_append]
    exact hguarded.held k event
  · refine List.perm_iff_count.mpr fun event => ?_
    have hheld := hguarded.held k event
    have hpending := hguarded.pending k event
    rw [unfinished] at hheld
    omega

/-- An INVITE that a worker takes and answers. -/
def invite_answered (env : Environment) : List System.Action :=
  [datagram_in first_invite, .take ⟨1, one_lt_max_threads⟩, .work ⟨1, one_lt_max_threads⟩ env]

private theorem invite_answered_run :
    (program.follow started (invite_answered .obliging)).map (fun system : System =>
      (system.timers.length, (system.threads ⟨1, by decide⟩).allocated.length)) = some (1, 1) := by
  decide +kernel

theorem invite_event_in_custody :
    ∃ system : System, system.timers.length = 1 ∧ (system.threads ⟨1, by decide⟩).allocated.length = 1 ∧
      Custody system := by
  obtain ⟨system, hsystem, hfacts⟩ := Option.map_eq_some_iff.mp invite_answered_run
  simp only [Prod.mk.injEq] at hfacts
  have hkept : ∀ system, ∀ action ∈ invite_answered .obliging, Kept system action := by
    intro system action haction
    simp only [invite_answered, List.mem_cons, List.not_mem_nil, or_false] at haction
    rcases haction with rfl | rfl | rfl
    · trivial
    · trivial
    · exact fun n => ⟨by decide, rfl, rfl, rfl, rfl⟩
  exact ⟨system, hfacts.1, hfacts.2, (delete_events_in_custody system
    ⟨started, started_initial, .of_follow_while hsystem hkept⟩).1⟩

/-- The system calls of a step in which no timer can be added. -/
def timerless : Environment := { Environment.obliging with timer := fun _ => ⟨true, true, true, false⟩ }

private theorem timerless_run :
    (program.follow started (invite_answered timerless)).map (fun system : System =>
      (system.timers.length, (carried (system.threads ⟨1, by decide⟩)).length,
        (system.threads ⟨1, by decide⟩).processed.length, (system.threads ⟨1, by decide⟩).allocated.length)) =
      some (0, 0, 0, 1) := by
  decide +kernel

/-- A delete event whose timer cannot be added is lost. -/
theorem event_lost_without_timer : ∃ system, program.Reachable system ∧ ¬ Custody system := by
  obtain ⟨system, hsystem, hfacts⟩ := Option.map_eq_some_iff.mp timerless_run
  simp only [Prod.mk.injEq, List.length_eq_zero_iff] at hfacts
  obtain ⟨htimers, hcarried, hprocessed, hallocated⟩ := hfacts
  refine ⟨system, reachable_of_follow hsystem, fun hcustody => ?_⟩
  have hlength := (hcustody.held ⟨1, by decide⟩).length_eq
  rw [underway, hcarried, hprocessed, htimers, hallocated] at hlength
  cases hlength

end mock_uas.main
