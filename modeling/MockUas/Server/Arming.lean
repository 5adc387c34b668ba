import MockUas.Server.DeleteEvents

open clib
open mock_uas.sip_message
open mock_uas.sip_utils
open mock_uas.timer_manager

namespace mock_uas.sip_server

/-- Calls of `timer_one_shot_add` for delete events that were allocated one after another,
all of which lead to one queue. -/
inductive Numbered (env : Environment) (queue : Nat) : Nat → List TimerAdd → Prop where
  | nil (serial : Nat) : Numbered env queue serial []
  | cons {serial : Nat} {add : TimerAdd} {adds : List TimerAdd} (hserial : add.event.serial = serial)
    (hqueue : add.event.queue = some queue)
    (harmed : ∃ k, add.armed = (timer_one_shot_add env.epfd (env.timer k) add.callback add.event).2)
    (hrest : Numbered env queue (serial + 1) adds) : Numbered env queue serial (add :: adds)

theorem Numbered.append {env : Environment} {queue serial : Nat} {adds adds' : List TimerAdd}
    (h : Numbered env queue serial adds) (h' : Numbered env queue (serial + adds.length) adds') :
    Numbered env queue serial (adds ++ adds') := by
  induction h with
  | nil => exact h'
  | @cons serial add adds hserial hqueue harmed _ ih =>
    refine .cons hserial hqueue harmed (ih ?_)
    have hnext : serial + 1 + adds.length = serial + (add :: adds).length := by
      rw [List.length_cons]
      omega
    rwa [hnext]

theorem Arms.numbered {env : Environment} {queue serial owner : Nat} {t : sip_transaction_t} {adds : List TimerAdd}
    (h : Arms env serial owner t adds) (hqueue : t.queue = some queue) : Numbered env queue serial adds := by
  rcases h with ⟨rfl, -⟩ | ⟨add, k, rfl, hevent, harmed⟩
  · exact .nil serial
  · refine .cons ?_ ?_ ⟨k, harmed⟩ (.nil _)
    · rw [hevent, delete_event]
    · rw [hevent, delete_event, hqueue]

theorem Arming.numbered {env : Environment} {queue serial : Nat} {armers : List (Nat × sip_transaction_t)}
    {adds : List TimerAdd} (h : Arming env serial armers adds)
    (hqueue : ∀ owner t, (owner, t) ∈ armers → t.queue = some queue) : Numbered env queue serial adds := by
  induction h with
  | nil serial => exact .nil serial
  | cons harms _ ih =>
    refine (harms.numbered (hqueue _ _ List.mem_cons_self)).append (ih fun owner t hmem => ?_)
    exact hqueue owner t (List.mem_cons_of_mem _ hmem)

/-- The serials of numbered events are consecutive. -/
theorem Numbered.serials {env : Environment} {queue serial : Nat} {adds : List TimerAdd}
    (h : Numbered env queue serial adds) :
    adds.map (·.event.serial) = List.range' serial adds.length := by
  induction h with
  | nil => rfl
  | cons hserial _ _ _ ih => rw [List.map_cons, hserial, ih, List.length_cons, List.range'_succ]

theorem Numbered.queue {env : Environment} {queue serial : Nat} {adds : List TimerAdd}
    (h : Numbered env queue serial adds) {add : TimerAdd} (hmem : add ∈ adds) : add.event.queue = some queue := by
  induction h with
  | nil => cases hmem
  | cons _ hqueue _ _ ih =>
    rcases List.mem_cons.mp hmem with rfl | hmem
    · exact hqueue
    · exact ih hmem

/-- A timer that was armed carries the event it was added for. -/
theorem Numbered.event {env : Environment} {queue serial : Nat} {adds : List TimerAdd}
    (h : Numbered env queue serial adds) {add : TimerAdd} (hmem : add ∈ adds) {timer : timer_s}
    (htimer : add.armed = some timer) : timer.user_data = add.event := by
  induction h with
  | nil => cases hmem
  | cons _ _ harmed _ ih =>
    rcases List.mem_cons.mp hmem with rfl | hmem
    · obtain ⟨k, hk⟩ := harmed
      rw [timer_one_shot_add_armed (hk.symm.trans htimer)]
    · exact ih hmem

/-- With timers that can be added, every event is armed. -/
theorem Numbered.armed_of_succeeds {env : Environment} {queue serial : Nat} {adds : List TimerAdd}
    (h : Numbered env queue serial adds) (htimers : ∀ k, Succeeds env.epfd (env.timer k)) :
    armed adds = adds.map (·.event) := by
  induction h with
  | nil => rfl
  | cons _ _ harmed _ ih =>
    obtain ⟨k, hk⟩ := harmed
    rw [timer_one_shot_add_of_succeeds (htimers k)] at hk
    rw [List.map_cons, ← ih, armed, List.filterMap_cons, hk]
    rfl

/-- What a step adds to the events of its worker, which keeps its queue. -/
structure AddsEvents (m m' : Machine) (adds : List TimerAdd) : Prop where
  queue : m'.worker.queue = m.worker.queue
  timers : m'.timers = m.timers ++ adds
  events : m'.events = m.events + adds.length
  numbered : Numbered m.env m.worker.queue m.events adds

private theorem adds_none {m m' : Machine} (hqueue : m'.worker.queue = m.worker.queue)
    (htimers : m'.timers = m.timers) (hevents : m'.events = m.events) : ∃ adds, AddsEvents m m' adds :=
  ⟨[], hqueue, by rw [htimers, List.append_nil], by rw [hevents, List.length_nil, Nat.add_zero], .nil _⟩

private theorem Conversed.adds_events {m m' : Machine} {transaction : Nat} {t : sip_transaction_t} {sends : List Sent}
    {adds : List TimerAdd} (h : Conversed m m' transaction t sends adds)
    (hnumbered : Numbered m.env m.worker.queue m.events adds) : AddsEvents m m' adds :=
  ⟨h.queue, h.timers, h.events, hnumbered⟩

theorem Handled.adds_events {m m' : Machine} {message : Owned sip_message_t} (h : Handled m message m')
    (hworker : WellFormed m.worker) : ∃ adds, AddsEvents m m' adds := by
  cases h with
  | unallocated _ _ _ hm =>
    subst hm
    exact adds_none rfl rfl rfl
  | @opened t _ adds _ _ hopened =>
    refine ⟨adds, hopened.conversed.queue, hopened.conversed.timers, hopened.conversed.events, ?_⟩
    have harms := hopened.arms
    split at harms
    · rw [harms]
      exact .nil _
    · exact harms.numbered hopened.opened.queue
  | known _ hcell _ hknown =>
    cases hknown with
    | dropped _ _ hm =>
      subst hm
      exact adds_none rfl rfl rfl
    | resent _ _ _ hm =>
      subst hm
      exact adds_none rfl rfl rfl
    | rewritten _ _ _ hconversed => exact ⟨[], hconversed.queue, hconversed.timers, hconversed.events, .nil _⟩
    | @acked adds _ _ _ hconversed _ _ harms =>
      refine ⟨adds, hconversed.adds_events ?_⟩
      split at harms
      · rw [harms]
        exact .nil _
      · exact harms.numbered (hworker.held hcell).queue

theorem Removed.queue {before after : worker_thread_t} {transaction : Nat} {t : sip_transaction_t}
    {armers : List (Nat × sip_transaction_t)} (h : Removed before transaction t armers after) :
    after.queue = before.queue := by
  cases h with
  | alone _ hafter => rw [hafter]
  | left _ _ _ hafter => rw [hafter]
  | ended _ _ _ hafter => rw [hafter]

theorem Deleted.adds_events {m m' : Machine} {event : transaction_delete_t} (h : Deleted m event m')
    (hworker : WellFormed m.worker) : ∃ adds, AddsEvents m m' adds := by
  cases h with
  | missing _ hm =>
    subst hm
    exact adds_none rfl rfl rfl
  | @removed transaction t armers adds _ _ hdeletion =>
    refine ⟨adds, hdeletion.removed.queue, hdeletion.timers, hdeletion.events,
      hdeletion.arming.numbered fun owner u hmem => ?_⟩
    exact (hworker.held (hdeletion.removed.armer_cells hmem).2).queue

/-- Every packet adds numbered events. -/
theorem Processed.adds_events {m m' : Machine} {packet : Packet} (h : Processed m packet m')
    (hworker : WellFormed m.worker) : ∃ adds, AddsEvents m m' adds := by
  cases h with
  | dropped => exact adds_none rfl rfl rfl
  | request _ _ hhandled => exact hhandled.adds_events hworker
  | delete hdeleted => exact hdeleted.adds_events hworker

end mock_uas.sip_server
