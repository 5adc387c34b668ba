import Mathlib.Data.Fintype.Basic
import MockUas.Clib.Trace
import MockUas.Server.Workload
import MockUas.System.Workers

open clib
open mock_uas.sip_message
open mock_uas.sip_utils
open mock_uas.sip_server
open mock_uas.message_queue
open mock_uas.timer_manager

namespace mock_uas.main

/-- The steps that a packet in a worker's hands may give rise to, and those of a timer. -/
def chore : Packet → Nat
  | .PACKET_TYPE_INCOMING_SIP _ => 9
  | .PACKET_TYPE_DELETE_TRANSACTION _ => 1

def delay (timer : timer_s) : Nat :=
  match timer.cb with
  | .transaction_delete_timeout => 3
  | .transaction_wait_ack_timeout => 4

def workload (thread : Thread) : Nat :=
  (thread.current.toList.map chore).sum + ((queued thread).map fun packet => chore packet + 1).sum +
    4 * (unsettled thread.run.worker.transactions).length

/-- The steps that the server still has to make when nothing more arrives, at most. -/
def System.effort (system : System) : Nat := (∑ k, workload (system.threads k)) + (system.timers.map delay).sum

/-- A step that does something: no `recvfrom` that is not reached. -/
def Busy (_ : System) : System.Action → Prop
  | .receive reception => Reads reception
  | _ => True

/-- A step of a worker or of the timer thread. -/
def Inward (_ : System) : System.Action → Prop
  | .receive _ => False
  | _ => True

/-- Nothing is left to do: no timer is armed, and no worker has a packet. -/
structure AtRest (system : System) : Prop where
  timers : system.timers = []
  carried : ∀ k, carried (system.threads k) = []

theorem effort_set_thread {system before : System} (hbefore : before.threads = system.threads) (k : Fin MAX_THREADS)
    (thread : Thread) :
    (∑ j, workload ((before.set_thread k thread).threads j)) + workload (system.threads k) =
      (∑ j, workload (system.threads j)) + workload thread := by
  have hsum := sum_replaced (f := fun j => workload (system.threads j))
    (g := fun j => workload ((before.set_thread k thread).threads j)) (a := k) fun j hj => by
      rw [System.threads_set_thread, if_neg hj, hbefore]
  rw [show (before.set_thread k thread).threads k = thread from if_pos rfl] at hsum
  exact hsum

theorem workload_enqueue {thread : Thread} {n : Nat} {queue : message_queue_t Packet} {packet : Packet}
    (hqueue : Holds n queue (queued thread ++ [packet])) :
    workload { thread with queue := queue } = workload thread + (chore packet + 1) := by
  have hqueued : queued { thread with queue := queue } = queued thread ++ [packet] := queued_of_holds _ hqueue
  rw [workload, workload, hqueued, List.map_append, List.sum_append, List.map_singleton, List.sum_singleton]
  dsimp only
  omega

theorem workload_take {thread : Thread} {n : Nat} {queue : message_queue_t Packet} {packet : Packet}
    {rest : List Packet} (taken : List Nat) (hcurrent : thread.current = none) (hqueued : queued thread = packet :: rest)
    (hqueue : Holds n queue rest) :
    workload { thread with queue := queue, current := some packet, taken := taken } + 1 = workload thread := by
  have hrest : queued { thread with queue := queue, current := some packet, taken := taken } = rest :=
    queued_of_holds _ hqueue
  rw [workload, workload, hrest, hcurrent, hqueued, List.map_cons, List.sum_cons, Option.toList_some, List.map_singleton,
    List.sum_singleton, Option.toList_none, List.map_nil, List.sum_nil]
  dsimp only
  omega

theorem delay_le (timers : List timer_s) : (timers.map delay).sum ≤ 4 * timers.length := by
  induction timers with
  | nil => exact Nat.le_refl _
  | cons timer timers ih =>
    have hle : delay timer ≤ 4 := by
      unfold delay
      split
      · exact Nat.le_succ 3
      · exact Nat.le_refl 4
    rw [List.map_cons, List.sum_cons, List.length_cons]
    omega

/-- What a worker has done with its packet takes all the steps that the packet stood for. -/
theorem workload_finish {thread : Thread} {packet : Packet} {env : Environment} {m' : Machine}
    {allocated processed : List transaction_delete_t} (hcurrent : thread.current = some packet)
    (hworker : WellFormed thread.run.worker) (hprocessed : Processed (thread.run.start env) packet m') :
    workload { thread with
      run := (settle thread.run packet).finish m'
      current := none
      allocated := allocated
      processed := processed } + ((m'.timers.filterMap TimerAdd.armed).map delay).sum < workload thread := by
  have hburden := hprocessed.burden_le hworker
  have hdelay := delay_le (m'.timers.filterMap TimerAdd.armed)
  have harmed := List.length_filterMap_le TimerAdd.armed m'.timers
  have hchore : chore packet = 1 + 8 * (address_of packet).toList.length := by
    cases packet <;> rfl
  have hbefore : burden (thread.run.start env) = (unsettled thread.run.worker.transactions).length := Nat.zero_add _
  have hafter : ((settle thread.run packet).finish m').worker = m'.worker := by
    cases packet <;> rfl
  rw [hbefore, burden] at hburden
  rw [workload, workload, hcurrent, Option.toList_some, List.map_singleton, List.sum_singleton, hchore]
  dsimp only
  rw [hafter, Option.toList_none, List.map_nil, List.sum_nil]
  change 0 + ((queued thread).map fun packet => chore packet + 1).sum + _ + _ < _
  omega

/-- Every step that does something is one of those that were ahead, or brings a datagram. -/
theorem Advanced.effort_lt {system system' : System} {action : System.Action} (h : Advanced system action system')
    (hcoherent : Coherent system) (hmoves : Busy system action ∨ system' ≠ system) :
    system'.effort + 11 * system.messages < system.effort + 11 * system'.messages := by
  have hexpires : ∀ {timer : timer_s}, timer ∈ system.timers →
      delay timer + ((system.timers.erase timer).map delay).sum = (system.timers.map delay).sum :=
    fun hmem => List.sum_map_erase delay hmem
  have heffort : ∀ timers, ({ system with timers := timers } : System).effort =
      (∑ k, workload (system.threads k)) + (timers.map delay).sum := fun _ => rfl
  cases h with
  | idle hnothing => exact hmoves.elim (fun hbusy => absurd hbusy hnothing) fun hne => absurd rfl hne
  | discarded =>
    change system.effort + _ < _ + 11 * (system.messages + 1)
    omega
  | refused =>
    change system.effort + _ < _ + 11 * (system.messages + 1)
    omega
  | @dispatched _ message arrival queue hentered hroom hqueue =>
    have hthreads := @effort_set_thread system { system with
      messages := system.messages + 1
      arrivals := system.arrivals ++ [arrival] } rfl arrival.thread { system.threads arrival.thread with queue := queue }
    rw [workload_enqueue hqueue] at hthreads
    rw [System.effort, System.effort]
    change _ + (system.timers.map delay).sum + _ < _ + 11 * (system.messages + 1)
    have hnine : chore (.PACKET_TYPE_INCOMING_SIP ⟨system.messages, message⟩) = 9 := rfl
    omega
  | @rearmed timer answers hcb hmem =>
    have hfour : delay timer = 4 := by rw [delay, hcb]
    have hsum := hexpires hmem
    have hnew : (((system.timers ++ (timer_one_shot_add system.epfd answers .transaction_delete_timeout
        timer.user_data).2.toList).erase timer).map delay).sum ≤ ((system.timers.erase timer).map delay).sum + 3 := by
      rw [List.erase_append_left _ hmem, List.map_append, List.sum_append]
      refine Nat.add_le_add_left ?_ _
      cases hadd : (timer_one_shot_add system.epfd answers .transaction_delete_timeout timer.user_data).2 with
      | none => exact Nat.zero_le _
      | some armed =>
        rw [timer_one_shot_add_armed hadd]
        exact Nat.le_refl _
    rw [heffort, System.effort]
    change _ + _ + _ < _ + 11 * system.messages
    omega
  | @expired timer answers k queue hcb hmem hk hqueue =>
    have hthree : delay timer = 3 := by rw [delay, hcb]
    have hsum := hexpires hmem
    have hthreads := @effort_set_thread system { system with timers := system.timers.erase timer } rfl k
      { system.threads k with queue := queue }
    rw [workload_enqueue hqueue] at hthreads
    rw [System.effort, System.effort]
    change _ + ((system.timers.erase timer).map delay).sum + _ < _ + 11 * system.messages
    have hone : chore (.PACKET_TYPE_DELETE_TRANSACTION timer.user_data) = 1 := rfl
    omega
  | @lost timer answers k hcb hmem hk hfull =>
    have hthree : delay timer = 3 := by rw [delay, hcb]
    have hsum := hexpires hmem
    rw [heffort, System.effort]
    change _ + _ + _ < _ + 11 * system.messages
    omega
  | @taken k packet rest queue hcurrent hqueued hqueue =>
    have hthreads := @effort_set_thread system system rfl k { system.threads k with
      queue := queue
      current := some packet
      taken := (system.threads k).taken ++ (address_of packet).toList }
    dsimp only at hthreads
    have htake := workload_take ((system.threads k).taken ++ (address_of packet).toList) hcurrent hqueued hqueue
    rw [System.effort, System.effort]
    change _ + (system.timers.map delay).sum + _ < _ + 11 * system.messages
    dsimp only
    omega
  | @worked k env packet m' hcurrent hepfd hprocessed hworker hevents hnumbered hreachable =>
    have hthreads := @effort_set_thread system { system with
      timers := system.timers ++ m'.timers.filterMap TimerAdd.armed } rfl k { system.threads k with
        run := (settle (system.threads k).run packet).finish m'
        current := none
        allocated := (system.threads k).allocated ++ m'.timers.map TimerAdd.event
        processed := (system.threads k).processed ++ (event_of packet).toList }
    dsimp only at hthreads
    have hfinish := @workload_finish _ packet env m' ((system.threads k).allocated ++ m'.timers.map TimerAdd.event)
      ((system.threads k).processed ++ (event_of packet).toList) hcurrent (hcoherent.threads k).wellFormed hprocessed
    have htimers : ((system.timers ++ m'.timers.filterMap TimerAdd.armed).map delay).sum =
        (system.timers.map delay).sum + ((m'.timers.filterMap TimerAdd.armed).map delay).sum := by
      rw [List.map_append, List.sum_append]
    rw [System.effort, System.effort]
    change _ + ((system.timers ++ m'.timers.filterMap TimerAdd.armed).map delay).sum + _ < _ + 11 * system.messages
    dsimp only
    omega

/-- Where no worker and no timer can go on, nothing is left to do. -/
theorem at_rest_of_stuck {system : System} (hcoherent : Coherent system)
    (hstuck : ∀ action, Inward system action → ¬ system.enabled action) : AtRest system := by
  constructor
  · cases htimers : system.timers with
    | nil => rfl
    | cons timer timers =>
      have henabled : system.enabled (.fire timer ⟨true, true, true, true⟩) := by
        rw [System.enabled, htimers]
        exact List.mem_cons_self
      exact absurd henabled (hstuck _ trivial)
  · intro k
    have hcurrent : (system.threads k).current = none := by
      by_contra hsome
      exact hstuck (.work k { Environment.obliging with epfd := system.epfd }) trivial ⟨hsome, rfl⟩
    have hqueued : queued (system.threads k) = [] := by
      have hsize := (hcoherent.threads k).holds.size
      cases hpackets : queued (system.threads k) with
      | nil => rfl
      | cons packet rest =>
        rw [hpackets, List.length_cons] at hsize
        exact absurd ⟨hcurrent, by omega⟩ (hstuck (.take k) trivial)
    rw [carried, hcurrent, hqueued]
    rfl

theorem Advanced.messages_le {system system' : System} {action : System.Action} (h : Advanced system action system') :
    system.messages ≤ system'.messages ∧ system'.messages ≤ system.messages + 1 := by
  cases h with
  | discarded => exact ⟨Nat.le_succ _, Nat.le_refl _⟩
  | refused => exact ⟨Nat.le_succ _, Nat.le_refl _⟩
  | dispatched => exact ⟨Nat.le_succ _, Nat.le_refl _⟩
  | _ => exact ⟨Nat.le_refl _, Nat.le_succ _⟩

theorem Inward.busy {system : System} {action : System.Action} (h : Inward system action) : Busy system action := by
  cases action with
  | receive => exact h.elim
  | _ => trivial

theorem Advanced.messages_of_inward {system system' : System} {action : System.Action}
    (h : Advanced system action system') (hinward : Inward system action) : system'.messages = system.messages := by
  cases h with
  | idle => exact hinward.elim
  | discarded => exact hinward.elim
  | refused => exact hinward.elim
  | dispatched => exact hinward.elim
  | _ => rfl

/-- The server can go on until nothing is left to do, or a step faults. -/
private theorem goes_on {system : System} (hcoherent : Coherent system) :
    ∃ actions system', program.Trace Inward system actions system' ∧ (AtRest system' ∨
      ∃ action fault, Inward system' action ∧ system'.enabled action ∧ system'.step action = error fault) := by
  induction heffort : system.effort using Nat.strong_induction_on generalizing system with
  | _ n ih =>
    by_cases hstuck : ∀ action, Inward system action → ¬ system.enabled action
    · exact ⟨[], system, .refl _, .inl (at_rest_of_stuck hcoherent hstuck)⟩
    · push Not at hstuck
      obtain ⟨action, hinward, henabled⟩ := hstuck
      cases hstep : system.step action with
      | error fault => exact ⟨[], system, .refl _, .inr ⟨action, fault, hinward, henabled, hstep⟩⟩
      | ok next =>
        have hadvanced := step_advanced hcoherent henabled hstep
        have hlt := hadvanced.effort_lt hcoherent (.inl hinward.busy)
        rw [hadvanced.messages_of_inward hinward] at hlt
        obtain ⟨actions, system', htrace, hend⟩ := ih next.effort (by omega) (hadvanced.coherent hcoherent) rfl
        exact ⟨action :: actions, system', .cons henabled hinward hstep htrace, hend⟩

/-- What the work ahead of a server means. Of the steps that do something there are no more than
were ahead or came in with datagrams, the server can always go on until it rests or faults, and
where it cannot go on it is at rest. -/
structure ComesToRest (system : System) : Prop where
  effort : system.effort ≤ 10 * system.messages
  length : ∀ actions system', program.Trace Busy system actions system' →
    actions.length + system'.effort + 11 * system.messages ≤ system.effort + 11 * system'.messages
  ends : ∃ actions system', program.Trace Inward system actions system' ∧ (AtRest system' ∨
    ∃ action fault, Inward system' action ∧ system'.enabled action ∧ system'.step action = error fault)
  rest : (∀ action, Inward system action → ¬ system.enabled action) → AtRest system

theorem System.Initial.effort {system : System} (h : system.Initial) : system.effort = 0 := by
  have hworkload : ∀ k, workload (system.threads k) = 0 := by
    intro k
    have hcarried := h.carried k
    rw [main.carried, List.append_eq_nil_iff] at hcarried
    rw [workload, hcarried.1, hcarried.2, (h.run k).transactions]
    rfl
  rw [System.effort, h.timers, Finset.sum_eq_zero fun k _ => hworkload k]
  rfl

private theorem Advanced.effort_le {system system' : System} {action : System.Action}
    (h : Advanced system action system') (hcoherent : Coherent system) (hle : system.effort ≤ 10 * system.messages) :
    system'.effort ≤ 10 * system'.messages := by
  by_cases hmoves : system' = system
  · rwa [hmoves]
  · have hlt := h.effort_lt hcoherent (.inr hmoves)
    have hmessages := h.messages_le
    omega

theorem server_comes_to_rest (system : System) (h : program.Reachable system) : ComesToRest system := by
  have hall : Coherent system ∧ system.effort ≤ 10 * system.messages := by
    refine invariant_of_advances (P := fun system => system.effort ≤ 10 * system.messages) ?_ ?_ h
    · intro system hinitial
      rw [hinitial.effort]
      exact Nat.zero_le _
    · intro system action system' hcoherent _ hadvanced hle
      exact hadvanced.effort_le hcoherent hle
  obtain ⟨hcoherent, heffort⟩ := hall
  refine ⟨heffort, fun actions system' htrace => ?_, goes_on hcoherent, at_rest_of_stuck hcoherent⟩
  have hpays : ∀ before action after, program.enabled before action → Busy before action →
      program.step before action = ok after → Coherent before → Coherent after ∧
        after.effort + 11 * before.messages < before.effort + 11 * after.messages := by
    intro before action after henabled hbusy hstep hbefore
    have hadvanced := step_advanced hbefore henabled hstep
    exact ⟨hadvanced.coherent hbefore, hadvanced.effort_lt hbefore (.inl hbusy)⟩
  exact (htrace.length_le hpays hcoherent).2

private theorem answered_effort :
    (program.follow started (invite_answered .obliging)).map (fun system : System =>
      (system.messages, system.effort)) = some (1, 3) := by
  decide +kernel

/-- After the first INVITE three steps are left: its timer, and the deletion of its transaction. -/
theorem first_invite_comes_to_rest :
    ∃ system : System, system.messages = 1 ∧ system.effort = 3 ∧ ComesToRest system := by
  obtain ⟨system, hsystem, hfacts⟩ := Option.map_eq_some_iff.mp answered_effort
  obtain ⟨hmessages, heffort⟩ := Prod.mk.inj hfacts
  exact ⟨system, hmessages, heffort, server_comes_to_rest system (reachable_of_follow hsystem)⟩

end mock_uas.main
