import Mathlib.Algebra.Order.BigOperators.Group.Finset
import Mathlib.Algebra.BigOperators.Ring.Finset
import MockUas.Clib.Trace
import MockUas.Server.Replies
import MockUas.System.Workers

open clib
open mock_uas.sip_message
open mock_uas.sip_utils
open mock_uas.sip_server
open mock_uas.message_queue
open mock_uas.timer_manager

namespace mock_uas.main

/-- A worker has sent nothing but the answers to its inputs, one input after another. A datagram it
answers was received and given to this worker, and is answered at one time. -/
structure AnswersInputs (actions : List System.Action) (k : Fin MAX_THREADS) (run : Run) (inputs : List Input)
    (replies : List (List Sent)) : Prop where
  sent : run.sent = replies.flatten
  replies : List.Forall₂ Replies inputs replies
  incoming : ∀ datagram client_addr address env, .incoming datagram client_addr address env ∈ inputs →
    ReceivedFor actions k datagram client_addr address
  once : (inputs.filterMap input_address).Pairwise (· < ·)

/-- A bound of the datagrams sent by the number of those that came in. -/
private theorem Replies.length_le {inputs : List Input} {replies : List (List Sent)}
    (h : List.Forall₂ Replies inputs replies) :
    replies.flatten.length ≤ 4 * (inputs.filterMap input_address).length ∧
      (replies.flatten.filter (·.success)).length ≤ 3 * (inputs.filterMap input_address).length := by
  induction h with
  | nil => exact ⟨Nat.zero_le _, Nat.zero_le _⟩
  | @cons input sends inputs replies hreply _ ih =>
    rw [List.flatten_cons, List.filter_append, List.length_append, List.length_append, List.filterMap_cons]
    cases hreply with
    | silent =>
      cases input_address input with
      | none => simpa using ih
      | some address =>
        simp only [List.length_cons, List.length_nil, List.filter_nil]
        omega
    | request address env _ hanswers =>
      have hattempts := hanswers.attempts
      have hdelivered := hanswers.delivered
      simp only [input_address, List.length_cons]
      omega

/-- The workers together were given no more datagrams than messages were allocated. -/
private theorem length_given_to_le {system : System} (hrouted : Routed system) :
    ∑ k, (given_to system k).length ≤ system.messages := by
  have hgiven : ∀ arrivals : List Arrival,
      ∑ k : Fin MAX_THREADS, (arrivals.filter fun arrival => arrival.thread = k ∧ arrival.accepted).length ≤
        arrivals.length := by
    intro arrivals
    induction arrivals with
    | nil => exact Nat.le_of_eq (Finset.sum_eq_zero fun _ _ => rfl)
    | cons arrival arrivals ih =>
      have hcons : ∀ k : Fin MAX_THREADS,
          ((arrival :: arrivals).filter fun arrival => arrival.thread = k ∧ arrival.accepted).length ≤
            (arrivals.filter fun arrival => arrival.thread = k ∧ arrival.accepted).length +
              if arrival.thread = k then 1 else 0 := by
        intro k
        rw [List.filter_cons]
        by_cases hthread : arrival.thread = k
        · rw [if_pos hthread]
          split
          · exact Nat.le_refl _
          · exact Nat.le_succ _
        · rw [if_neg hthread, if_neg (by simp [hthread])]
          exact Nat.le_refl _
      refine (Finset.sum_le_sum fun k _ => hcons k).trans ?_
      rw [Finset.sum_add_distrib, Finset.sum_ite_eq, if_pos (Finset.mem_univ _), List.length_cons]
      exact Nat.add_le_add_right ih 1
  have harrivals : system.arrivals.length ≤ system.messages := by
    have hsubset : system.arrivals.map Arrival.address ⊆ List.range system.messages := by
      intro address haddress
      obtain ⟨arrival, harrival, rfl⟩ := List.mem_map.mp haddress
      exact List.mem_range.mpr (hrouted.recent arrival harrival)
    have hnodup : (system.arrivals.map Arrival.address).Nodup := hrouted.sorted.imp Nat.ne_of_lt
    have hlength := hnodup.length_le_of_subset hsubset
    rwa [List.length_map, List.length_range] at hlength
  refine Nat.le_trans (Nat.le_of_eq ?_) ((hgiven system.arrivals).trans harrivals)
  exact Finset.sum_congr rfl fun k _ => List.length_map _

/-- The server sends nothing but answers, each to the sender of a request that the worker was
given. It tries four datagrams at most for each one that came in, and gets out three at most. -/
theorem server_answers_senders (start system : System) (actions : List System.Action) (hinitial : start.Initial)
    (h : program.Trace (fun _ _ => True) start actions system) :
    (∀ k, ∃ inputs replies, AnswersInputs actions k (system.threads k).run inputs replies) ∧
      ∑ k, (system.threads k).run.sent.length ≤ 4 * system.messages ∧
      ∑ k, ((system.threads k).run.sent.filter (·.success)).length ≤ 3 * system.messages := by
  have hrouted := routed ⟨start, hinitial, h.path⟩
  have hserved := all_served hinitial (h.mono fun system action _ => turns_of_forall (fun _ _ => trivial) system action)
  have hworkers : ∀ k, ∃ inputs replies, AnswersInputs actions k (system.threads k).run inputs replies ∧
      (inputs.filterMap input_address).length ≤ (given_to system k).length := by
    intro k
    obtain ⟨inputs, halone⟩ := hserved.alone hrouted k
    obtain ⟨replies, hsent, hreplies⟩ := trace_replies (hinitial.run k).wellFormed halone.trace
    rw [(hinitial.run k).sent, List.nil_append] at hsent
    have hprefix : inputs.filterMap input_address <+: given_to system k := ⟨_, halone.order⟩
    exact ⟨inputs, replies, ⟨hsent, hreplies, halone.incoming, halone.once.sublist hprefix.sublist⟩, hprefix.length_le⟩
  have htotal : ∀ n (f : List Sent → Nat), (∀ inputs replies, List.Forall₂ Replies inputs replies →
      f replies.flatten ≤ n * (inputs.filterMap input_address).length) →
      ∑ k, f (system.threads k).run.sent ≤ n * system.messages := by
    intro n f hbound
    have hle : ∀ k, f (system.threads k).run.sent ≤ n * (given_to system k).length := by
      intro k
      obtain ⟨inputs, replies, hanswers, hgiven⟩ := hworkers k
      rw [hanswers.sent]
      exact (hbound inputs replies hanswers.replies).trans (Nat.mul_le_mul_left n hgiven)
    refine (Finset.sum_le_sum fun k _ => hle k).trans ?_
    rw [← Finset.mul_sum]
    exact Nat.mul_le_mul_left n (length_given_to_le hrouted)
  refine ⟨fun k => ?_, ?_, ?_⟩
  · obtain ⟨inputs, replies, hanswers, -⟩ := hworkers k
    exact ⟨inputs, replies, hanswers⟩
  · exact htotal 4 List.length fun _ _ hreplies => (Replies.length_le hreplies).1
  · exact htotal 3 (fun sends => (sends.filter (·.success)).length) fun _ _ hreplies => (Replies.length_le hreplies).2

private theorem answers_run :
    (program.follow started (invite_answered .obliging)).map (fun system : System =>
      (system.messages, (system.threads ⟨1, one_lt_max_threads⟩).run.sent.length)) = some (1, 3) := by
  decide +kernel

/-- Three datagrams answer the first INVITE, and no more can. -/
theorem first_invite_answers_sender :
    ∃ system : System, (system.threads ⟨1, one_lt_max_threads⟩).run.sent.length = 3 ∧
      (∃ inputs replies, AnswersInputs (invite_answered .obliging) ⟨1, one_lt_max_threads⟩
        (system.threads ⟨1, one_lt_max_threads⟩).run inputs replies) ∧
      ∑ k, ((system.threads k).run.sent.filter (·.success)).length ≤ 3 := by
  obtain ⟨system, hsystem, hfacts⟩ := Option.map_eq_some_iff.mp answers_run
  obtain ⟨hmessages, hsent⟩ := Prod.mk.inj hfacts
  obtain ⟨hworkers, -, hdelivered⟩ := server_answers_senders started system (invite_answered .obliging)
    started_initial (.of_follow hsystem fun _ _ _ => trivial)
  rw [hmessages] at hdelivered
  exact ⟨system, hsent, hworkers ⟨1, one_lt_max_threads⟩, hdelivered⟩

end mock_uas.main
