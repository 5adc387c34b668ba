import MockUas.Server.Conclusion

open clib
open mock_uas.sip_message
open mock_uas.sip_utils

namespace mock_uas.sip_server

instance (t : sip_transaction_t) : Decidable (Ended t) :=
  inferInstanceAs (Decidable (t.state = .COMPLETED ∨ t.state = .TERMINATED))

/-- The key of a transaction that has ended. -/
def ended_key (t : sip_transaction_t) : Option Key := if Ended t then some (key_of t) else none

/-- Of each key there are as many deletions pending as transactions that have ended. -/
def EndedCovered (run : Run) : Prop :=
  ∀ key, (run.worker.transactions.view ended_key).count (some key) ≤ (run.pending.map event_key).count key

/-- A step in which nothing but sends fails and no delete event reaches a transaction that
has not ended. -/
def EndedOnly (run : Run) (input : Input) : Prop :=
  Provided input.env ∧ ∀ a t, Deletes run a input → run.worker.transactions.heap.cells a = some t → Ended t

theorem ended_key_of_ended {t : sip_transaction_t} (h : Ended t) : ended_key t = some (key_of t) := if_pos h

/-- The key of one record counts for at most one. -/
private theorem count_ended_key_le (t : sip_transaction_t) (key : Key) :
    [ended_key t].count (some key) ≤ [key_of t].count key := by
  rw [ended_key]
  split
  · rw [List.count_singleton, List.count_singleton]
    simp
  · exact Nat.zero_le _

theorem Provided.armed_keys {env : Environment} (h : Provided env) {queue serial : Nat}
    {armers : List (Nat × sip_transaction_t)} {adds : List TimerAdd} (harming : Arming env serial armers adds)
    (hheld : ∀ owner t, (owner, t) ∈ armers → Held queue t) :
    (sip_server.armed adds).map event_key = armers.map fun armer => key_of armer.2 := by
  induction harming with
  | nil => rfl
  | @cons serial owner t armers adds adds' harms _ ih =>
    have hkey := (Stamped.of_delete_event (hheld owner t List.mem_cons_self) serial owner).2
    have hrest := ih fun other u hmem => hheld other u (List.mem_cons_of_mem _ hmem)
    have hsplit : sip_server.armed (adds ++ adds') = sip_server.armed adds ++ sip_server.armed adds' :=
      List.filterMap_append
    rw [hsplit, List.map_append, h.armed harms, hrest, List.map_singleton, hkey]
    rfl

/-- The transactions that the cleanup of a dialog ends arm an event each. -/
private theorem count_disband_le {transactions : Store sip_transaction_t} (hsound : transactions.Sound)
    {slots : List (Option Nat)} {armers : List (Nat × sip_transaction_t)}
    (harmers : Terminates transactions slots armers) (key : Key) :
    ((transactions.map (disband slots)).view ended_key).count (some key) ≤
      (transactions.view ended_key).count (some key) + (armers.map fun armer => key_of armer.2).count key := by
  obtain ⟨owners, howners⟩ : ∃ owners, owners = (armers.filter fun armer => key_of armer.2 = key).map (·.1) := ⟨_, rfl⟩
  have howner : ∀ a t, transactions.heap.cells a = some t → ended_key (disband slots a t) = some key →
      ended_key t = some key ∨ a ∈ owners := by
    intro a t ha hafter
    have hkey : key_of t = key := by
      rw [ended_key] at hafter
      split at hafter
      · rw [← key_of_disband slots a t]
        exact Option.some.inj hafter
      · cases hafter
    by_cases hended : Ended t
    · left
      rw [ended_key_of_ended hended, hkey]
    · right
      have hslot : some a ∈ slots := by
        by_contra hslot
        rw [disband, if_neg hslot, ended_key, if_neg hended] at hafter
        cases hafter
      have harmer : (a, t) ∈ armers := (harmers.mem a t).mpr ⟨hslot, ha, fun hstate => hended (.inr hstate)⟩
      rw [howners]
      exact List.mem_map.mpr ⟨(a, t), List.mem_filter.mpr ⟨harmer, by simpa using hkey⟩, rfl⟩
  have hlist : ∀ nodes : List Nat,
      (nodes.filterMap fun a => ((transactions.map (disband slots)).heap.cells a).map ended_key).count (some key) ≤
        (nodes.filterMap fun a => (transactions.heap.cells a).map ended_key).count (some key) +
          (nodes.filter fun a => a ∈ owners).length := by
    intro nodes
    induction nodes with
    | nil => exact Nat.zero_le _
    | cons a nodes ih =>
      have hnew : ∀ nodes : List Nat, ((a :: nodes).filter fun b => b ∈ owners).length =
          (if a ∈ owners then 1 else 0) + (nodes.filter fun b => b ∈ owners).length := by
        intro nodes
        rw [List.filter_cons]
        by_cases ha : a ∈ owners
        · rw [if_pos (by simpa using ha), if_pos ha, List.length_cons, Nat.add_comm]
        · rw [if_neg (by simpa using ha), if_neg ha, Nat.zero_add]
      rw [List.filterMap_cons, List.filterMap_cons, hnew, Store.cells_map]
      cases ha : transactions.heap.cells a with
      | none =>
        simp only [Option.map_none]
        omega
      | some t =>
        simp only [Option.map_some, List.count_cons]
        have hfirst : (if ended_key (disband slots a t) == some key then 1 else 0) ≤
            (if ended_key t == some key then 1 else 0) + if a ∈ owners then 1 else 0 := by
          by_cases hafter : ended_key (disband slots a t) = some key
          · rcases howner a t ha hafter with hbefore | howned
            · rw [if_pos (by simpa using hafter), if_pos (by simpa using hbefore)]
              exact Nat.le_add_right _ _
            · rw [if_pos (by simpa using hafter), if_pos howned]
              exact Nat.le_add_left _ _
          · rw [if_neg (by simpa using hafter)]
            exact Nat.zero_le _
        omega
  have hle : (transactions.list.filter fun a => a ∈ owners).length ≤ owners.length := by
    refine List.Nodup.length_le_of_subset (hsound.nodup.filter _) fun a ha => ?_
    simpa using (List.mem_filter.mp ha).2
  have hlength : owners.length = (armers.map fun armer => key_of armer.2).count key := by
    rw [howners, List.length_map, ← List.countP_eq_length_filter, List.count, List.countP_map]
    rfl
  have hall := hlist transactions.list
  rw [← hlength]
  exact hall.trans (Nat.add_le_add_left hle _)

/-- What one more record adds to the keys of those that have ended. -/
private theorem count_cons_ended_le (t : sip_transaction_t) (keys : List (Option Key)) (key : Key) :
    (ended_key t :: keys).count (some key) ≤ [key_of t].count key + keys.count (some key) := by
  have hcons : ended_key t :: keys = [ended_key t] ++ keys := rfl
  rw [hcons, List.count_append]
  exact Nat.add_le_add_right (count_ended_key_le t key) _

private theorem Opened.ended_covered {run : Run} {env : Environment} {message : Owned sip_message_t} {m' : Machine}
    {t : sip_transaction_t} {sends : List Sent} {adds : List TimerAdd}
    (h : Opened (run.start env) message m' t sends adds) (hworker : WellFormed run.worker)
    (hrequest : Request message.contents) (hprovided : Provided env) (hcovered : EndedCovered run) :
    EndedCovered (run.finish m') := by
  intro key
  have hkey := hcovered key
  have hpending : (run.finish m').pending = run.pending ++ armed adds :=
    congrArg (fun timers => run.pending ++ armed timers) h.conversed.timers
  have hview : (run.finish m').worker.transactions.view ended_key =
      ended_key t :: run.worker.transactions.view ended_key := by
    have hpush : (run.finish m').worker.transactions = run.worker.transactions.push t := h.transactions
    rw [hpush, hworker.transactions.view_push]
  rw [hview, hpending, List.map_append, List.count_append]
  have harms := h.arms
  split at harms
  · rename_i hidle
    have hnone : ended_key t = none := by
      rw [ended_key, if_neg]
      rintro (hstate | hstate) <;> cases hidle.symm.trans hstate
    rw [hnone, List.count_cons_of_ne (by simp)]
    exact hkey.trans (Nat.le_add_right _ _)
  · obtain ⟨-, hsame⟩ := Stamped.of_delete_event (h.opened.held hrequest) run.events
      run.worker.transactions.heap.next
    have hevents : armed adds = [delete_event run.events run.worker.transactions.heap.next t] := hprovided.armed harms
    have hcons := count_cons_ended_le t (run.worker.transactions.view ended_key) key
    rw [hevents, List.map_singleton, hsame]
    omega

private theorem Known.ended_covered {run : Run} {env : Environment} {message opened : Owned sip_message_t}
    {m' : Machine} {transaction : Nat} {t : sip_transaction_t}
    (h : Known (run.start env) message transaction t opened m') (hworker : WellFormed run.worker)
    (hcell : run.worker.transactions.heap.cells transaction = some t) (hprovided : Provided env)
    (hcovered : EndedCovered run) : EndedCovered (run.finish m') := by
  intro key
  have hkey := hcovered key
  have hgrows : ∀ timers, (run.pending.map event_key).count key ≤
      ((run.pending ++ armed timers).map event_key).count key := by
    intro timers
    rw [List.map_append, List.count_append]
    exact Nat.le_add_right _ _
  have hview : ∀ w, ((run.worker.transactions.set transaction w).view ended_key).count (some key) ≤
      [ended_key w].count (some key) + ((run.worker.transactions.remove transaction).view ended_key).count (some key) := by
    intro w
    rw [(hworker.transactions.view_set (f := ended_key) (w := w) hcell).count_eq, ← List.count_append]
    exact Nat.le_refl _
  have hbefore : (run.worker.transactions.view ended_key).count (some key) =
      [ended_key t].count (some key) + ((run.worker.transactions.remove transaction).view ended_key).count (some key) := by
    rw [(hworker.transactions.view_remove (f := ended_key) hcell).count_eq, ← List.count_append]
    rfl
  cases h with
  | dropped _ _ hm =>
    subst hm
    exact hkey.trans (hgrows _)
  | resent _ _ _ hm =>
    subst hm
    exact hkey.trans (hgrows _)
  | @rewritten output _ _ _ _ hconversed =>
    have hafter : (run.finish m').worker.transactions =
        run.worker.transactions.set transaction (answered t opened RESPONSE_CODE_500 output) := hconversed.transactions
    have hsame : ended_key (answered t opened RESPONSE_CODE_500 output) = ended_key t := rfl
    have hset := hview (answered t opened RESPONSE_CODE_500 output)
    rw [← hafter, hsame, ← hbefore] at hset
    exact (hset.trans hkey).trans (hgrows _)
  | @acked adds _ _ _ hconversed _ _ harms =>
    obtain ⟨t', hafter, hended, hsame⟩ : ∃ t', (run.finish m').worker.transactions =
        run.worker.transactions.set transaction t' ∧ Ended t' ∧ key_of t' = key_of t :=
      ⟨_, hconversed.transactions, .inr rfl, rfl⟩
    have hset := hview t'
    have hpending : (run.finish m').pending = run.pending ++ armed adds :=
      congrArg (fun timers => run.pending ++ armed timers) hconversed.timers
    rw [← hafter, ended_key_of_ended hended, hsame] at hset
    rw [hpending, List.map_append, List.count_append]
    split at harms
    · rename_i hstate
      rw [ended_key_of_ended (.inr hstate)] at hbefore
      omega
    · obtain ⟨-, harmed⟩ := Stamped.of_delete_event (hworker.held hcell) run.events transaction
      have hevents : armed adds = [delete_event run.events transaction t] := hprovided.armed harms
      have hone : [some (key_of t)].count (some key) = [key_of t].count key := by
        rw [List.count_singleton, List.count_singleton]
        rfl
      rw [hevents, List.map_singleton, harmed]
      omega

private theorem Deleted.ended_covered {run : Run} {env : Environment} {event : transaction_delete_t} {m' : Machine}
    (h : Deleted (run.start env) event m') (hworker : WellFormed run.worker) (hstamped : Stamped event)
    (hprovided : Provided env) (hpending : event ∈ run.pending)
    (hended : ∀ a t, transaction_of run.worker event = some a → run.worker.transactions.heap.cells a = some t → Ended t)
    (hcovered : EndedCovered run) :
    EndedCovered ({ run with pending := run.pending.erase event }.finish m') := by
  intro key
  have hkey := hcovered key
  have hbefore : (run.pending.map event_key).count key =
      ((run.pending.erase event).map event_key).count key + if event_key event == key then 1 else 0 := by
    rw [((List.perm_cons_erase hpending).map event_key).count_eq, List.map_cons, List.count_cons]
  cases h with
  | missing hnone hm =>
    subst hm
    have hnone' := (transaction_of_eq_none_iff hworker hstamped).mp hnone
    have hafter : ((run.pending.erase event).map event_key).count key ≤
        ((run.pending.erase event ++ armed (run.start env).timers).map event_key).count key := by
      rw [List.map_append, List.count_append]
      exact Nat.le_add_right _ _
    refine Nat.le_trans ?_ hafter
    change (run.worker.transactions.view ended_key).count (some key) ≤ _
    by_cases hsame : event_key event = key
    · have hgone : some key ∉ run.worker.transactions.view ended_key := by
        rw [hworker.transactions.mem_view, ← hsame]
        rintro ⟨a, t, ht, hkey⟩
        rw [ended_key] at hkey
        split at hkey
        · exact hnone' a t ht (Option.some.inj hkey)
        · cases hkey
      rw [List.count_eq_zero.mpr hgone]
      exact Nat.zero_le _
    · rw [if_neg (by simpa using hsame)] at hbefore
      omega
  | @removed transaction t armers adds hfound hcell hdeletion =>
    have hpending' : ({ run with pending := run.pending.erase event }.finish m').pending =
        run.pending.erase event ++ armed adds :=
      congrArg (fun timers => run.pending.erase event ++ armed timers) hdeletion.timers
    obtain ⟨u, hu, hsame⟩ := transaction_of_eq_some hworker hstamped hfound
    rw [show run.worker.transactions.heap.cells transaction = some t from hcell, Option.some.injEq] at hu
    subst hu
    have hkeys := hprovided.armed_keys hdeletion.arming fun owner u hmem =>
      hworker.held (hdeletion.removed.armer_cells hmem).2
    have hperm : (run.worker.transactions.view ended_key).count (some key) =
        (if event_key event == key then 1 else 0) +
          ((run.worker.transactions.remove transaction).view ended_key).count (some key) := by
      rw [(hworker.transactions.view_remove (f := ended_key) hcell).count_eq,
        ended_key_of_ended (hended transaction t hfound hcell), hsame, List.count_cons, Nat.add_comm]
      rfl
    rw [hpending', List.map_append, List.count_append, hkeys]
    suffices hleft : (m'.worker.transactions.view ended_key).count (some key) ≤
        ((run.worker.transactions.remove transaction).view ended_key).count (some key) +
          (armers.map fun armer => key_of armer.2).count key by
      change (m'.worker.transactions.view ended_key).count (some key) ≤ _
      omega
    cases hdeletion.removed with
    | alone _ hafter =>
      rw [hafter]
      exact Nat.le_add_right _ _
    | left _ _ _ hafter =>
      rw [hafter]
      exact Nat.le_add_right _ _
    | ended _ _ _ hafter harmers =>
      rw [hafter]
      exact count_disband_le (hworker.transactions.remove transaction) harmers key

private theorem Run.Initial.ended_covered {run : Run} (h : run.Initial) : EndedCovered run := by
  intro key
  rw [h.transactions]
  exact Nat.zero_le _

/-- A step leaves as many deletions pending as transactions that have ended. -/
private theorem Run.Stepped.ended_covered {run run' : Run} {input : Input} (h : Run.Stepped run input run')
    (hworker : WellFormed run.worker) (henabled : program.enabled run input) (hended : EndedOnly run input)
    (hstamped : ∀ event ∈ run.pending, Stamped event) (hcovered : EndedCovered run) : EndedCovered run' := by
  cases h with
  | unhandled => exact hcovered
  | response => exact hcovered
  | request haccepted hhandled =>
    cases hhandled with
    | unallocated _ hfails => exact absurd (hended.1.malloc 0) (Bool.eq_false_iff.mp hfails)
    | opened _ _ hopened => exact hopened.ended_covered hworker haccepted.request.1 hended.1 hcovered
    | known _ hcell _ hknown => exact hknown.ended_covered hworker hcell hended.1 hcovered
  | delete hdeleted =>
    exact hdeleted.ended_covered hworker (hstamped _ henabled) hended.1 henabled (fun a t => hended.2 a t) hcovered

/-- While nothing but sends fails and delete events reach transactions that have ended only,
every transaction that has ended is going to be deleted. -/
theorem ReachableWhile.ended_covered {run : Run} (h : program.ReachableWhile EndedOnly run) : EndedCovered run := by
  have hall : WellFormed run.worker ∧ (∀ event ∈ run.pending, Stamped event) ∧ EndedCovered run := by
    refine h.invariant (P := fun run => WellFormed run.worker ∧ (∀ event ∈ run.pending, Stamped event) ∧
      EndedCovered run) ?_ ?_
    · intro run (hinitial : run.Initial)
      exact ⟨hinitial.wellFormed, by rw [hinitial.pending]; nofun, hinitial.ended_covered⟩
    · rintro run input run' henabled hended hstep ⟨hworker, hstamped, hcovered⟩
      have hstepped := (step_ends hworker input).of_eq_ok hstep
      exact ⟨hstepped.wellFormed hworker, hstepped.stamped hworker hstamped,
        hstepped.ended_covered hworker henabled hended hstamped hcovered⟩
  exact hall.2.2

theorem EndedCovered.pending {run : Run} (h : EndedCovered run) (hworker : WellFormed run.worker) {a : Nat}
    {t : sip_transaction_t} (ht : run.worker.transactions.heap.cells a = some t) (hended : Ended t) :
    ∃ event ∈ run.pending, event_key event = key_of t := by
  have hview : some (key_of t) ∈ run.worker.transactions.view ended_key :=
    hworker.transactions.mem_view.mpr ⟨a, t, ht, ended_key_of_ended hended⟩
  have hcount := (List.count_pos_iff.mpr hview).trans_le (h (key_of t))
  exact List.mem_map.mp (List.count_pos_iff.mp hcount)

end mock_uas.sip_server
