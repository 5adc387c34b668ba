import MockUas.Server.WellFormed

open clib
open mock_uas.sip_message
open mock_uas.sip_utils

namespace mock_uas.sip_server

/-- The transactions that can still be terminated. -/
def unsettled (transactions : Store sip_transaction_t) : List Nat :=
  transactions.list.filter fun a => (transactions.heap.cells a).any fun t => t.state ≠ .TERMINATED

theorem mem_unsettled {transactions : Store sip_transaction_t} (hsound : transactions.Sound) {a : Nat} :
    a ∈ unsettled transactions ↔ ∃ t, transactions.heap.cells a = some t ∧ t.state ≠ .TERMINATED := by
  rw [unsettled, List.mem_filter, Option.any_eq_true]
  constructor
  · rintro ⟨-, t, ht, hstate⟩
    exact ⟨t, ht, of_decide_eq_true hstate⟩
  · rintro ⟨t, ht, hstate⟩
    exact ⟨hsound.mem ht, t, ht, decide_eq_true hstate⟩

theorem nodup_unsettled {transactions : Store sip_transaction_t} (hsound : transactions.Sound) :
    (unsettled transactions).Nodup :=
  hsound.nodup.filter _

/-- Of the transactions that could be terminated, some others than those that still can be. -/
theorem length_unsettled_le {before after : Store sip_transaction_t} (hbefore : before.Sound) (hafter : after.Sound)
    {others : List Nat} (hnodup : others.Nodup)
    (hothers : ∀ a ∈ others, a ∉ unsettled after ∧ ∃ t, before.heap.cells a = some t ∧ t.state ≠ .TERMINATED)
    (hkept : ∀ a t', after.heap.cells a = some t' → t'.state ≠ .TERMINATED →
      ∃ t, before.heap.cells a = some t ∧ t.state ≠ .TERMINATED) :
    (unsettled after).length + others.length ≤ (unsettled before).length := by
  rw [← List.length_append]
  refine List.Nodup.length_le_of_subset ?_ fun a ha => ?_
  · refine List.nodup_append.mpr ⟨nodup_unsettled hafter, hnodup, fun a ha b hb hab => ?_⟩
    exact (hothers b hb).1 (hab ▸ ha)
  · apply (mem_unsettled hbefore).mpr
    rcases List.mem_append.mp ha with ha | ha
    · obtain ⟨t', ht', hstate⟩ := (mem_unsettled hafter).mp ha
      exact hkept a t' ht' hstate
    · exact (hothers a ha).2

/-- One more transaction. -/
theorem length_unsettled_push {transactions : Store sip_transaction_t} (hsound : transactions.Sound)
    (t : sip_transaction_t) :
    (unsettled (transactions.push t)).length ≤
      (unsettled transactions).length + if t.state = .TERMINATED then 0 else 1 := by
  have hpush := hsound.push t
  have hcases : ∀ a ∈ unsettled (transactions.push t), a ∈ unsettled transactions ∨
      a = transactions.heap.next ∧ t.state ≠ .TERMINATED := by
    intro a ha
    obtain ⟨u, hu, hstate⟩ := (mem_unsettled hpush).mp ha
    rw [Store.heap_push, Heap.cells_alloc] at hu
    split at hu
    · rename_i hnext
      obtain rfl := Option.some.inj hu
      exact .inr ⟨hnext, hstate⟩
    · exact .inl ((mem_unsettled hsound).mpr ⟨u, hu, hstate⟩)
  split
  · rename_i hstate
    refine List.Nodup.length_le_of_subset (nodup_unsettled hpush) fun a ha => ?_
    exact (hcases a ha).resolve_right fun hnew => hnew.2 hstate
  · have hsubset : unsettled (transactions.push t) ⊆ transactions.heap.next :: unsettled transactions := by
      intro a ha
      rcases hcases a ha with hold | ⟨hnext, -⟩
      · exact List.mem_cons_of_mem _ hold
      · exact hnext ▸ List.mem_cons_self
    exact (nodup_unsettled hpush).length_le_of_subset hsubset

/-- The events that are armed, and the transactions that can still be terminated, each of which may
arm one more. -/
def burden (m : Machine) : Nat := m.timers.length + (unsettled m.worker.transactions).length

theorem Arms.length_le {env : Environment} {serial owner : Nat} {t : sip_transaction_t} {adds : List TimerAdd}
    (h : Arms env serial owner t adds) : adds.length ≤ 1 := by
  rcases h with ⟨rfl, -⟩ | ⟨add, k, rfl, -⟩
  · exact Nat.zero_le _
  · exact Nat.le_refl _

theorem Arming.length_le {env : Environment} {serial : Nat} {armers : List (Nat × sip_transaction_t)}
    {adds : List TimerAdd} (h : Arming env serial armers adds) : adds.length ≤ armers.length := by
  induction h with
  | nil => exact Nat.le_refl _
  | cons harms _ ih =>
    have hone := harms.length_le
    rw [List.length_append, List.length_cons]
    omega

private theorem Opened.burden_le {m m' : Machine} {message : Owned sip_message_t} {t : sip_transaction_t}
    {sends : List Sent} {adds : List TimerAdd} (h : Opened m message m' t sends adds) (hworker : WellFormed m.worker) :
    burden m' ≤ burden m + 2 := by
  have hpush := length_unsettled_push hworker.transactions t
  have hadds : adds.length ≤ 1 := by
    have harms := h.arms
    split at harms
    · rw [harms]
      exact Nat.zero_le _
    · exact harms.length_le
  have htimers : m'.timers = m.timers ++ adds := h.conversed.timers
  rw [burden, burden, h.transactions, htimers, List.length_append]
  split at hpush
  · omega
  · omega

/-- A transaction that is rewritten keeps its state, or is terminated and arms one event at most. -/
private theorem burden_set_le {m m' : Machine} {transaction : Nat} {t t' : sip_transaction_t} {adds : List TimerAdd}
    (hsound : m.worker.transactions.Sound) (hcell : m.worker.transactions.heap.cells transaction = some t)
    (htransactions : m'.worker.transactions = m.worker.transactions.set transaction t')
    (htimers : m'.timers = m.timers ++ adds)
    (hstate : t'.state = t.state ∧ adds = [] ∨ t'.state = .TERMINATED ∧ t.state ≠ .TERMINATED ∧ adds.length ≤ 1) :
    burden m' ≤ burden m := by
  have hset := hsound.set transaction t'
  have hkept : ∀ a u', (m.worker.transactions.set transaction t').heap.cells a = some u' → u'.state ≠ .TERMINATED →
      ∃ u, m.worker.transactions.heap.cells a = some u ∧ u.state ≠ .TERMINATED := by
    intro a u' hu' hlive
    rw [Store.heap_set, Heap.cells_set hcell] at hu'
    split at hu'
    · rename_i ha
      obtain rfl := Option.some.inj hu'
      rcases hstate with ⟨hsame, -⟩ | ⟨hended, -⟩
      · exact ⟨t, ha ▸ hcell, hsame ▸ hlive⟩
      · exact absurd hended hlive
    · exact ⟨u', hu', hlive⟩
  rw [burden, burden, htransactions, htimers, List.length_append]
  rcases hstate with ⟨-, hnone⟩ | ⟨hended, hlive, hone⟩
  · have hle := length_unsettled_le hsound hset List.nodup_nil (List.forall_mem_nil _) hkept
    rw [hnone, List.length_nil]
    rw [List.length_nil] at hle
    omega
  · have hle := length_unsettled_le hsound hset (List.pairwise_singleton _ transaction) (fun a ha => ?_) hkept
    · rw [List.length_singleton] at hle
      omega
    · obtain rfl := List.mem_singleton.mp ha
      refine ⟨fun hmem => ?_, t, hcell, hlive⟩
      obtain ⟨u, hu, hstate⟩ := (mem_unsettled hset).mp hmem
      rw [Store.heap_set, Heap.cells_set_self hcell] at hu
      obtain rfl := Option.some.inj hu
      exact hstate hended

private theorem Known.burden_le {m m' : Machine} {message opened : Owned sip_message_t} {transaction : Nat}
    {t : sip_transaction_t} (h : Known m message transaction t opened m') (hworker : WellFormed m.worker)
    (hcell : m.worker.transactions.heap.cells transaction = some t) : burden m' ≤ burden m := by
  cases h with
  | dropped _ _ hm =>
    subst hm
    exact Nat.le_refl _
  | resent _ _ _ hm =>
    subst hm
    exact Nat.le_refl _
  | rewritten _ _ _ hconversed =>
    exact burden_set_le hworker.transactions hcell hconversed.transactions hconversed.timers (.inl ⟨rfl, rfl⟩)
  | @acked adds _ _ _ hconversed _ _ harms =>
    refine burden_set_le hworker.transactions hcell hconversed.transactions hconversed.timers ?_
    split at harms
    · rename_i hstate
      exact .inl ⟨hstate.symm, harms⟩
    · rename_i hstate
      exact .inr ⟨rfl, hstate, harms.length_le⟩

private theorem Deletion.burden_le {m m' : Machine} {transaction : Nat} {t : sip_transaction_t}
    {armers : List (Nat × sip_transaction_t)} {adds : List TimerAdd} (h : Deletion m m' transaction t armers adds)
    (hworker : WellFormed m.worker) : burden m' ≤ burden m := by
  have hadds := h.arming.length_le
  have hremove := hworker.transactions.remove transaction
  have hgone : ∀ a u, (m.worker.transactions.remove transaction).heap.cells a = some u → u.state ≠ .TERMINATED →
      ∃ v, m.worker.transactions.heap.cells a = some v ∧ v.state ≠ .TERMINATED := by
    intro a u hu hstate
    rw [Store.cells_remove] at hu
    split at hu
    · cases hu
    · exact ⟨u, hu, hstate⟩
  have hsettled : armers = [] → m'.worker.transactions = m.worker.transactions.remove transaction →
      burden m' ≤ burden m := by
    intro hnone htransactions
    have hle := length_unsettled_le hworker.transactions hremove List.nodup_nil (List.forall_mem_nil _) hgone
    rw [burden, burden, h.timers, htransactions, List.length_append]
    rw [hnone, List.length_nil] at hadds
    rw [List.length_nil] at hle
    omega
  cases h.removed with
  | alone _ hafter harmers => exact hsettled harmers (congrArg (·.transactions) hafter)
  | left _ _ _ hafter harmers => exact hsettled harmers (congrArg (·.transactions) hafter)
  | @ended dialog d _ _ _ hafter harmers =>
    have hmap := hremove.map (disband (d.transaction.remove transaction).items)
    have hle := length_unsettled_le hworker.transactions hmap harmers.nodup (fun a ha => ?_) fun a u' hu' hstate => ?_
    · have htransactions : m'.worker.transactions =
          (m.worker.transactions.remove transaction).map (disband (d.transaction.remove transaction).items) :=
        congrArg (·.transactions) hafter
      rw [burden, burden, h.timers, htransactions, List.length_append]
      rw [List.length_map] at hle
      omega
    · obtain ⟨⟨owner, u⟩, harmer, rfl⟩ := List.mem_map.mp ha
      obtain ⟨hslot, hu, hstate⟩ := (harmers.mem owner u).mp harmer
      refine ⟨fun hmem => ?_, hgone owner u hu hstate⟩
      obtain ⟨v, hv, hlive⟩ := (mem_unsettled hmap).mp hmem
      rw [Store.cells_map, hu, Option.map_some, Option.some.injEq] at hv
      rw [← hv, disband, if_pos hslot] at hlive
      exact hlive rfl
    · rw [Store.cells_map] at hu'
      obtain ⟨u, hu, rfl⟩ := Option.map_eq_some_iff.mp hu'
      refine hgone a u hu fun hended => hstate ?_
      rw [disband]
      split
      · rfl
      · exact hended

/-- A datagram makes for two more of them at most, and a delete event for none. -/
theorem Processed.burden_le {m m' : Machine} {packet : Packet} (h : Processed m packet m') (hworker : WellFormed m.worker) :
    burden m' ≤ burden m + 2 * (address_of packet).toList.length := by
  cases h with
  | dropped => exact Nat.le_add_right _ _
  | request _ _ hhandled =>
    cases hhandled with
    | unallocated _ _ _ hm =>
      subst hm
      exact Nat.le_add_right _ _
    | opened _ _ hopened => exact hopened.burden_le hworker
    | known _ hcell _ hknown => exact (hknown.burden_le hworker hcell).trans (Nat.le_add_right _ _)
  | delete hdeleted =>
    cases hdeleted with
    | missing _ hm =>
      subst hm
      exact Nat.le_add_right _ _
    | removed _ _ hdeletion => exact (hdeletion.burden_le hworker).trans (Nat.le_add_right _ _)

end mock_uas.sip_server
