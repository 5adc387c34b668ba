import MockUas.Server.Keys
import MockUas.Server.Serving

open clib
open mock_uas.sip_message
open mock_uas.sip_utils

namespace mock_uas.sip_server

/-- The part of a dialog that `find_dialog_by_id` looks at. -/
def tags_of (d : sip_dialog_t) : (Text SIP_TAG_MAX_LENGTH × Nat) × (Text SIP_TAG_MAX_LENGTH × Nat) :=
  ((d.from_tag, d.from_tag_length), (d.to_tag, d.to_tag_length))

/-- Dialogs come from dialogs with the same tags. -/
private def TagsFrom (before after : Store sip_dialog_t) : Prop :=
  ∀ a d', after.heap.cells a = some d' → ∃ d, before.heap.cells a = some d ∧ tags_of d = tags_of d'

private theorem TagsFrom.refl (dialogs : Store sip_dialog_t) : TagsFrom dialogs dialogs :=
  fun _ d hd => ⟨d, hd, rfl⟩

private theorem TagsFrom.set {dialogs : Store sip_dialog_t} {dialog : Nat} {d d' : sip_dialog_t}
    (hcell : dialogs.heap.cells dialog = some d) (htags : tags_of d = tags_of d') :
    TagsFrom dialogs (dialogs.set dialog d') := by
  intro a e he
  rw [Store.heap_set, Heap.cells_set hcell] at he
  split at he
  · rename_i ha
    obtain rfl := Option.some.inj he
    exact ⟨d, ha ▸ hcell, htags⟩
  · exact ⟨e, he, rfl⟩

private theorem TagsFrom.attach (dialogs : Store sip_dialog_t) (found : Option Nat) (transaction : Nat) :
    TagsFrom dialogs (attach dialogs found transaction) := by
  intro a e he
  rw [cells_attach] at he
  obtain ⟨d, hd, rfl⟩ := Option.map_eq_some_iff.mp he
  refine ⟨d, hd, ?_⟩
  split <;> rfl

private theorem TagsFrom.remove (dialogs : Store sip_dialog_t) (dialog : Nat) :
    TagsFrom dialogs (dialogs.remove dialog) := by
  intro a e he
  rw [Store.cells_remove] at he
  split at he
  · cases he
  · exact ⟨e, he, rfl⟩

/-- A request that opens a transaction begins at most one dialog, and leaves the tags of the
others alone. -/
private theorem Fate.tags {before after : worker_thread_t} {original : Owned sip_message_t} {transaction : Nat}
    {t : sip_transaction_t} {sends : List Sent} (h : Fate before original transaction t after sends) {a : Nat}
    {d' : sip_dialog_t} (hd' : after.dialogs.heap.cells a = some d') :
    (∃ d, before.dialogs.heap.cells a = some d ∧ tags_of d = tags_of d') ∨ a = before.dialogs.heap.next := by
  have hkept : TagsFrom before.dialogs after.dialogs →
      (∃ d, before.dialogs.heap.cells a = some d ∧ tags_of d = tags_of d') ∨ a = before.dialogs.heap.next :=
    fun h => .inl (h a d' hd')
  have hpushed : ∀ e, after.dialogs = before.dialogs.push e →
      (∃ d, before.dialogs.heap.cells a = some d ∧ tags_of d = tags_of d') ∨ a = before.dialogs.heap.next := by
    intro e he
    rw [he, Store.heap_push, Heap.cells_alloc] at hd'
    split at hd'
    · exact .inr (by assumption)
    · exact .inl ⟨d', hd', rfl⟩
  cases h with
  | reinvite _ _ hcell _ _ _ _ hdialogs => exact hkept (hdialogs ▸ .set hcell rfl)
  | acked _ _ _ _ _ hdialogs => exact hkept (hdialogs ▸ .attach _ _ _)
  | refused _ _ _ _ _ _ _ hdialogs => exact hkept (hdialogs ▸ .attach _ _ _)
  | hung_up _ _ hcell _ _ _ _ _ _ _ hdialogs => exact hkept (hdialogs ▸ .set hcell rfl)
  | failed_alone _ _ _ _ _ _ hdialogs => exact hkept (hdialogs ▸ .refl _)
  | failed_in_dialog _ _ _ _ _ _ _ hdialogs => exact hpushed _ hdialogs
  | failed_in_call _ _ _ _ _ _ _ hdialogs => exact hpushed _ hdialogs
  | established _ _ _ _ _ _ _ hdialogs => exact hpushed _ hdialogs

private theorem Known.tags {m m' : Machine} {message opened : Owned sip_message_t} {transaction : Nat}
    {t : sip_transaction_t} (h : Known m message transaction t opened m') :
    TagsFrom m.worker.dialogs m'.worker.dialogs := by
  cases h with
  | dropped _ _ hm =>
    rw [hm]
    exact .refl _
  | resent _ _ _ hm =>
    rw [hm]
    exact .refl _
  | rewritten _ _ _ _ hdialogs =>
    rw [hdialogs]
    exact .refl _
  | acked _ _ _ _ hdialogs =>
    rw [hdialogs]
    split
    · exact .attach _ _ _
    · exact .refl _

/-- A dialog was there before with its tags, or a request that opens a transaction began it. -/
theorem Run.Stepped.tags {run run' : Run} {input : Input} (h : Run.Stepped run input run') {a : Nat}
    {d' : sip_dialog_t} (hd' : run'.worker.dialogs.heap.cells a = some d') :
    (∃ d, run.worker.dialogs.heap.cells a = some d ∧ tags_of d = tags_of d') ∨
      (a = run.worker.dialogs.heap.next ∧ ∃ message, Opens run message input) := by
  cases h with
  | unhandled => exact .inl ⟨d', hd', rfl⟩
  | response => exact .inl ⟨d', hd', rfl⟩
  | request haccepted hhandled =>
    cases hhandled with
    | unallocated _ _ _ hm =>
      subst hm
      exact .inl ⟨d', hd', rfl⟩
    | opened hnew hmalloc hopened =>
      exact (hopened.fate.tags hd').imp_right fun ha => ⟨ha, _, haccepted, hnew, hmalloc⟩
    | known _ _ _ hknown => exact .inl (hknown.tags a d' hd')
  | delete hdeleted =>
    left
    cases hdeleted with
    | missing _ hm =>
      subst hm
      exact ⟨d', hd', rfl⟩
    | removed _ _ hdeletion =>
      rw [Run.finish] at hd'
      cases hdeletion.removed with
      | alone _ hafter =>
        rw [hafter] at hd'
        exact ⟨d', hd', rfl⟩
      | left _ hd _ hafter =>
        rw [hafter] at hd'
        exact TagsFrom.set hd (by rfl) a d' hd'
      | ended _ _ _ hafter =>
        rw [hafter] at hd'
        exact TagsFrom.remove _ _ a d' hd'

/-- What a request that opens a transaction makes a worker send, and the tags of its dialogs
then. -/
theorem step_serves {run run' : Run} {input : Input} {message : sip_message_t} (hworker : WellFormed run.worker)
    (hown : ∀ a d, run.worker.dialogs.heap.cells a = some d → OwnTag d) (hopens : Opens run message input)
    (hstep : run.step input = ok run') :
    (∀ a d, run'.worker.dialogs.heap.cells a = some d → OwnTag d) ∧ ∃ sends, run'.sent = run.sent ++ sends ∧
      ∀ s ∈ sends, Written run'.worker.dialogs message s := by
  cases input with
  | incoming datagram client_addr address env =>
    obtain ⟨haccepted, hnew, hmalloc⟩ := hopens
    rw [step_accepted haccepted] at hstep
    obtain ⟨m', hprocess, hfinish⟩ := bind_eq_ok_iff.mp hstep
    obtain rfl := Except.ok.inj hfinish
    have hserves := @process_new_branch_serves (run.start env) m' ⟨address, message⟩ hworker hown haccepted.request.1 hnew
      hmalloc hprocess
    obtain ⟨sends, hsent, hwritten⟩ := hserves.sent
    rw [show (run.start env).sent = [] from rfl, List.nil_append] at hsent
    exact ⟨hserves.own_tags, sends, congrArg (run.sent ++ ·) hsent, hwritten⟩
  | response => exact hopens.elim
  | delete => exact hopens.elim

private theorem own_tags_step {run run' : Run} {input : Input} (hworker : WellFormed run.worker)
    (hown : ∀ a d, run.worker.dialogs.heap.cells a = some d → OwnTag d) (hstep : run.step input = ok run') :
    ∀ a d, run'.worker.dialogs.heap.cells a = some d → OwnTag d := by
  intro a d' hd'
  rcases ((step_ends hworker input).of_eq_ok hstep).tags hd' with ⟨d, hd, htags⟩ | ⟨-, message, hopens⟩
  · obtain ⟨htag, hlength⟩ := Prod.mk.inj (Prod.mk.inj htags).2
    exact (hown a d hd).congr htag.symm hlength.symm
  · exact (step_serves hworker hown hopens hstep).1 a d' hd'

/-- Every dialog of a worker has a tag of its own that `create_to_tag` made. -/
theorem Reachable.own_tags {run : Run} (h : program.Reachable run) :
    ∀ a d, run.worker.dialogs.heap.cells a = some d → OwnTag d := by
  have hboth := Transitions.ReachableWhile.invariant (P := fun run => WellFormed run.worker ∧
    ∀ a d, run.worker.dialogs.heap.cells a = some d → OwnTag d) ?_ ?_ h
  · exact hboth.2
  · intro run (hinitial : run.Initial)
    refine ⟨hinitial.wellFormed, fun a d hd => ?_⟩
    rw [hinitial.dialogs] at hd
    cases hd
  · rintro run input run' - - hstep ⟨hworker, hown⟩
    exact ⟨((step_ends hworker input).of_eq_ok hstep).wellFormed hworker, own_tags_step hworker hown hstep⟩

end mock_uas.sip_server
