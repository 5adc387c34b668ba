import MockUas.Server.Chronicle
import MockUas.Server.Retransmission

open clib
open mock_uas.sip_message
open mock_uas.sip_utils

namespace mock_uas.sip_server

/-- No two transactions were created for one branch, no two dialogs with the same tags, and
no two calls for one Call-ID. -/
structure KeysUnique (l : Ledger) : Prop where
  transactions : ∀ a ∈ l.run.worker.transactions.list, ∀ b ∈ l.run.worker.transactions.list,
    l.branches a = l.branches b → a = b
  dialogs : ∀ a ∈ l.run.worker.dialogs.list, ∀ b ∈ l.run.worker.dialogs.list, l.tags a = l.tags b → a = b
  calls : ∀ a ∈ l.run.worker.calls.list, ∀ b ∈ l.run.worker.calls.list, l.call_ids a = l.call_ids b → a = b

/-- The dialog a step begins, if it begins one, has another tag of its own than those that
are there. -/
def TagsFresh (l : Ledger) (input : Input) : Prop :=
  ∀ run' d, l.run.step input = ok run' →
    run'.worker.dialogs.heap.cells l.run.worker.dialogs.heap.next = some d →
    ∀ a ∈ l.run.worker.dialogs.list, (l.tags a).2 ≠ some d.to_tag.bytes

/-- A branch that is stored whole, with its length. -/
def WholeBranch (message : sip_message_t) : Prop :=
  message.branch_length = (branch_value message).length ∧ message.branch_length ≤ SIP_BRANCH_MAX_LENGTH

instance : DecidablePred WholeBranch := fun message => inferInstanceAs
  (Decidable (message.branch_length = (branch_value message).length ∧ message.branch_length ≤ SIP_BRANCH_MAX_LENGTH))

/-- No request opens a transaction with the branch of another one, where one of the two is
not stored whole, and no INVITE begins a call with the Call-ID of another call. -/
structure Unrepeated (l : Ledger) (input : Input) : Prop where
  branch : ∀ message, Opens l.run message input → ∀ a t opened, l.run.worker.transactions.heap.cells a = some t →
    t.message = some opened → l.branches a = branch_value message → WholeBranch message ∧ WholeBranch opened.contents
  call_id : ∀ message, Opens l.run message input → message.method_type = .INVITE →
    dialog_for l.run.worker message = none → BeginsCall input.env message →
    ∀ call ∈ l.run.worker.calls.list, l.call_ids call ≠ call_id_value message

instance (l : Ledger) (input : Input) : Decidable (Unrepeated l input) :=
  decidable_of_iff
    ((∀ message, Opens l.run message input → ∀ a t, l.run.worker.transactions.heap.cells a = some t →
      ∀ opened ∈ t.message, l.branches a = branch_value message → WholeBranch message ∧ WholeBranch opened.contents) ∧
    ∀ message, Opens l.run message input → message.method_type = .INVITE →
      dialog_for l.run.worker message = none → BeginsCall input.env message →
        ∀ call ∈ l.run.worker.calls.list, l.call_ids call ≠ call_id_value message) (by
    constructor
    · exact fun h => ⟨fun message hopens a t opened ht => h.1 message hopens a t ht opened, h.2⟩
    · exact fun h => ⟨fun message hopens a t ht opened => h.branch message hopens a t opened ht, h.call_id⟩)

/-- A transaction was created for the request that it holds. -/
def Recalls (l : Ledger) : Prop :=
  ∀ a t opened, l.run.worker.transactions.heap.cells a = some t → t.message = some opened →
    l.branches a = branch_value opened.contents ∧ key_of t = request_key opened.contents

theorem request_of_opens {run : Run} {message : sip_message_t} {input : Input} (h : Opens run message input) :
    request_of input = some message := by
  cases input with
  | incoming => exact accepted_iff.mp h.1
  | response => exact h.elim
  | delete => exact h.elim

theorem WholeBranch.key_eq {message message' : sip_message_t} (h : WholeBranch message) (h' : WholeBranch message')
    (hrequest : Request message) (hrequest' : Request message') (hbranch : branch_value message = branch_value message') :
    request_key message = request_key message' := by
  rw [request_key_eq hrequest, request_key_eq hrequest', h.1, h'.1, hbranch]

theorem SameRequest.branch_value_eq {answered original : sip_message_t} (h : SameRequest answered original) :
    branch_value answered = branch_value original ∧ request_key answered = request_key original := by
  have hsame := h.same
  rw [← hsame]
  exact ⟨rfl, rfl⟩

private theorem Recalls.step {l l' : Ledger} {input : Input} (h : Recalls l) (hworker : WellFormed l.run.worker)
    (hstep : l.step input = ok l') : Recalls l' := by
  have hstepped := (step_ends hworker input).of_eq_ok (Ledger.step_eq_ok hstep).1
  intro a t' opened' ht' hmessage
  rcases (hstepped.keys a).comes ht' with ⟨t, ht, hkey⟩ | ⟨message, hopens, rfl, hkey⟩
  · have ha : a ≠ l.run.worker.transactions.heap.next := (Heap.lt_next_of_cells ht).ne
    rcases hstepped.transactions_move a t' ht' with ⟨u, hu, hrewritten⟩ | ⟨hnext, -⟩
    · rw [ht, Option.some.injEq] at hu
      subst hu
      obtain ⟨opened, hholds, hsame⟩ := hrewritten.keeps (f := fun message => (branch_value message,
        request_key message)) (fun _ _ => rfl) hmessage
      obtain ⟨hbranch, hrequest⟩ := Prod.mk.inj hsame
      obtain ⟨hbefore, hbefore_key⟩ := h a t opened ht hholds
      exact ⟨(Ledger.branches_eq hstep ha).trans (hbefore.trans hbranch),
        hkey.symm.trans (hbefore_key.trans hrequest)⟩
    · exact absurd hnext ha
  · obtain ⟨u, opened, hu, hholds, hsame⟩ := hstepped.opens hopens
    rw [ht', Option.some.injEq] at hu
    subst hu
    rw [hmessage, Option.some.injEq] at hholds
    subst hholds
    obtain ⟨hbranch, hrequest⟩ := hsame.branch_value_eq
    exact ⟨(Ledger.entries_of_request hstep (request_of_opens hopens)).1.trans hbranch.symm,
      hkey.trans hrequest.symm⟩

/-- A transaction that a request opens has a branch of its own. -/
private theorem Unrepeated.branch_fresh {l : Ledger} {input : Input} (h : Unrepeated l input)
    (hworker : WellFormed l.run.worker) (hrecalls : Recalls l) {message : sip_message_t}
    (hopens : Opens l.run message input) {a : Nat} {t : sip_transaction_t}
    (ht : l.run.worker.transactions.heap.cells a = some t) : l.branches a ≠ branch_value message := by
  intro hsame
  have hrequest : Request message := by
    cases input with
    | incoming => exact hopens.1.request.1
    | response => exact hopens.elim
    | delete => exact hopens.elim
  have hnew : transaction_for l.run.worker message = none := by
    cases input with
    | incoming => exact hopens.2.1
    | response => exact hopens.elim
    | delete => exact hopens.elim
  obtain ⟨opened, hholds, hheld⟩ := (hworker.held ht).message
  obtain ⟨hwhole, hwhole'⟩ := h.branch message hopens a t opened ht hholds hsame
  obtain ⟨hbranch, hkey⟩ := hrecalls a t opened ht hholds
  have hkeeps : KeepsBranch message := by
    rw [KeepsBranch, ← branch_value, ← hwhole.1]
    exact hwhole.2
  refine (transaction_for_eq_none_iff hworker hrequest).mp hnew hkeeps a t ht (hkey.trans ?_)
  exact hwhole'.key_eq hwhole hheld hrequest (hbranch.symm.trans hsame)

/-- A dialog was there before, or a request began it. -/
private theorem Run.Stepped.dialog_comes {run run' : Run} {input : Input} (h : Run.Stepped run input run') {a : Nat}
    {d' : sip_dialog_t} (hd' : run'.worker.dialogs.heap.cells a = some d') :
    (∃ d, run.worker.dialogs.heap.cells a = some d) ∨
      (a = run.worker.dialogs.heap.next ∧ ∃ message, request_of input = some message) := by
  have hphase : dialog_phase run'.worker a = some (d'.state, d'.call) := by rw [dialog_phase, hd', Option.map_some]
  have hbefore : ∀ {phase}, dialog_phase run.worker a = some phase → ∃ d, run.worker.dialogs.heap.cells a = some d :=
    fun h => (Option.map_eq_some_iff.mp h).imp fun _ h => h.1
  cases h with
  | unhandled => exact .inl ⟨d', hd'⟩
  | response => exact .inl ⟨d', hd'⟩
  | @request _ _ _ _ message _ haccepted hhandled =>
    obtain ⟨hung, hshift, -⟩ := hhandled.shift
    cases hshift with
    | still hdialogs => exact .inl (hbefore ((hdialogs a).symm.trans hphase))
    | failed hdialogs =>
      have hafter := (hdialogs a).symm.trans hphase
      split at hafter
      · exact .inr ⟨by assumption, message, accepted_iff.mp haccepted⟩
      · exact .inl (hbefore hafter)
    | begun _ hdialogs =>
      have hafter := (hdialogs a).symm.trans hphase
      split at hafter
      · exact .inr ⟨by assumption, message, accepted_iff.mp haccepted⟩
      · exact .inl (hbefore hafter)
    | hung_up hdialog hdialogs =>
      have hafter := (hdialogs a).symm.trans hphase
      split at hafter
      · rename_i ha
        subst ha
        exact .inl (hbefore hdialog)
      · exact .inl (hbefore hafter)
    | ended _ hdialogs =>
      have hafter := (hdialogs a).symm.trans hphase
      split at hafter
      · cases hafter
      · exact .inl (hbefore hafter)
  | delete hdeleted =>
    left
    cases hdeleted with
    | missing _ hm =>
      subst hm
      exact ⟨d', hd'⟩
    | removed _ _ hdeletion =>
      rw [Run.finish] at hd'
      cases hdeletion.removed with
      | alone _ hafter => exact ⟨d', by rwa [hafter] at hd'⟩
      | left _ hd _ hafter =>
        rw [hafter, Store.heap_set, Heap.cells_set hd] at hd'
        split at hd'
        · rename_i ha
          exact ⟨_, ha ▸ hd⟩
        · exact ⟨d', hd'⟩
      | ended _ _ _ hafter =>
        rw [hafter, Store.cells_remove] at hd'
        split at hd'
        · cases hd'
        · exact ⟨d', hd'⟩

theorem Run.Stepped.call_comes {run run' : Run} {input : Input} (h : Run.Stepped run input run')
    (hworker : WellFormed run.worker) {a : Nat} {c' : sip_call_t} (hc' : run'.worker.calls.heap.cells a = some c') :
    (∃ c, run.worker.calls.heap.cells a = some c) ∨ a = run.worker.calls.heap.next := by
  have hphase : call_phase run'.worker a = some c'.state := by rw [call_phase, hc', Option.map_some]
  have hbefore : ∀ {phase}, call_phase run.worker a = some phase → ∃ c, run.worker.calls.heap.cells a = some c :=
    fun h => (Option.map_eq_some_iff.mp h).imp fun _ h => h.1
  obtain ⟨hung, hshift, -⟩ := h.shift hworker
  cases hshift with
  | still _ hcalls => exact .inl (hbefore ((hcalls a).symm.trans hphase))
  | failed _ hcalls => exact .inl (hbefore ((hcalls a).symm.trans hphase))
  | begun _ _ hcalls =>
    have hafter := (hcalls a).symm.trans hphase
    split at hafter
    · exact .inr (by assumption)
    · exact .inl (hbefore hafter)
  | @hung_up dialog call hdialog _ hcalls =>
    have hafter := (hcalls a).symm.trans hphase
    split at hafter
    · rename_i ha
      obtain ⟨d, hd, hstate⟩ := Option.map_eq_some_iff.mp hdialog
      obtain ⟨c, hc, -⟩ := hworker.call hd (Prod.mk.inj hstate).2
      exact .inl ⟨c, ha ▸ hc⟩
    · exact .inl (hbefore hafter)
  | ended _ _ hcalls =>
    have hafter := (hcalls a).symm.trans hphase
    split at hafter
    · cases hafter
    · exact .inl (hbefore hafter)

/-- What is unique among the records that were there, and new for one that is entered, stays
unique. -/
private theorem unique_of_entered {B : Type} {before after : Nat → B} {list list' : List Nat} (next : Nat)
    (hbefore : ∀ a ∈ list, ∀ b ∈ list, before a = before b → a = b) (hcomes : ∀ a ∈ list', a ∈ list ∨ a = next)
    (hkept : ∀ a ∈ list, after a = before a) (hfresh : next ∈ list' → ∀ a ∈ list, before a ≠ after next) :
    ∀ a ∈ list', ∀ b ∈ list', after a = after b → a = b := by
  intro a ha b hb hsame
  rcases hcomes a ha with hlive | rfl
  · rcases hcomes b hb with hlive' | rfl
    · rw [hkept a hlive, hkept b hlive'] at hsame
      exact hbefore a hlive b hlive' hsame
    · rw [hkept a hlive] at hsame
      exact absurd hsame (hfresh hb a hlive)
  · rcases hcomes b hb with hlive' | rfl
    · rw [hkept b hlive'] at hsame
      exact absurd hsame.symm (hfresh ha b hlive')
    · rfl

private theorem KeysUnique.step {l l' : Ledger} {input : Input} (h : KeysUnique l) (hworker : WellFormed l.run.worker)
    (hrecalls : Recalls l) (hfresh : TagsFresh l input) (hunrepeated : Unrepeated l input)
    (hstep : l.step input = ok l') : KeysUnique l' := by
  have hrun := (Ledger.step_eq_ok hstep).1
  have hstepped := (step_ends hworker input).of_eq_ok hrun
  have hworker' := hstepped.wellFormed hworker
  have hne : ∀ {A : Type} {s : Store A} {a : Nat}, s.Sound → a ∈ s.list → a ≠ s.heap.next := by
    intro A s a hsound hmem
    obtain ⟨v, hv⟩ := hsound.cells hmem
    exact (Heap.lt_next_of_cells hv).ne
  constructor
  · refine unique_of_entered l.run.worker.transactions.heap.next h.transactions (fun a ha => ?_)
      (fun a ha => Ledger.branches_eq hstep (hne hworker.transactions ha)) fun hlive a ha => ?_
    · obtain ⟨t', ht'⟩ := hworker'.transactions.cells ha
      rcases (hstepped.keys a).comes ht' with ⟨t, ht, -⟩ | ⟨message, -, hnext, -⟩
      · exact .inl (hworker.transactions.mem ht)
      · exact .inr hnext
    · obtain ⟨t', ht'⟩ := hworker'.transactions.cells hlive
      obtain ⟨t, ht⟩ := hworker.transactions.cells ha
      rcases (hstepped.keys _).comes ht' with ⟨u, hu, -⟩ | ⟨message, hopens, -, -⟩
      · rw [Heap.cells_next] at hu
        cases hu
      · rw [(Ledger.entries_of_request hstep (request_of_opens hopens)).1]
        exact hunrepeated.branch_fresh hworker hrecalls hopens ht
  · refine unique_of_entered l.run.worker.dialogs.heap.next h.dialogs (fun a ha => ?_)
      (fun a ha => Ledger.tags_eq hstep (hne hworker.dialogs ha)) fun hlive a ha => ?_
    · obtain ⟨d', hd'⟩ := hworker'.dialogs.cells ha
      rcases hstepped.dialog_comes hd' with ⟨d, hd⟩ | ⟨hnext, -⟩
      · exact .inl (hworker.dialogs.mem hd)
      · exact .inr hnext
    · obtain ⟨d', hd'⟩ := hworker'.dialogs.cells hlive
      rcases hstepped.dialog_comes hd' with ⟨d, hd⟩ | ⟨-, message, hrequest⟩
      · rw [Heap.cells_next] at hd
        cases hd
      · intro hsame
        rw [(Ledger.entries_of_request hstep hrequest).2.1, hd'] at hsame
        exact hfresh _ d' hrun hd' a ha (congrArg Prod.snd hsame)
  · refine unique_of_entered l.run.worker.calls.heap.next h.calls (fun a ha => ?_)
      (fun a ha => Ledger.call_ids_eq hstep (hne hworker.calls ha)) fun hlive a ha => ?_
    · obtain ⟨c', hc'⟩ := hworker'.calls.cells ha
      rcases hstepped.call_comes hworker hc' with ⟨c, hc⟩ | hnext
      · exact .inl (hworker.calls.mem hc)
      · exact .inr hnext
    · obtain ⟨c', hc'⟩ := hworker'.calls.cells hlive
      obtain ⟨datagram, client_addr, address, env, message, rfl, haccepted, hmethod, hnew, hfound, hmalloc, hbegins⟩ :=
        hstepped.begins_call hworker hrun (by rw [hc']; nofun)
      rw [(Ledger.entries_of_request hstep (accepted_iff.mp haccepted)).2.2]
      exact hunrepeated.call_id message ⟨haccepted, hnew, hmalloc⟩ hmethod hfound hbegins a ha

private theorem Run.Initial.recorded {l : Ledger} (h : l.run.Initial) : Recalls l ∧ KeysUnique l := by
  have hnone : ∀ {A : Type} {s : Store A} {a : Nat}, s = .empty → a ∉ s.list := by
    rintro A s a rfl
    exact List.not_mem_nil
  refine ⟨fun a t opened ht => ?_, fun a ha => ?_, fun a ha => ?_, fun a ha => ?_⟩
  · rw [h.transactions] at ht
    cases ht
  · exact absurd ha (hnone h.transactions)
  · exact absurd ha (hnone h.dialogs)
  · exact absurd ha (hnone h.calls)

/-- While every dialog gets a tag of its own, no branch that is not stored whole comes twice
and no INVITE begins a second call for a Call-ID, the stores hold every key once. -/
theorem keys_unique_while_unrepeated (l : Ledger)
    (h : chronicle.ReachableWhile (fun l input => TagsFresh l input ∧ Unrepeated l input) l) : KeysUnique l := by
  have hall : WellFormed l.run.worker ∧ Recalls l ∧ KeysUnique l := by
    refine h.invariant (P := fun l => WellFormed l.run.worker ∧ Recalls l ∧ KeysUnique l)
      (fun l (hinitial : l.run.Initial) => ⟨hinitial.wellFormed, hinitial.recorded⟩) ?_
    rintro l input l' - ⟨hfresh, hunrepeated⟩ hstep ⟨hworker, hrecalls, hunique⟩
    have hrun := (Ledger.step_eq_ok hstep).1
    exact ⟨((step_ends hworker input).of_eq_ok hrun).wellFormed hworker, hrecalls.step hworker hstep,
      hunique.step hworker hrecalls hfresh hunrepeated hstep⟩
  exact hall.2.2

instance (l : Ledger) (input : Input) : Decidable (chronicle.enabled l input) :=
  inferInstanceAs (Decidable (program.enabled l.run input))

instance (l : Ledger) (input : Input) : Decidable (TagsFresh l input) :=
  decidable_of_iff (∀ run' ∈ (l.run.step input).toOption,
    ∀ d ∈ run'.worker.dialogs.heap.cells l.run.worker.dialogs.heap.next,
      ∀ a ∈ l.run.worker.dialogs.list, (l.tags a).2 ≠ some d.to_tag.bytes) (by
    constructor
    · exact fun h run' d hstep hd => h run' (by rw [hstep]; rfl) d hd
    · exact fun h run' hstep d hd => h run' d (eq_ok_of_toOption hstep) hd)

/-- The ledger of a worker that has just started. -/
def Ledger.started : Ledger := .blank Run.started

theorem Ledger.started_initial : chronicle.initial Ledger.started := Run.started_initial

/-- Two calls, one of which is hung up, with keys of their own. -/
private theorem two_calls_run :
    (chronicle.follow_tested (fun l input => TagsFresh l input ∧ Unrepeated l input) Ledger.started
      (first_call ++ [arrival foreign_invite .other])).map (fun l : Ledger =>
        (l.run.worker.transactions.list, l.run.worker.dialogs.list, l.run.worker.calls.list)) =
      some ([2, 1, 0], [1, 0], [1, 0]) := by
  decide +kernel

/-- The keys of three transactions, two dialogs and two calls are unique. -/
theorem keys_unique_in_two_calls :
    ∃ l : Ledger, l.run.worker.transactions.list = [2, 1, 0] ∧ l.run.worker.dialogs.list = [1, 0] ∧
      l.run.worker.calls.list = [1, 0] ∧ KeysUnique l := by
  obtain ⟨l, hl, hlists⟩ := Option.map_eq_some_iff.mp two_calls_run
  simp only [Prod.mk.injEq] at hlists
  obtain ⟨htransactions, hdialogs, hcalls⟩ := hlists
  exact ⟨l, htransactions, hdialogs, hcalls,
    keys_unique_while_unrepeated l (.of_follow_tested Ledger.started_initial hl)⟩

/-- An INVITE with the Call-ID of the first, on a new branch and outside its dialog. -/
def late_invite : Datagram where
  bytes := request_text (ascii "INVITE") (ascii "z9hG4bK4") (ascii "<sip:b@h>")
  fits := by decide +kernel

private theorem repeated_keys_run :
    (chronicle.follow_tested TagsFresh Ledger.started [arrival first_invite .obliging, arrival late_invite .other,
      arrival long_branch_options .obliging, arrival long_branch_options .obliging]).map (fun l : Ledger =>
        ((l.run.worker.calls.list, decide (l.call_ids 1 = l.call_ids 0)),
          l.run.worker.transactions.list, decide (l.branches 3 = l.branches 2))) =
      some (([1, 0], true), [3, 2, 1, 0], true) := by
  decide +kernel

/-- Two INVITEs with one Call-ID leave two calls, and a request with a long branch that comes
twice leaves two transactions. -/
theorem keys_repeat :
    ∃ l, chronicle.ReachableWhile TagsFresh l ∧
      (∃ a ∈ l.run.worker.calls.list, ∃ b ∈ l.run.worker.calls.list, a ≠ b ∧ l.call_ids a = l.call_ids b) ∧
      (∃ a ∈ l.run.worker.transactions.list, ∃ b ∈ l.run.worker.transactions.list,
        a ≠ b ∧ l.branches a = l.branches b) ∧ ¬ KeysUnique l := by
  obtain ⟨l, hl, hfacts⟩ := Option.map_eq_some_iff.mp repeated_keys_run
  simp only [Prod.mk.injEq, decide_eq_true_eq] at hfacts
  obtain ⟨⟨hcalls, hcall⟩, htransactions, hbranch⟩ := hfacts
  have hone : 1 ∈ l.run.worker.calls.list := by simp [hcalls]
  have hzero : 0 ∈ l.run.worker.calls.list := by simp [hcalls]
  refine ⟨l, .of_follow_tested Ledger.started_initial hl, ⟨1, hone, 0, hzero, Nat.one_ne_zero, hcall⟩,
    ⟨3, by simp [htransactions], 2, by simp [htransactions], by omega, hbranch⟩, fun hunique => ?_⟩
  exact absurd (hunique.calls 1 hone 0 hzero hcall) Nat.one_ne_zero

end mock_uas.sip_server
