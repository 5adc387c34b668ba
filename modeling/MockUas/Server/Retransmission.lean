import MockUas.Message.Address
import MockUas.Server.Hangup
import MockUas.Server.Keys

open clib
open mock_uas.sip_message
open mock_uas.sip_utils

namespace mock_uas.sip_server

/-- A copy of a request: the same bytes from the same address, while the socket takes every
datagram. -/
def IsCopy (datagram : Datagram) (client_addr : sockaddr_in) : Input → Prop
  | .incoming datagram' client_addr' _ env =>
    datagram' = datagram ∧ client_addr' = client_addr ∧ ∀ n, env.sendto n = true
  | _ => False

/-- Traffic beside a request and its copies: no request on its branch, and no deletion of its
transaction. -/
def Elsewhere (message : sip_message_t) (transaction : Nat) (run : Run) : Input → Prop
  | .incoming datagram client_addr _ _ =>
    ∀ other, Accepted datagram client_addr other → branch_value other ≠ branch_value message
  | .response .. => True
  | .delete event _ => transaction_of run.worker event ≠ some transaction

/-- No request on another branch has the key of a request. -/
def SoleBranch (message : sip_message_t) : Prop :=
  ∀ datagram client_addr other, Accepted datagram client_addr other → request_key other = request_key message →
    branch_value other = branch_value message

/-- The last datagram a run has sent over a transaction. -/
def last_sent (run : Run) (transaction : Nat) : Option Sent :=
  (run.sent.filter fun s => s.transaction == some transaction).getLast?

/-- The same bytes to the same address. -/
structure SameDatagram (s s' : Sent) : Prop where
  bytes : s.bytes = s'.bytes
  beyond : s.beyond = s'.beyond
  client_addr : s.client_addr = s'.client_addr

/-- After a request has opened its transaction, with copies and other traffic in any order,
each further copy makes one datagram, the last one sent for the request, and nothing else. -/
def Idempotent (run : Run) (datagram : Datagram) (client_addr : sockaddr_in) (message : sip_message_t) : Prop :=
  ∀ address env opened, (∀ n, env.sendto n = true) → env.malloc 0 = true →
    run.step (.incoming datagram client_addr address env) = ok opened →
    ∀ later copy, program.Path (fun between input => IsCopy datagram client_addr input ∨
        Elsewhere message run.worker.transactions.heap.next between input) opened later →
      IsCopy datagram client_addr copy →
      ∃ s s' address', last_sent later run.worker.transactions.heap.next = some s ∧ SameDatagram s' s ∧
        later.step copy = ok { later with sent := later.sent ++ [s'], freed := later.freed ++ [address'] }

/-- A request that was answered: its transaction holds the response that was sent last, and
no other transaction has its key. -/
structure Standing (run : Run) (message : sip_message_t) (transaction : Nat) : Prop where
  record : ∃ t opened s, run.worker.transactions.heap.cells transaction = some t ∧
    key_of t = request_key message ∧ t.message = some opened ∧ SameRequest opened.contents message ∧
    opened.contents.response_length ≠ 0 ∧ last_sent run transaction = some s ∧
    ∀ success, SameDatagram (datagram_of transaction t opened.contents success) s
  unique : ∀ a u, run.worker.transactions.heap.cells a = some u → key_of u = request_key message → a = transaction

/-- Every request but an ACK is answered, unless it is an INVITE in a dialog. -/
theorem Fate.answer {before after : worker_thread_t} {original : Owned sip_message_t} {transaction : Nat}
    {t : sip_transaction_t} {sends : List Sent} (h : Fate before original transaction t after sends)
    (hack : original.contents.method_type ≠ .ACK)
    (hreinvite : ¬ (original.contents.method_type = .INVITE ∧ dialog_for before original.contents ≠ none)) :
    Answer transaction original t sends := by
  cases h with
  | reinvite hmethod hfound => exact absurd ⟨hmethod, by simp [hfound]⟩ hreinvite
  | acked hmethod => exact absurd hmethod hack
  | refused _ _ _ _ _ _ hanswer => exact hanswer
  | hung_up _ _ _ _ _ _ _ _ _ hanswer => exact hanswer
  | failed_alone _ _ _ _ _ hanswer => exact hanswer
  | failed_in_dialog _ _ _ _ _ hanswer => exact hanswer
  | failed_in_call _ _ _ _ _ hanswer => exact hanswer
  | established _ _ _ _ _ hanswer => exact hanswer

private theorem last_sent_append {run run' : Run} {sends : List Sent} {transaction : Nat}
    (hsent : run'.sent = run.sent ++ sends) (hother : ∀ s ∈ sends, s.transaction ≠ some transaction) :
    last_sent run' transaction = last_sent run transaction := by
  have hnone : sends.filter (fun s => s.transaction == some transaction) = [] := by
    rw [List.filter_eq_nil_iff]
    intro s hs
    simpa using hother s hs
  rw [last_sent, hsent, List.filter_append, hnone, List.append_nil, last_sent]

private theorem last_sent_concat {run run' : Run} (sends : List Sent) {s : Sent} {transaction : Nat}
    (hsent : run'.sent = run.sent ++ (sends ++ [s])) (htransaction : s.transaction = some transaction) :
    last_sent run' transaction = some s := by
  rw [last_sent, hsent, ← List.append_assoc, List.filter_append, List.filter_cons_of_pos (by simp [htransaction])]
  simp

/-- The request that opens the transaction and is answered stands. -/
private theorem Opened.standing {run : Run} {env : Environment} {m' : Machine} {message : Owned sip_message_t}
    {t : sip_transaction_t} {sends : List Sent} {adds : List TimerAdd}
    (h : Opened (run.start env) message m' t sends adds) (hworker : WellFormed run.worker)
    (hrequest : Request message.contents) (hnew : transaction_for run.worker message.contents = none)
    (hkeeps : KeepsBranch message.contents) (hack : message.contents.method_type ≠ .ACK)
    (hreinvite : ¬ (message.contents.method_type = .INVITE ∧ dialog_for run.worker message.contents ≠ none)) :
    Standing (run.finish m') message.contents run.worker.transactions.heap.next := by
  obtain ⟨contents, provisional, success, hmessage, hsame, hlength, hsends, -⟩ := h.fate.answer hack hreinvite
  have hsent : (run.finish m').sent = run.sent ++ (provisional ++
      [datagram_of run.worker.transactions.heap.next t contents success]) := by
    rw [Run.finish, show m'.sent = sends from h.conversed.sent, hsends]
    rfl
  constructor
  · refine ⟨t, _, _, ?_, h.opened.key, hmessage, hsame, hlength, last_sent_concat _ hsent rfl, fun _ => ⟨rfl, rfl, rfl⟩⟩
    rw [Run.finish, h.transactions]
    exact Heap.cells_alloc_self _ _
  · intro a u hu hkey
    rw [Run.finish, h.transactions, Store.heap_push, Heap.cells_alloc] at hu
    split at hu
    · rename_i ha
      exact ha
    · exact absurd hkey ((transaction_for_eq_none_iff hworker hrequest).mp hnew hkeeps a u hu)

/-- Nothing but its own step touches what stands for a request. -/
private theorem Standing.undisturbed {run run' : Run} {message : sip_message_t} {transaction : Nat} {sends : List Sent}
    (h : Standing run message transaction) (hsent : run'.sent = run.sent ++ sends)
    (hother : ∀ s ∈ sends, s.transaction ≠ some transaction)
    (hrecord : ∀ t, run.worker.transactions.heap.cells transaction = some t →
      ∃ t', run'.worker.transactions.heap.cells transaction = some t' ∧ key_of t' = key_of t ∧ t'.message = t.message)
    (hunique : ∀ a u, run'.worker.transactions.heap.cells a = some u → key_of u = request_key message →
      ∃ v, run.worker.transactions.heap.cells a = some v ∧ key_of v = request_key message) :
    Standing run' message transaction := by
  obtain ⟨⟨t, opened, s, ht, hkey, hmessage, hsame, hlength, hlast, hdatagram⟩, honly⟩ := h
  obtain ⟨t', ht', hkey', hmessage'⟩ := hrecord t ht
  refine ⟨⟨t', opened, s, ht', hkey'.trans hkey, hmessage'.trans hmessage, hsame, hlength,
    (last_sent_append hsent hother).trans hlast, fun success => ?_⟩, fun a u hu hkeyed => ?_⟩
  · obtain ⟨hbytes, hbeyond, haddr⟩ := hdatagram success
    exact ⟨hbytes, hbeyond, haddr⟩
  · obtain ⟨v, hv, hkeyed⟩ := hunique a u hu hkeyed
    exact honly a v hv hkeyed

/-- A request leaves every transaction but the one its branch leads to. -/
theorem Known.elsewhere {m m' : Machine} {message opened : Owned sip_message_t} {found transaction : Nat}
    {t : sip_transaction_t} (h : Known m message found t opened m') (hne : transaction ≠ found) :
    m'.worker.transactions.heap.cells transaction = m.worker.transactions.heap.cells transaction := by
  cases h with
  | dropped _ _ hm =>
    rw [hm]
    rfl
  | resent _ _ _ hm =>
    rw [hm]
    rfl
  | rewritten _ _ _ hconversed =>
    rw [show m'.worker.transactions = _ from hconversed.transactions]
    exact Heap.cells_set_of_ne hne
  | acked _ _ _ hconversed =>
    rw [hconversed.transactions]
    exact Heap.cells_set_of_ne hne

/-- Deleting another transaction leaves the message of a transaction. -/
private theorem Deleted.message {m m' : Machine} {event : transaction_delete_t} {transaction : Nat}
    {t : sip_transaction_t} (h : Deleted m event m') (hstays : transaction_of m.worker event ≠ some transaction)
    (ht : m.worker.transactions.heap.cells transaction = some t) :
    ∃ t', m'.worker.transactions.heap.cells transaction = some t' ∧ key_of t' = key_of t ∧ t'.message = t.message := by
  cases h with
  | missing _ hm =>
    rw [hm]
    exact ⟨t, ht, rfl, rfl⟩
  | @removed found _ _ _ hfound _ hdeletion =>
    have hne : transaction ≠ found := fun he => hstays (he ▸ hfound)
    obtain ⟨slots, hcells⟩ := hdeletion.removed.cells
    refine ⟨disband slots transaction t, ?_, key_of_disband _ _ _, ?_⟩
    · rw [hcells, if_neg hne, ht, Option.map_some]
    · unfold disband
      split <;> rfl

/-- Other traffic leaves what stands for a request. -/
private theorem Run.Stepped.elsewhere {run run' : Run} {input : Input} {message : sip_message_t} {transaction : Nat}
    (hstepped : Run.Stepped run input run') (hworker : WellFormed run.worker) (hsole : SoleBranch message)
    (h : Standing run message transaction) (helsewhere : Elsewhere message transaction run input) :
    Standing run' message transaction := by
  have hopens : ∀ other, Opens run other input → request_key other ≠ request_key message := by
    intro other hother
    cases input with
    | incoming => exact fun hkey => helsewhere other hother.1 (hsole _ _ other hother.1 hkey)
    | response => exact hother.elim
    | delete => exact hother.elim
  have hunique : ∀ a u, run'.worker.transactions.heap.cells a = some u → key_of u = request_key message →
      ∃ v, run.worker.transactions.heap.cells a = some v ∧ key_of v = request_key message := by
    intro a u hu hkeyed
    rcases (hstepped.keys a).comes hu with ⟨v, hv, hkey⟩ | ⟨other, hother, -, hkey⟩
    · exact ⟨v, hv, hkey.trans hkeyed⟩
    · exact absurd (hkey.symm.trans hkeyed) (hopens other hother)
  have hlive : ∃ t, run.worker.transactions.heap.cells transaction = some t ∧ key_of t = request_key message := by
    obtain ⟨⟨t, -, -, ht, hkey, -⟩, -⟩ := h
    exact ⟨t, ht, hkey⟩
  obtain ⟨t, ht, hkey⟩ := hlive
  cases hstepped with
  | unhandled =>
    exact h.undisturbed (List.append_nil _).symm (List.forall_mem_nil _) (fun t ht => ⟨t, ht, rfl, rfl⟩) hunique
  | response =>
    exact h.undisturbed (List.append_nil _).symm (List.forall_mem_nil _) (fun t ht => ⟨t, ht, rfl, rfl⟩) hunique
  | request haccepted hhandled =>
    cases hhandled with
    | unallocated _ _ hpurpose hm =>
      subst hm
      refine h.undisturbed rfl (fun s hs => ?_) (fun t ht => ⟨t, ht, rfl, rfl⟩) hunique
      obtain rfl := List.mem_singleton.mp hs
      rw [congrArg (·.transaction) hpurpose]
      exact (Option.some_ne_none _).symm
    | opened _ _ hopened =>
      have hne : transaction ≠ run.worker.transactions.heap.next := (Heap.lt_next_of_cells ht).ne
      refine h.undisturbed (congrArg (run.sent ++ ·) hopened.conversed.sent) (fun s hs => ?_) (fun u hu => ?_) hunique
      · rw [hopened.fate.sends_over s hs]
        exact fun he => hne (Option.some.inj he).symm
      · refine ⟨u, ?_, rfl, rfl⟩
        rw [Run.finish, hopened.transactions]
        exact (if_neg hne).trans hu
    | @known found _ _ hfound hcell hholds hknown =>
      have hne : transaction ≠ found := by
        rintro rfl
        obtain ⟨-, u, hu, hother⟩ := transaction_for_eq_some hworker haccepted.request.1 hfound
        rw [ht, Option.some.injEq] at hu
        exact helsewhere _ haccepted (hsole _ _ _ haccepted (hother.symm.trans (hu ▸ hkey)))
      obtain ⟨sends, hsent, hover⟩ := hknown.sends_over
      refine h.undisturbed (congrArg (run.sent ++ ·) hsent) (fun s hs => ?_) (fun u hu => ?_) hunique
      · rw [hover s hs]
        exact fun he => hne (Option.some.inj he).symm
      · exact ⟨u, (hknown.elsewhere hne).trans hu, rfl, rfl⟩
  | delete hdeleted =>
    refine h.undisturbed (congrArg (run.sent ++ ·) hdeleted.sent_eq) (List.forall_mem_nil _) (fun u hu => ?_) hunique
    exact hdeleted.message helsewhere hu

/-- What a copy of a request that stands makes of a worker. -/
private theorem Standing.copy {run : Run} {datagram : Datagram} {client_addr : sockaddr_in} {message : sip_message_t}
    {transaction : Nat} (h : Standing run message transaction) (hworker : WellFormed run.worker)
    (haccepted : Accepted datagram client_addr message) (hkeeps : KeepsBranch message) {copy : Input}
    (hcopy : IsCopy datagram client_addr copy) :
    ∃ s s' address, last_sent run transaction = some s ∧ SameDatagram s' s ∧ s'.transaction = some transaction ∧
      run.step copy = ok { run with sent := run.sent ++ [s'], freed := run.freed ++ [address] } := by
  obtain ⟨⟨t, opened, s, ht, hkey, hmessage, hsame, hlength, hlast, hdatagram⟩, hunique⟩ := h
  cases copy with
  | incoming datagram' client_addr' address env =>
    obtain ⟨rfl, rfl, hsendto⟩ := hcopy
    have hrequest := haccepted.request.1
    have hfound : transaction_for run.worker message = some transaction :=
      transaction_for_of_unique hworker hrequest hkeeps ht hkey hunique
    refine ⟨s, _, address, hlast, hdatagram true, rfl, ?_⟩
    rw [step_accepted haccepted, process_copy_eq (run.start env) ⟨address, message⟩ hworker hrequest
      hfound ht hmessage hsame hlength (hsendto 0), bind_ok]
    simp [Run.finish, Run.start, Machine.cleanup_sip_message, sending, armed]
  | response => exact hcopy.elim
  | delete => exact hcopy.elim

private theorem Standing.after_copy {run : Run} {message : sip_message_t} {transaction : Nat} {s s' : Sent}
    (h : Standing run message transaction) (hlast : last_sent run transaction = some s) (hsame : SameDatagram s' s)
    (htransaction : s'.transaction = some transaction) (freed : List Nat) :
    Standing { run with sent := run.sent ++ [s'], freed := freed } message transaction := by
  obtain ⟨⟨t, opened, r, ht, hkey, hmessage, hrequest, hlength, hr, hdatagram⟩, hunique⟩ := h
  rw [hlast, Option.some.injEq] at hr
  subst hr
  refine ⟨⟨t, opened, s', ht, hkey, hmessage, hrequest, hlength, last_sent_concat [] rfl htransaction,
    fun success => ?_⟩, hunique⟩
  obtain ⟨hbytes, hbeyond, haddr⟩ := hdatagram success
  exact ⟨hbytes.trans hsame.bytes.symm, hbeyond.trans hsame.beyond.symm, haddr.trans hsame.client_addr.symm⟩

/-- A request that is answered, and that no other branch is taken for, is processed once. -/
private theorem idempotent_of_kept {run : Run} {datagram : Datagram} {client_addr : sockaddr_in}
    {message : sip_message_t} (hworker : WellFormed run.worker) (haccepted : Accepted datagram client_addr message)
    (hack : message.method_type ≠ .ACK) (hnew : transaction_for run.worker message = none)
    (hkeeps : KeepsBranch message) (hsole : SoleBranch message)
    (hreinvite : ¬ (message.method_type = .INVITE ∧ dialog_for run.worker message ≠ none)) :
    Idempotent run datagram client_addr message := by
  intro address env opened _ hmalloc hstep later copy hpath hcopy
  have hrequest := haccepted.request.1
  have hfirst : WellFormed opened.worker ∧ Standing opened message run.worker.transactions.heap.next := by
    have hstepped := (step_ends hworker _).of_eq_ok hstep
    refine ⟨hstepped.wellFormed hworker, ?_⟩
    obtain ⟨m', heq, hhandled⟩ := step_new_branch hworker haccepted hnew address env
    rw [heq, Except.ok.injEq] at hstep
    subst hstep
    cases hhandled with
    | unallocated _ hfails =>
      rw [show env.malloc 0 = false from hfails] at hmalloc
      cases hmalloc
    | opened _ _ hopened => exact hopened.standing hworker hrequest hnew hkeeps hack hreinvite
    | known hfound =>
      rw [show transaction_for run.worker message = some _ from hfound] at hnew
      cases hnew
  have hlater : WellFormed later.worker ∧ Standing later message run.worker.transactions.heap.next := by
    refine hpath.preserves (P := fun between : Run => WellFormed between.worker ∧
      Standing between message run.worker.transactions.heap.next) ?_ hfirst
    rintro between input after - hallowed hbetween ⟨hworker, hstanding⟩
    have hstepped := (step_ends hworker input).of_eq_ok hbetween
    refine ⟨hstepped.wellFormed hworker, ?_⟩
    rcases hallowed with hcopied | helsewhere
    · obtain ⟨s, s', address', hlast, hsame, htransaction, hcopied⟩ := hstanding.copy hworker haccepted hkeeps hcopied
      rw [show program.step between input = _ from hcopied, Except.ok.injEq] at hbetween
      subst hbetween
      exact hstanding.after_copy hlast hsame htransaction _
    · exact hstepped.elsewhere hworker hsole hstanding helsewhere
  obtain ⟨s, s', address', hlast, hsame, -, hcopied⟩ := hlater.2.copy hlater.1 haccepted hkeeps hcopy
  exact ⟨s, s', address', hlast, hsame, hcopied⟩

/-- A request on a new branch opens a transaction, with system calls that all succeed. -/
private theorem Opened.of_accepted {run : Run} {datagram : Datagram} {client_addr : sockaddr_in}
    {message : sip_message_t} (hworker : WellFormed run.worker) (haccepted : Accepted datagram client_addr message)
    (hnew : transaction_for run.worker message = none) :
    ∃ t sends adds m', run.step (.incoming datagram client_addr 0 .obliging) = ok (run.finish m') ∧
      Opened (run.start .obliging) ⟨0, message⟩ m' t sends adds := by
  obtain ⟨m', hstep, hhandled⟩ := step_new_branch hworker haccepted hnew 0 .obliging
  cases hhandled with
  | unallocated _ hfails => cases hfails
  | @opened t sends adds _ _ hopened =>
    exact ⟨t, sends, adds, m', hstep, hopened⟩
  | known hfound =>
    rw [show transaction_for run.worker message = some _ from hfound] at hnew
    cases hnew

/-- What an accepted request that is worked off without a fault went through. -/
private theorem Handled.of_step {run run' : Run} {datagram : Datagram} {client_addr : sockaddr_in}
    {message : sip_message_t} (hworker : WellFormed run.worker) (haccepted : Accepted datagram client_addr message)
    (hstep : run.step (.incoming datagram client_addr 0 .obliging) = ok run') :
    ∃ m', run' = run.finish m' ∧ Handled (run.start .obliging) ⟨0, message⟩ m' := by
  rw [step_accepted haccepted] at hstep
  obtain ⟨m', hprocess, hfinish⟩ := bind_eq_ok_iff.mp hstep
  have hspec := process_sip_request_spec (run.start .obliging) ⟨0, message⟩ hworker haccepted.request.1
  exact ⟨m', (Except.ok.inj hfinish).symm, hspec.of_eq_ok hprocess⟩

/-- An idempotent request and one copy of it, with system calls that all succeed. -/
private theorem Idempotent.first_copy {run : Run} {datagram : Datagram} {client_addr : sockaddr_in}
    {message : sip_message_t} (h : Idempotent run datagram client_addr message) (hworker : WellFormed run.worker)
    (haccepted : Accepted datagram client_addr message) (hnew : transaction_for run.worker message = none) :
    ∃ t sends adds m' m'', Opened (run.start .obliging) ⟨0, message⟩ m' t sends adds ∧
      Handled ((run.finish m').start .obliging) ⟨0, message⟩ m'' ∧ m''.worker = m'.worker := by
  obtain ⟨t, sends, adds, m', hstep, hopened⟩ := Opened.of_accepted hworker haccepted hnew
  obtain ⟨s, s', address', -, -, hcopied⟩ := h 0 .obliging _ (fun _ => rfl) rfl hstep _
    (.incoming datagram client_addr 0 .obliging) (.refl _) ⟨rfl, rfl, fun _ => rfl⟩
  have hworker' : WellFormed (run.finish m').worker := hopened.wellFormed hworker haccepted.request.1
  obtain ⟨m'', hafter, hhandled⟩ := Handled.of_step hworker' haccepted hcopied
  exact ⟨t, sends, adds, m', m'', hopened, hhandled, (congrArg (·.worker) hafter).symm⟩

/-- A copy of a request whose branch is cut opens a transaction of its own. -/
private theorem Idempotent.keepsBranch {run : Run} {datagram : Datagram} {client_addr : sockaddr_in}
    {message : sip_message_t} (h : Idempotent run datagram client_addr message) (hworker : WellFormed run.worker)
    (haccepted : Accepted datagram client_addr message) (hnew : transaction_for run.worker message = none) :
    KeepsBranch message := by
  by_contra hcut
  have hrequest := haccepted.request.1
  obtain ⟨t, sends, adds, m', m'', hopened, hcopied, hsame⟩ := h.first_copy hworker haccepted hnew
  have hworker' : WellFormed m'.worker := hopened.wellFormed hworker hrequest
  have hnew' : transaction_for m'.worker message = none :=
    (transaction_for_eq_none_iff hworker' hrequest).mpr fun hkeeps => absurd hkeeps hcut
  cases hcopied with
  | unallocated _ hfails => cases hfails
  | opened _ _ hagain =>
    have hnext := congrArg (·.heap.next) hagain.transactions
    rw [hsame] at hnext
    exact absurd hnext (Nat.ne_of_lt (Nat.lt_succ_self _))
  | known hfound =>
    rw [show transaction_for m'.worker message = some _ from hfound] at hnew'
    cases hnew'

/-- The first copy of an INVITE in a dialog is the one that is answered. -/
private theorem Idempotent.answers {run : Run} {datagram : Datagram} {client_addr : sockaddr_in}
    {message : sip_message_t} (h : Idempotent run datagram client_addr message) (hworker : WellFormed run.worker)
    (haccepted : Accepted datagram client_addr message) (hnew : transaction_for run.worker message = none) :
    ¬ (message.method_type = .INVITE ∧ dialog_for run.worker message ≠ none) := by
  rintro ⟨hinvite, hdialog⟩
  have hrequest := haccepted.request.1
  have hkeeps := h.keepsBranch hworker haccepted hnew
  obtain ⟨t, sends, adds, m', m'', hopened, hcopied, hsame⟩ := h.first_copy hworker haccepted hnew
  have hworker' : WellFormed m'.worker := hopened.wellFormed hworker hrequest
  have hcell : m'.worker.transactions.heap.cells run.worker.transactions.heap.next = some t := by
    rw [hopened.transactions]
    exact Heap.cells_alloc_self _ _
  -- the transaction was opened and left as it was
  have hidle : t.message = some ⟨0, message⟩ ∧ t.final_response_code = 0 := by
    have hother : message.method_type ≠ .INVITE ∨ dialog_for run.worker message = none → False := by
      rintro (hmethod | hnone)
      · exact hmethod hinvite
      · exact hdialog hnone
    have hkind : ∀ method, message.method_type = method → method ≠ .INVITE → False := by
      rintro method hmethod hne
      exact hother (.inl (hmethod ▸ hne))
    cases hopened.fate with
    | reinvite _ _ _ _ _ hholds hcode => exact ⟨hholds, hcode⟩
    | acked hmethod => exact (hkind _ hmethod (by nofun)).elim
    | refused hmethod => exact (hother (.inl hmethod)).elim
    | hung_up hmethod => exact (hkind _ hmethod (by nofun)).elim
    | failed_alone _ hfound => exact (hother (.inr hfound)).elim
    | failed_in_dialog _ hfound => exact (hother (.inr hfound)).elim
    | failed_in_call _ hfound => exact (hother (.inr hfound)).elim
    | established _ hfound => exact (hother (.inr hfound)).elim
  have hfound : transaction_for m'.worker message = some run.worker.transactions.heap.next := by
    refine transaction_for_of_unique hworker' hrequest hkeeps hcell hopened.opened.key fun a u hu hkey => ?_
    rw [hopened.transactions, Store.heap_push, Heap.cells_alloc] at hu
    split at hu
    · assumption
    · exact absurd hkey ((transaction_for_eq_none_iff hworker hrequest).mp hnew hkeeps a u hu)
  have hempty : message.response_length = 0 := haccepted.request.2.response_length
  have hsame_request := is_different_same hrequest (.refl message)
  cases hcopied with
  | unallocated hnew' =>
    rw [show transaction_for m'.worker message = none from hnew'] at hfound
    cases hfound
  | opened hnew' =>
    rw [show transaction_for m'.worker message = none from hnew'] at hfound
    cases hfound
  | @known transaction u opened hfound' hcell' hholds hknown =>
    rw [show transaction_for m'.worker message = some transaction from hfound', Option.some.injEq] at hfound
    subst hfound
    rw [show m'.worker.transactions.heap.cells _ = some u from hcell', Option.some.injEq] at hcell
    subst hcell
    rw [hidle.1, Option.some.injEq] at hholds
    subst hholds
    cases hknown with
    | dropped hdifferent =>
      rw [hsame_request] at hdifferent
      cases hdifferent
    | resent _ hlength => exact hlength hempty
    | rewritten _ _ _ hconversed =>
      have hafter := hconversed.cells hcell'
      rw [show m''.worker = m'.worker from hsame, show m'.worker.transactions.heap.cells _ = some u from hcell',
        Option.some.injEq] at hafter
      have hcode := congrArg (·.final_response_code) hafter
      rw [hidle.2] at hcode
      cases hcode
    | acked hdifferent =>
      rw [hsame_request] at hdifferent
      cases hdifferent

/-- What a branch that is kept whole has in common with the other branches with its key. -/
private theorem take_of_same_key {message other : sip_message_t} (hrequest : Request message) (hother : Request other)
    (hkeeps : KeepsBranch message) (hkey : request_key other = request_key message) :
    (branch_value other).take SIP_BRANCH_MAX_LENGTH = branch_value message := by
  have hclean : ∀ message, NUL ∉ branch_value message := fun message hnul =>
    nul_not_mem_cstr _ _ (List.mem_of_mem_take hnul)
  have hwhole : (branch_value message).take SIP_BRANCH_MAX_LENGTH = branch_value message :=
    List.take_of_length_le hkeeps
  rw [request_key_eq hother, request_key_eq hrequest, Key.mk.injEq] at hkey
  have htake := congrArg Text.bytes hkey.2
  rwa [bytes_printed _ (hclean other), bytes_printed _ (hclean message), hwhole] at htake

/-- A branch that is kept whole has its key alone, unless it fills the copy and another length
is recorded for it. -/
theorem soleBranch_of_length {message : sip_message_t} (hrequest : Request message) (hkeeps : KeepsBranch message)
    (hlength : message.branch_length = SIP_BRANCH_MAX_LENGTH ∨
      (branch_value message).length ≠ SIP_BRANCH_MAX_LENGTH) : SoleBranch message := by
  intro datagram client_addr other haccepted hkey
  have htake := take_of_same_key hrequest haccepted.request.1 hkeeps hkey
  refine (List.take_of_length_le ?_).symm.trans htake
  have htaken := congrArg List.length htake
  rw [List.length_take] at htaken
  rcases hlength with hlength | hlength
  · have hrecorded : other.branch_length = message.branch_length := congrArg Key.branch_length hkey
    rw [branch_value, hrecorded, hlength]
    exact List.length_take_le _ _
  · omega

/-- A longer branch with the same key opens a transaction that the copies are matched to, and
they are dropped where it came from another address. -/
private theorem Idempotent.soleBranch {run : Run} {datagram : Datagram} {client_addr : sockaddr_in}
    {message : sip_message_t} (h : Idempotent run datagram client_addr message) (hworker : WellFormed run.worker)
    (haccepted : Accepted datagram client_addr message) (hack : message.method_type ≠ .ACK)
    (hnew : transaction_for run.worker message = none) : SoleBranch message := by
  intro datagram' client_addr' conflicting hconflicting hkey
  by_contra hother
  have hrequest := haccepted.request.1
  have hkeeps := h.keepsBranch hworker haccepted hnew
  obtain ⟨far, hfar⟩ : ∃ far : sockaddr_in, far ≠ client_addr :=
    ⟨{ client_addr with sin_port := client_addr.sin_port + 1 }, fun heq =>
      absurd (congrArg (·.sin_port) heq) (by simp)⟩
  obtain ⟨other, haccepted', hbuffer, hbranch, hlength⟩ := hconflicting.from_address far
  have hvalue : branch_value other = branch_value conflicting := by
    rw [branch_value, branch_value, branch_text, branch_text, hbuffer, hbranch, hlength]
  have hkey' : request_key other = request_key message := by
    rw [← hkey, request_key_eq haccepted'.request.1, request_key_eq hconflicting.request.1, hvalue, hlength]
  have hcut : ¬ KeepsBranch other := by
    intro hkeeps'
    have hwhole : (branch_value other).take SIP_BRANCH_MAX_LENGTH = branch_value other :=
      List.take_of_length_le hkeeps'
    have htake := take_of_same_key hrequest haccepted'.request.1 hkeeps hkey'
    rw [hwhole, hvalue] at htake
    exact hother htake
  -- the request, then the other one, then a copy of the first
  obtain ⟨t, sends, adds, m', hstep, hopened⟩ := Opened.of_accepted hworker haccepted hnew
  have hworker' : WellFormed (run.finish m').worker := hopened.wellFormed hworker hrequest
  have hnew' : transaction_for (run.finish m').worker other = none :=
    (transaction_for_eq_none_iff hworker' haccepted'.request.1).mpr fun hkeeps' => absurd hkeeps' hcut
  obtain ⟨t', sends', adds', m'', hstep', hopened'⟩ := Opened.of_accepted hworker' haccepted' hnew'
  have hworker'' : WellFormed ((run.finish m').finish m'').worker := hopened'.wellFormed hworker' haccepted'.request.1
  have helsewhere : Elsewhere message run.worker.transactions.heap.next (run.finish m')
      (.incoming datagram' far 0 .obliging) := by
    intro found hfound hsame
    rw [accepted_unique hfound haccepted', hvalue] at hsame
    exact hother hsame
  obtain ⟨s, s', address', -, -, hcopied⟩ := h 0 .obliging _ (fun _ => rfl) rfl hstep ((run.finish m').finish m'')
    (.incoming datagram client_addr 0 .obliging)
    ((Transitions.Path.refl _).tail (i := .incoming datagram' far 0 .obliging) trivial (.inr helsewhere) hstep')
    ⟨rfl, rfl, fun _ => rfl⟩
  obtain ⟨m, hafter, hhandled⟩ := Handled.of_step hworker'' haccepted hcopied
  have htransactions : ((run.finish m').finish m'').worker.transactions =
      (run.finish m').worker.transactions.push t' := hopened'.transactions
  have hcell : ((run.finish m').finish m'').worker.transactions.heap.cells
      (run.finish m').worker.transactions.heap.next = some t' := by
    rw [htransactions]
    exact Heap.cells_alloc_self _ _
  have hfound : transaction_for ((run.finish m').finish m'').worker message =
      some (run.finish m').worker.transactions.heap.next := by
    rw [transaction_for, htransactions, hworker'.transactions.first_push, if_pos]
    exact (matches_branch_iff hrequest (hworker''.held hcell)).mpr ⟨hkeeps, hopened'.opened.key.trans hkey'⟩
  cases hhandled with
  | unallocated hnone => cases hfound.symm.trans hnone
  | opened hnone => cases hfound.symm.trans hnone
  | @known transaction u opened hfound' hcell' hholds hknown =>
    obtain rfl := Option.some.inj (hfound.symm.trans hfound')
    obtain rfl := Option.some.inj (hcell.symm.trans hcell')
    obtain ⟨contents, hmessage, hsame⟩ := hopened'.opened.message
    obtain rfl := Option.some.inj (hmessage.symm.trans hholds)
    have hdiffers : is_different message contents ≠ ok false := by
      intro hnot
      have haddr := addr_of_not_different hnot
      rw [show contents.client_addr = other.client_addr from congrArg (·.client_addr) hsame.same,
        haccepted'.request.2.client_addr, haccepted.request.2.client_addr] at haddr
      exact hfar haddr
    cases hknown with
    | dropped _ _ hm =>
      have hsent := congrArg (·.sent) hafter
      rw [hm] at hsent
      exact absurd (List.append_cancel_left hsent) (List.cons_ne_nil _ _)
    | resent hnot => exact hdiffers hnot
    | rewritten hnot => exact hdiffers hnot
    | acked _ _ hmethod => exact hack hmethod

/-- Copies of a request that opened a transaction are answered by its last response and
change nothing, exactly when the transaction keeps the whole branch, no other branch has its
key and the request is no INVITE in a dialog. -/
theorem retransmissions_idempotent_iff (run : Run) (h : program.Reachable run) (datagram : Datagram)
    (client_addr : sockaddr_in) (message : sip_message_t) (haccepted : Accepted datagram client_addr message)
    (hack : message.method_type ≠ .ACK) (hnew : transaction_for run.worker message = none) :
    Idempotent run datagram client_addr message ↔
      KeepsBranch message ∧ SoleBranch message ∧
        ¬ (message.method_type = .INVITE ∧ dialog_for run.worker message ≠ none) := by
  have hworker := Reachable.wellFormed h
  constructor
  · exact fun hidempotent =>
      ⟨hidempotent.keepsBranch hworker haccepted hnew, hidempotent.soleBranch hworker haccepted hack hnew,
        hidempotent.answers hworker haccepted hnew⟩
  · rintro ⟨hkeeps, hsole, hreinvite⟩
    exact idempotent_of_kept hworker haccepted hack hnew hkeeps hsole hreinvite

/-- An OPTIONS whose branch is one byte longer than what a transaction keeps. -/
def long_branch_options : Datagram where
  bytes := request_text (ascii "OPTIONS") (List.replicate 65 120) (ascii "<sip:b@h>")
  fits := by decide +kernel

/-- An OPTIONS whose Via has no parameter: the first semicolon behind it is in the body, so that
a branch is found there, with a length that wraps. -/
def body_branch_options (branch : Bytes) : Bytes :=
  ascii "OPTIONS sip:a SIP/2.0\r\nFrom: <sip:a@h>;tag=1\r\nVia: SIP/2.0/UDP h\r\nTo: <sip:b@h>\r\n" ++
    ascii "Call-ID: c@h\r\nCSeq: 1 OPTIONS\r\nMax-Forwards: 70\r\nContent-Length: 8\r\n\r\n;branch=" ++ branch

def wrapped_options : Datagram where
  bytes := body_branch_options (List.replicate 64 120)
  fits := by decide +kernel

def longer_wrapped_options : Datagram where
  bytes := body_branch_options (List.replicate 65 120)
  fits := by decide +kernel

/-- A second INVITE in the dialog the first one begins. -/
def second_invite : Datagram where
  bytes := request_text (ascii "INVITE") (ascii "z9hG4bK3") (ascii "<sip:b@h>;tag=0000000000000000")
  fits := by decide +kernel

private theorem long_branch_facts :
    (accepted_message long_branch_options ⟨2, 5060, 1⟩).map (fun message =>
      (message.method_type, decide (KeepsBranch message))) = some (.OPTIONS, false) := by
  decide +kernel

private theorem wrapped_facts :
    ((accepted_message wrapped_options ⟨2, 5060, 1⟩).bind fun message =>
      (accepted_message longer_wrapped_options ⟨2, 5060, 1⟩).map fun other =>
        (message.method_type, decide (KeepsBranch message), decide (request_key other = request_key message),
          decide (branch_value other = branch_value message))) = some (.OPTIONS, true, true, false) := by
  decide +kernel

theorem second_invite_facts :
    ((program.follow Run.started [arrival first_invite .obliging]).bind fun run : Run =>
      (accepted_message second_invite ⟨2, 5060, 1⟩).map fun message =>
        (message.method_type, transaction_for run.worker message, dialog_for run.worker message)) =
      some (.INVITE, none, some 0) := by
  decide +kernel

/-- Neither an OPTIONS with a long branch on a fresh worker, nor one that shares its key with a
longer branch, nor the second INVITE of a dialog is idempotent. -/
theorem copies_processed_again :
    (∃ message, Accepted long_branch_options ⟨2, 5060, 1⟩ message ∧ message.method_type ≠ .ACK ∧
      transaction_for Run.started.worker message = none ∧
      ¬ Idempotent Run.started long_branch_options ⟨2, 5060, 1⟩ message) ∧
    (∃ message, Accepted wrapped_options ⟨2, 5060, 1⟩ message ∧ message.method_type ≠ .ACK ∧
      transaction_for Run.started.worker message = none ∧
      ¬ Idempotent Run.started wrapped_options ⟨2, 5060, 1⟩ message) ∧
    ∃ run message, program.Reachable run ∧ Accepted second_invite ⟨2, 5060, 1⟩ message ∧
      message.method_type ≠ .ACK ∧ transaction_for run.worker message = none ∧
      ¬ Idempotent run second_invite ⟨2, 5060, 1⟩ message := by
  refine ⟨?_, ?_, ?_⟩
  · obtain ⟨message, hmessage, hfacts⟩ := Option.map_eq_some_iff.mp long_branch_facts
    simp only [Prod.mk.injEq, decide_eq_false_iff_not] at hfacts
    obtain ⟨hmethod, hcut⟩ := hfacts
    have haccepted := accepted_iff.mpr hmessage
    refine ⟨message, haccepted, by rw [hmethod]; nofun, rfl, fun h => hcut ?_⟩
    exact h.keepsBranch Run.started_initial.wellFormed haccepted rfl
  · obtain ⟨message, hmessage, hfacts⟩ := Option.bind_eq_some_iff.mp wrapped_facts
    obtain ⟨other, hother, hfacts⟩ := Option.map_eq_some_iff.mp hfacts
    simp only [Prod.mk.injEq, decide_eq_false_iff_not, decide_eq_true_eq] at hfacts
    obtain ⟨hmethod, -, hkey, hdiffers⟩ := hfacts
    have haccepted := accepted_iff.mpr hmessage
    have hack : message.method_type ≠ .ACK := by rw [hmethod]; nofun
    refine ⟨message, haccepted, hack, rfl, fun h => hdiffers ?_⟩
    exact h.soleBranch Run.started_initial.wellFormed haccepted hack rfl _ _ other (accepted_iff.mpr hother) hkey
  · obtain ⟨run, hrun, hfacts⟩ := Option.bind_eq_some_iff.mp second_invite_facts
    obtain ⟨message, hmessage, hfacts⟩ := Option.map_eq_some_iff.mp hfacts
    simp only [Prod.mk.injEq] at hfacts
    obtain ⟨hmethod, hnew, hdialog⟩ := hfacts
    have hreach := reachable_of_follow hrun
    have haccepted := accepted_iff.mpr hmessage
    refine ⟨run, message, hreach, haccepted, by rw [hmethod]; nofun, hnew, fun h => ?_⟩
    refine h.answers (Reachable.wellFormed hreach) haccepted hnew ⟨hmethod, ?_⟩
    rw [hdialog]
    nofun

private theorem first_invite_facts :
    (accepted_message first_invite ⟨2, 5060, 1⟩).map (fun message =>
      (message.method_type, decide (KeepsBranch message), (branch_value message).length)) =
      some (.INVITE, true, 8) := by
  decide +kernel

theorem first_invite_idempotent :
    ∃ message, Accepted first_invite ⟨2, 5060, 1⟩ message ∧
      Idempotent Run.started first_invite ⟨2, 5060, 1⟩ message := by
  obtain ⟨message, hmessage, hfacts⟩ := Option.map_eq_some_iff.mp first_invite_facts
  simp only [Prod.mk.injEq, decide_eq_true_eq] at hfacts
  obtain ⟨hmethod, hkeeps, hlength⟩ := hfacts
  have haccepted := accepted_iff.mpr hmessage
  have hsole : SoleBranch message :=
    soleBranch_of_length haccepted.request.1 hkeeps (.inr (by rw [hlength]; decide))
  refine ⟨message, haccepted, ?_⟩
  refine (retransmissions_idempotent_iff Run.started (.initial Run.started_initial) first_invite ⟨2, 5060, 1⟩ message
    haccepted (by rw [hmethod]; nofun) rfl).mpr ⟨hkeeps, hsole, ?_⟩
  rintro ⟨-, hdialog⟩
  exact hdialog rfl

end mock_uas.sip_server
