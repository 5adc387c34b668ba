import MockUas.Server.Lifecycle

open clib
open mock_uas.sip_message
open mock_uas.sip_utils

namespace mock_uas.sip_server

/-- A confirmed dialog and its established call, each in its list and linked to the other. -/
structure Established (worker : worker_thread_t) (dialog call : Nat) : Prop where
  dialog_listed : dialog ∈ worker.dialogs.list
  call_listed : call ∈ worker.calls.list
  confirmed : ∃ d, worker.dialogs.heap.cells dialog = some d ∧ d.state = .CONFIRMED ∧ d.call = some call
  established : ∃ c, worker.calls.heap.cells call = some c ∧ c.state = .ESTABLISHED ∧ c.dialog.count dialog = 1

/-- A dialog and its call are terminated, and no other dialog or call changes its state. -/
structure HungUp (before after : worker_thread_t) (dialog call : Nat) : Prop where
  dialog_ended : ∃ d, after.dialogs.heap.cells dialog = some d ∧ d.state = .TERMINATED
  call_ended : ∃ c, after.calls.heap.cells call = some c ∧ c.state = .TERMINATED
  other_dialogs : ∀ a d, a ≠ dialog → before.dialogs.heap.cells a = some d →
    ∃ d', after.dialogs.heap.cells a = some d' ∧ d'.state = d.state ∧ d'.call = d.call
  other_calls : ∀ a c, a ≠ call → before.calls.heap.cells a = some c →
    ∃ c', after.calls.heap.cells a = some c' ∧ c'.state = c.state

/-- A 200 to a BYE in a dialog. -/
def ByeAnswered (dialog : Nat) (s : Sent) : Prop :=
  s.method = .BYE ∧ s.status_code = 200 ∧ s.dialog = some dialog

theorem WellFormed.established_iff {worker : worker_thread_t} (h : WellFormed worker) {dialog call : Nat} :
    Established worker dialog call ↔
      dialog_phase worker dialog = some (.CONFIRMED, some call) ∧ call_phase worker call = some .ESTABLISHED := by
  constructor
  · rintro ⟨-, -, ⟨d, hd, hstate, hcall⟩, c, hc, hcstate, -⟩
    exact ⟨by rw [dialog_phase, hd, Option.map_some, hstate, hcall],
      by rw [call_phase, hc, Option.map_some, hcstate]⟩
  · rintro ⟨hdialog, hcall⟩
    obtain ⟨d, hd, heq⟩ := Option.map_eq_some_iff.mp hdialog
    obtain ⟨c, hc, hstate⟩ := Option.map_eq_some_iff.mp hcall
    rw [Prod.mk.injEq] at heq
    obtain ⟨c', hc', hcount⟩ := h.call hd heq.2
    rw [hc, Option.some.injEq] at hc'
    subst hc'
    exact ⟨h.dialogs.mem hd, h.calls.mem hc, ⟨d, hd, heq.1, heq.2⟩, c, hc, hstate, hcount⟩

/-- A step that does not hang up a call leaves it as it is. -/
private theorem Shift.spares {before after : worker_thread_t} {hung : Option Nat} (h : Shift before after hung)
    (hworker : WellFormed before) {dialog call : Nat} {call_state : sip_call_state_t}
    (hdialog : dialog_phase before dialog = some (.CONFIRMED, some call))
    (hcall : call_phase before call = some call_state) (hhung : hung ≠ some dialog) :
    dialog_phase after dialog = some (.CONFIRMED, some call) ∧ call_phase after call = some call_state := by
  have hnext : dialog ≠ before.dialogs.heap.next := by
    rintro rfl
    rw [dialog_phase, Heap.cells_next] at hdialog
    cases hdialog
  cases h with
  | still hdialogs hcalls => exact ⟨(hdialogs _).trans hdialog, (hcalls _).trans hcall⟩
  | failed hdialogs hcalls =>
    refine ⟨?_, (hcalls _).trans hcall⟩
    rw [hdialogs, if_neg hnext, hdialog]
  | begun _ hdialogs hcalls =>
    constructor
    · rw [hdialogs, if_neg hnext, hdialog]
    · rw [hcalls, if_neg (hworker.call_live hdialog), hcall]
  | @hung_up other gone hother hdialogs hcalls =>
    have hne : dialog ≠ other := fun he => hhung (congrArg some he.symm)
    constructor
    · rw [hdialogs, if_neg hne, hdialog]
    · rw [hcalls, if_neg, hcall]
      rintro rfl
      exact hne (hworker.dialog_unique hdialog hother)
  | @ended other gone hother hdialogs hcalls =>
    have hne : dialog ≠ other := by
      rintro rfl
      rw [hdialog] at hother
      cases hother
    constructor
    · rw [hdialogs, if_neg hne, hdialog]
    · rw [hcalls, if_neg, hcall]
      rintro ⟨rfl, -⟩
      exact hne (hworker.dialog_unique hdialog hother)

/-- A step that hangs up a call terminates it with its dialog, and nothing else. -/
private theorem Shift.hangs_up {before after : worker_thread_t} {dialog call : Nat}
    (h : Shift before after (some dialog)) (hdialog : dialog_phase before dialog = some (.CONFIRMED, some call)) :
    HungUp before after dialog call := by
  cases h with
  | @hung_up _ call' hphase hdialogs hcalls =>
    rw [hdialog, Option.some.injEq, Prod.mk.injEq, Option.some.injEq] at hphase
    obtain ⟨-, rfl⟩ := hphase
    constructor
    · have hafter := hdialogs dialog
      rw [if_pos rfl] at hafter
      obtain ⟨d, hd, heq⟩ := Option.map_eq_some_iff.mp hafter
      rw [Prod.mk.injEq] at heq
      exact ⟨d, hd, heq.1⟩
    · have hafter := hcalls call
      rw [if_pos rfl] at hafter
      exact Option.map_eq_some_iff.mp hafter
    · intro a d ha hd
      have hafter := hdialogs a
      rw [if_neg ha, dialog_phase, dialog_phase, hd, Option.map_some] at hafter
      obtain ⟨d', hd', heq⟩ := Option.map_eq_some_iff.mp hafter
      rw [Prod.mk.injEq] at heq
      exact ⟨d', hd', heq.1, heq.2⟩
    · intro a c ha hc
      have hafter := hcalls a
      rw [if_neg ha, call_phase, call_phase, hc, Option.map_some] at hafter
      exact Option.map_eq_some_iff.mp hafter

/-- Who has answered a BYE in a dialog with 200, by what was sent and by what would be sent
again. -/
def Bade (run : Run) (dialog a : Nat) : Prop :=
  (∃ s ∈ run.sent, ByeAnswered dialog s ∧ s.transaction = some a) ∨
    ∃ t message, run.worker.transactions.heap.cells a = some t ∧ t.message = some message ∧
      message.contents.method_type = .BYE ∧ t.final_response_code = 200 ∧ t.dialog = some dialog

/-- A dialog in which a BYE was answered with 200 is not confirmed any more. -/
structure Farewells (run : Run) : Prop where
  carried : ∀ s ∈ run.sent, s.dialog = none ∨ ∃ a, s.transaction = some a
  unique : ∀ dialog a a', Bade run dialog a → Bade run dialog a' → a = a'
  ended : ∀ dialog a, Bade run dialog a → dialog < run.worker.dialogs.heap.next ∧
    ∀ call, dialog_phase run.worker dialog ≠ some (.CONFIRMED, call)

/-- What every datagram of an answer was sent for. -/
theorem Answer.purpose {transaction : Nat} {original : Owned sip_message_t} {t : sip_transaction_t}
    {sends : List Sent} (h : Answer transaction original t sends) {s : Sent} (hs : s ∈ sends) :
    s.transaction = some transaction ∧ s.method = original.contents.method_type ∧
      (original.contents.method_type ≠ .INVITE → s.status_code = t.final_response_code ∧ s.dialog = t.dialog) := by
  obtain ⟨contents, provisional, success, -, hsame, -, rfl, hprovisional⟩ := h
  rcases List.mem_append.mp hs with hs | hs
  · obtain ⟨htransaction, hmethod⟩ := hprovisional.carried s hs
    refine ⟨htransaction, hmethod, fun hinvite => absurd (hprovisional.invite ?_) hinvite⟩
    exact List.ne_nil_of_mem hs
  · obtain rfl := List.mem_singleton.mp hs
    have hmethod : contents.method_type = original.contents.method_type := congrArg (·.method_type) hsame.same
    exact ⟨rfl, hmethod, fun _ => ⟨rfl, rfl⟩⟩

/-- What the fate of a new transaction makes of its dialog's BYE. -/
private theorem Fate.bade {before after : worker_thread_t} {original : Owned sip_message_t} {transaction : Nat}
    {t : sip_transaction_t} {sends : List Sent} (h : Fate before original transaction t after sends) {dialog : Nat}
    (hbye : (∃ s ∈ sends, ByeAnswered dialog s) ∨ ∃ message, t.message = some message ∧
      message.contents.method_type = .BYE ∧ t.final_response_code = 200 ∧ t.dialog = some dialog) :
    HangsUpIn before original.contents dialog ∧ ∀ s ∈ sends, s.transaction = some transaction := by
  have hmethod : (∀ s ∈ sends, s.method = original.contents.method_type) →
      original.contents.method_type = .BYE := by
    intro hsends
    rcases hbye with ⟨s, hs, hsame, -⟩ | ⟨message, hholds, hsame, -⟩
    · rw [← hsends s hs, hsame]
    · obtain ⟨contents, hmessage, hcontents⟩ := h.message
      rw [hmessage, Option.some.injEq] at hholds
      rw [← hholds] at hsame
      have hkept : contents.method_type = original.contents.method_type := congrArg (·.method_type) hcontents.same
      exact hkept.symm.trans hsame
  have hfinal : Answer transaction original t sends → original.contents.method_type ≠ .INVITE →
      t.final_response_code = 200 ∧ t.dialog = some dialog := by
    intro hanswer hinvite
    rcases hbye with ⟨s, hs, -, hcode, hdialog⟩ | ⟨message, -, -, hcode, hdialog⟩
    · obtain ⟨-, -, hsame⟩ := hanswer.purpose hs
      obtain ⟨hsame_code, hsame_dialog⟩ := hsame hinvite
      exact ⟨hsame_code.symm.trans hcode, hsame_dialog.symm.trans hdialog⟩
    · exact ⟨hcode, hdialog⟩
  have hinvite : original.contents.method_type = .INVITE → Answer transaction original t sends → False := by
    intro hinvite hanswer
    have hbye := hmethod fun s hs => (hanswer.purpose hs).2.1
    rw [hinvite] at hbye
    cases hbye
  cases h with
  | reinvite hkind _ _ _ _ _ _ _ _ hsends =>
    have hbye := hmethod (by rw [hsends]; nofun)
    rw [hkind] at hbye
    cases hbye
  | acked hkind _ _ _ _ _ _ hsends =>
    have hbye := hmethod (by rw [hsends]; nofun)
    rw [hkind] at hbye
    cases hbye
  | refused hkind _ _ _ _ hcode hanswer =>
    rw [(hfinal hanswer hkind).1] at hcode
    omega
  | @hung_up found call d c hkind hfound hcell hconfirmed hcall _ hdialog _ _ hanswer =>
    have hsame := (hfinal hanswer (by rw [hkind]; nofun)).2
    rw [hdialog, Option.some.injEq] at hsame
    subst hsame
    refine ⟨⟨hkind, hfound, call, ?_⟩, fun s hs => (hanswer.purpose hs).1⟩
    rw [dialog_phase, hcell, Option.map_some, hconfirmed, hcall]
  | failed_alone hkind _ _ _ _ hanswer => exact (hinvite hkind hanswer).elim
  | failed_in_dialog hkind _ _ _ _ hanswer => exact (hinvite hkind hanswer).elim
  | failed_in_call hkind _ _ _ _ hanswer => exact (hinvite hkind hanswer).elim
  | established hkind _ _ _ _ hanswer => exact (hinvite hkind hanswer).elim

/-- Only a step that hangs up the call of a dialog brings a new 200 to a BYE in it. -/
private theorem Handled.bade {run : Run} {env : Environment} {m' : Machine} {message : Owned sip_message_t}
    (h : Handled (run.start env) message m') {dialog a : Nat} (hbade : Bade (run.finish m') dialog a) :
    Bade run dialog a ∨
      (OpensBye run.worker env message.contents dialog ∧ a = run.worker.transactions.heap.next) := by
  cases h with
  | unallocated _ _ hsent hm =>
    subst hm
    rcases hbade with ⟨s, hs, hbye, htransaction⟩ | hrecord
    · rcases List.mem_append.mp hs with hs | hs
      · exact .inl (.inl ⟨s, hs, hbye, htransaction⟩)
      · obtain rfl := List.mem_singleton.mp hs
        have hnone := congrArg (·.transaction) hsent
        rw [htransaction] at hnone
        cases hnone
    · exact .inl (.inr hrecord)
  | @opened t sends _ hnew hmalloc hopened =>
    have hsent : m'.sent = sends := hopened.conversed.sent
    have hopens : ((∃ s ∈ sends, ByeAnswered dialog s) ∨ ∃ message, t.message = some message ∧
        message.contents.method_type = .BYE ∧ t.final_response_code = 200 ∧ t.dialog = some dialog) →
        OpensBye run.worker env message.contents dialog := fun hbye => ⟨hnew, hmalloc, (hopened.fate.bade hbye).1⟩
    rcases hbade with ⟨s, hs, hbye, htransaction⟩ | ⟨u, held, hu, hrecord⟩
    · rcases List.mem_append.mp hs with hs | hs
      · exact .inl (.inl ⟨s, hs, hbye, htransaction⟩)
      · rw [hsent] at hs
        have hself := (hopened.fate.bade (.inl ⟨s, hs, hbye⟩)).2 s hs
        rw [htransaction, Option.some.injEq] at hself
        exact .inr ⟨hopens (.inl ⟨s, hs, hbye⟩), hself⟩
    · rw [show (run.finish m').worker = m'.worker from rfl, hopened.transactions, Store.heap_push,
        Heap.cells_alloc] at hu
      split at hu
      · rename_i ha
        obtain rfl := Option.some.inj hu
        exact .inr ⟨hopens (.inr ⟨held, hrecord⟩), ha⟩
      · exact .inl (.inr ⟨u, held, hu, hrecord⟩)
  | @known transaction t opened hfound hcell hholds hknown =>
    left
    have hresent : ∀ {s : Sent} {success}, s = datagram_of transaction t opened.contents success →
        ByeAnswered dialog s → s.transaction = some a → Bade run dialog a := by
      rintro s success rfl ⟨hmethod, hcode, hdialog⟩ htransaction
      obtain rfl := Option.some.inj htransaction
      exact .inr ⟨t, opened, hcell, hholds, hmethod, hcode, hdialog⟩
    have hother : ∀ {t'}, (run.finish m').worker.transactions = run.worker.transactions.set transaction t' →
        (∀ held, t'.message = some held → held.contents.method_type = .BYE → t'.final_response_code ≠ 200) →
        (∃ u held, (run.finish m').worker.transactions.heap.cells a = some u ∧ u.message = some held ∧
          held.contents.method_type = .BYE ∧ u.final_response_code = 200 ∧ u.dialog = some dialog) →
        Bade run dialog a := by
      rintro t' hafter hkeeps ⟨u, held, hu, hmessage, hmethod, hcode, hdialog⟩
      rw [hafter, Store.heap_set, Heap.cells_set (show run.worker.transactions.heap.cells transaction = some t from
        hcell)] at hu
      split at hu
      · obtain rfl := Option.some.inj hu
        exact absurd hcode (hkeeps held hmessage hmethod)
      · exact .inr ⟨u, held, hu, hmessage, hmethod, hcode, hdialog⟩
    cases hknown with
    | dropped _ _ hm =>
      subst hm
      rcases hbade with ⟨s, hs, hbye, htransaction⟩ | hrecord
      · exact .inl ⟨s, by simpa [Run.finish, Run.start, Machine.cleanup_sip_message] using hs, hbye, htransaction⟩
      · exact .inr hrecord
    | resent _ _ _ hm =>
      subst hm
      rcases hbade with ⟨s, hs, hbye, htransaction⟩ | hrecord
      · rcases List.mem_append.mp hs with hs | hs
        · exact .inl ⟨s, hs, hbye, htransaction⟩
        · exact hresent (List.mem_singleton.mp hs) hbye htransaction
      · exact .inr hrecord
    | rewritten _ _ _ hconversed _ _ _ =>
      rcases hbade with ⟨s, hs, hbye, htransaction⟩ | hrecord
      · rcases List.mem_append.mp hs with hs | hs
        · exact .inl ⟨s, hs, hbye, htransaction⟩
        · rw [show m'.sent = _ from hconversed.sent] at hs
          rcases List.mem_append.mp hs with hs | hs
          · cases hs
          · rcases List.mem_append.mp hs with hs | hs
            · split at hs
              · cases hs
              · exact hresent (List.mem_singleton.mp hs) hbye htransaction
            · obtain rfl := List.mem_singleton.mp hs
              have hcode : ((500 : Nat) : Int) = 200 := hbye.2.1
              omega
      · exact hother hconversed.transactions (by
          intro held _ _ hcode
          have hcode : ((500 : Nat) : Int) = 200 := hcode
          omega) hrecord
    | acked _ hinvite _ hconversed _ _ _ =>
      rcases hbade with ⟨s, hs, hbye, htransaction⟩ | hrecord
      · rcases List.mem_append.mp hs with hs | hs
        · exact .inl ⟨s, hs, hbye, htransaction⟩
        · rw [show m'.sent = _ from hconversed.sent] at hs
          cases hs
      · refine hother hconversed.transactions ?_ hrecord
        intro held hheld hmethod
        rw [show t.message = some held from hheld, Option.some.injEq] at hholds
        rw [hholds, hinvite] at hmethod
        cases hmethod

theorem Fate.sends_over {before after : worker_thread_t} {original : Owned sip_message_t} {transaction : Nat}
    {t : sip_transaction_t} {sends : List Sent} (h : Fate before original transaction t after sends) :
    ∀ s ∈ sends, s.transaction = some transaction := by
  cases h with
  | reinvite _ _ _ _ _ _ _ _ _ hsends =>
    rw [hsends]
    nofun
  | acked _ _ _ _ _ _ _ hsends =>
    rw [hsends]
    nofun
  | refused _ _ _ _ _ _ hanswer => exact fun s hs => (hanswer.purpose hs).1
  | hung_up _ _ _ _ _ _ _ _ _ hanswer => exact fun s hs => (hanswer.purpose hs).1
  | failed_alone _ _ _ _ _ hanswer => exact fun s hs => (hanswer.purpose hs).1
  | failed_in_dialog _ _ _ _ _ hanswer => exact fun s hs => (hanswer.purpose hs).1
  | failed_in_call _ _ _ _ _ hanswer => exact fun s hs => (hanswer.purpose hs).1
  | established _ _ _ _ _ hanswer => exact fun s hs => (hanswer.purpose hs).1

/-- A request whose branch is known is answered over its transaction, if at all. -/
theorem Known.sends_over {m m' : Machine} {message opened : Owned sip_message_t} {transaction : Nat}
    {t : sip_transaction_t} (h : Known m message transaction t opened m') :
    ∃ sends, m'.sent = m.sent ++ sends ∧ ∀ s ∈ sends, s.transaction = some transaction := by
  cases h with
  | dropped _ _ hm => exact ⟨[], by rw [hm, List.append_nil, Machine.cleanup_sip_message], nofun⟩
  | resent _ _ _ hm =>
    refine ⟨[_], by rw [hm]; rfl, fun s hs => ?_⟩
    obtain rfl := List.mem_singleton.mp hs
    rfl
  | rewritten _ _ _ hconversed =>
    refine ⟨_, hconversed.sent, fun s hs => ?_⟩
    rcases List.mem_append.mp hs with hs | hs
    · split at hs
      · cases hs
      · obtain rfl := List.mem_singleton.mp hs
        rfl
    · obtain rfl := List.mem_singleton.mp hs
      rfl
  | acked _ _ _ hconversed => exact ⟨[], hconversed.sent, nofun⟩

/-- A datagram is sent over a transaction, or for a request that got none. -/
private theorem Handled.sends_over {run : Run} {env : Environment} {m' : Machine} {message : Owned sip_message_t}
    (h : Handled (run.start env) message m') : ∀ s ∈ m'.sent, s.dialog = none ∨ ∃ a, s.transaction = some a := by
  intro s hs
  cases h with
  | unallocated _ _ hsent hm =>
    subst hm
    obtain rfl := List.mem_singleton.mp hs
    exact .inl (congrArg (·.dialog) hsent)
  | opened _ _ hopened =>
    rw [show m'.sent = _ from hopened.conversed.sent] at hs
    exact .inr ⟨_, hopened.fate.sends_over s hs⟩
  | known _ _ _ hknown =>
    obtain ⟨sends, hsent, hover⟩ := hknown.sends_over
    rw [show m'.sent = sends from hsent] at hs
    exact .inr ⟨_, hover s hs⟩

theorem Deleted.sent_eq {m m' : Machine} {event : transaction_delete_t} (h : Deleted m event m') :
    m'.sent = m.sent := by
  cases h with
  | missing _ hm => rw [hm]
  | removed _ _ hdeletion => exact hdeletion.sent

private theorem Deleted.bade {run : Run} {env : Environment} {m' : Machine} {event : transaction_delete_t}
    (h : Deleted (run.start env) event m') {dialog a : Nat}
    (hbade : Bade ({ run with pending := run.pending.erase event }.finish m') dialog a) : Bade run dialog a := by
  have hsent : m'.sent = [] := h.sent_eq
  rcases hbade with ⟨s, hs, hbye, htransaction⟩ | ⟨t', held, ht', hmessage, hmethod, hcode, hdialog⟩
  · refine .inl ⟨s, ?_, hbye, htransaction⟩
    simpa [Run.finish, hsent] using hs
  · have hbefore : run.worker.transactions.heap.cells a = some t' := by
      cases h with
      | missing _ hm =>
        subst hm
        exact ht'
      | removed _ _ hdeletion =>
        change m'.worker.transactions.heap.cells a = some t' at ht'
        cases hdeletion.removed with
        | alone _ hafter _ =>
          rw [hafter, Store.cells_remove] at ht'
          split at ht'
          · cases ht'
          · exact ht'
        | left _ _ _ hafter _ =>
          rw [hafter, Store.cells_remove] at ht'
          split at ht'
          · cases ht'
          · exact ht'
        | ended _ _ _ hafter _ =>
          rw [hafter, Store.cells_map] at ht'
          obtain ⟨t, ht, rfl⟩ := Option.map_eq_some_iff.mp ht'
          unfold disband at hdialog ⊢
          split at hdialog
          · cases hdialog
          · rename_i hout
            rw [if_neg hout]
            rw [Store.cells_remove] at ht
            split at ht
            · cases ht
            · exact ht
    exact .inr ⟨t', held, hbefore, hmessage, hmethod, hcode, hdialog⟩

/-- What every step makes of the 200s to BYEs. -/
private theorem Run.Stepped.bade {run run' : Run} {input : Input} (h : Run.Stepped run input run')
    {dialog a : Nat} (hbade : Bade run' dialog a) :
    Bade run dialog a ∨ ((ByeFor run dialog input ∧ ∃ call, dialog_phase run.worker dialog =
      some (.CONFIRMED, some call)) ∧ a = run.worker.transactions.heap.next) := by
  cases h with
  | unhandled => exact .inl hbade
  | response => exact .inl hbade
  | request haccepted hhandled =>
    rcases hhandled.bade hbade with hbefore | ⟨⟨hnew, hmalloc, hmethod, hfound, hphase⟩, ha⟩
    · exact .inl hbefore
    · exact .inr ⟨⟨⟨_, haccepted, hmethod, hnew, hmalloc, hfound⟩, hphase⟩, ha⟩
  | delete hdeleted => exact .inl (hdeleted.bade hbade)

private theorem Shift.not_confirmed {before after : worker_thread_t} {hung : Option Nat}
    (h : Shift before after hung) {dialog : Nat} (hlt : dialog < before.dialogs.heap.next)
    (hnot : ∀ call, dialog_phase before dialog ≠ some (.CONFIRMED, call)) (call : Option Nat) :
    dialog_phase after dialog ≠ some (.CONFIRMED, call) := by
  have hne : dialog ≠ before.dialogs.heap.next := Nat.ne_of_lt hlt
  cases h with
  | still hdialogs =>
    rw [hdialogs]
    exact hnot call
  | failed hdialogs =>
    rw [hdialogs, if_neg hne]
    exact hnot call
  | begun _ hdialogs =>
    rw [hdialogs, if_neg hne]
    exact hnot call
  | hung_up _ hdialogs =>
    rw [hdialogs]
    split
    · nofun
    · exact hnot call
  | ended _ hdialogs =>
    rw [hdialogs]
    split
    · nofun
    · exact hnot call

private theorem Run.Stepped.farewells {run run' : Run} {input : Input} (h : Run.Stepped run input run')
    (hworker : WellFormed run.worker) (hfarewells : Farewells run) : Farewells run' := by
  obtain ⟨hung, hshift, hiff⟩ := h.shift hworker
  constructor
  · intro s hs
    cases h with
    | unhandled => exact hfarewells.carried s hs
    | response => exact hfarewells.carried s hs
    | request _ hhandled =>
      rcases List.mem_append.mp hs with hs | hs
      · exact hfarewells.carried s hs
      · exact hhandled.sends_over s hs
    | delete hdeleted =>
      rcases List.mem_append.mp hs with hs | hs
      · exact hfarewells.carried s hs
      · rw [hdeleted.sent_eq] at hs
        cases hs
  · intro dialog a a' ha ha'
    rcases h.bade ha with hold | ⟨⟨-, call, hphase⟩, hnew⟩
    · rcases h.bade ha' with hold' | ⟨⟨-, call, hphase⟩, -⟩
      · exact hfarewells.unique dialog a a' hold hold'
      · exact absurd hphase ((hfarewells.ended dialog a hold).2 _)
    · rcases h.bade ha' with hold' | ⟨-, hnew'⟩
      · exact absurd hphase ((hfarewells.ended dialog a' hold').2 _)
      · rw [hnew, hnew']
  · intro dialog a ha
    rcases h.bade ha with hold | ⟨hbye, -⟩
    · obtain ⟨hlt, hnot⟩ := hfarewells.ended dialog a hold
      exact ⟨hlt.trans_le h.grows.dialogs, hshift.not_confirmed hlt hnot⟩
    · have ⟨_, call, hphase⟩ := hbye
      obtain ⟨d, hd, -⟩ := Option.map_eq_some_iff.mp hphase
      refine ⟨(Heap.lt_next_of_cells hd).trans_le h.grows.dialogs, fun call' hconfirmed => ?_⟩
      obtain rfl := (hiff dialog).mpr hbye
      obtain ⟨d', hd', hstate⟩ := (hshift.hangs_up hphase).dialog_ended
      rw [dialog_phase, hd', Option.map_some, hstate] at hconfirmed
      cases hconfirmed

private theorem Run.Initial.farewells {run : Run} (h : run.Initial) : Farewells run := by
  have hbade : ∀ dialog a, ¬ Bade run dialog a := by
    rintro dialog a (⟨s, hs, -⟩ | ⟨t, message, ht, -⟩)
    · rw [h.sent] at hs
      cases hs
    · rw [h.transactions] at ht
      cases ht
  constructor
  · intro s hs
    rw [h.sent] at hs
    cases hs
  · exact fun dialog a _ ha => absurd ha (hbade dialog a)
  · exact fun dialog a ha => absurd ha (hbade dialog a)

theorem Reachable.farewells {run : Run} (h : program.Reachable run) : WellFormed run.worker ∧ Farewells run := by
  refine Transitions.ReachableWhile.invariant (P := fun run => WellFormed run.worker ∧ Farewells run)
    (fun run (hinitial : run.Initial) => ⟨hinitial.wellFormed, hinitial.farewells⟩) ?_ h
  rintro run input run' _ _ hstep ⟨hworker, hfarewells⟩
  have hstepped := (step_ends hworker input).of_eq_ok hstep
  exact ⟨hstepped.wellFormed hworker, hstepped.farewells hworker hfarewells⟩

theorem Run.Stepped.established_stays {run run' : Run} {input : Input} (h : Run.Stepped run input run')
    (hworker : WellFormed run.worker) {dialog call : Nat} (hestablished : Established run.worker dialog call)
    (hbye : ¬ ByeFor run dialog input) : Established run'.worker dialog call := by
  obtain ⟨hung, hshift, hiff⟩ := h.shift hworker
  obtain ⟨hdialog, hcall⟩ := hworker.established_iff.mp hestablished
  refine (h.wellFormed hworker).established_iff.mpr (hshift.spares hworker hdialog hcall ?_)
  exact fun hsome => hbye ((hiff dialog).mp hsome).1

theorem Run.Stepped.hangs_up {run run' : Run} {input : Input} (h : Run.Stepped run input run')
    (hworker : WellFormed run.worker) {dialog call : Nat} (hestablished : Established run.worker dialog call)
    (hbye : ByeFor run dialog input) : HungUp run.worker run'.worker dialog call := by
  obtain ⟨hung, hshift, hiff⟩ := h.shift hworker
  obtain ⟨hdialog, -⟩ := hworker.established_iff.mp hestablished
  obtain rfl := (hiff dialog).mpr ⟨hbye, call, hdialog⟩
  exact hshift.hangs_up hdialog

/-- A new BYE for a dialog is processed. -/
theorem ByeFor.steps {run : Run} {dialog : Nat} {input : Input} (h : ByeFor run dialog input)
    (hworker : WellFormed run.worker) : ∃ run', run.step input = ok run' := by
  cases input with
  | incoming datagram client_addr address env =>
    obtain ⟨message, haccepted, -, hnew, -⟩ := h
    obtain ⟨m', hstep, -⟩ := step_new_branch hworker haccepted hnew address env
    exact ⟨_, hstep⟩
  | response => exact h.elim
  | delete => exact h.elim

/-- Every step but a new BYE in a confirmed dialog leaves the dialog and its established
call as they are, and that BYE is processed and ends these two and no others, so that over
a whole run one transaction at most is answered 200 to a BYE in a dialog. -/
theorem established_call_survives (run : Run) (h : program.Reachable run) :
    (∀ dialog call input, Established run.worker dialog call → program.enabled run input →
        (¬ ByeFor run dialog input → ∀ run', run.step input = ok run' → Established run'.worker dialog call) ∧
          (ByeFor run dialog input → ∃ run', run.step input = ok run' ∧ HungUp run.worker run'.worker dialog call)) ∧
      ∀ dialog s s', s ∈ run.sent → s' ∈ run.sent → ByeAnswered dialog s → ByeAnswered dialog s' →
        s.transaction = s'.transaction := by
  obtain ⟨hworker, hfarewells⟩ := Reachable.farewells h
  constructor
  · intro dialog call input hestablished _
    constructor
    · intro hother run' hstep
      exact ((step_ends hworker input).of_eq_ok hstep).established_stays hworker hestablished hother
    · intro hbye
      obtain ⟨run', hstep⟩ := hbye.steps hworker
      exact ⟨run', hstep, ((step_ends hworker input).of_eq_ok hstep).hangs_up hworker hestablished hbye⟩
  · intro dialog s s' hs hs' hbye hbye'
    have hover : ∀ s ∈ run.sent, ByeAnswered dialog s → ∃ a, s.transaction = some a := by
      intro s hs hbye
      rcases hfarewells.carried s hs with hnone | hsome
      · rw [hbye.2.2] at hnone
        cases hnone
      · exact hsome
    obtain ⟨a, ha⟩ := hover s hs hbye
    obtain ⟨a', ha'⟩ := hover s' hs' hbye'
    rw [ha, ha', hfarewells.unique dialog a a' (.inl ⟨s, hs, hbye, ha⟩) (.inl ⟨s', hs', hbye', ha'⟩)]

private theorem first_invite_method :
    (accepted_message first_invite ⟨2, 5060, 1⟩).map (·.method_type) = some .INVITE := by
  decide +kernel

private theorem established_call_run :
    (program.follow Run.started [arrival first_invite .obliging]).bind (fun run : Run =>
      (accepted_message first_bye ⟨2, 5060, 1⟩).map fun message =>
        (dialog_phase run.worker 0, call_phase run.worker 0,
          (message.method_type, transaction_for run.worker message, dialog_for run.worker message))) =
      some (some (.CONFIRMED, some 0), some .ESTABLISHED, (.BYE, none, some 0)) := by
  decide +kernel

/-- The call of the first INVITE is established, a copy of the INVITE leaves it so, and the
first BYE hangs it up. -/
theorem first_call_hung_up :
    ∃ run : Run, Established run.worker 0 0 ∧
      (∀ run', run.step (arrival first_invite .obliging) = ok run' → Established run'.worker 0 0) ∧
      (∃ run', run.step (arrival first_bye .obliging) = ok run' ∧ HungUp run.worker run'.worker 0 0) ∧
      ∀ dialog s s', s ∈ run.sent → s' ∈ run.sent → ByeAnswered dialog s → ByeAnswered dialog s' →
        s.transaction = s'.transaction := by
  obtain ⟨run, hrun, hfacts⟩ := Option.bind_eq_some_iff.mp established_call_run
  obtain ⟨bye, hbye, hfacts⟩ := Option.map_eq_some_iff.mp hfacts
  simp only [Prod.mk.injEq] at hfacts
  obtain ⟨hdialog, hcall, hmethod, hnew, hfound⟩ := hfacts
  have hreach := reachable_of_follow hrun
  have hestablished := (Reachable.wellFormed hreach).established_iff.mpr ⟨hdialog, hcall⟩
  obtain ⟨hsurvives, honce⟩ := established_call_survives run hreach
  have hinvite : ¬ ByeFor run 0 (arrival first_invite .obliging) := by
    rintro ⟨message, haccepted, hbye_method, -⟩
    have hmessage := first_invite_method
    rw [accepted_iff.mp haccepted, Option.map_some, hbye_method] at hmessage
    cases hmessage
  have henabled : ∀ datagram, program.enabled run (arrival datagram .obliging) := fun _ => trivial
  exact ⟨run, hestablished, (hsurvives 0 0 _ hestablished (henabled _)).1 hinvite,
    (hsurvives 0 0 _ hestablished (henabled _)).2 ⟨bye, accepted_iff.mpr hbye, hmethod, hnew, rfl, hfound⟩, honce⟩

end mock_uas.sip_server
