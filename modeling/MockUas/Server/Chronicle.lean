import MockUas.Clib.Trace
import MockUas.Server.CallCreation
import MockUas.Server.Isolation

open clib
open mock_uas.sip_message
open mock_uas.sip_utils

namespace mock_uas.sip_server

/-- The From tag of a request, as far as its recorded length goes. -/
def from_tag_value (message : sip_message_t) : Bytes := (from_tag_text message).take message.from_tag_length

/-- A run with what the records at each address were created for last: a transaction for a
branch, a dialog for a From tag with a tag of its own, and a call for a Call-ID. -/
structure Ledger where
  run : Run
  branches : Nat → Bytes
  tags : Nat → Bytes × Option Bytes
  call_ids : Nat → Bytes

/-- A ledger without entries. -/
def Ledger.blank (run : Run) : Ledger where
  run := run
  branches _ := []
  tags _ := ([], none)
  call_ids _ := []

/-- The request that a step is about. -/
def request_of : Input → Option sip_message_t
  | .incoming datagram client_addr _ _ => accepted_message datagram client_addr
  | _ => none

namespace Ledger

/-- A record that a request creates gets the next address. -/
def enter (l : Ledger) (run' : Run) (message : sip_message_t) : Ledger where
  run := run'
  branches a := if a = l.run.worker.transactions.heap.next then branch_value message else l.branches a
  tags a := if a = l.run.worker.dialogs.heap.next then
      (from_tag_value message, (run'.worker.dialogs.heap.cells a).map (·.to_tag.bytes))
    else l.tags a
  call_ids a := if a = l.run.worker.calls.heap.next then call_id_value message else l.call_ids a

def step (l : Ledger) (input : Input) : Result Ledger := do
  let run' ← l.run.step input
  match request_of input with
  | none => ok { l with run := run' }
  | some message => ok (l.enter run' message)

end Ledger

/-- The worker's program, which keeps a ledger. -/
def chronicle : Transitions Ledger Input where
  initial l := l.run.Initial
  enabled l := l.run.enabled
  step := Ledger.step

theorem Ledger.step_eq_ok {l l' : Ledger} {input : Input} (h : l.step input = ok l') :
    l.run.step input = ok l'.run ∧
      ((request_of input = none ∧ l' = { l with run := l'.run }) ∨
        ∃ message, request_of input = some message ∧ l' = l.enter l'.run message) := by
  obtain ⟨run', hstep, h⟩ := bind_eq_ok_iff.mp h
  cases hrequest : request_of input with
  | none =>
    rw [hrequest] at h
    obtain rfl := Except.ok.inj h
    exact ⟨hstep, .inl ⟨rfl, rfl⟩⟩
  | some message =>
    rw [hrequest] at h
    obtain rfl := Except.ok.inj h
    exact ⟨hstep, .inr ⟨message, rfl, rfl⟩⟩

/-- Every run has its ledger, kept from a blank one with the same inputs. -/
theorem Trace.chronicled {allowed : Run → Input → Prop} {start run : Run} {inputs : List Input}
    (h : program.Trace allowed start inputs run) :
    ∃ l, chronicle.Trace (fun l input => allowed l.run input) (.blank start) inputs l ∧ l.run = run := by
  induction h with
  | refl => exact ⟨.blank start, .refl _, rfl⟩
  | @tail run run' inputs input _ henabled hallowed hstep ih =>
    obtain ⟨l, hl, rfl⟩ := ih
    obtain ⟨l', hl', hrun⟩ : ∃ l', l.step input = ok l' ∧ l'.run = run' := by
      rw [Ledger.step, show l.run.step input = ok run' from hstep, bind_ok]
      cases request_of input with
      | none => exact ⟨_, rfl, rfl⟩
      | some message => exact ⟨_, rfl, rfl⟩
    exact ⟨l', hl.tail henabled hallowed hl', hrun⟩

/-- A step leaves the entries of addresses alone that were used before. -/
theorem Ledger.branches_eq {l l' : Ledger} {input : Input} (h : l.step input = ok l') {a : Nat}
    (ha : a ≠ l.run.worker.transactions.heap.next) : l'.branches a = l.branches a := by
  obtain ⟨-, ⟨-, hl⟩ | ⟨message, -, hl⟩⟩ := Ledger.step_eq_ok h
  · rw [hl]
  · rw [hl, Ledger.enter]
    exact if_neg ha

theorem Ledger.tags_eq {l l' : Ledger} {input : Input} (h : l.step input = ok l') {a : Nat}
    (ha : a ≠ l.run.worker.dialogs.heap.next) : l'.tags a = l.tags a := by
  obtain ⟨-, ⟨-, hl⟩ | ⟨message, -, hl⟩⟩ := Ledger.step_eq_ok h
  · rw [hl]
  · rw [hl, Ledger.enter]
    exact if_neg ha

theorem Ledger.call_ids_eq {l l' : Ledger} {input : Input} (h : l.step input = ok l') {a : Nat}
    (ha : a ≠ l.run.worker.calls.heap.next) : l'.call_ids a = l.call_ids a := by
  obtain ⟨-, ⟨-, hl⟩ | ⟨message, -, hl⟩⟩ := Ledger.step_eq_ok h
  · rw [hl]
  · rw [hl, Ledger.enter]
    exact if_neg ha

/-- What a step with a request enters for the records it may create. -/
theorem Ledger.entries_of_request {l l' : Ledger} {input : Input} {message : sip_message_t}
    (h : l.step input = ok l') (hrequest : request_of input = some message) :
    l'.branches l.run.worker.transactions.heap.next = branch_value message ∧
      l'.tags l.run.worker.dialogs.heap.next = (from_tag_value message,
        (l'.run.worker.dialogs.heap.cells l.run.worker.dialogs.heap.next).map (·.to_tag.bytes)) ∧
      l'.call_ids l.run.worker.calls.heap.next = call_id_value message := by
  obtain ⟨-, ⟨hnone, -⟩ | ⟨message', hsome, hl⟩⟩ := Ledger.step_eq_ok h
  · cases hrequest.symm.trans hnone
  · obtain rfl := Option.some.inj (hrequest.symm.trans hsome)
    rw [hl, Ledger.enter]
    exact ⟨if_pos rfl, if_pos rfl, if_pos rfl⟩

end mock_uas.sip_server
