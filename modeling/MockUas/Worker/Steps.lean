import MockUas.Message.Request
import MockUas.Worker.Objects

open clib
open mock_uas.sip_message
open mock_uas.sip_utils
open mock_uas.timer_manager

namespace mock_uas.sip_server

/-- The answers that are left after some calls of the allocator and the timer manager. -/
structure Later (before after : Environment) : Prop where
  epfd : after.epfd = before.epfd
  malloc : ∃ k, ∀ n, after.malloc n = before.malloc (n + k)
  timer : ∃ k, ∀ n, after.timer n = before.timer (n + k)

/-- The delete event a transaction arms. -/
def delete_event (serial owner : Nat) (t : sip_transaction_t) : transaction_delete_t where
  serial := serial
  owner := owner
  branch := printed SIP_BRANCH_MAX_LENGTH (precision (intCast t.branch_length) t.branch.bytes)
  branch_length := t.branch_length
  queue := t.queue

/-- What arming one delete event asks of the timer manager: nothing when the event cannot
be allocated, and one timer else. -/
def Arms (env : Environment) (serial owner : Nat) (t : sip_transaction_t) (adds : List TimerAdd) : Prop :=
  (adds = [] ∧ ∃ k, env.malloc k = false) ∨
    ∃ add k, adds = [add] ∧ add.event = delete_event serial owner t ∧
      add.armed = (timer_manager.timer_one_shot_add env.epfd (env.timer k) add.callback add.event).2

/-- What a part of a step does for one transaction: the record it leaves, the datagrams it
sends and the timers it asks for. -/
structure Conversed (m m' : Machine) (transaction : Nat) (t : sip_transaction_t) (sends : List Sent)
    (adds : List TimerAdd) : Prop where
  queue : m'.worker.queue = m.worker.queue
  socket : m'.worker.server_socket = m.worker.server_socket
  transactions : m'.worker.transactions = m.worker.transactions.set transaction t
  sent : m'.sent = m.sent ++ sends
  timers : m'.timers = m.timers ++ adds
  events : m'.events = m.events + adds.length
  freed : m'.freed = m.freed
  later : Later m.env m'.env

theorem Later.refl (env : Environment) : Later env env where
  epfd := rfl
  malloc := ⟨0, fun _ => rfl⟩
  timer := ⟨0, fun _ => rfl⟩

theorem Later.trans {e₁ e₂ e₃ : Environment} (h : Later e₁ e₂) (h' : Later e₂ e₃) : Later e₁ e₃ where
  epfd := h'.epfd.trans h.epfd
  malloc := by
    obtain ⟨k, hk⟩ := h.malloc
    obtain ⟨k', hk'⟩ := h'.malloc
    exact ⟨k' + k, fun n => by rw [hk', hk, Nat.add_assoc]⟩
  timer := by
    obtain ⟨k, hk⟩ := h.timer
    obtain ⟨k', hk'⟩ := h'.timer
    exact ⟨k' + k, fun n => by rw [hk', hk, Nat.add_assoc]⟩

theorem Arms.earlier {e₁ e₂ : Environment} {serial owner : Nat} {t : sip_transaction_t}
    {adds : List TimerAdd} (h : Arms e₂ serial owner t adds) (hlater : Later e₁ e₂) :
    Arms e₁ serial owner t adds := by
  rcases h with ⟨hadds, k, hk⟩ | ⟨add, k, hadds, hevent, harmed⟩
  · obtain ⟨n, hn⟩ := hlater.malloc
    exact .inl ⟨hadds, k + n, by rw [← hn, hk]⟩
  · obtain ⟨n, hn⟩ := hlater.timer
    refine .inr ⟨add, k + n, hadds, hevent, ?_⟩
    rw [harmed, hlater.epfd, hn]

theorem Conversed.refl {m : Machine} {transaction : Nat} {t : sip_transaction_t}
    (hcell : m.worker.transactions.heap.cells transaction = some t) :
    Conversed m m transaction t [] [] where
  queue := rfl
  socket := rfl
  transactions := (Store.set_cells hcell).symm
  sent := (List.append_nil _).symm
  timers := (List.append_nil _).symm
  events := rfl
  freed := rfl
  later := .refl _

theorem Conversed.trans {m m' m'' : Machine} {transaction : Nat} {t t' : sip_transaction_t}
    {sends sends' : List Sent} {adds adds' : List TimerAdd}
    (h : Conversed m m' transaction t sends adds) (h' : Conversed m' m'' transaction t' sends' adds') :
    Conversed m m'' transaction t' (sends ++ sends') (adds ++ adds') where
  queue := h'.queue.trans h.queue
  socket := h'.socket.trans h.socket
  transactions := by rw [h'.transactions, h.transactions, Store.set_set]
  sent := by rw [h'.sent, h.sent, List.append_assoc]
  timers := by rw [h'.timers, h.timers, List.append_assoc]
  events := by rw [h'.events, h.events, List.length_append, Nat.add_assoc]
  freed := h'.freed.trans h.freed
  later := h.later.trans h'.later

theorem Conversed.cells {m m' : Machine} {transaction : Nat} {t t₀ : sip_transaction_t}
    {sends : List Sent} {adds : List TimerAdd} (h : Conversed m m' transaction t sends adds)
    (hcell : m.worker.transactions.heap.cells transaction = some t₀) :
    m'.worker.transactions.heap.cells transaction = some t := by
  rw [h.transactions]
  exact Heap.cells_set_self hcell

namespace Machine

theorem transaction_of_cells {m : Machine} {a : Nat} {t : sip_transaction_t}
    (hcell : m.worker.transactions.heap.cells a = some t) : m.transaction a = ok t :=
  Heap.read_of_cells hcell

theorem dialog_of_cells {m : Machine} {a : Nat} {d : sip_dialog_t}
    (hcell : m.worker.dialogs.heap.cells a = some d) : m.dialog a = ok d :=
  Heap.read_of_cells hcell

theorem call_of_cells {m : Machine} {a : Nat} {c : sip_call_t}
    (hcell : m.worker.calls.heap.cells a = some c) : m.call a = ok c :=
  Heap.read_of_cells hcell

theorem conversed_set_transaction (m : Machine) (transaction : Nat) (t : sip_transaction_t) :
    Conversed m (m.set_transaction transaction t) transaction t [] [] where
  queue := rfl
  socket := rfl
  transactions := rfl
  sent := (List.append_nil _).symm
  timers := (List.append_nil _).symm
  events := rfl
  freed := rfl
  later := .refl _

/-- Work on dialogs and calls is no work on a transaction. -/
theorem conversed_with_dialogs {m : Machine} {transaction : Nat} {t : sip_transaction_t}
    (hcell : m.worker.transactions.heap.cells transaction = some t) (dialogs : Store sip_dialog_t) :
    Conversed m (m.with_dialogs dialogs) transaction t [] [] :=
  { Conversed.refl hcell with }

theorem conversed_with_calls {m : Machine} {transaction : Nat} {t : sip_transaction_t}
    (hcell : m.worker.transactions.heap.cells transaction = some t) (calls : Store sip_call_t) :
    Conversed m (m.with_calls calls) transaction t [] [] :=
  { Conversed.refl hcell with }

end Machine

/-- A part of a step that leaves the transactions alone and sends nothing. -/
structure Silent (m m' : Machine) (dialogs : Store sip_dialog_t) (calls : Store sip_call_t) : Prop where
  conversed : ∀ {transaction t}, m.worker.transactions.heap.cells transaction = some t →
    Conversed m m' transaction t [] []
  transactions : m'.worker.transactions = m.worker.transactions
  dialogs : m'.worker.dialogs = dialogs
  calls : m'.worker.calls = calls

theorem set_call_state_spec {m : Machine} {call : Nat} {c : sip_call_t} (state : sip_call_state_t)
    (hcell : m.worker.calls.heap.cells call = some c) :
    ∃ m', set_call_state m call state = ok m' ∧
      Silent m m' m.worker.dialogs (m.worker.calls.set call { c with state := state }) := by
  refine ⟨m.set_call call { c with state := state }, ?_, ?_⟩
  · rw [set_call_state, Machine.call_of_cells hcell]
    rfl
  · exact ⟨fun h => Machine.conversed_with_calls h _, rfl, rfl, rfl⟩

theorem set_dialog_state_spec {m : Machine} {dialog : Nat} {d : sip_dialog_t} (state : sip_dialog_state_t)
    (hcell : m.worker.dialogs.heap.cells dialog = some d) :
    ∃ m', set_dialog_state m dialog state = ok m' ∧
      Silent m m' (m.worker.dialogs.set dialog { d with state := state }) m.worker.calls := by
  refine ⟨m.set_dialog dialog { d with state := state }, ?_, ?_⟩
  · rw [set_dialog_state, Machine.dialog_of_cells hcell]
    rfl
  · exact ⟨fun h => Machine.conversed_with_dialogs h _, rfl, rfl, rfl⟩

theorem set_dialog_call_spec {m : Machine} {dialog call : Nat} {d : sip_dialog_t} {c : sip_call_t}
    (hdialog : m.worker.dialogs.heap.cells dialog = some d) (hcall : m.worker.calls.heap.cells call = some c) :
    ∃ m', set_dialog_call m dialog call = ok m' ∧
      Silent m m' (m.worker.dialogs.set dialog { d with call := some call })
        (m.worker.calls.set call { c with dialog := c.dialog.add dialog }) := by
  refine ⟨(m.set_dialog dialog { d with call := some call }).set_call call
    { c with dialog := c.dialog.add dialog }, ?_, ?_⟩
  · rw [set_dialog_call, Machine.dialog_of_cells hdialog, bind_ok, add_dialog_to_call,
      Machine.call_of_cells (m := m.set_dialog dialog { d with call := some call }) hcall]
    rfl
  · refine ⟨fun h => ?_, rfl, rfl, rfl⟩
    exact (Machine.conversed_with_dialogs h _).trans (Machine.conversed_with_calls (by exact h) _)

theorem set_transaction_dialog_spec {m : Machine} {transaction dialog : Nat} {t : sip_transaction_t}
    {d : sip_dialog_t} (htransaction : m.worker.transactions.heap.cells transaction = some t)
    (hdialog : m.worker.dialogs.heap.cells dialog = some d) :
    ∃ m', set_transaction_dialog m transaction dialog = ok m' ∧
      Conversed m m' transaction { t with dialog := some dialog } [] [] ∧
      m'.worker.dialogs =
        m.worker.dialogs.set dialog { d with transaction := d.transaction.add transaction } ∧
      m'.worker.calls = m.worker.calls := by
  refine ⟨(m.set_transaction transaction { t with dialog := some dialog }).set_dialog dialog
    { d with transaction := d.transaction.add transaction }, ?_, ?_, rfl, rfl⟩
  · rw [set_transaction_dialog, Machine.transaction_of_cells htransaction, bind_ok, add_transaction_to_dialog,
      Machine.dialog_of_cells (m := m.set_transaction transaction { t with dialog := some dialog }) hdialog]
    rfl
  · exact (Machine.conversed_set_transaction m transaction _).trans
      (Machine.conversed_with_dialogs (Heap.cells_set_self htransaction) _)

theorem arm_delete_event_spec (m : Machine) (transaction : Nat) (t : sip_transaction_t) (initial_ms : Nat)
    (callback : timer_callback_t) :
    ∃ adds, Arms m.env m.events transaction t adds ∧
      (arm_delete_event m transaction t initial_ms callback).worker = m.worker ∧
      (arm_delete_event m transaction t initial_ms callback).sent = m.sent ∧
      (arm_delete_event m transaction t initial_ms callback).timers = m.timers ++ adds ∧
      (arm_delete_event m transaction t initial_ms callback).events = m.events + adds.length ∧
      (arm_delete_event m transaction t initial_ms callback).freed = m.freed ∧
      Later m.env (arm_delete_event m transaction t initial_ms callback).env := by
  cases halloc : m.env.malloc 0 with
  | false =>
    refine ⟨[], .inl ⟨rfl, 0, halloc⟩, ?_⟩
    simp only [arm_delete_event, Machine.malloc, halloc, if_true, List.append_nil, List.length_nil,
      Nat.add_zero, true_and]
    exact ⟨rfl, ⟨1, fun _ => rfl⟩, ⟨0, fun _ => rfl⟩⟩
  | true =>
    let add : TimerAdd :=
      { initial_ms := initial_ms
        callback := callback
        event := delete_event m.events transaction t
        armed := (timer_manager.timer_one_shot_add m.env.epfd (m.env.timer 0) callback
          (delete_event m.events transaction t)).2 }
    refine ⟨[add], .inr ⟨add, 0, rfl, rfl, rfl⟩, ?_⟩
    simp only [arm_delete_event, Machine.malloc, halloc, Bool.true_eq_false, if_false,
      Machine.timer_one_shot_add, List.length_singleton, true_and]
    exact ⟨rfl, rfl, ⟨1, fun _ => rfl⟩, ⟨1, fun _ => rfl⟩⟩

/-- A state that is entered starts its timer, if it has one. -/
theorem set_transaction_state_spec {m : Machine} {transaction : Nat} {t : sip_transaction_t}
    (state : sip_transaction_state_t) (hcell : m.worker.transactions.heap.cells transaction = some t)
    (hstate : t.state ≠ state) :
    ∃ m' adds, set_transaction_state m transaction state = ok m' ∧
      Conversed m m' transaction { t with state := state } [] adds ∧
      m'.worker.dialogs = m.worker.dialogs ∧ m'.worker.calls = m.worker.calls ∧
      (state = .COMPLETED ∨ state = .TERMINATED → Arms m.env m.events transaction t adds) ∧
      (state = .PROCEEDING → adds = []) := by
  have hset := Machine.conversed_set_transaction m transaction { t with state := state }
  have htimed : ∀ initial_ms callback, ∃ adds,
      Conversed m (arm_delete_event (m.set_transaction transaction { t with state := state }) transaction t
        initial_ms callback) transaction { t with state := state } [] adds ∧
      Arms m.env m.events transaction t adds ∧
      (arm_delete_event (m.set_transaction transaction { t with state := state }) transaction t
        initial_ms callback).worker = (m.set_transaction transaction { t with state := state }).worker := by
    intro initial_ms callback
    obtain ⟨adds, harms, hworker, hsent, htimers, hevents, hfreed, hlater⟩ :=
      arm_delete_event_spec (m.set_transaction transaction { t with state := state }) transaction t
        initial_ms callback
    refine ⟨adds, ?_, harms, hworker⟩
    constructor
    · rw [hworker]
      rfl
    · rw [hworker]
      rfl
    · rw [hworker]
      rfl
    · rw [hsent, List.append_nil]
      rfl
    · exact htimers
    · exact hevents
    · exact hfreed
    · exact hlater
  rw [set_transaction_state, Machine.transaction_of_cells hcell, bind_ok, if_neg hstate]
  cases state with
  | IDLE => exact ⟨_, [], rfl, hset, rfl, rfl, by simp, by simp⟩
  | PROCEEDING => exact ⟨_, [], rfl, hset, rfl, rfl, by simp, by simp⟩
  | COMPLETED =>
    obtain ⟨adds, hconversed, harms, hworker⟩ :=
      htimed SIP_TRANSACTION_WAIT_ACK_TIMEOUT .transaction_wait_ack_timeout
    exact ⟨_, adds, rfl, hconversed, by rw [hworker]; rfl, by rw [hworker]; rfl, fun _ => harms, nofun⟩
  | TERMINATED =>
    obtain ⟨adds, hconversed, harms, hworker⟩ :=
      htimed SIP_TRANSACTION_DELETE_TIMEOUT .transaction_delete_timeout
    exact ⟨_, adds, rfl, hconversed, by rw [hworker]; rfl, by rw [hworker]; rfl, fun _ => harms, nofun⟩

end mock_uas.sip_server
