import MockUas.Server.Outcome

open clib
open mock_uas.sip_message
open mock_uas.sip_utils

namespace mock_uas.sip_server

/-- A transaction in a worker's list holds a request the parser accepted and leads to the
worker's own queue. -/
structure Held (queue : Nat) (t : sip_transaction_t) : Prop where
  queue : t.queue = some queue
  message : ∃ message, t.message = some message ∧ Request message.contents
  branch : printed SIP_BRANCH_MAX_LENGTH (precision (intCast t.branch_length) t.branch.bytes) = t.branch
  branch_length : t.branch_length ≠ 0 ∧ Recorded t.branch_length

/-- What a deletion relies on of a worker. The lists run through the live records. A dialog's
slots hold live transactions that point back at it, each at most once, and the link between
a dialog and its call is exact in both directions. A transaction's `dialog` may dangle. -/
structure Linkage (worker : worker_thread_t) : Prop where
  transactions : worker.transactions.Sound
  dialogs : worker.dialogs.Sound
  calls : worker.calls.Sound
  slot : ∀ {dialog d a}, worker.dialogs.heap.cells dialog = some d → 0 < d.transaction.count a →
    d.transaction.count a = 1 ∧ ∃ t, worker.transactions.heap.cells a = some t ∧ t.dialog = some dialog
  call : ∀ {dialog d call}, worker.dialogs.heap.cells dialog = some d → d.call = some call →
    ∃ c, worker.calls.heap.cells call = some c ∧ c.dialog.count dialog = 1
  dialog : ∀ {call c dialog}, worker.calls.heap.cells call = some c → 0 < c.dialog.count dialog →
    c.dialog.count dialog = 1 ∧ ∃ d, worker.dialogs.heap.cells dialog = some d ∧ d.call = some call
  single : ∀ {call c dialog dialog'}, worker.calls.heap.cells call = some c → 0 < c.dialog.count dialog →
    0 < c.dialog.count dialog' → dialog = dialog'

/-- What holds of a worker between any two steps. -/
structure WellFormed (worker : worker_thread_t) : Prop extends Linkage worker where
  socket : 0 ≤ worker.server_socket
  held : ∀ {a t}, worker.transactions.heap.cells a = some t → Held worker.queue t
  tagged : ∀ {a d}, worker.dialogs.heap.cells a = some d → Tagged d

/-- Every transaction's dialog is live and has the transaction in exactly one slot. -/
def Links (worker : worker_thread_t) : Prop :=
  ∀ a t dialog, worker.transactions.heap.cells a = some t → t.dialog = some dialog →
    ∃ d, worker.dialogs.heap.cells dialog = some d ∧ d.transaction.count a = 1

/-- Some transaction points at a dialog that was freed. -/
def Dangling (worker : worker_thread_t) : Prop :=
  ∃ a t dialog, worker.transactions.heap.cells a = some t ∧ t.dialog = some dialog ∧
    worker.dialogs.heap.cells dialog = none

theorem Links.not_dangling {worker : worker_thread_t} (h : Links worker) : ¬ Dangling worker := by
  rintro ⟨a, t, dialog, hcell, hdialog, hfreed⟩
  obtain ⟨d, hd, -⟩ := h a t dialog hcell hdialog
  rw [hfreed] at hd
  cases hd

end mock_uas.sip_server
