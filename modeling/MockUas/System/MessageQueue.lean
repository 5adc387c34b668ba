import MockUas.Clib.Fifo
import MockUas.Clib.Ring

open clib

namespace mock_uas.message_queue

variable {P : Type}

/-- `message_queue_t`. A slot that was not written yet holds `none`, like one that holds
`NULL`. The mutex makes every operation one step; the sums of the counters stay below
`front + capacity`. -/
structure message_queue_t (P : Type) where
  messages : Option (List (Option P))
  capacity : Int
  size : Int
  front : Int
  rear : Int

/-- The entry of an array at an `int` index. -/
def load (array : Option (List (Option P))) (i : Int) : Result (Option P) := do
  let entries ← deref array
  if i < 0 then error .outOfBounds
  else
    match entries[i.toNat]? with
    | none => error .outOfBounds
    | some entry => ok entry

def store (array : Option (List (Option P))) (i : Int) (entry : Option P) : Result (Option (List (Option P))) := do
  let entries ← deref array
  if i < 0 ∨ entries.length ≤ i.toNat then error .outOfBounds
  else ok (some (entries.set i.toNat entry))

def initialize_message_queue (malloc : Bool) (capacity : Int) : message_queue_t P :=
  let capacity := if capacity ≤ 0 then 1 else capacity
  { messages := if malloc then some (List.replicate capacity.toNat none) else none
    capacity := capacity
    size := 0
    front := 0
    rear := -1 }

/-- The return code and the queue after it. -/
def enqueue_message (queue : message_queue_t P) (message : Option P) : Result (Int × message_queue_t P) :=
  if message.isNone then ok (0, queue)
  else if queue.size = queue.capacity then ok (0, queue)
  else do
    let rear := (queue.rear + 1).tmod queue.capacity
    let messages ← store queue.messages rear message
    ok (1, { queue with rear := rear, messages := messages, size := queue.size + 1 })

/-- `dequeue_message` behind its wait for an entry: the return code, the entry and the
queue after it. -/
def dequeue_message (queue : message_queue_t P) : Result (Int × Option P × message_queue_t P) := do
  let message ← load queue.messages queue.front
  ok (1, message, { queue with front := (queue.front + 1).tmod queue.capacity, size := queue.size - 1 })

/-- The loop of `destroy_message_queue` from index `i` on, with the entries it frees. -/
def free_messages (queue : message_queue_t P) : Nat → Int → Result (List (Option P))
  | 0, _ => ok []
  | count + 1, i => do
    let message ← load queue.messages ((queue.front + i).tmod queue.capacity)
    let freed ← free_messages queue count (i + 1)
    ok (message :: freed)

def destroy_message_queue (queue : message_queue_t P) : Result (List (Option P)) :=
  free_messages queue queue.size.toNat 0

/-- The number of entries a queue made for `capacity` has room for. -/
def slots (capacity : Int) : Nat := if capacity ≤ 0 then 1 else capacity.toNat

/-- The entries a queue holds, read from its front. -/
def stored (queue : message_queue_t P) : List (Option P) :=
  (window (queue.messages.getD []) queue.front.toNat queue.size.toNat).map Option.join

/-- A queue of `n` slots holds these messages, in this order. -/
structure Holds (n : Nat) (queue : message_queue_t P) (messages : List P) : Prop where
  positive : 0 < n
  capacity : queue.capacity = n
  size : queue.size = messages.length
  room : messages.length ≤ n
  entries : ∃ entries, queue.messages = some entries ∧ entries.length = n ∧
    window entries queue.front.toNat messages.length = messages.map fun message => some (some message)
  front : 0 ≤ queue.front ∧ queue.front < n
  rear : (queue.rear + 1).tmod n = ((queue.front.toNat + messages.length) % n : Nat)

theorem load_of_getElem? {array : Option (List (Option P))} {entries : List (Option P)} {i : Nat} {entry : Option P}
    (harray : array = some entries) (hentry : entries[i]? = some entry) : load array i = ok entry := by
  rw [load, harray, deref_some, bind_ok, if_neg (by omega), Int.toNat_natCast, hentry]

theorem store_of_lt {array : Option (List (Option P))} {entries : List (Option P)} {i : Nat}
    (harray : array = some entries) (hi : i < entries.length) (entry : Option P) :
    store array i entry = ok (some (entries.set i entry)) := by
  rw [store, harray, deref_some, bind_ok, if_neg (by omega), Int.toNat_natCast]

theorem initialize_message_queue_spec (capacity : Int) :
    Holds (slots capacity) (initialize_message_queue true capacity : message_queue_t P) [] := by
  have hslots : ((if capacity ≤ 0 then 1 else capacity : Int)) = slots capacity := by
    unfold slots
    split <;> omega
  have hpositive : 0 < slots capacity := by
    unfold slots
    split <;> omega
  constructor
  · exact hpositive
  · exact hslots
  · rfl
  · exact Nat.zero_le _
  · refine ⟨List.replicate (slots capacity) none, ?_, List.length_replicate, rfl⟩
    rw [initialize_message_queue, hslots, Int.toNat_natCast, if_pos rfl]
  · exact ⟨Int.le_refl 0, by simpa [initialize_message_queue] using hpositive⟩
  · simp [initialize_message_queue]

theorem Holds.full_iff {n : Nat} {queue : message_queue_t P} {messages : List P} (h : Holds n queue messages) :
    queue.size = queue.capacity ↔ messages.length = n := by
  rw [h.size, h.capacity]
  omega

/-- A full queue refuses a message and stays as it is. -/
theorem enqueue_message_full {n : Nat} {queue : message_queue_t P} {messages : List P} (h : Holds n queue messages)
    (hfull : messages.length = n) (message : Option P) : enqueue_message queue message = ok (0, queue) := by
  rw [enqueue_message]
  split
  · rfl
  · rw [if_pos (h.full_iff.mpr hfull)]

/-- A queue that is not full takes a message behind the others. -/
theorem enqueue_message_spec {n : Nat} {queue : message_queue_t P} {messages : List P} (h : Holds n queue messages)
    (hroom : messages.length ≠ n) (message : P) :
    ∃ queue', enqueue_message queue (some message) = ok (1, queue') ∧ Holds n queue' (messages ++ [message]) := by
  obtain ⟨entries, hentries, hlength, hwindow⟩ := h.entries
  have hle := h.room
  have hlt : messages.length < entries.length := by omega
  have hin : (queue.front.toNat + messages.length) % n < entries.length := by
    rw [hlength]
    exact Nat.mod_lt _ h.positive
  refine ⟨{ queue with
    rear := ((queue.front.toNat + messages.length) % n : Nat)
    messages := some (entries.set ((queue.front.toNat + messages.length) % n) (some message))
    size := queue.size + 1 }, ?_, ?_⟩
  · have hrear : (queue.rear + 1).tmod queue.capacity = ((queue.front.toNat + messages.length) % n : Nat) := by
      rw [h.capacity, h.rear]
    rw [enqueue_message, if_neg (by simp), if_neg fun hfull => hroom (h.full_iff.mp hfull)]
    simp only [hrear, store_of_lt hentries hin, bind_ok]
  · constructor
    · exact h.positive
    · exact h.capacity
    · simp [h.size]
    · rw [List.length_append, List.length_singleton]
      omega
    · refine ⟨_, rfl, by rw [List.length_set, hlength], ?_⟩
      rw [List.length_append, List.length_singleton, List.map_append, List.map_singleton, ← hwindow, ← hlength]
      exact window_push entries queue.front.toNat messages.length (some message) hlt
    · exact h.front
    · have hnext : (((queue.front.toNat + messages.length) % n : Nat) + 1 : Int) =
          (((queue.front.toNat + messages.length) % n + 1 : Nat) : Int) := rfl
      rw [hnext, ← Int.ofNat_tmod, Nat.mod_add_mod, List.length_append, List.length_singleton, Nat.add_assoc]

/-- A queue that holds a message hands out its first. -/
theorem dequeue_message_spec {n : Nat} {queue : message_queue_t P} {message : P} {messages : List P}
    (h : Holds n queue (message :: messages)) :
    ∃ queue', dequeue_message queue = ok (1, some message, queue') ∧ Holds n queue' messages := by
  obtain ⟨entries, hentries, hlength, hwindow⟩ := h.entries
  obtain ⟨hlow, hhigh⟩ := h.front
  have hroom := h.room
  have hsize := h.size
  rw [List.length_cons] at hroom hwindow hsize
  have hfront : queue.front = (queue.front.toNat : Nat) := by omega
  have hnext : (queue.front + 1).tmod queue.capacity = ((queue.front.toNat + 1) % n : Nat) := by
    rw [h.capacity, Int.ofNat_tmod, Int.natCast_add, ← hfront]
    rfl
  rw [window_succ_first, List.map_cons, List.cons.injEq, Nat.mod_eq_of_lt (by omega)] at hwindow
  obtain ⟨hfirst, hrest⟩ := hwindow
  have hload : load queue.messages queue.front = ok (some message) := by
    rw [hfront]
    exact load_of_getElem? hentries hfirst
  refine ⟨{ queue with front := ((queue.front.toNat + 1) % n : Nat), size := queue.size - 1 },
    by rw [dequeue_message, hload, bind_ok, hnext], ?_⟩
  constructor
  · exact h.positive
  · exact h.capacity
  · show queue.size - 1 = _
    rw [hsize]
    omega
  · omega
  · refine ⟨entries, hentries, hlength, ?_⟩
    rw [Int.toNat_natCast, ← hlength]
    exact hrest
  · exact ⟨Int.natCast_nonneg _, Int.ofNat_lt.mpr (Nat.mod_lt _ h.positive)⟩
  · rw [h.rear, Int.toNat_natCast, Nat.mod_add_mod, List.length_cons]
    congr 2
    omega

/-- What a queue stores is what it holds. -/
theorem Holds.stored_eq {n : Nat} {queue : message_queue_t P} {messages : List P} (h : Holds n queue messages) :
    stored queue = messages.map some := by
  obtain ⟨entries, hentries, -, hwindow⟩ := h.entries
  rw [stored, h.size, Int.toNat_natCast, hentries, Option.getD_some, hwindow, List.map_map]
  rfl

private theorem free_messages_spec {n : Nat} {queue : message_queue_t P} {messages : List P}
    (h : Holds n queue messages) (i : Nat) (rest : List P) (hrest : messages.drop i = rest) :
    free_messages queue rest.length i = ok (rest.map some) := by
  obtain ⟨entries, hentries, hlength, hwindow⟩ := h.entries
  induction rest generalizing i with
  | nil => rfl
  | cons message rest ih =>
    have hget : messages[i]? = some message := by
      rw [← Nat.add_zero i, ← List.getElem?_drop, hrest]
      rfl
    have hentry : entries[(queue.front.toNat + i) % n]? = some (some message) := by
      have hat := congrArg (·[i]?) hwindow
      have hi := (List.getElem?_eq_some_iff.mp hget).1
      simp only [window, List.getElem?_map, List.getElem?_range hi, hget, Option.map_some, hlength,
        Option.some.injEq] at hat
      exact hat
    have hindex : (queue.front + (i : Int)).tmod queue.capacity = ((queue.front.toNat + i) % n : Nat) := by
      have hfront : queue.front = (queue.front.toNat : Nat) := by
        have hlow := h.front.1
        omega
      rw [h.capacity, Int.ofNat_tmod, Int.natCast_add, ← hfront]
    have hnext : messages.drop (i + 1) = rest := by
      rw [← List.drop_drop, hrest]
      rfl
    rw [List.length_cons, free_messages, hindex, load_of_getElem? hentries hentry, bind_ok]
    have hrec := ih (i + 1) hnext
    rw [Int.natCast_add] at hrec
    rw [show ((i : Int) + 1) = (i : Int) + (1 : Nat) from rfl, hrec]
    rfl

/-- Destroying a queue frees what it holds, each message once. -/
theorem destroy_message_queue_spec {n : Nat} {queue : message_queue_t P} {messages : List P}
    (h : Holds n queue messages) : destroy_message_queue queue = ok (messages.map some) := by
  rw [destroy_message_queue, h.size, Int.toNat_natCast]
  exact free_messages_spec h 0 messages rfl

/-- A queue with the messages whose enqueue returned 1 and what was dequeued so far. -/
structure Usage (P : Type) where
  queue : message_queue_t P
  accepted : List P
  dequeued : List (Option P)

namespace Usage

def step (usage : Usage P) : Fifo.Operation P → Result (Usage P)
  | .put message => do
    let (rc, queue) ← enqueue_message usage.queue (some message)
    ok { usage with
      queue := queue
      accepted := if rc = 1 then usage.accepted ++ [message] else usage.accepted }
  | .take => do
    let (_, message, queue) ← dequeue_message usage.queue
    ok { usage with queue := queue, dequeued := usage.dequeued ++ [message] }

/-- A consumer waits as long as the queue is empty. -/
def enabled (usage : Usage P) : Fifo.Operation P → Prop
  | .put _ => True
  | .take => usage.queue.size ≠ 0

/-- A queue made for `capacity`, with producers and consumers that take turns in any order. -/
def program (capacity : Int) : Transitions (Usage P) (Fifo.Operation P) where
  initial usage := usage = ⟨initialize_message_queue true capacity, [], []⟩
  enabled := enabled
  step := step

/-- The queue holds what the buffer stores, and the same went in and out. -/
structure Refines (n : Nat) (usage : Usage P) (fifo : Fifo P) : Prop where
  holds : Holds n usage.queue fifo.stored
  accepted : usage.accepted = fifo.accepted
  dequeued : usage.dequeued = fifo.handed_out.map some

theorem Refines.step {n : Nat} {usage usage' : Usage P} {fifo : Fifo P} {operation : Fifo.Operation P}
    (h : Refines n usage fifo) (henabled : enabled usage operation) (hstep : usage.step operation = ok usage') :
    ∃ fifo', Fifo.enabled fifo operation ∧ fifo.step n operation = ok fifo' ∧ Refines n usage' fifo' := by
  cases operation with
  | put message =>
    by_cases hfull : fifo.stored.length = n
    · rw [Usage.step, enqueue_message_full h.holds hfull, bind_ok] at hstep
      obtain rfl := Except.ok.inj hstep
      exact ⟨fifo, trivial, by rw [Fifo.step, if_pos hfull], h.holds, h.accepted, h.dequeued⟩
    · obtain ⟨queue, henqueue, hholds⟩ := enqueue_message_spec h.holds hfull message
      rw [Usage.step, henqueue, bind_ok] at hstep
      obtain rfl := Except.ok.inj hstep
      refine ⟨{ fifo with accepted := fifo.accepted ++ [message], stored := fifo.stored ++ [message] }, trivial,
        by rw [Fifo.step, if_neg hfull], hholds, ?_, h.dequeued⟩
      simp only [if_true, h.accepted]
  | take =>
    cases hstored : fifo.stored with
    | nil =>
      have hsize := h.holds.size
      rw [hstored] at hsize
      exact absurd hsize henabled
    | cons message rest =>
      have hholds := h.holds
      rw [hstored] at hholds
      obtain ⟨queue, hdequeue, hholds'⟩ := dequeue_message_spec hholds
      rw [Usage.step, hdequeue, bind_ok] at hstep
      obtain rfl := Except.ok.inj hstep
      refine ⟨{ fifo with handed_out := fifo.handed_out ++ [message], stored := rest }, ?_, by rw [Fifo.step, hstored],
        hholds', h.accepted, ?_⟩
      · rw [Fifo.enabled, hstored]
        exact List.cons_ne_nil message rest
      · rw [h.dequeued, List.map_append, List.map_singleton]

/-- Every state of a queue is one of the bounded buffer. -/
theorem reachable_refines {capacity : Int} {usage : Usage P} (h : (program capacity).Reachable usage) :
    ∃ fifo, (Fifo.bounded (slots capacity)).Reachable fifo ∧ Refines (slots capacity) usage fifo := by
  refine h.simulates (R := Refines (slots capacity)) ?_ ?_
  · rintro _ rfl
    exact ⟨.empty, rfl, initialize_message_queue_spec capacity, rfl, rfl⟩
  · intro usage operation usage' fifo henabled _ hstep hrefines
    obtain ⟨fifo', henabled', hstep', hrefines'⟩ := hrefines.step henabled hstep
    exact ⟨fifo', (Transitions.Path.refl fifo).tail henabled' trivial hstep', hrefines'⟩

/-- What the queue is for. -/
structure BoundedFifo (capacity : Int) (usage : Usage P) : Prop where
  order : usage.dequeued ++ stored usage.queue = usage.accepted.map some
  room : (stored usage.queue).length ≤ slots capacity
  enqueue : ∀ message, if (stored usage.queue).length = slots capacity
    then enqueue_message usage.queue (some message) = ok (0, usage.queue)
    else ∃ queue, enqueue_message usage.queue (some message) = ok (1, queue) ∧
      stored queue = stored usage.queue ++ [some message]
  dequeue : usage.queue.size ≠ 0 → ∃ message queue, dequeue_message usage.queue = ok (1, some message, queue) ∧
    stored usage.queue = some message :: stored queue
  destroy : destroy_message_queue usage.queue = ok (stored usage.queue)
  index : ∀ i : Int, (i = usage.queue.front ∨ i = (usage.queue.rear + 1).tmod usage.queue.capacity ∨
    ∃ k : Nat, k < (stored usage.queue).length ∧ i = (usage.queue.front + k).tmod usage.queue.capacity) →
      0 ≤ i ∧ i < slots capacity

theorem Refines.boundedFifo {capacity : Int} {usage : Usage P} {fifo : Fifo P}
    (h : Refines (slots capacity) usage fifo) (horder : Fifo.InOrder (slots capacity) fifo) :
    BoundedFifo capacity usage := by
  have hstored := h.holds.stored_eq
  have hlength : (stored usage.queue).length = fifo.stored.length := by rw [hstored, List.length_map]
  constructor
  · rw [hstored, h.dequeued, h.accepted, ← List.map_append, horder.order]
  · rw [hlength]
    exact horder.room
  · intro message
    rw [hlength]
    split
    · rename_i hfull
      exact enqueue_message_full h.holds hfull _
    · rename_i hroom
      obtain ⟨queue, henqueue, hholds⟩ := enqueue_message_spec h.holds hroom message
      exact ⟨queue, henqueue, by rw [hholds.stored_eq, hstored, List.map_append, List.map_singleton]⟩
  · intro hsize
    cases hcase : fifo.stored with
    | nil =>
      have hzero := h.holds.size
      rw [hcase] at hzero
      exact absurd hzero hsize
    | cons message rest =>
      have hholds := h.holds
      rw [hcase] at hholds
      obtain ⟨queue, hdequeue, hholds'⟩ := dequeue_message_spec hholds
      exact ⟨message, queue, hdequeue, by rw [hstored, hholds'.stored_eq, hcase, List.map_cons]⟩
  · rw [hstored]
    exact destroy_message_queue_spec h.holds
  · have hpositive := h.holds.positive
    have hmod : ∀ k : Nat, (0 : Int) ≤ (k % slots capacity : Nat) ∧ ((k % slots capacity : Nat) : Int) < slots capacity :=
      fun k => ⟨Int.natCast_nonneg _, Int.ofNat_lt.mpr (Nat.mod_lt _ hpositive)⟩
    rintro i (rfl | rfl | ⟨k, -, rfl⟩)
    · exact h.holds.front
    · rw [h.holds.capacity, h.holds.rear]
      exact hmod _
    · have hfront : usage.queue.front = (usage.queue.front.toNat : Nat) := by
        have hlow := h.holds.front.1
        omega
      rw [h.holds.capacity, hfront, ← Int.natCast_add, ← Int.ofNat_tmod]
      exact hmod _

/-- In every state of every queue, whatever was enqueued and dequeued before, by whomever. -/
theorem queue_is_bounded_fifo (capacity : Int) (usage : Usage P) (h : (program capacity).Reachable usage) :
    BoundedFifo capacity usage := by
  obtain ⟨fifo, hreach, hrefines⟩ := reachable_refines h
  exact hrefines.boundedFifo (Fifo.reachable_inOrder hreach)

instance (capacity : Int) (usage : Usage P) (operation : Fifo.Operation P) :
    Decidable ((program capacity).enabled usage operation) :=
  match operation with
  | .put _ => isTrue trivial
  | .take => inferInstanceAs (Decidable (usage.queue.size ≠ 0))

private theorem wrapped_facts :
    ((program 2).follow (⟨initialize_message_queue true 2, [], []⟩ : Usage Nat)
      [.put 5, .put 6, .put 7, .take, .put 8]).map (fun usage => (usage.dequeued, stored usage.queue)) =
      some ([some 5], [some 6, some 8]) := by
  decide

/-- A queue of two slots that has wrapped around and has refused a message. -/
theorem wrapped_queue_is_bounded_fifo :
    ∃ usage : Usage Nat, usage.dequeued = [some 5] ∧ stored usage.queue = [some 6, some 8] ∧
      BoundedFifo 2 usage := by
  obtain ⟨usage, husage, hfacts⟩ := Option.map_eq_some_iff.mp wrapped_facts
  simp only [Prod.mk.injEq] at hfacts
  refine ⟨usage, hfacts.1, hfacts.2, queue_is_bounded_fifo 2 usage ⟨_, rfl, .of_follow husage⟩⟩

end Usage

end mock_uas.message_queue
