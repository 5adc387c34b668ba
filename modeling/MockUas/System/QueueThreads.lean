import MockUas.Clib.Trace
import MockUas.System.MessageQueue

open clib

namespace mock_uas.message_queue

/-- Where a thread is in `enqueue_message`: before which of its statements. -/
inductive Producer (P : Type) where
  | outside
  | lock (message : P)
  | test (message : P)
  | rear (message : P)
  | messages (message : P)
  | size (message : P)
  | signal
  | unlock (rc : Int)
  deriving DecidableEq

/-- Where the worker is in `dequeue_message`. In `pthread_cond_wait` it first sleeps without
the mutex, and takes it again before that returns. -/
inductive Consumer (P : Type) where
  | outside
  | lock
  | test
  | asleep
  | woken
  | messages
  | front (message : Option P)
  | size (message : Option P)
  | unlock (message : Option P)
  deriving DecidableEq

inductive Holder (T : Type) where
  | producer (t : T)
  | consumer
  deriving DecidableEq

/-- A producer can go on, unless it waits for the mutex. -/
def Producer.ready {T P : Type} (mutex : Option (Holder T)) : Producer P → Prop
  | .outside => False
  | .lock _ => mutex = none
  | _ => True

/-- The worker can go on, unless it waits for the mutex or sleeps. -/
def Consumer.ready {T P : Type} (mutex : Option (Holder T)) : Consumer P → Prop
  | .outside | .asleep => False
  | .lock | .woken => mutex = none
  | _ => True

instance {T P : Type} [DecidableEq T] (mutex : Option (Holder T)) (place : Producer P) :
    Decidable (place.ready mutex) :=
  match place with
  | .outside => isFalse id
  | .lock _ => inferInstanceAs (Decidable (mutex = none))
  | .test _ | .rear _ | .messages _ | .size _ | .signal | .unlock _ => isTrue trivial

instance {T P : Type} [DecidableEq T] (mutex : Option (Holder T)) (place : Consumer P) :
    Decidable (place.ready mutex) :=
  match place with
  | .outside | .asleep => isFalse id
  | .lock | .woken => inferInstanceAs (Decidable (mutex = none))
  | .test | .messages | .front _ | .size _ | .unlock _ => isTrue trivial

/-- A queue and the threads that use it: any number of producers, and the one worker that the
queue belongs to. The rest is a log of the messages that were entered and handed out. -/
structure Threads (T P : Type) where
  queue : message_queue_t P
  mutex : Option (Holder T)
  producer : T → Producer P
  consumer : Consumer P
  accepted : List P
  dequeued : List (Option P)

namespace Threads

variable {T P : Type} [DecidableEq T]

def move (s : Threads T P) (t : T) (place : Producer P) : Threads T P :=
  { s with producer := fun u => if u = t then place else s.producer u }

/-- The next statement of `enqueue_message`. -/
def produce (s : Threads T P) (t : T) : Result (Threads T P) :=
  match s.producer t with
  | .outside => ok s
  | .lock message => ok ({ s with mutex := some (.producer t) }.move t (.test message))
  | .test message =>
    if s.queue.size = s.queue.capacity then ok (s.move t (.unlock 0)) else ok (s.move t (.rear message))
  | .rear message =>
    let queue := { s.queue with rear := (s.queue.rear + 1).tmod s.queue.capacity }
    ok ({ s with queue := queue }.move t (.messages message))
  | .messages message => do
    let messages ← store s.queue.messages s.queue.rear (some message)
    ok ({ s with queue := { s.queue with messages := messages } }.move t (.size message))
  | .size message =>
    let queue := { s.queue with size := s.queue.size + 1 }
    ok ({ s with queue := queue, accepted := s.accepted ++ [message] }.move t .signal)
  | .signal =>
    let consumer : Consumer P := match s.consumer with
      | .asleep => .woken
      | place => place
    ok ({ s with consumer := consumer }.move t (.unlock 1))
  | .unlock _ => ok ({ s with mutex := none }.move t .outside)

/-- The next statement of `dequeue_message`. -/
def consume (s : Threads T P) : Result (Threads T P) :=
  match s.consumer with
  | .outside => ok s
  | .lock => ok { s with mutex := some .consumer, consumer := .test }
  | .test =>
    if s.queue.size = 0 then ok { s with mutex := none, consumer := .asleep } else ok { s with consumer := .messages }
  | .asleep => ok s
  | .woken => ok { s with mutex := some .consumer, consumer := .test }
  | .messages => do
    let message ← load s.queue.messages s.queue.front
    ok { s with consumer := .front message }
  | .front message =>
    let queue := { s.queue with front := (s.queue.front + 1).tmod s.queue.capacity }
    ok { s with queue := queue, consumer := .size message }
  | .size message =>
    let queue := { s.queue with size := s.queue.size - 1 }
    ok { s with queue := queue, consumer := .unlock message, dequeued := s.dequeued ++ [message] }
  | .unlock _ => ok { s with mutex := none, consumer := .outside }

/-- A call, a statement of one of the threads, or a wakeup without a signal. -/
inductive Action (T P : Type) where
  | enqueue (t : T) (message : P)
  | produce (t : T)
  | dequeue
  | consume
  | wake

def step (s : Threads T P) : Action T P → Result (Threads T P)
  | .enqueue t message => ok (s.move t (.lock message))
  | .produce t => s.produce t
  | .dequeue => ok { s with consumer := .lock }
  | .consume => s.consume
  | .wake => ok { s with consumer := .woken }

def enabled (s : Threads T P) : Action T P → Prop
  | .enqueue t _ => s.producer t = .outside
  | .produce t => (s.producer t).ready s.mutex
  | .dequeue => s.consumer = .outside
  | .consume => s.consumer.ready s.mutex
  | .wake => s.consumer = .asleep

/-- The threads of a queue made for `capacity`, which are interleaved statement by statement. -/
def program (T : Type) [DecidableEq T] (P : Type) (capacity : Int) : Transitions (Threads T P) (Action T P) where
  initial s := s = ⟨initialize_message_queue true capacity, none, fun _ => .outside, .outside, [], []⟩
  enabled := enabled
  step := step

end Threads

/-- The places at which a thread has the mutex. -/
def Producer.inside {P : Type} : Producer P → Prop
  | .outside | .lock _ => False
  | _ => True

def Consumer.inside {P : Type} : Consumer P → Prop
  | .outside | .lock | .asleep | .woken => False
  | _ => True

/-- What a producer has made of the queue it found, up to where it is. -/
def Producer.Midway {P : Type} (before queue : message_queue_t P) : Producer P → Prop
  | .rear _ => before.size ≠ before.capacity ∧ queue = before
  | .messages _ => before.size ≠ before.capacity ∧
    queue = { before with rear := (before.rear + 1).tmod before.capacity }
  | .size message => before.size ≠ before.capacity ∧ ∃ messages,
    store before.messages ((before.rear + 1).tmod before.capacity) (some message) = ok messages ∧
      queue = { before with rear := (before.rear + 1).tmod before.capacity, messages := messages }
  | _ => queue = before

/-- What the worker has made of the queue it found, up to where it is. -/
def Consumer.Midway {P : Type} (before queue : message_queue_t P) : Consumer P → Prop
  | .messages => before.size ≠ 0 ∧ queue = before
  | .front message => before.size ≠ 0 ∧ load before.messages before.front = ok message ∧ queue = before
  | .size message => before.size ≠ 0 ∧ load before.messages before.front = ok message ∧
    queue = { before with front := (before.front + 1).tmod before.capacity }
  | _ => queue = before

namespace Threads

variable {T P : Type}

/-- A thread is between `lock` and `unlock` exactly while the mutex is its own. -/
structure Exclusive (s : Threads T P) : Prop where
  producer : ∀ t, (s.producer t).inside ↔ s.mutex = some (.producer t)
  consumer : s.consumer.inside ↔ s.mutex = some .consumer

/-- A queue whose operations are one step each has done the same. The thread that has the
mutex is in the middle of its own operation, which takes effect at the write of `size`. -/
structure Serializes (s : Threads T P) (usage : Usage P) : Prop where
  accepted : usage.accepted = s.accepted
  dequeued : usage.dequeued = s.dequeued
  free : s.mutex = none → s.queue = usage.queue
  producer : ∀ t, s.mutex = some (.producer t) → (s.producer t).Midway usage.queue s.queue
  consumer : s.mutex = some .consumer → s.consumer.Midway usage.queue s.queue

/-- Two threads are never inside together. -/
theorem Exclusive.alone {s : Threads T P} (h : Exclusive s) {t : T} (ht : (s.producer t).inside) :
    ¬ s.consumer.inside ∧ ∀ u, (s.producer u).inside → u = t := by
  have hmutex := (h.producer t).mp ht
  constructor
  · intro hconsumer
    have hother := (h.consumer).mp hconsumer
    rw [hmutex] at hother
    cases hother
  · intro u hu
    have hother := (h.producer u).mp hu
    rw [hmutex, Option.some.injEq, Holder.producer.injEq] at hother
    exact hother.symm

theorem Serializes.of_free {s : Threads T P} {usage : Usage P} (haccepted : usage.accepted = s.accepted)
    (hdequeued : usage.dequeued = s.dequeued) (hmutex : s.mutex = none) (hqueue : s.queue = usage.queue) :
    Serializes s usage := by
  refine ⟨haccepted, hdequeued, fun _ => hqueue, fun t ht => ?_, fun hc => ?_⟩
  · cases hmutex.symm.trans ht
  · cases hmutex.symm.trans hc

theorem Serializes.of_producer {s : Threads T P} {usage : Usage P} {t : T}
    (haccepted : usage.accepted = s.accepted) (hdequeued : usage.dequeued = s.dequeued)
    (hmutex : s.mutex = some (.producer t)) (hmidway : (s.producer t).Midway usage.queue s.queue) :
    Serializes s usage := by
  refine ⟨haccepted, hdequeued, fun hnone => ?_, fun u hu => ?_, fun hc => ?_⟩
  · cases hmutex.symm.trans hnone
  · rw [hmutex, Option.some.injEq, Holder.producer.injEq] at hu
    exact hu ▸ hmidway
  · cases hmutex.symm.trans hc

theorem Serializes.of_consumer {s : Threads T P} {usage : Usage P} (haccepted : usage.accepted = s.accepted)
    (hdequeued : usage.dequeued = s.dequeued) (hmutex : s.mutex = some .consumer)
    (hmidway : s.consumer.Midway usage.queue s.queue) : Serializes s usage := by
  refine ⟨haccepted, hdequeued, fun hnone => ?_, fun t ht => ?_, fun _ => hmidway⟩
  · cases hmutex.symm.trans hnone
  · cases hmutex.symm.trans ht

section

variable [DecidableEq T]

theorem producer_move (s : Threads T P) (t u : T) (place : Producer P) :
    (s.move t place).producer u = if u = t then place else s.producer u := rfl

theorem producer_move_self (s : Threads T P) (t : T) (place : Producer P) : (s.move t place).producer t = place :=
  if_pos rfl

/-- A producer that stays on its side of the mutex. -/
theorem Exclusive.moves {s s' : Threads T P} {t : T} {place : Producer P} (h : Exclusive s)
    (hproducer : s'.producer = (s.move t place).producer) (hmutex : s'.mutex = s.mutex)
    (hinside : place.inside ↔ (s.producer t).inside) (hconsumer : s'.consumer.inside ↔ s.consumer.inside) :
    Exclusive s' := by
  refine ⟨fun u => ?_, ?_⟩
  · rw [hproducer, hmutex, ← h.producer u, producer_move]
    split
    · rename_i hu
      rw [hu, hinside]
    · exact Iff.rfl
  · rw [hconsumer, hmutex, h.consumer]

theorem Exclusive.producer_locks {s s' : Threads T P} {t : T} {place : Producer P} (h : Exclusive s)
    (hfree : s.mutex = none) (hproducer : s'.producer = (s.move t place).producer)
    (hmutex : s'.mutex = some (.producer t)) (hinside : place.inside) (hconsumer : s'.consumer = s.consumer) :
    Exclusive s' := by
  refine ⟨fun u => ?_, ?_⟩
  · rw [hproducer, hmutex, producer_move, Option.some.injEq, Holder.producer.injEq]
    split
    · rename_i hu
      exact ⟨fun _ => hu.symm, fun _ => hinside⟩
    · rename_i hu
      rw [h.producer, hfree]
      exact ⟨fun hnone => (by cases hnone), fun ht => absurd ht.symm hu⟩
  · rw [hconsumer, h.consumer, hfree, hmutex]
    exact ⟨fun hnone => (by cases hnone), fun hother => by cases hother⟩

theorem Exclusive.producer_unlocks {s s' : Threads T P} {t : T} {place : Producer P} (h : Exclusive s)
    (hheld : s.mutex = some (.producer t)) (hproducer : s'.producer = (s.move t place).producer)
    (hmutex : s'.mutex = none) (houtside : ¬ place.inside) (hconsumer : s'.consumer = s.consumer) : Exclusive s' := by
  refine ⟨fun u => ?_, ?_⟩
  · rw [hproducer, hmutex, producer_move]
    split
    · exact ⟨fun hinside => absurd hinside houtside, fun hnone => by cases hnone⟩
    · rename_i hu
      rw [h.producer, hheld, Option.some.injEq, Holder.producer.injEq]
      exact ⟨fun ht => absurd ht.symm hu, fun hnone => by cases hnone⟩
  · rw [hconsumer, h.consumer, hheld, hmutex]
    exact ⟨fun hother => (by cases hother), fun hnone => by cases hnone⟩

end

theorem Exclusive.consumer_moves {s s' : Threads T P} (h : Exclusive s) (hproducer : s'.producer = s.producer)
    (hmutex : s'.mutex = s.mutex) (hinside : s'.consumer.inside ↔ s.consumer.inside) : Exclusive s' := by
  refine ⟨fun u => ?_, ?_⟩
  · rw [hproducer, hmutex, h.producer]
  · rw [hinside, hmutex, h.consumer]

theorem Exclusive.consumer_locks {s s' : Threads T P} (h : Exclusive s) (hfree : s.mutex = none)
    (hproducer : s'.producer = s.producer) (hmutex : s'.mutex = some .consumer) (hinside : s'.consumer.inside) :
    Exclusive s' := by
  refine ⟨fun u => ?_, ?_⟩
  · rw [hproducer, h.producer, hfree, hmutex]
    exact ⟨fun hnone => (by cases hnone), fun hother => by cases hother⟩
  · exact ⟨fun _ => hmutex, fun _ => hinside⟩

theorem Exclusive.consumer_unlocks {s s' : Threads T P} (h : Exclusive s) (hheld : s.mutex = some .consumer)
    (hproducer : s'.producer = s.producer) (hmutex : s'.mutex = none) (houtside : ¬ s'.consumer.inside) :
    Exclusive s' := by
  refine ⟨fun u => ?_, ?_⟩
  · rw [hproducer, h.producer, hheld, hmutex]
    exact ⟨fun hother => (by cases hother), fun hnone => by cases hnone⟩
  · rw [hmutex]
    exact ⟨fun hinside => absurd hinside houtside, fun hnone => by cases hnone⟩

/-- A statement of a producer is none or one step of the queue whose operations are one step each. -/
theorem produce_serializes [DecidableEq T] (capacity : Int) {s s' : Threads T P} {usage : Usage P} {t : T}
    (hexclusive : Exclusive s) (hserial : Serializes s usage) (henabled : s.enabled (.produce t))
    (hstep : s.produce t = ok s') : ∃ usage', (Usage.program capacity).Path (fun _ _ => True) usage usage' ∧
      Exclusive s' ∧ Serializes s' usage' := by
  have hheld : (s.producer t).inside → s.mutex = some (.producer t) := (hexclusive.producer t).mp
  have hmidway := hserial.producer t
  rw [enabled] at henabled
  rw [produce] at hstep
  cases hplace : s.producer t with
  | outside =>
    rw [hplace] at henabled
    exact henabled.elim
  | lock message =>
    rw [hplace] at henabled hstep
    obtain rfl := Except.ok.inj hstep
    refine ⟨usage, .refl _, hexclusive.producer_locks henabled rfl rfl trivial rfl, ?_⟩
    refine .of_producer hserial.accepted hserial.dequeued rfl ?_
    rw [producer_move_self]
    exact hserial.free henabled
  | test message =>
    rw [hplace] at hheld hmidway hstep
    have hmutex := hheld trivial
    have hqueue : s.queue = usage.queue := hmidway hmutex
    dsimp only at hstep
    split at hstep
    · obtain rfl := Except.ok.inj hstep
      refine ⟨usage, .refl _, hexclusive.moves rfl rfl ?_ Iff.rfl, ?_⟩
      · rw [hplace]
        exact Iff.rfl
      · refine .of_producer hserial.accepted hserial.dequeued hmutex ?_
        rw [producer_move_self]
        exact hqueue
    · rename_i hroom
      obtain rfl := Except.ok.inj hstep
      refine ⟨usage, .refl _, hexclusive.moves rfl rfl ?_ Iff.rfl, ?_⟩
      · rw [hplace]
        exact Iff.rfl
      · refine .of_producer hserial.accepted hserial.dequeued hmutex ?_
        rw [producer_move_self]
        exact ⟨hqueue ▸ hroom, hqueue⟩
  | rear message =>
    rw [hplace] at hheld hmidway hstep
    have hmutex := hheld trivial
    obtain ⟨hroom, hqueue⟩ := hmidway hmutex
    obtain rfl := Except.ok.inj hstep
    refine ⟨usage, .refl _, hexclusive.moves rfl rfl ?_ Iff.rfl, ?_⟩
    · rw [hplace]
      exact Iff.rfl
    · refine .of_producer hserial.accepted hserial.dequeued hmutex ?_
      rw [producer_move_self]
      refine ⟨hroom, ?_⟩
      rw [← hqueue]
      rfl
  | messages message =>
    rw [hplace] at hheld hmidway hstep
    have hmutex := hheld trivial
    obtain ⟨hroom, hqueue⟩ := hmidway hmutex
    obtain ⟨messages, hstore, hstep⟩ := bind_eq_ok_iff.mp hstep
    obtain rfl := Except.ok.inj hstep
    refine ⟨usage, .refl _, hexclusive.moves rfl rfl ?_ Iff.rfl, ?_⟩
    · rw [hplace]
      exact Iff.rfl
    · refine .of_producer hserial.accepted hserial.dequeued hmutex ?_
      rw [producer_move_self]
      rw [hqueue] at hstore
      refine ⟨hroom, messages, hstore, ?_⟩
      rw [move, hqueue]
  | size message =>
    rw [hplace] at hheld hmidway hstep
    have hmutex := hheld trivial
    obtain ⟨hroom, messages, hstore, hqueue⟩ := hmidway hmutex
    obtain rfl := Except.ok.inj hstep
    have henqueue : enqueue_message usage.queue (some message) =
        ok (1, { s.queue with size := s.queue.size + 1 }) := by
      rw [enqueue_message, if_neg (by simp), if_neg hroom, hqueue]
      dsimp only
      rw [hstore, bind_ok]
    have hput : usage.step (.put message) = ok
        { queue := { s.queue with size := s.queue.size + 1 }
          accepted := s.accepted ++ [message]
          dequeued := s.dequeued } := by
      rw [Usage.step, henqueue, bind_ok, ← hserial.accepted, ← hserial.dequeued]
      rfl
    have hready : (Usage.program capacity).enabled usage (.put message) := trivial
    refine ⟨_, (Transitions.Path.refl usage).tail hready trivial hput, hexclusive.moves rfl rfl ?_ Iff.rfl, ?_⟩
    · rw [hplace]
      exact Iff.rfl
    · refine .of_producer rfl rfl hmutex ?_
      rw [producer_move_self]
      rfl
  | signal =>
    rw [hplace] at hheld hmidway hstep
    have hmutex := hheld trivial
    have hqueue : s.queue = usage.queue := hmidway hmutex
    obtain rfl := Except.ok.inj hstep
    refine ⟨usage, .refl _, hexclusive.moves rfl rfl ?_ ?_, ?_⟩
    · rw [hplace]
      exact Iff.rfl
    · cases hconsumer : s.consumer <;> exact Iff.rfl
    · refine .of_producer hserial.accepted hserial.dequeued hmutex ?_
      rw [producer_move_self]
      exact hqueue
  | unlock rc =>
    rw [hplace] at hheld hmidway hstep
    have hmutex := hheld trivial
    have hqueue : s.queue = usage.queue := hmidway hmutex
    obtain rfl := Except.ok.inj hstep
    exact ⟨usage, .refl _, hexclusive.producer_unlocks hmutex rfl rfl id rfl,
      .of_free hserial.accepted hserial.dequeued rfl hqueue⟩

/-- A statement of the worker is none or one step of that queue. -/
theorem consume_serializes [DecidableEq T] (capacity : Int) {s s' : Threads T P} {usage : Usage P}
    (hexclusive : Exclusive s) (hserial : Serializes s usage) (henabled : s.enabled .consume)
    (hstep : s.consume = ok s') : ∃ usage', (Usage.program capacity).Path (fun _ _ => True) usage usage' ∧
      Exclusive s' ∧ Serializes s' usage' := by
  have hheld : s.consumer.inside → s.mutex = some .consumer := hexclusive.consumer.mp
  have hmidway := hserial.consumer
  rw [enabled] at henabled
  rw [consume] at hstep
  cases hplace : s.consumer with
  | outside =>
    rw [hplace] at henabled
    exact henabled.elim
  | asleep =>
    rw [hplace] at henabled
    exact henabled.elim
  | lock =>
    rw [hplace] at henabled hstep
    obtain rfl := Except.ok.inj hstep
    exact ⟨usage, .refl _, hexclusive.consumer_locks henabled rfl rfl trivial,
      .of_consumer hserial.accepted hserial.dequeued rfl (hserial.free henabled)⟩
  | woken =>
    rw [hplace] at henabled hstep
    obtain rfl := Except.ok.inj hstep
    exact ⟨usage, .refl _, hexclusive.consumer_locks henabled rfl rfl trivial,
      .of_consumer hserial.accepted hserial.dequeued rfl (hserial.free henabled)⟩
  | test =>
    rw [hplace] at hheld hmidway hstep
    have hmutex := hheld trivial
    have hqueue : s.queue = usage.queue := hmidway hmutex
    dsimp only at hstep
    split at hstep
    · obtain rfl := Except.ok.inj hstep
      exact ⟨usage, .refl _, hexclusive.consumer_unlocks hmutex rfl rfl id,
        .of_free hserial.accepted hserial.dequeued rfl hqueue⟩
    · rename_i hsome
      obtain rfl := Except.ok.inj hstep
      refine ⟨usage, .refl _, hexclusive.consumer_moves rfl rfl ?_,
        .of_consumer hserial.accepted hserial.dequeued hmutex ⟨hqueue ▸ hsome, hqueue⟩⟩
      rw [hplace]
      exact Iff.rfl
  | messages =>
    rw [hplace] at hheld hmidway hstep
    have hmutex := hheld trivial
    obtain ⟨hsome, hqueue⟩ := hmidway hmutex
    obtain ⟨message, hload, hstep⟩ := bind_eq_ok_iff.mp hstep
    obtain rfl := Except.ok.inj hstep
    rw [hqueue] at hload
    refine ⟨usage, .refl _, hexclusive.consumer_moves rfl rfl ?_,
      .of_consumer hserial.accepted hserial.dequeued hmutex ⟨hsome, hload, hqueue⟩⟩
    rw [hplace]
    exact Iff.rfl
  | front message =>
    rw [hplace] at hheld hmidway hstep
    have hmutex := hheld trivial
    obtain ⟨hsome, hload, hqueue⟩ := hmidway hmutex
    obtain rfl := Except.ok.inj hstep
    refine ⟨usage, .refl _, hexclusive.consumer_moves rfl rfl ?_,
      .of_consumer hserial.accepted hserial.dequeued hmutex ⟨hsome, hload, ?_⟩⟩
    · rw [hplace]
      exact Iff.rfl
    · rw [← hqueue]
  | size message =>
    rw [hplace] at hheld hmidway hstep
    have hmutex := hheld trivial
    obtain ⟨hsome, hload, hqueue⟩ := hmidway hmutex
    obtain rfl := Except.ok.inj hstep
    have htake : usage.step .take = ok
        { queue := { s.queue with size := s.queue.size - 1 }
          accepted := s.accepted
          dequeued := s.dequeued ++ [message] } := by
      rw [Usage.step, dequeue_message, hload, bind_ok, bind_ok, hqueue, ← hserial.accepted, ← hserial.dequeued]
    have hready : (Usage.program capacity).enabled usage .take := hsome
    refine ⟨_, (Transitions.Path.refl usage).tail hready trivial htake, hexclusive.consumer_moves rfl rfl ?_,
      .of_consumer rfl rfl hmutex rfl⟩
    rw [hplace]
    exact Iff.rfl
  | unlock message =>
    rw [hplace] at hheld hmidway hstep
    have hmutex := hheld trivial
    have hqueue : s.queue = usage.queue := hmidway hmutex
    obtain rfl := Except.ok.inj hstep
    exact ⟨usage, .refl _, hexclusive.consumer_unlocks hmutex rfl rfl id,
      .of_free hserial.accepted hserial.dequeued rfl hqueue⟩

/-- Every step of the threads is none or one step of that queue. -/
theorem step_serializes [DecidableEq T] (capacity : Int) {s s' : Threads T P} {action : Action T P} {usage : Usage P}
    (hexclusive : Exclusive s) (hserial : Serializes s usage) (henabled : s.enabled action)
    (hstep : s.step action = ok s') : ∃ usage', (Usage.program capacity).Path (fun _ _ => True) usage usage' ∧
      Exclusive s' ∧ Serializes s' usage' := by
  cases action with
  | produce t => exact produce_serializes capacity hexclusive hserial henabled hstep
  | consume => exact consume_serializes capacity hexclusive hserial henabled hstep
  | enqueue t message =>
    have houtside : ¬ (s.producer t).inside := by
      rw [show s.producer t = .outside from henabled]
      exact id
    obtain rfl := Except.ok.inj hstep
    refine ⟨usage, .refl _, hexclusive.moves rfl rfl ⟨False.elim, houtside⟩ Iff.rfl, hserial.accepted,
      hserial.dequeued, hserial.free, fun u hu => ?_, hserial.consumer⟩
    have hne : u ≠ t := fun he => houtside ((hexclusive.producer t).mpr (he ▸ hu))
    rw [producer_move, if_neg hne]
    exact hserial.producer u hu
  | dequeue =>
    have houtside : ¬ s.consumer.inside := by
      rw [show s.consumer = .outside from henabled]
      exact id
    obtain rfl := Except.ok.inj hstep
    exact ⟨usage, .refl _, hexclusive.consumer_moves rfl rfl ⟨False.elim, houtside⟩, hserial.accepted,
      hserial.dequeued, hserial.free, hserial.producer, fun hc => absurd (hexclusive.consumer.mpr hc) houtside⟩
  | wake =>
    have houtside : ¬ s.consumer.inside := by
      rw [show s.consumer = .asleep from henabled]
      exact id
    obtain rfl := Except.ok.inj hstep
    exact ⟨usage, .refl _, hexclusive.consumer_moves rfl rfl ⟨False.elim, houtside⟩, hserial.accepted,
      hserial.dequeued, hserial.free, hserial.producer, fun hc => absurd (hexclusive.consumer.mpr hc) houtside⟩

theorem reachable_serializes [DecidableEq T] {capacity : Int} {s : Threads T P}
    (h : (program T P capacity).Reachable s) :
    ∃ usage, (Usage.program capacity).Reachable usage ∧ Exclusive s ∧ Serializes s usage := by
  refine h.simulates (R := fun s usage => Exclusive s ∧ Serializes s usage) ?_ ?_
  · rintro s rfl
    refine ⟨_, rfl, ⟨fun t => ?_, ?_⟩, .of_free rfl rfl rfl rfl⟩
    · exact ⟨False.elim, fun hnone => by cases hnone⟩
    · exact ⟨False.elim, fun hnone => by cases hnone⟩
  · rintro s action s' usage henabled - hstep ⟨hexclusive, hserial⟩
    exact step_serializes capacity hexclusive hserial henabled hstep

/-- The write of an entry behind the others. -/
private theorem store_succeeds {n : Nat} {queue : message_queue_t P} {stored : List P} (h : Holds n queue stored)
    (entry : Option P) :
    ∃ messages, store queue.messages ((queue.rear + 1).tmod queue.capacity) entry = ok messages := by
  obtain ⟨entries, hentries, hlength, -⟩ := h.entries
  have hin : (queue.front.toNat + stored.length) % n < entries.length := by
    rw [hlength]
    exact Nat.mod_lt _ h.positive
  rw [h.capacity, h.rear]
  exact ⟨_, store_of_lt hentries hin entry⟩

private theorem load_succeeds {n : Nat} {queue : message_queue_t P} {stored : List P} (h : Holds n queue stored)
    (hsome : queue.size ≠ 0) : ∃ message, load queue.messages queue.front = ok message := by
  cases stored with
  | nil => exact absurd h.size hsome
  | cons message rest =>
    obtain ⟨queue', hdequeue, -⟩ := dequeue_message_spec h
    obtain ⟨entry, hload, -⟩ := bind_eq_ok_iff.mp hdequeue
    exact ⟨entry, hload⟩

/-- No statement reads or writes outside the array. -/
theorem Serializes.step_succeeds [DecidableEq T] {n : Nat} {s : Threads T P} {usage : Usage P} {stored : List P}
    (hholds : Holds n usage.queue stored) (hexclusive : Exclusive s) (hserial : Serializes s usage)
    (action : Action T P) : ∃ s', s.step action = ok s' := by
  cases action with
  | enqueue t message => exact ⟨_, rfl⟩
  | dequeue => exact ⟨_, rfl⟩
  | wake => exact ⟨_, rfl⟩
  | produce t =>
    have hheld := (hexclusive.producer t).mp
    have hmidway := hserial.producer t
    rw [step, produce]
    cases hplace : s.producer t with
    | messages message =>
      rw [hplace] at hheld hmidway
      obtain ⟨-, hqueue⟩ := hmidway (hheld trivial)
      obtain ⟨messages, hstore⟩ := store_succeeds hholds (some message)
      rw [hqueue]
      dsimp only
      rw [hstore]
      exact ⟨_, rfl⟩
    | test message =>
      dsimp only
      split
      · exact ⟨_, rfl⟩
      · exact ⟨_, rfl⟩
    | _ => exact ⟨_, rfl⟩
  | consume =>
    have hheld := hexclusive.consumer.mp
    have hmidway := hserial.consumer
    rw [step, consume]
    cases hplace : s.consumer with
    | messages =>
      rw [hplace] at hheld hmidway
      obtain ⟨hsome, hqueue⟩ := hmidway (hheld trivial)
      obtain ⟨message, hload⟩ := load_succeeds hholds hsome
      rw [hqueue]
      dsimp only
      rw [hload]
      exact ⟨_, rfl⟩
    | test =>
      dsimp only
      split
      · exact ⟨_, rfl⟩
      · exact ⟨_, rfl⟩
    | _ => exact ⟨_, rfl⟩

/-- What the mutex is for: whatever the order of the statements, at most one thread is inside,
no statement faults, and the queue is what whole operations, one after another, have made of it. -/
structure Serialized (capacity : Int) (s : Threads T P) [DecidableEq T] : Prop where
  alone : ∀ t, (s.producer t).inside → ¬ s.consumer.inside ∧ ∀ u, (s.producer u).inside → u = t
  usage : ∃ usage, (Usage.program capacity).Reachable usage ∧ Serializes s usage
  order : s.mutex = none → s.dequeued ++ stored s.queue = s.accepted.map some ∧
    (stored s.queue).length ≤ slots capacity
  faultless : ∀ action, s.enabled action → ∃ s', s.step action = ok s'

/-- The mutex makes one step of every call, for any number of producers. -/
theorem operations_serialized [DecidableEq T] (capacity : Int) (s : Threads T P)
    (h : (program T P capacity).Reachable s) : Serialized capacity s := by
  obtain ⟨usage, hreach, hexclusive, hserial⟩ := reachable_serializes h
  obtain ⟨fifo, hfifo, hrefines⟩ := Usage.reachable_refines hreach
  have horder := Fifo.reachable_inOrder hfifo
  refine ⟨fun t ht => hexclusive.alone ht, ⟨usage, hreach, hserial⟩, fun hfree => ?_,
    fun action _ => hserial.step_succeeds hrefines.holds hexclusive action⟩
  have hstored : stored s.queue = fifo.stored.map some := by
    rw [hserial.free hfree]
    exact hrefines.holds.stored_eq
  constructor
  · rw [hstored, ← hserial.dequeued, ← hserial.accepted, hrefines.dequeued, hrefines.accepted, ← List.map_append,
      horder.order]
  · rw [hstored, List.length_map]
    exact horder.room

instance [DecidableEq T] [DecidableEq P] (capacity : Int) (s : Threads T P) (action : Action T P) :
    Decidable ((program T P capacity).enabled s action) :=
  match action with
  | .enqueue t _ => inferInstanceAs (Decidable (s.producer t = .outside))
  | .produce t => inferInstanceAs (Decidable ((s.producer t).ready s.mutex))
  | .dequeue => inferInstanceAs (Decidable (s.consumer = .outside))
  | .consume => inferInstanceAs (Decidable (s.consumer.ready s.mutex))
  | .wake => inferInstanceAs (Decidable (s.consumer = .asleep))

private theorem contended_facts :
    ((program Bool Nat 1).follow ⟨initialize_message_queue true 1, none, fun _ => .outside, .outside, [], []⟩
      [.dequeue, .consume, .consume, .enqueue true 5, .enqueue false 6, .produce true, .produce true, .produce true,
        .produce true, .produce true, .produce true, .produce true, .consume, .consume]).map
      (fun s => (s.consumer, s.producer false, s.accepted)) = some (.messages, .lock 6, [5]) := by
  decide

/-- The worker has been woken and is inside, while a second producer waits. -/
theorem contended_queue_serialized :
    ∃ s : Threads Bool Nat, s.consumer = .messages ∧ s.producer false = .lock 6 ∧ s.accepted = [5] ∧ Serialized 1 s := by
  obtain ⟨s, hs, hfacts⟩ := Option.map_eq_some_iff.mp contended_facts
  simp only [Prod.mk.injEq] at hfacts
  obtain ⟨hconsumer, hproducer, haccepted⟩ := hfacts
  exact ⟨s, hconsumer, hproducer, haccepted, operations_serialized 1 s ⟨_, rfl, .of_follow hs⟩⟩

/-- The worker sleeps only on an empty queue, or while the producer that filled it is about to
signal. -/
def Attended (s : Threads T P) : Prop := s.consumer = .asleep → s.queue.size = 0 ∨ ∃ t, s.producer t = .signal

/-- A step that leaves the worker and the size as they are, and the producers at their signal. -/
private theorem Attended.kept {s s' : Threads T P} (h : Attended s) (hconsumer : s'.consumer = s.consumer)
    (hsize : s'.queue.size = s.queue.size) (hsignal : ∀ t, s.producer t = .signal → s'.producer t = .signal) :
    Attended s' := by
  intro hasleep
  rcases h (hconsumer ▸ hasleep) with hzero | ⟨t, ht⟩
  · exact .inl (hsize.trans hzero)
  · exact .inr ⟨t, hsignal t ht⟩

/-- A producer that was not at its signal moves. -/
private theorem signal_kept [DecidableEq T] {s : Threads T P} {t : T} {place next : Producer P}
    (hplace : s.producer t = place) (hnot : place ≠ .signal) (u : T) (hu : s.producer u = .signal) :
    (s.move t next).producer u = .signal := by
  have hne : u ≠ t := by
    rintro rfl
    exact hnot (hplace.symm.trans hu)
  rw [producer_move, if_neg hne, hu]

private theorem Attended.produce [DecidableEq T] {s s' : Threads T P} {t : T} (h : Attended s)
    (henabled : s.enabled (.produce t)) (hstep : s.produce t = ok s') : Attended s' := by
  rw [enabled] at henabled
  rw [Threads.produce] at hstep
  cases hplace : s.producer t with
  | outside =>
    rw [hplace] at henabled
    exact henabled.elim
  | lock message =>
    rw [hplace] at hstep
    obtain rfl := Except.ok.inj hstep
    exact h.kept rfl rfl (signal_kept hplace (fun hsignal => by cases hsignal))
  | test message =>
    rw [hplace] at hstep
    dsimp only at hstep
    split at hstep
    · obtain rfl := Except.ok.inj hstep
      exact h.kept rfl rfl (signal_kept hplace (fun hsignal => by cases hsignal))
    · obtain rfl := Except.ok.inj hstep
      exact h.kept rfl rfl (signal_kept hplace (fun hsignal => by cases hsignal))
  | rear message =>
    rw [hplace] at hstep
    obtain rfl := Except.ok.inj hstep
    exact h.kept rfl rfl (signal_kept hplace (fun hsignal => by cases hsignal))
  | messages message =>
    rw [hplace] at hstep
    obtain ⟨messages, -, hstep⟩ := bind_eq_ok_iff.mp hstep
    obtain rfl := Except.ok.inj hstep
    exact h.kept rfl rfl (signal_kept hplace (fun hsignal => by cases hsignal))
  | size message =>
    rw [hplace] at hstep
    obtain rfl := Except.ok.inj hstep
    exact fun _ => .inr ⟨t, producer_move_self _ _ _⟩
  | signal =>
    rw [hplace] at hstep
    obtain rfl := Except.ok.inj hstep
    intro hasleep
    cases hconsumer : s.consumer <;> simp [move, hconsumer] at hasleep
  | unlock rc =>
    rw [hplace] at hstep
    obtain rfl := Except.ok.inj hstep
    exact h.kept rfl rfl (signal_kept hplace (fun hsignal => by cases hsignal))

private theorem Attended.consume {s s' : Threads T P} (hstep : s.consume = ok s') (h : Attended s) : Attended s' := by
  rw [Threads.consume] at hstep
  cases hplace : s.consumer with
  | test =>
    rw [hplace] at hstep
    dsimp only at hstep
    split at hstep
    · rename_i hzero
      obtain rfl := Except.ok.inj hstep
      exact fun _ => .inl hzero
    · obtain rfl := Except.ok.inj hstep
      exact fun hasleep => by cases hasleep
  | messages =>
    rw [hplace] at hstep
    obtain ⟨message, -, hstep⟩ := bind_eq_ok_iff.mp hstep
    obtain rfl := Except.ok.inj hstep
    exact fun hasleep => by cases hasleep
  | outside =>
    rw [hplace] at hstep
    obtain rfl := Except.ok.inj hstep
    exact h
  | asleep =>
    rw [hplace] at hstep
    obtain rfl := Except.ok.inj hstep
    exact h
  | _ =>
    rw [hplace] at hstep
    obtain rfl := Except.ok.inj hstep
    exact fun hasleep => by cases hasleep

theorem reachable_attended [DecidableEq T] {capacity : Int} {s : Threads T P}
    (h : (program T P capacity).Reachable s) : Attended s := by
  refine h.invariant (P := Attended) ?_ ?_
  · rintro s rfl hasleep
    cases hasleep
  · intro s action s' henabled _ hstep hattended
    cases action with
    | produce t => exact hattended.produce henabled hstep
    | consume => exact Attended.consume hstep hattended
    | enqueue t message =>
      obtain rfl := Except.ok.inj hstep
      exact hattended.kept rfl rfl (signal_kept henabled (fun hsignal => by cases hsignal))
    | dequeue =>
      obtain rfl := Except.ok.inj hstep
      exact fun hasleep => by cases hasleep
    | wake =>
      obtain rfl := Except.ok.inj hstep
      exact fun hasleep => by cases hasleep

end Threads

/-- How many statements a producer has yet to execute, those of the worker it wakes included. -/
def Producer.ahead {P : Type} : Producer P → Nat
  | .outside => 0
  | .unlock _ => 1
  | .signal => 8
  | .size _ => 9
  | .messages _ => 10
  | .rear _ => 11
  | .test _ => 12
  | .lock _ => 13

def Consumer.ahead {P : Type} : Consumer P → Nat
  | .outside | .asleep => 0
  | .unlock _ => 1
  | .size _ => 2
  | .front _ => 3
  | .messages => 4
  | .test => 5
  | .lock | .woken => 6

namespace Threads

variable {T P : Type}

/-- No call is begun. -/
def Finishing (_ : Threads T P) : Action T P → Prop
  | .enqueue .. | .dequeue => False
  | _ => True

def Action.is_wake : Action T P → Bool
  | .wake => true
  | _ => false

def ahead [Fintype T] (s : Threads T P) : Nat := (∑ t, (s.producer t).ahead) + s.consumer.ahead

private theorem ahead_producers [Fintype T] [DecidableEq T] {s s' : Threads T P} {t : T} {place next : Producer P}
    (hplace : s.producer t = place) (hproducer : s'.producer = (s.move t next).producer) :
    (∑ u, (s'.producer u).ahead) + place.ahead = (∑ u, (s.producer u).ahead) + next.ahead := by
  have hsum := sum_replaced (f := fun u => (s.producer u).ahead) (g := fun u => (s'.producer u).ahead) (a := t)
    fun u hu => by rw [hproducer, producer_move, if_neg hu]
  have hat : s'.producer t = next := by rw [hproducer, producer_move_self]
  rw [hplace, hat] at hsum
  exact hsum

private theorem ahead_produce [Fintype T] [DecidableEq T] {s s' : Threads T P} {t : T} (henabled : s.enabled (.produce t))
    (hstep : s.produce t = ok s') : s'.ahead < s.ahead := by
  have hmoves : ∀ {place next : Producer P}, s.producer t = place → s'.producer = (s.move t next).producer →
      next.ahead + s'.consumer.ahead < place.ahead + s.consumer.ahead → s'.ahead < s.ahead := by
    intro place next hplace hproducer hlt
    have hsum := ahead_producers hplace hproducer
    unfold ahead
    omega
  rw [enabled] at henabled
  rw [produce] at hstep
  cases hplace : s.producer t with
  | outside =>
    rw [hplace] at henabled
    exact henabled.elim
  | test message =>
    rw [hplace] at hstep
    dsimp only at hstep
    split at hstep
    · obtain rfl := Except.ok.inj hstep
      exact hmoves hplace rfl (Nat.add_lt_add_right (by simp [Producer.ahead]) _)
    · obtain rfl := Except.ok.inj hstep
      exact hmoves hplace rfl (Nat.add_lt_add_right (by simp [Producer.ahead]) _)
  | messages message =>
    rw [hplace] at hstep
    obtain ⟨messages, -, hstep⟩ := bind_eq_ok_iff.mp hstep
    obtain rfl := Except.ok.inj hstep
    exact hmoves hplace rfl (Nat.add_lt_add_right (by simp [Producer.ahead]) _)
  | signal =>
    rw [hplace] at hstep
    obtain rfl := Except.ok.inj hstep
    refine hmoves hplace rfl ?_
    cases hconsumer : s.consumer <;> simp [move, Producer.ahead, Consumer.ahead]
  | _ =>
    rw [hplace] at hstep
    obtain rfl := Except.ok.inj hstep
    exact hmoves hplace rfl (Nat.add_lt_add_right (by simp [Producer.ahead]) _)

private theorem ahead_consume [Fintype T] {s s' : Threads T P} (henabled : s.enabled .consume)
    (hstep : s.consume = ok s') : s'.ahead < s.ahead := by
  have hmoves : s'.producer = s.producer → s'.consumer.ahead < s.consumer.ahead → s'.ahead < s.ahead := by
    intro hproducer hlt
    unfold ahead
    rw [hproducer]
    omega
  rw [enabled] at henabled
  rw [consume] at hstep
  cases hplace : s.consumer with
  | outside =>
    rw [hplace] at henabled
    exact henabled.elim
  | asleep =>
    rw [hplace] at henabled
    exact henabled.elim
  | test =>
    rw [hplace] at hstep
    dsimp only at hstep
    split at hstep
    · obtain rfl := Except.ok.inj hstep
      exact hmoves rfl (by rw [hplace]; simp [Consumer.ahead])
    · obtain rfl := Except.ok.inj hstep
      exact hmoves rfl (by rw [hplace]; simp [Consumer.ahead])
  | messages =>
    rw [hplace] at hstep
    obtain ⟨message, -, hstep⟩ := bind_eq_ok_iff.mp hstep
    obtain rfl := Except.ok.inj hstep
    exact hmoves rfl (by rw [hplace]; simp [Consumer.ahead])
  | _ =>
    rw [hplace] at hstep
    obtain rfl := Except.ok.inj hstep
    exact hmoves rfl (by rw [hplace]; simp [Consumer.ahead])

/-- A state in which no thread can go on is one in which every call is done, but for a worker
that sleeps on an empty queue. -/
theorem at_rest {s : Threads T P} (hexclusive : Exclusive s) (hattended : Attended s)
    (hproducers : ∀ t, ¬ s.enabled (.produce t)) (hconsumer : ¬ s.enabled .consume) :
    (∀ t, s.producer t = .outside) ∧ (s.consumer = .outside ∨ s.consumer = .asleep ∧ s.queue.size = 0) := by
  have hfree : s.mutex = none := by
    cases hmutex : s.mutex with
    | none => rfl
    | some holder =>
      exfalso
      cases holder with
      | producer t =>
        have hinside := (hexclusive.producer t).mpr hmutex
        refine hproducers t ?_
        rw [enabled]
        cases hplace : s.producer t with
        | outside =>
          rw [hplace] at hinside
          exact hinside.elim
        | lock message =>
          rw [hplace] at hinside
          exact hinside.elim
        | _ => trivial
      | consumer =>
        have hinside := hexclusive.consumer.mpr hmutex
        refine hconsumer ?_
        rw [enabled]
        unfold Consumer.inside at hinside
        cases hplace : s.consumer with
        | outside => rw [hplace] at hinside; exact hinside
        | asleep => rw [hplace] at hinside; exact hinside
        | lock => rw [hplace] at hinside; exact hinside.elim
        | woken => rw [hplace] at hinside; exact hinside.elim
        | _ => trivial
  have houtside : ∀ t, s.producer t = .outside := by
    intro t
    have hstuck := hproducers t
    rw [enabled] at hstuck
    cases hplace : s.producer t with
    | outside => rfl
    | lock message =>
      rw [hplace] at hstuck
      exact absurd hfree hstuck
    | _ =>
      rw [hplace] at hstuck
      exact absurd trivial hstuck
  refine ⟨houtside, ?_⟩
  rw [enabled] at hconsumer
  cases hplace : s.consumer with
  | outside => exact .inl rfl
  | asleep =>
    rcases hattended hplace with hzero | ⟨t, ht⟩
    · exact .inr ⟨rfl, hzero⟩
    · cases (houtside t).symm.trans ht
  | lock =>
    rw [hplace] at hconsumer
    exact absurd hfree hconsumer
  | woken =>
    rw [hplace] at hconsumer
    exact absurd hfree hconsumer
  | _ =>
    rw [hplace] at hconsumer
    exact absurd trivial hconsumer

/-- A worker that wakes without a signal takes the mutex again, sees the size and, at worst, goes
through the whole call. -/
private theorem ahead_wake [Fintype T] [DecidableEq T] {s s' : Threads T P} (henabled : s.enabled .wake)
    (hstep : s.step .wake = ok s') : s'.ahead = s.ahead + 6 := by
  have hplace : s.consumer = .asleep := henabled
  obtain rfl := Except.ok.inj hstep
  simp [ahead, hplace, Consumer.ahead]

/-- The steps of a run without new calls were ahead, or are those that its wakeups without a signal
have added. -/
private theorem finishing_length [Fintype T] [DecidableEq T] {capacity : Int} {s s' : Threads T P}
    {actions : List (Action T P)} (htrace : (program T P capacity).Trace Finishing s actions s') :
    actions.length + s'.ahead ≤ s.ahead + 7 * actions.countP Action.is_wake := by
  refine htrace.preserves (P := fun actions s' =>
    actions.length + s'.ahead ≤ s.ahead + 7 * actions.countP Action.is_wake) ?_ (by simp)
  intro actions s₁ action s₂ henabled hfinishing hstep hle
  rw [List.length_append, List.length_singleton, List.countP_append, List.countP_singleton]
  cases action with
  | produce t =>
    have hless := ahead_produce henabled hstep
    simp only [Action.is_wake, Bool.false_eq_true, if_false]
    omega
  | consume =>
    have hless := ahead_consume henabled hstep
    simp only [Action.is_wake, Bool.false_eq_true, if_false]
    omega
  | wake =>
    have hmore := ahead_wake henabled hstep
    simp only [Action.is_wake, if_true]
    omega
  | _ => exact hfinishing.elim

/-- No wakeup is lost and nothing hangs: a worker that sleeps while the queue holds something is
about to be signalled, every run without new calls ends within the statements ahead and seven for
each wakeup without a signal, and where it can go no further all calls are done and the queue is
empty or the worker is elsewhere. -/
theorem calls_come_to_an_end [Fintype T] [DecidableEq T] (capacity : Int) (s : Threads T P)
    (h : (program T P capacity).Reachable s) :
    (s.consumer = .asleep → s.queue.size ≠ 0 → ∃ t, s.producer t = .signal ∧ s.mutex = some (.producer t)) ∧
      ∀ actions s', (program T P capacity).Trace Finishing s actions s' →
        actions.length ≤ s.ahead + 7 * actions.countP Action.is_wake ∧
        ((∀ t, ¬ s'.enabled (.produce t)) → ¬ s'.enabled .consume → (∀ t, s'.producer t = .outside) ∧
          (s'.consumer = .outside ∨ s'.consumer = .asleep ∧ s'.queue.size = 0)) := by
  obtain ⟨-, -, hexclusive, -⟩ := reachable_serializes h
  have hattended := reachable_attended h
  constructor
  · intro hasleep hsome
    rcases hattended hasleep with hzero | ⟨t, ht⟩
    · exact absurd hzero hsome
    · refine ⟨t, ht, (hexclusive.producer t).mp ?_⟩
      rw [ht]
      trivial
  · intro actions s' htrace
    have hlength := finishing_length htrace
    have hreach' : (program T P capacity).Reachable s' := h.append (htrace.path.mono fun _ _ _ => trivial)
    obtain ⟨-, -, hexclusive', -⟩ := reachable_serializes hreach'
    exact ⟨by omega, at_rest hexclusive' (reachable_attended hreach')⟩

private theorem asleep_facts :
    ((program Bool Nat 1).follow ⟨initialize_message_queue true 1, none, fun _ => .outside, .outside, [], []⟩
      [.dequeue, .consume, .consume, .enqueue true 5, .enqueue false 6, .produce true, .produce true, .produce true,
        .produce true, .produce true]).map (fun s => (s.consumer, s.queue.size, s.ahead)) = some (.asleep, 1, 21) := by
  decide

/-- The worker still sleeps although the queue is full, and two calls are not done. -/
theorem asleep_calls_come_to_an_end :
    ∃ s : Threads Bool Nat, s.consumer = .asleep ∧ s.queue.size = 1 ∧
      (∃ t, s.producer t = .signal ∧ s.mutex = some (.producer t)) ∧
      ∀ actions s', (program Bool Nat 1).Trace Finishing s actions s' →
        actions.length ≤ 21 + 7 * actions.countP Action.is_wake := by
  obtain ⟨s, hs, hfacts⟩ := Option.map_eq_some_iff.mp asleep_facts
  simp only [Prod.mk.injEq] at hfacts
  obtain ⟨hconsumer, hsize, hahead⟩ := hfacts
  obtain ⟨hsignal, hends⟩ := calls_come_to_an_end 1 s ⟨_, rfl, .of_follow hs⟩
  refine ⟨s, hconsumer, hsize, hsignal hconsumer (by rw [hsize]; exact Int.one_ne_zero), fun actions s' htrace => ?_⟩
  rw [← hahead]
  exact (hends actions s' htrace).1

end Threads

end mock_uas.message_queue
