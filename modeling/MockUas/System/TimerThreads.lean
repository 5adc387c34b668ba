import MockUas.Clib.Owner
import MockUas.Clib.Run
import MockUas.Worker.Types
import Mathlib.Data.List.Nodup

open clib

namespace mock_uas.timer_manager

/-- The block of a `struct timer_s`, with its file descriptor. -/
structure Block extends timer_s where
  tfd : Int

/-- What a descriptor of the process is open on. -/
inductive Descriptor where
  | other
  | epoll
  | timer
  deriving DecidableEq

/-- Where a thread is in `timer_one_shot_add`: before which of its statements. -/
inductive Adder where
  | outside
  | test (timer : timer_s)
  | malloc (timer : timer_s)
  | cb (timer : timer_s) (t : Nat)
  | user_data (timer : timer_s) (t : Nat)
  | timerfd_create (timer : timer_s) (t : Nat)
  | timerfd_settime (timer : timer_s) (t : Nat)
  | epoll_ctl (timer : timer_s) (t : Nat)
  | close (t : Nat)
  | free (t : Nat)
  | done (rc : Int)
  deriving DecidableEq

/-- Where the timer thread is in `timer_thread_func`, with the timers of the batch that
`epoll_wait` gave it and that are still to come. -/
inductive Loop where
  | outside
  | test
  | epoll_wait
  | read (t : Nat) (events : List Nat)
  | cb (t : Nat) (events : List Nat)
  | calling (t : Nat) (events : List Nat)
  | epoll_ctl (t : Nat) (events : List Nat)
  | close (t : Nat) (events : List Nat)
  | free (t : Nat) (events : List Nat)
  deriving DecidableEq

/-- The loop over the batch goes on with the next timer. -/
def Loop.next : List Nat → Loop
  | [] => .test
  | t :: events => .read t events

/-- What the allocator and the kernel answer to the statements of one `timer_one_shot_add`.
The contents of a block are what `malloc` finds there. -/
structure Answers where
  malloc : Option Block
  timerfd_create : Int
  timerfd_settime : Bool
  epoll_ctl : Bool

/-- The timer manager, and the threads that use it: `none` is the timer thread itself, in a
callback. The descriptors and the interest list of the epoll instance are the kernel's. The rest
is a log of the calls with the return codes they are to give, and of the callbacks called. -/
structure Threads (T : Type) where
  epfd : Int
  running : Int
  blocks : Heap Block
  opened : Int → Option Descriptor
  interest : List (Int × Nat)
  adder : Option T → Adder
  loop : Loop
  concluded : List (timer_s × Int)
  called : List timer_s

namespace Threads

variable {T : Type}

/-- A process without a timer manager, with some descriptors open. -/
def unstarted (T : Type) (others : List Int) : Threads T where
  epfd := -1
  running := 0
  blocks := .empty
  opened fd := if fd ∈ others then some .other else none
  interest := []
  adder _ := .outside
  loop := .outside
  concluded := []
  called := []

def open_descriptor (s : Threads T) (fd : Int) (on : Descriptor) : Threads T :=
  { s with opened := fun d => if d = fd then some on else s.opened d }

/-- A descriptor that is closed also leaves the interest list. -/
def close (s : Threads T) (fd : Int) : Threads T :=
  { s with
    opened := fun d => if d = fd then none else s.opened d
    interest := s.interest.filter fun registration => registration.1 ≠ fd }

/-- The kernel gives a descriptor that is not open. -/
def timerfd_create (s : Threads T) (fd : Int) : Int × Threads T :=
  if 0 ≤ fd ∧ s.opened fd = none then (fd, s.open_descriptor fd .timer) else (-1, s)

/-- `EPOLL_CTL_ADD` refuses a descriptor that is not open, that is the epoll instance or that is
registered, and an `epfd` that is no epoll instance. -/
def epoll_ctl_add (s : Threads T) (willing : Bool) (fd : Int) (t : Nat) : Int × Threads T :=
  if willing = true ∧ s.opened s.epfd = some .epoll ∧ s.opened fd ≠ none ∧ fd ≠ s.epfd ∧
      fd ∉ s.interest.map Prod.fst then (0, { s with interest := s.interest ++ [(fd, t)] })
  else (-1, s)

def epoll_ctl_del (s : Threads T) (fd : Int) : Threads T :=
  { s with interest := s.interest.filter fun registration => registration.1 ≠ fd }

/-- When the thread is not created, `epfd` keeps the closed descriptor. -/
def timer_one_shot_init (s : Threads T) (epoll_create1 : Int) (pthread_create : Bool) : Int × Threads T :=
  let s := { s with epfd := epoll_create1 }
  if s.epfd < 0 then (-1, s)
  else
    let s := { s.open_descriptor s.epfd .epoll with running := 1 }
    if pthread_create = false then (-1, s.close s.epfd) else (0, { s with loop := .test })

def write (s : Threads T) (t : Nat) (block : Block) : Threads T := { s with blocks := s.blocks.set t block }

def free (s : Threads T) (t : Nat) : Threads T := { s with blocks := s.blocks.free t }

def conclude (s : Threads T) (timer : timer_s) (rc : Int) : Threads T :=
  { s with concluded := s.concluded ++ [(timer, rc)] }

variable [DecidableEq T]

def move (s : Threads T) (u : Option T) (place : Adder) : Threads T :=
  { s with adder := fun v => if v = u then place else s.adder v }

/-- The next statement of `timer_one_shot_add`. -/
def add (s : Threads T) (u : Option T) (answers : Answers) : Result (Threads T) :=
  match s.adder u with
  | .outside => ok s
  | .test timer =>
    if s.epfd < 0 then ok ((s.conclude timer (-1)).move u (.done (-1))) else ok (s.move u (.malloc timer))
  | .malloc timer =>
    match answers.malloc with
    | none => ok ((s.conclude timer (-1)).move u (.done (-1)))
    | some block => ok ({ s with blocks := s.blocks.alloc block }.move u (.cb timer s.blocks.next))
  | .cb timer t => do
    let block ← s.blocks.read t
    ok ((s.write t { block with cb := timer.cb }).move u (.user_data timer t))
  | .user_data timer t => do
    let block ← s.blocks.read t
    ok ((s.write t { block with user_data := timer.user_data }).move u (.timerfd_create timer t))
  | .timerfd_create timer t => do
    let block ← s.blocks.read t
    let (tfd, s) := s.timerfd_create answers.timerfd_create
    let s := s.write t { block with tfd := tfd }
    if tfd < 0 then ok ((s.conclude timer (-1)).move u (.free t)) else ok (s.move u (.timerfd_settime timer t))
  | .timerfd_settime timer t => do
    let block ← s.blocks.read t
    if answers.timerfd_settime = false ∨ s.opened block.tfd ≠ some .timer then
      ok ((s.conclude timer (-1)).move u (.close t))
    else ok (s.move u (.epoll_ctl timer t))
  | .epoll_ctl timer t => do
    let block ← s.blocks.read t
    let (rc, s) := s.epoll_ctl_add answers.epoll_ctl block.tfd t
    if rc < 0 then ok ((s.conclude timer (-1)).move u (.close t))
    else ok ((s.conclude timer 0).move u (.done 0))
  | .close t => do
    let block ← s.blocks.read t
    ok ((s.close block.tfd).move u (.free t))
  | .free t => do
    let _ ← s.blocks.read t
    ok ((s.free t).move u (.done (-1)))
  | .done _ => ok (s.move u .outside)

/-- The next statement of `timer_thread_func`, apart from `epoll_wait`. -/
def handle (s : Threads T) : Result (Threads T) :=
  match s.loop with
  | .outside | .epoll_wait => ok s
  | .test => ok { s with loop := if s.running = 0 then .outside else .epoll_wait }
  | .read t events => do
    let _ ← s.blocks.read t
    ok { s with loop := .cb t events }
  | .cb t events => do
    let block ← s.blocks.read t
    ok { s with loop := .calling t events, called := s.called ++ [block.totimer_s] }
  | .calling t events => ok { s with loop := .epoll_ctl t events }
  | .epoll_ctl t events => do
    let block ← s.blocks.read t
    ok { s.epoll_ctl_del block.tfd with loop := .close t events }
  | .close t events => do
    let block ← s.blocks.read t
    ok { s.close block.tfd with loop := .free t events }
  | .free t events => do
    let _ ← s.blocks.read t
    ok { s.free t with loop := .next events }

end Threads

/-- The timer thread is in a callback. -/
def Loop.InCallback : Loop → Prop
  | .calling _ _ => True
  | _ => False

instance (loop : Loop) : Decidable loop.InCallback :=
  match loop with
  | .calling _ _ => isTrue trivial
  | .outside | .test | .epoll_wait | .read _ _ | .cb _ _ | .epoll_ctl _ _ | .close _ _ | .free _ _ => isFalse id

namespace Threads

variable {T : Type} [DecidableEq T]

/-- A call of `timer_one_shot_add`, a statement of it, an `epoll_wait` that returns, or another
statement of the timer thread. -/
inductive Action (T : Type) where
  | call (u : Option T) (timer : timer_s)
  | add (u : Option T) (answers : Answers)
  | wait (events : Option (List (Int × Nat)))
  | handle

def step (s : Threads T) : Action T → Result (Threads T)
  | .call u timer => ok (s.move u (.test timer))
  | .add u answers => s.add u answers
  | .wait none => ok { s with loop := .test }
  | .wait (some events) => ok { s with loop := .next (events.map Prod.snd) }
  | .handle => s.handle

/-- The timer thread calls `timer_one_shot_add` in callbacks only, which end when it has
returned. `epoll_wait` gives at most 32 of the registrations, each once. -/
def enabled (s : Threads T) : Action T → Prop
  | .call u _ => s.adder u = .outside ∧ (u = none → s.loop.InCallback)
  | .add u _ => s.adder u ≠ .outside
  | .wait none => s.loop = .epoll_wait
  | .wait (some events) => s.loop = .epoll_wait ∧ events.Nodup ∧ (∀ r ∈ events, r ∈ s.interest) ∧ events.length ≤ 32
  | .handle => s.loop ≠ .outside ∧ s.loop ≠ .epoll_wait ∧ (s.loop.InCallback → s.adder none = .outside)

/-- A timer manager that `main` has started with some descriptors open, and its threads, which
are interleaved statement by statement. -/
def program (T : Type) [DecidableEq T] (others : List Int) : Transitions (Threads T) (Action T) where
  initial s := ∃ epoll_create1 pthread_create, (0 ≤ epoll_create1 → epoll_create1 ∉ others) ∧
    s = ((unstarted T others).timer_one_shot_init epoll_create1 pthread_create).2
  enabled := enabled
  step := step

instance (s : Threads T) (action : Action T) : Decidable (s.enabled action) :=
  match action with
  | .call u _ => inferInstanceAs (Decidable (s.adder u = .outside ∧ (u = none → s.loop.InCallback)))
  | .add u _ => inferInstanceAs (Decidable (s.adder u ≠ .outside))
  | .wait none => inferInstanceAs (Decidable (s.loop = .epoll_wait))
  | .wait (some events) => inferInstanceAs (Decidable (s.loop = .epoll_wait ∧ events.Nodup ∧
      (∀ r ∈ events, r ∈ s.interest) ∧ events.length ≤ 32))
  | .handle => inferInstanceAs (Decidable (s.loop ≠ .outside ∧ s.loop ≠ .epoll_wait ∧
      (s.loop.InCallback → s.adder none = .outside)))

instance (others : List Int) (s : Threads T) (action : Action T) :
    Decidable ((program T others).enabled s action) := inferInstanceAs (Decidable (s.enabled action))

end Threads

/-- The block that a call has and has not handed over. -/
def Adder.block : Adder → Option Nat
  | .outside | .test _ | .malloc _ | .done _ => none
  | .cb _ t | .user_data _ t | .timerfd_create _ t | .timerfd_settime _ t | .epoll_ctl _ t | .close t | .free t =>
    some t

/-- The block whose descriptor a call has open. -/
def Adder.open_block : Adder → Option Nat
  | .timerfd_settime _ t | .epoll_ctl _ t | .close t => some t
  | _ => none

/-- The block that the timer thread has taken out of the interest list. -/
def Loop.block : Loop → Option Nat
  | .close t _ | .free t _ => some t
  | _ => none

def Loop.open_block : Loop → Option Nat
  | .close t _ => some t
  | _ => none

/-- The timers of the batch that are still registered. -/
def Loop.registered : Loop → List Nat
  | .read t events | .cb t events | .calling t events | .epoll_ctl t events => t :: events
  | .close _ events | .free _ events => events
  | .outside | .test | .epoll_wait => []

theorem Adder.block_of_open_block {place : Adder} {t : Nat} (h : place.open_block = some t) : place.block = some t := by
  cases place <;> first | exact h | cases h

theorem Loop.block_of_open_block {place : Loop} {t : Nat} (h : place.open_block = some t) : place.block = some t := by
  cases place <;> first | exact h | cases h

/-- Who may have a block or a descriptor of a timer: a call of `timer_one_shot_add`, the loop of
the timer thread, or the epoll instance. -/
inductive Owner (T : Type) where
  | call (u : Option T)
  | loop
  | interest

namespace Threads

variable {T : Type}

def block (s : Threads T) : Owner T → Option Nat
  | .call u => (s.adder u).block
  | .loop => s.loop.block
  | .interest => none

def open_block (s : Threads T) : Owner T → Option Nat
  | .call u => (s.adder u).open_block
  | .loop => s.loop.open_block
  | .interest => none

def tfd (s : Threads T) (t : Nat) : Option Int := (s.blocks.cells t).map Block.tfd

theorem tfd_of_cells {s : Threads T} {t : Nat} {block : Block} (hcell : s.blocks.cells t = some block) :
    s.tfd t = some block.tfd := congrArg (Option.map Block.tfd) hcell

/-- An owner has a block. -/
def Holds (s : Threads T) (o : Owner T) (t : Nat) : Prop :=
  s.block o = some t ∨ o = .interest ∧ t ∈ s.interest.map Prod.snd

/-- An owner has a descriptor. -/
def Keeps (s : Threads T) (o : Owner T) (fd : Int) : Prop :=
  (∃ t, s.open_block o = some t ∧ s.tfd t = some fd) ∨ o = .interest ∧ fd ∈ s.interest.map Prod.fst

theorem holds_iff {s : Threads T} {o : Owner T} (ho : o ≠ .interest) (t : Nat) : s.Holds o t ↔ s.block o = some t :=
  ⟨fun h => h.resolve_right fun hi => ho hi.1, .inl⟩

theorem holds_interest (s : Threads T) (t : Nat) : s.Holds .interest t ↔ t ∈ s.interest.map Prod.snd :=
  ⟨fun h => h.elim (fun hn => by cases hn) And.right, fun h => .inr ⟨rfl, h⟩⟩

theorem keeps_iff {s : Threads T} {o : Owner T} (ho : o ≠ .interest) (fd : Int) :
    s.Keeps o fd ↔ ∃ t, s.open_block o = some t ∧ s.tfd t = some fd :=
  ⟨fun h => h.resolve_right fun hi => ho hi.1, .inl⟩

theorem keeps_interest (s : Threads T) (fd : Int) : s.Keeps .interest fd ↔ fd ∈ s.interest.map Prod.fst := by
  refine ⟨fun h => h.elim ?_ And.right, fun h => .inr ⟨rfl, h⟩⟩
  rintro ⟨t, hn, -⟩
  cases hn

theorem block_of_open_block {s : Threads T} {o : Owner T} {t : Nat} (h : s.open_block o = some t) :
    s.block o = some t := by
  cases o with
  | call u => exact Adder.block_of_open_block h
  | loop => exact Loop.block_of_open_block h
  | interest => exact h

/-- Each block and each descriptor of a timer has one owner, what is registered fits together, and
the descriptors that were open `before` stay open. -/
structure Sound (before : Int → Option Descriptor) (s : Threads T) : Prop where
  blocks : SoleOwners s.Holds fun t => (s.blocks.cells t).isSome
  descriptors : SoleOwners s.Keeps fun fd => s.opened fd = some .timer
  tfd : ∀ r ∈ s.interest, s.tfd r.2 = some r.1
  distinct : (s.interest.map Prod.fst).Nodup
  events : s.loop.registered.Nodup
  registered : ∀ t ∈ s.loop.registered, t ∈ s.interest.map Prod.snd
  kept : ∀ fd on, on ≠ .timer → (s.opened fd = some on ↔ before fd = some on)

variable {before : Int → Option Descriptor} {s s' : Threads T}

theorem Sound.cells (h : Sound before s) {o : Owner T} {t : Nat} (hblock : s.block o = some t) :
    ∃ block, s.blocks.cells t = some block :=
  Option.isSome_iff_exists.mp (h.blocks.used_of (.inl hblock : s.Holds o t))

theorem Sound.cells_of_registered (h : Sound before s) {t : Nat} (ht : t ∈ s.loop.registered) :
    ∃ block, s.blocks.cells t = some block :=
  Option.isSome_iff_exists.mp (h.blocks.used_of ((holds_interest s t).mpr (h.registered t ht)))

/-- The block of an owner other than the epoll instance is not registered. -/
theorem Sound.not_registered (h : Sound before s) {o : Owner T} {t : Nat} (hblock : s.block o = some t) {r : Int × Nat}
    (hr : r ∈ s.interest) : r.2 ≠ t := by
  rintro rfl
  have hi := (holds_interest s r.2).mpr (List.mem_map_of_mem hr)
  obtain rfl := h.blocks.sole _ o r.2 hi (.inl hblock)
  cases hblock

/-- A step that leaves every block and every descriptor to its owner. At most the block of a call
that has not opened its descriptor changes. -/
theorem Sound.quiet (h : Sound before s) (hblock : ∀ o, s'.block o = s.block o)
    (hopen : ∀ o, s'.open_block o = s.open_block o) (hinterest : s'.interest = s.interest)
    (hopened : s'.opened = s.opened) (hlive : ∀ t, (s'.blocks.cells t).isSome = (s.blocks.cells t).isSome)
    (htfd : ∀ t, s'.tfd t = s.tfd t ∨ ∃ o, s.block o = some t ∧ s.open_block o = none)
    (hevents : s'.loop.registered.Nodup) (hregistered : ∀ t ∈ s'.loop.registered, t ∈ s.interest.map Prod.snd) :
    Sound before s' := by
  have hopen_tfd : ∀ o t, s.open_block o = some t → s'.tfd t = s.tfd t := by
    intro o t ht
    rcases htfd t with hsame | ⟨p, hp, hnone⟩
    · exact hsame
    · obtain rfl := h.blocks.sole o p t (.inl (block_of_open_block ht)) (.inl hp)
      cases hnone.symm.trans ht
  refine ⟨h.blocks.congr (fun o t => ?_) fun t => by rw [hlive], h.descriptors.congr (fun o fd => ?_) fun fd => ?_,
    fun r hr => ?_, by rw [hinterest]; exact h.distinct, hevents, by rw [hinterest]; exact hregistered,
    by rw [hopened]; exact h.kept⟩
  · unfold Holds
    rw [hblock, hinterest]
  · unfold Keeps
    rw [hopen, hinterest]
    refine or_congr (exists_congr fun t => and_congr_right fun ht => ?_) Iff.rfl
    rw [hopen_tfd o t ht]
  · rw [hopened]
  · rw [hinterest] at hr
    rcases htfd r.2 with hsame | ⟨p, hp, -⟩
    · rw [hsame]
      exact h.tfd r hr
    · exact absurd rfl (h.not_registered hp hr)

/-- A step that allocates a block, and gives it to a call that had none. -/
theorem Sound.allocates {p : Owner T} {block : Block} (h : Sound before s) (hp : p ≠ .interest)
    (hnone : s.block p = none) (hself : s'.block p = some s.blocks.next) (hother : ∀ o, o ≠ p → s'.block o = s.block o)
    (hopen : ∀ o, s'.open_block o = s.open_block o) (hinterest : s'.interest = s.interest)
    (hopened : s'.opened = s.opened) (hblocks : s'.blocks = s.blocks.alloc block) (hloop : s'.loop = s.loop) :
    Sound before s' := by
  have htfd : ∀ o t, s.Holds o t → s'.tfd t = s.tfd t := by
    intro o t ho
    obtain ⟨b, hb⟩ := Option.isSome_iff_exists.mp (h.blocks.used_of ho)
    unfold Threads.tfd
    rw [hblocks, Heap.cells_alloc_of_cells hb, hb]
  refine ⟨h.blocks.acquire (o := p) (a := s.blocks.next) ?_ (fun t => ?_) (fun o t ho => ?_) fun t => ?_,
    h.descriptors.congr (fun o fd => ?_) fun fd => by rw [hopened], fun r hr => ?_, by rw [hinterest]; exact h.distinct,
    by rw [hloop]; exact h.events, by rw [hloop, hinterest]; exact h.registered, by rw [hopened]; exact h.kept⟩
  · rw [Heap.cells_next]
    exact Bool.false_ne_true
  · rw [holds_iff hp, holds_iff hp, hself, hnone]
    exact ⟨fun ht => .inr (Option.some.inj ht).symm, fun hor => hor.elim (fun hn => by cases hn) fun ht => ht ▸ rfl⟩
  · unfold Holds
    rw [hother o ho, hinterest]
  · rw [hblocks, Heap.cells_alloc]
    split
    · rename_i ht
      exact ⟨fun _ => .inr ht, fun _ => rfl⟩
    · rename_i ht
      exact ⟨.inl, fun hor => hor.resolve_right ht⟩
  · unfold Keeps
    rw [hopen, hinterest]
    refine or_congr (exists_congr fun t => and_congr_right fun ht => ?_) Iff.rfl
    rw [htfd o t (.inl (block_of_open_block ht))]
  · rw [hinterest] at hr
    rw [htfd .interest r.2 ((holds_interest s r.2).mpr (List.mem_map_of_mem hr))]
    exact h.tfd r hr

/-- A step that opens a descriptor for the block of a call. -/
theorem Sound.opens {p : Owner T} {t : Nat} {fd : Int} (h : Sound before s) (hp : s.block p = some t)
    (hnone : s.open_block p = none) (hfree : s.opened fd = none) (hblock : ∀ o, s'.block o = s.block o)
    (hself : s'.open_block p = some t) (hother : ∀ o, o ≠ p → s'.open_block o = s.open_block o)
    (hinterest : s'.interest = s.interest) (hopened : ∀ d, s'.opened d = if d = fd then some .timer else s.opened d)
    (hlive : ∀ u, (s'.blocks.cells u).isSome = (s.blocks.cells u).isSome) (htfd : s'.tfd t = some fd)
    (hrest : ∀ u, u ≠ t → s'.tfd u = s.tfd u) (hloop : s'.loop = s.loop) : Sound before s' := by
  have hpi : p ≠ .interest := by
    rintro rfl
    cases hp
  refine ⟨h.blocks.congr (fun o u => ?_) fun u => by rw [hlive],
    h.descriptors.acquire (o := p) (a := fd) ?_ (fun d => ?_) (fun o d ho => ?_) fun d => ?_, fun r hr => ?_,
    by rw [hinterest]; exact h.distinct, by rw [hloop]; exact h.events, by rw [hloop, hinterest]; exact h.registered,
    fun d on hon => ?_⟩
  · unfold Holds
    rw [hblock, hinterest]
  · rw [hfree]
    intro hn
    cases hn
  · rw [keeps_iff hpi, keeps_iff hpi, hself, hnone]
    constructor
    · rintro ⟨u, hu, hd⟩
      obtain rfl := Option.some.inj hu
      exact .inr (Option.some.inj (hd.symm.trans htfd))
    · rintro (⟨u, hu, -⟩ | rfl)
      · cases hu
      · exact ⟨t, rfl, htfd⟩
  · unfold Keeps
    rw [hother o ho, hinterest]
    refine or_congr (exists_congr fun u => and_congr_right fun hu => ?_) Iff.rfl
    rw [hrest u fun hut => ho (h.blocks.sole o p t (.inl (hut ▸ block_of_open_block hu)) (.inl hp))]
  · rw [hopened]
    split
    · rename_i hd
      exact ⟨fun _ => .inr hd, fun _ => rfl⟩
    · rename_i hd
      exact ⟨.inl, fun hor => hor.resolve_right hd⟩
  · rw [hinterest] at hr
    rw [hrest r.2 (h.not_registered hp hr)]
    exact h.tfd r hr
  · rw [hopened, ← h.kept d on hon]
    split
    · rename_i hd
      rw [hd, hfree]
      exact ⟨fun hx => absurd (Option.some.inj hx).symm hon, fun hx => by cases hx⟩
    · exact Iff.rfl

/-- A step that registers the block of a call with its descriptor. -/
theorem Sound.registers {p : Owner T} {t : Nat} {fd : Int} (h : Sound before s) (hp : s.open_block p = some t)
    (hfd : s.tfd t = some fd) (hnone : s'.block p = none) (hopen : s'.open_block p = none)
    (hblock : ∀ o, o ≠ p → s'.block o = s.block o) (hother : ∀ o, o ≠ p → s'.open_block o = s.open_block o)
    (hinterest : s'.interest = s.interest ++ [(fd, t)]) (hopened : s'.opened = s.opened)
    (hblocks : s'.blocks = s.blocks) (hloop : s'.loop = s.loop) : Sound before s' := by
  have htfd : s'.tfd = s.tfd := by
    unfold Threads.tfd
    rw [hblocks]
  have hhas := block_of_open_block hp
  have hkeeps : s.Keeps p fd := .inl ⟨t, hp, hfd⟩
  have hpi : p ≠ .interest := by
    rintro rfl
    cases hp
  have hnew : fd ∉ s.interest.map Prod.fst := fun hmem =>
    hpi (h.descriptors.sole p .interest fd hkeeps ((keeps_interest s fd).mpr hmem))
  refine ⟨h.blocks.transfer (o := p) (q := .interest) (a := t) (.inl hhas) (fun u => ?_) (fun u => ?_)
      (fun o u ho hoi => ?_) fun u => by rw [hblocks],
    h.descriptors.transfer (q := .interest) hkeeps (fun d => ?_) (fun d => ?_) (fun o d ho hoi => ?_) fun d => ?_,
    fun r hr => ?_, ?_, by rw [hloop]; exact h.events, fun u hu => ?_, by rw [hopened]; exact h.kept⟩
  · rw [holds_iff hpi, holds_iff hpi, hnone, hhas]
    exact ⟨fun hn => (by cases hn), fun hu => absurd (Option.some.inj hu.1).symm hu.2⟩
  · rw [holds_interest, holds_interest, hinterest, List.map_append, List.mem_append, List.map_singleton,
      List.mem_singleton]
  · rw [holds_iff hoi, holds_iff hoi, hblock o ho]
  · rw [keeps_iff hpi, keeps_iff hpi, hopen, hp]
    constructor
    · rintro ⟨u, hn, -⟩
      cases hn
    · rintro ⟨⟨u, hu, hd⟩, hne⟩
      obtain rfl := Option.some.inj hu
      exact absurd (Option.some.inj (hd.symm.trans hfd)) hne
  · rw [keeps_interest, keeps_interest, hinterest, List.map_append, List.mem_append, List.map_singleton,
      List.mem_singleton]
  · rw [keeps_iff hoi, keeps_iff hoi, hother o ho, htfd]
  · rw [hopened]
  · rw [hinterest, List.mem_append, List.mem_singleton] at hr
    rw [htfd]
    rcases hr with hr | rfl
    · exact h.tfd r hr
    · exact hfd
  · rw [hinterest, List.map_append, List.map_singleton, List.nodup_append_comm]
    exact List.nodup_cons.mpr ⟨hnew, h.distinct⟩
  · rw [hloop] at hu
    rw [hinterest, List.map_append]
    exact List.mem_append_left _ (h.registered u hu)

/-- The descriptor and the block of a registration tell it from the others. -/
theorem Sound.fst_eq_iff (h : Sound before s) {r : Int × Nat} {fd : Int} {t : Nat} (hmem : (fd, t) ∈ s.interest)
    (hr : r ∈ s.interest) : r.1 = fd ↔ r.2 = t := by
  constructor
  · intro hfd
    have heq := List.inj_on_of_nodup_map h.distinct hr hmem hfd
    rw [heq]
  · intro ht
    have hsame := h.tfd r hr
    rw [ht, h.tfd _ hmem] at hsame
    exact (Option.some.inj hsame).symm

theorem Sound.pointers_nodup (h : Sound before s) : (s.interest.map Prod.snd).Nodup := by
  refine h.distinct.of_map.map_on fun r hr q hq heq => ?_
  exact Prod.ext ((h.fst_eq_iff hq hr).mpr heq) heq

theorem Sound.mem_of_registered (h : Sound before s) {t : Nat} (ht : t ∈ s.loop.registered) {fd : Int}
    (hfd : s.tfd t = some fd) : (fd, t) ∈ s.interest := by
  obtain ⟨r, hr, rfl⟩ := List.mem_map.mp (h.registered t ht)
  rw [h.tfd r hr] at hfd
  obtain rfl := Option.some.inj hfd
  exact hr

/-- A step of the timer thread that takes a timer out of the interest list. -/
theorem Sound.unregisters {t : Nat} {events : List Nat} {fd : Int} (h : Sound before s)
    (hbefore : s.loop.registered = t :: events) (hblock : s.loop.block = none) (hafter : s'.loop = .close t events)
    (hfd : s.tfd t = some fd) (hadder : s'.adder = s.adder) (hopened : s'.opened = s.opened)
    (hblocks : s'.blocks = s.blocks) (hinterest : s'.interest = s.interest.filter fun r => r.1 ≠ fd) :
    Sound before s' := by
  have htfd : s'.tfd = s.tfd := by
    unfold Threads.tfd
    rw [hblocks]
  have hmem : (fd, t) ∈ s.interest := h.mem_of_registered (hbefore ▸ List.mem_cons_self) hfd
  have hmem' : ∀ r, r ∈ s'.interest ↔ r ∈ s.interest ∧ r.1 ≠ fd := by
    intro r
    rw [hinterest, List.mem_filter, decide_eq_true_eq]
  have hsnd : ∀ u, u ∈ s'.interest.map Prod.snd ↔ u ∈ s.interest.map Prod.snd ∧ u ≠ t := by
    intro u
    rw [List.mem_map, List.mem_map]
    constructor
    · rintro ⟨r, hr, rfl⟩
      obtain ⟨hr, hne⟩ := (hmem' r).mp hr
      exact ⟨⟨r, hr, rfl⟩, fun hu => hne ((h.fst_eq_iff hmem hr).mpr hu)⟩
    · rintro ⟨⟨r, hr, rfl⟩, hne⟩
      exact ⟨r, (hmem' r).mpr ⟨hr, fun hd => hne ((h.fst_eq_iff hmem hr).mp hd)⟩, rfl⟩
  have hfst : ∀ d, d ∈ s'.interest.map Prod.fst ↔ d ∈ s.interest.map Prod.fst ∧ d ≠ fd := by
    intro d
    rw [List.mem_map, List.mem_map]
    constructor
    · rintro ⟨r, hr, rfl⟩
      obtain ⟨hr, hne⟩ := (hmem' r).mp hr
      exact ⟨⟨r, hr, rfl⟩, hne⟩
    · rintro ⟨⟨r, hr, rfl⟩, hne⟩
      exact ⟨r, (hmem' r).mpr ⟨hr, hne⟩, rfl⟩
  have hopen : s.loop.open_block = none := by
    cases hn : s.loop.open_block with
    | none => rfl
    | some u => cases hblock.symm.trans (Loop.block_of_open_block hn)
  have hcall : ∀ o, o ≠ .loop → s'.block o = s.block o ∧ s'.open_block o = s.open_block o := by
    intro o ho
    cases o with
    | call u =>
      unfold block open_block
      rw [hadder]
      exact ⟨rfl, rfl⟩
    | loop => exact absurd rfl ho
    | interest => exact ⟨rfl, rfl⟩
  have hloop : s'.block .loop = some t ∧ s'.open_block .loop = some t := by
    unfold block open_block
    rw [hafter]
    exact ⟨rfl, rfl⟩
  have hli : (Owner.loop : Owner T) ≠ .interest := fun hn => by cases hn
  refine ⟨h.blocks.transfer (o := .interest) (q := .loop) (a := t) ?_ (fun u => ?_) (fun u => ?_) (fun o u hoi ho => ?_)
      fun u => by rw [hblocks],
    h.descriptors.transfer (o := .interest) (q := .loop) (a := fd) ?_ (fun d => ?_) (fun d => ?_)
      (fun o d hoi ho => ?_) fun d => by rw [hopened],
    fun r hr => ?_, ?_, ?_, fun u hu => ?_, by rw [hopened]; exact h.kept⟩
  · exact (holds_interest s t).mpr (List.mem_map_of_mem hmem)
  · rw [holds_interest, holds_interest, hsnd]
  · rw [holds_iff hli, holds_iff hli, hloop.1]
    show some t = some u ↔ s.loop.block = some u ∨ u = t
    rw [hblock]
    exact ⟨fun hu => .inr (Option.some.inj hu).symm, fun hor => hor.elim (fun hn => by cases hn) fun hu => hu ▸ rfl⟩
  · rw [holds_iff hoi, holds_iff hoi, (hcall o ho).1]
  · exact (keeps_interest s fd).mpr (List.mem_map_of_mem hmem)
  · rw [keeps_interest, keeps_interest, hfst]
  · rw [keeps_iff hli, keeps_iff hli, hloop.2, htfd]
    show (∃ u, some t = some u ∧ s.tfd u = some d) ↔ (∃ u, s.loop.open_block = some u ∧ s.tfd u = some d) ∨ d = fd
    rw [hopen]
    constructor
    · rintro ⟨u, hu, hd⟩
      obtain rfl := Option.some.inj hu
      exact .inr (Option.some.inj (hd.symm.trans hfd))
    · rintro (⟨u, hn, -⟩ | rfl)
      · cases hn
      · exact ⟨t, rfl, hfd⟩
  · rw [keeps_iff hoi, keeps_iff hoi, (hcall o ho).2, htfd]
  · rw [htfd]
    exact h.tfd r ((hmem' r).mp hr).1
  · rw [hinterest]
    exact h.distinct.sublist (List.filter_sublist.map _)
  · have hevents := h.events
    rw [hbefore] at hevents
    rw [hafter]
    exact (List.nodup_cons.mp hevents).2
  · have hevents := h.events
    rw [hbefore] at hevents
    rw [hafter] at hu
    refine (hsnd u).mpr ⟨h.registered u (hbefore ▸ List.mem_cons_of_mem _ hu), ?_⟩
    rintro rfl
    exact (List.nodup_cons.mp hevents).1 hu

/-- The descriptor of an owner other than the epoll instance is not registered. -/
theorem Sound.interest_close {p : Owner T} {t : Nat} {fd : Int} (h : Sound before s) (hp : s.open_block p = some t)
    (hfd : s.tfd t = some fd) : (s.close fd).interest = s.interest := by
  refine List.filter_eq_self.mpr fun r hr => decide_eq_true fun hd => ?_
  have hi := (keeps_interest s fd).mpr (List.mem_map.mpr ⟨r, hr, hd⟩)
  obtain rfl := h.descriptors.sole .interest p fd hi (.inl ⟨t, hp, hfd⟩)
  cases hp

/-- A step that closes the descriptor of a block that is not registered. -/
theorem Sound.closes {p : Owner T} {t : Nat} {fd : Int} (h : Sound before s) (hp : s.open_block p = some t)
    (hfd : s.tfd t = some fd) (hblock : ∀ o, s'.block o = s.block o) (hnone : s'.open_block p = none)
    (hother : ∀ o, o ≠ p → s'.open_block o = s.open_block o) (hclose : s'.interest = (s.close fd).interest)
    (hopened : s'.opened = (s.close fd).opened) (hblocks : s'.blocks = s.blocks)
    (hevents : s'.loop.registered = s.loop.registered) : Sound before s' := by
  have htfd : s'.tfd = s.tfd := by
    unfold Threads.tfd
    rw [hblocks]
  have hkeeps : s.Keeps p fd := .inl ⟨t, hp, hfd⟩
  have hpi : p ≠ .interest := by
    rintro rfl
    cases hp
  have hinterest : s'.interest = s.interest := hclose.trans (h.interest_close hp hfd)
  have hopened' : ∀ d, s'.opened d = if d = fd then none else s.opened d := fun d => by rw [hopened]; rfl
  refine ⟨h.blocks.congr (fun o u => ?_) fun u => by rw [hblocks],
    h.descriptors.release (o := p) (a := fd) hkeeps (fun d => ?_) (fun o d ho => ?_) fun d => ?_,
    by rw [hinterest, htfd]; exact h.tfd, by rw [hinterest]; exact h.distinct, by rw [hevents]; exact h.events,
    by rw [hevents, hinterest]; exact h.registered, fun d on hon => ?_⟩
  · unfold Holds
    rw [hblock, hinterest]
  · rw [keeps_iff hpi, keeps_iff hpi, hnone, hp]
    constructor
    · rintro ⟨u, hn, -⟩
      cases hn
    · rintro ⟨⟨u, hu, hd⟩, hne⟩
      obtain rfl := Option.some.inj hu
      exact absurd (Option.some.inj (hd.symm.trans hfd)) hne
  · unfold Keeps
    rw [hother o ho, hinterest, htfd]
  · rw [hopened']
    split
    · rename_i hd
      exact ⟨fun hn => (by cases hn), fun hand => absurd hd hand.2⟩
    · rename_i hd
      exact ⟨fun hsome => ⟨hsome, hd⟩, And.left⟩
  · rw [hopened', ← h.kept d on hon]
    split
    · rename_i hd
      rw [hd, h.descriptors.used_of hkeeps]
      exact ⟨fun hn => (by cases hn), fun hx => absurd (Option.some.inj hx).symm hon⟩
    · exact Iff.rfl

/-- A step that frees a block whose descriptor is closed. -/
theorem Sound.frees {p : Owner T} {t : Nat} (h : Sound before s) (hp : s.block p = some t)
    (hclosed : s.open_block p = none) (hnone : s'.block p = none) (hother : ∀ o, o ≠ p → s'.block o = s.block o)
    (hopen : ∀ o, s'.open_block o = s.open_block o) (hinterest : s'.interest = s.interest)
    (hopened : s'.opened = s.opened) (hblocks : s'.blocks = s.blocks.free t)
    (hevents : s'.loop.registered = s.loop.registered) : Sound before s' := by
  have htfd : ∀ u, u ≠ t → s'.tfd u = s.tfd u := by
    intro u hu
    unfold Threads.tfd
    rw [hblocks, Heap.cells_free_of_ne hu]
  have hpi : p ≠ .interest := by
    rintro rfl
    cases hp
  refine ⟨h.blocks.release (o := p) (a := t) (.inl hp) (fun u => ?_) (fun o u ho => ?_) fun u => ?_,
    h.descriptors.congr (fun o d => ?_) fun d => by rw [hopened], fun r hr => ?_, by rw [hinterest]; exact h.distinct,
    by rw [hevents]; exact h.events, by rw [hevents, hinterest]; exact h.registered, by rw [hopened]; exact h.kept⟩
  · rw [holds_iff hpi, holds_iff hpi, hnone, hp]
    exact ⟨fun hn => (by cases hn), fun hand => absurd (Option.some.inj hand.1).symm hand.2⟩
  · unfold Holds
    rw [hother o ho, hinterest]
  · rw [hblocks, Heap.cells_free]
    split
    · rename_i hu
      exact ⟨fun hn => (by cases hn), fun hand => absurd hu hand.2⟩
    · rename_i hu
      exact ⟨fun hsome => ⟨hsome, hu⟩, And.left⟩
  · unfold Keeps
    rw [hopen, hinterest]
    refine or_congr (exists_congr fun u => and_congr_right fun hu => ?_) Iff.rfl
    have hne : u ≠ t := by
      rintro rfl
      obtain rfl := h.blocks.sole o p u (.inl (block_of_open_block hu)) (.inl hp)
      cases hclosed.symm.trans hu
    rw [htfd u hne]
  · rw [hinterest] at hr
    rw [htfd r.2 (h.not_registered hp hr)]
    exact h.tfd r hr

end Threads

end mock_uas.timer_manager
