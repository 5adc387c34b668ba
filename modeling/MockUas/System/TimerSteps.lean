import MockUas.System.TimerThreads

open clib

namespace mock_uas.timer_manager

/-- The timer whose callback was called and which is still registered. -/
def Loop.spent : Loop → Option Nat
  | .calling t _ | .epoll_ctl t _ => some t
  | _ => none

/-- How much of its block a call has filled in. -/
def Adder.Prepared (cells : Nat → Option Block) : Adder → Prop
  | .user_data timer t => ∃ block, cells t = some block ∧ block.cb = timer.cb
  | .timerfd_create timer t | .timerfd_settime timer t | .epoll_ctl timer t =>
    ∃ block, cells t = some block ∧ block.totimer_s = timer
  | _ => True

theorem Adder.Prepared.congr {place : Adder} {cells cells' : Nat → Option Block} (h : place.Prepared cells)
    (hsame : ∀ t, place.block = some t → cells' t = cells t) : place.Prepared cells' := by
  cases place with
  | user_data timer t =>
    obtain ⟨block, hcell, hcb⟩ := h
    exact ⟨block, (hsame t rfl).trans hcell, hcb⟩
  | timerfd_create timer t =>
    obtain ⟨block, hcell, htimer⟩ := h
    exact ⟨block, (hsame t rfl).trans hcell, htimer⟩
  | timerfd_settime timer t =>
    obtain ⟨block, hcell, htimer⟩ := h
    exact ⟨block, (hsame t rfl).trans hcell, htimer⟩
  | epoll_ctl timer t =>
    obtain ⟨block, hcell, htimer⟩ := h
    exact ⟨block, (hsame t rfl).trans hcell, htimer⟩
  | _ => trivial

namespace Threads

variable {T : Type}

def timer (s : Threads T) (t : Nat) : Option timer_s := (s.blocks.cells t).map Block.totimer_s

theorem timer_of_cells {s : Threads T} {t : Nat} {block : Block} (hcell : s.blocks.cells t = some block) :
    s.timer t = some block.totimer_s := congrArg (Option.map Block.totimer_s) hcell

/-- The timers that are registered and whose callback was not called. -/
def timers (s : Threads T) : List timer_s :=
  ((s.interest.map Prod.snd).filter fun t => s.loop.spent ≠ some t).filterMap s.timer

/-- What a step does to the timers, as the rest of the server sees it. -/
inductive Effect (s s' : Threads T) : Prop where
  | quiet (hconcluded : s'.concluded = s.concluded) (hcalled : s'.called = s.called) (htimers : s'.timers = s.timers)
  | fails (timer : timer_s) (hconcluded : s'.concluded = s.concluded ++ [(timer, -1)]) (hcalled : s'.called = s.called)
      (htimers : s'.timers = s.timers)
  | arms (timer : timer_s) (hstarted : 0 ≤ s.epfd) (hconcluded : s'.concluded = s.concluded ++ [(timer, 0)])
      (hcalled : s'.called = s.called) (htimers : s'.timers = s.timers ++ [timer])
  | fires (timer : timer_s) (hconcluded : s'.concluded = s.concluded) (hcalled : s'.called = s.called ++ [timer])
      (htimers : s.timers.Perm (timer :: s'.timers))

/-- The calls have filled in their blocks, as far as they are. -/
def Prepared (s : Threads T) : Prop := ∀ u, (s.adder u).Prepared s.blocks.cells

/-- An owner writes to no block but its own. -/
def Frame (s s' : Threads T) (p : Owner T) : Prop :=
  ∀ t, s.block p ≠ some t → (s.blocks.cells t).isSome = true → s'.blocks.cells t = s.blocks.cells t

variable {before : Int → Option Descriptor} {s s' : Threads T} {p : Owner T}

theorem Frame.prepared (hframe : Frame s s' p) (h : Sound before s) (hprepared : Prepared s)
    (hother : ∀ v, Owner.call v ≠ p → s'.adder v = s.adder v)
    (hself : ∀ v, Owner.call v = p → (s'.adder v).Prepared s'.blocks.cells) : Prepared s' := by
  intro v
  by_cases hv : Owner.call v = p
  · exact hself v hv
  · rw [hother v hv]
    refine (hprepared v).congr fun t ht => hframe t (fun hp => hv ?_) ?_
    · exact h.blocks.sole _ p t (.inl ht) (.inl hp)
    · exact h.blocks.used_of (o := .call v) (.inl ht)

theorem Frame.timers_eq (hframe : Frame s s' p) (h : Sound before s) (hinterest : s'.interest = s.interest)
    (hspent : s'.loop.spent = s.loop.spent) : s'.timers = s.timers := by
  unfold timers
  rw [hinterest, hspent]
  refine List.filterMap_congr fun t ht => ?_
  obtain ⟨r, hr, rfl⟩ := List.mem_map.mp (List.mem_of_mem_filter ht)
  unfold timer
  rw [hframe r.2 (fun hp => h.not_registered hp hr rfl)]
  exact h.blocks.used_of ((holds_interest s r.2).mpr (List.mem_map_of_mem hr))

theorem Frame.of_blocks (hblocks : s'.blocks = s.blocks) : Frame s s' p := fun _ _ _ => by rw [hblocks]

theorem Frame.of_alloc {block : Block} (hblocks : s'.blocks = s.blocks.alloc block) : Frame s s' p := by
  intro t _ hlive
  obtain ⟨b, hb⟩ := Option.isSome_iff_exists.mp hlive
  rw [hblocks, Heap.cells_alloc_of_cells hb, hb]

theorem Frame.of_set {t : Nat} {block : Block} (hp : s.block p = some t) (hblocks : s'.blocks = s.blocks.set t block) :
    Frame s s' p := by
  intro u hu _
  rw [hblocks, Heap.cells_set_of_ne]
  rintro rfl
  exact hu hp

theorem Frame.of_free {t : Nat} (hp : s.block p = some t) (hblocks : s'.blocks = s.blocks.free t) : Frame s s' p := by
  intro u hu _
  rw [hblocks, Heap.cells_free_of_ne]
  rintro rfl
  exact hu hp

/-- A timer whose callback was called is registered. -/
theorem Sound.spent_registered (h : Sound before s) {t : Nat} (hspent : s.loop.spent = some t) :
    t ∈ s.interest.map Prod.snd := by
  refine h.registered t ?_
  cases hplace : s.loop <;> rw [hplace] at hspent <;>
    first | exact Option.some.inj hspent ▸ List.mem_cons_self | cases hspent

/-- What a step keeps and does. -/
structure Advance (before : Int → Option Descriptor) (s s' : Threads T) : Prop where
  sound : Sound before s'
  prepared : Prepared s'
  effect : Effect s s'
  epfd : s'.epfd = s.epfd

section

variable [DecidableEq T] {u : Option T} {place : Adder}

theorem adder_move_self (s : Threads T) (u : Option T) (place : Adder) : (s.move u place).adder u = place := if_pos rfl

theorem adder_moved (hadder : s'.adder = (s.move u place).adder) : s'.adder u = place := by
  rw [hadder, adder_move_self]

theorem adder_moved_of_ne (hadder : s'.adder = (s.move u place).adder) {v : Option T} (hv : Owner.call v ≠ .call u) :
    s'.adder v = s.adder v := by
  rw [hadder]
  exact if_neg fun h => hv (congrArg Owner.call h)

theorem block_moved (hadder : s'.adder = (s.move u place).adder) : s'.block (.call u) = place.block :=
  congrArg Adder.block (adder_moved hadder)

theorem open_block_moved (hadder : s'.adder = (s.move u place).adder) : s'.open_block (.call u) = place.open_block :=
  congrArg Adder.open_block (adder_moved hadder)

theorem moved_of_ne (hadder : s'.adder = (s.move u place).adder) (hloop : s'.loop = s.loop) {o : Owner T}
    (ho : o ≠ .call u) : s'.block o = s.block o ∧ s'.open_block o = s.open_block o := by
  cases o with
  | call v =>
    have hsame := adder_moved_of_ne hadder ho
    exact ⟨congrArg Adder.block hsame, congrArg Adder.open_block hsame⟩
  | loop => exact ⟨congrArg Loop.block hloop, congrArg Loop.open_block hloop⟩
  | interest => exact ⟨rfl, rfl⟩

theorem block_moved_same (hadder : s'.adder = (s.move u place).adder) (hloop : s'.loop = s.loop)
    (hsame : place.block = (s.adder u).block) (o : Owner T) : s'.block o = s.block o := by
  by_cases ho : o = .call u
  · rw [ho, block_moved hadder, hsame]
    rfl
  · exact (moved_of_ne hadder hloop ho).1

theorem open_block_moved_same (hadder : s'.adder = (s.move u place).adder) (hloop : s'.loop = s.loop)
    (hsame : place.open_block = (s.adder u).open_block) (o : Owner T) : s'.open_block o = s.open_block o := by
  by_cases ho : o = .call u
  · rw [ho, open_block_moved hadder, hsame]
    rfl
  · exact (moved_of_ne hadder hloop ho).2

/-- A statement of a call that leaves the heap and the kernel alone. -/
theorem Sound.moves (h : Sound before s) (hprepared : Prepared s) (s' : Threads T)
    (hadder : s'.adder = (s.move u place).adder) (hloop : s'.loop = s.loop) (hblock : place.block = (s.adder u).block)
    (hopen : place.open_block = (s.adder u).open_block) (hready : place.Prepared s.blocks.cells)
    (hblocks : s'.blocks = s.blocks) (hinterest : s'.interest = s.interest) (hopened : s'.opened = s.opened) :
    Sound before s' ∧ Prepared s' ∧ s'.timers = s.timers := by
  have hframe : Frame s s' (.call u) := .of_blocks hblocks
  refine ⟨h.quiet (block_moved_same hadder hloop hblock) (open_block_moved_same hadder hloop hopen) hinterest hopened
    (fun t => by rw [hblocks]) (fun t => .inl ?_) ?_ ?_, hframe.prepared h hprepared ?_ ?_,
    hframe.timers_eq h hinterest (by rw [hloop])⟩
  · unfold Threads.tfd
    rw [hblocks]
  · rw [hloop]
    exact h.events
  · rw [hloop]
    exact h.registered
  · exact fun v hv => adder_moved_of_ne hadder hv
  · intro v hv
    obtain rfl := Owner.call.inj hv
    rw [adder_moved hadder, hblocks]
    exact hready

/-- A statement of a call that goes on. -/
theorem Sound.goes_on (h : Sound before s) (hprepared : Prepared s) (hblock : place.block = (s.adder u).block)
    (hopen : place.open_block = (s.adder u).open_block) (hready : place.Prepared s.blocks.cells) :
    Advance before s (s.move u place) := by
  obtain ⟨hsound, hprepared', htimers⟩ :=
    h.moves hprepared (s.move u place) rfl rfl hblock hopen hready rfl rfl rfl
  exact ⟨hsound, hprepared', .quiet rfl rfl htimers, rfl⟩

/-- A statement of a call that makes it fail. -/
theorem Sound.gives_up (h : Sound before s) (hprepared : Prepared s) (timer : timer_s)
    (hblock : place.block = (s.adder u).block) (hopen : place.open_block = (s.adder u).open_block)
    (hready : place.Prepared s.blocks.cells) : Advance before s ((s.conclude timer (-1)).move u place) := by
  obtain ⟨hsound, hprepared', htimers⟩ := h.moves hprepared ((s.conclude timer (-1)).move u place) rfl rfl hblock
    hopen hready rfl rfl rfl
  exact ⟨hsound, hprepared', .fails timer rfl rfl htimers, rfl⟩

/-- A statement of a call that writes to its block, whose descriptor it has not opened. -/
theorem Sound.writes {t : Nat} {block : Block} (h : Sound before s) (hprepared : Prepared s) (s' : Threads T)
    (hadder : s'.adder = (s.move u place).adder) (hloop : s'.loop = s.loop) (hhas : (s.adder u).block = some t)
    (hclosed : (s.adder u).open_block = none) (hblock : place.block = some t) (hopen : place.open_block = none)
    (hready : place.Prepared s'.blocks.cells) (hblocks : s'.blocks = s.blocks.set t block)
    (hinterest : s'.interest = s.interest) (hopened : s'.opened = s.opened) :
    Sound before s' ∧ Prepared s' ∧ s'.timers = s.timers := by
  have hframe : Frame s s' (.call u) := .of_set hhas hblocks
  refine ⟨h.quiet (block_moved_same hadder hloop (hblock.trans hhas.symm))
      (open_block_moved_same hadder hloop (hopen.trans hclosed.symm)) hinterest hopened (fun v => ?_) (fun v => ?_)
      ?_ ?_,
    hframe.prepared h hprepared (fun v hv => adder_moved_of_ne hadder hv) ?_,
    hframe.timers_eq h hinterest (by rw [hloop])⟩
  · rw [hblocks, Heap.isSome_cells_set]
  · by_cases hv : v = t
    · exact .inr ⟨.call u, hv ▸ hhas, hclosed⟩
    · refine .inl ?_
      unfold Threads.tfd
      rw [hblocks, Heap.cells_set_of_ne hv]
  · rw [hloop]
    exact h.events
  · rw [hloop]
    exact h.registered
  · intro v hv
    obtain rfl := Owner.call.inj hv
    rw [adder_moved hadder]
    exact hready

/-- A statement of a call that fills in its block. -/
theorem Sound.fills_in {t : Nat} {block : Block} (h : Sound before s) (hprepared : Prepared s)
    (hhas : (s.adder u).block = some t) (hclosed : (s.adder u).open_block = none) (hblock : place.block = some t)
    (hopen : place.open_block = none) (hready : place.Prepared (s.blocks.set t block).cells) :
    Advance before s ((s.write t block).move u place) := by
  obtain ⟨hsound, hprepared', htimers⟩ := h.writes hprepared ((s.write t block).move u place) rfl rfl hhas hclosed
    hblock hopen hready rfl rfl rfl
  exact ⟨hsound, hprepared', .quiet rfl rfl htimers, rfl⟩

/-- The `timerfd_create` of a call that succeeds. -/
theorem Sound.creates {t : Nat} {fd : Int} {block : Block} {timer : timer_s} (h : Sound before s)
    (hprepared : Prepared s) (hplace : s.adder u = .timerfd_create timer t) (hcell : s.blocks.cells t = some block)
    (htimer : block.totimer_s = timer) (hfree : s.opened fd = none)
    (hadder : s'.adder = (s.move u (.timerfd_settime timer t)).adder) (hloop : s'.loop = s.loop)
    (hblocks : s'.blocks = s.blocks.set t { block with tfd := fd }) (hinterest : s'.interest = s.interest)
    (hopened : s'.opened = (s.open_descriptor fd .timer).opened) (hconcluded : s'.concluded = s.concluded)
    (hcalled : s'.called = s.called) (hepfd : s'.epfd = s.epfd) : Advance before s s' := by
  have hhas : s.block (.call u) = some t := congrArg Adder.block hplace
  have hclosed : s.open_block (.call u) = none := congrArg Adder.open_block hplace
  have hset : s'.blocks.cells t = some { block with tfd := fd } := by rw [hblocks, Heap.cells_set_self hcell]
  have hframe : Frame s s' (.call u) := .of_set hhas hblocks
  refine ⟨h.opens (p := .call u) hhas hclosed hfree (block_moved_same hadder hloop (by rw [hplace]; rfl))
      (open_block_moved hadder) (fun o ho => (moved_of_ne hadder hloop ho).2) hinterest (fun d => by rw [hopened]; rfl)
      (fun v => by rw [hblocks, Heap.isSome_cells_set]) ?_ (fun v hv => ?_) hloop,
    hframe.prepared h hprepared (fun v hv => adder_moved_of_ne hadder hv) (fun v hv => ?_),
    .quiet hconcluded hcalled (hframe.timers_eq h hinterest (by rw [hloop])), hepfd⟩
  · unfold Threads.tfd
    rw [hset]
    rfl
  · unfold Threads.tfd
    rw [hblocks, Heap.cells_set_of_ne hv]
  · obtain rfl := Owner.call.inj hv
    rw [adder_moved hadder]
    exact ⟨_, hset, htimer⟩

/-- The `EPOLL_CTL_ADD` of a call that succeeds. -/
theorem Sound.arms {t : Nat} {block : Block} {timer : timer_s} (h : Sound before s) (hprepared : Prepared s)
    (hstarted : 0 ≤ s.epfd) (hplace : s.adder u = .epoll_ctl timer t) (hcell : s.blocks.cells t = some block)
    (htimer : block.totimer_s = timer)
    (hadder : s'.adder = (s.move u (.done 0)).adder) (hloop : s'.loop = s.loop) (hblocks : s'.blocks = s.blocks)
    (hinterest : s'.interest = s.interest ++ [(block.tfd, t)]) (hopened : s'.opened = s.opened)
    (hconcluded : s'.concluded = s.concluded ++ [(timer, 0)]) (hcalled : s'.called = s.called)
    (hepfd : s'.epfd = s.epfd) : Advance before s s' := by
  have hhas : s.open_block (.call u) = some t := congrArg Adder.open_block hplace
  have hfd : s.tfd t = some block.tfd := tfd_of_cells hcell
  have hframe : Frame s s' (.call u) := .of_blocks hblocks
  have hspent : s.loop.spent ≠ some t := by
    intro hspent
    obtain ⟨r, hr, hrt⟩ := List.mem_map.mp (h.spent_registered hspent)
    exact h.not_registered (block_of_open_block hhas) hr hrt
  refine ⟨h.registers hhas hfd (block_moved hadder) (open_block_moved hadder)
      (fun o ho => (moved_of_ne hadder hloop ho).1) (fun o ho => (moved_of_ne hadder hloop ho).2) hinterest hopened
      hblocks hloop,
    hframe.prepared h hprepared (fun v hv => adder_moved_of_ne hadder hv) (fun v hv => ?_),
    .arms timer hstarted hconcluded hcalled ?_, hepfd⟩
  · obtain rfl := Owner.call.inj hv
    rw [adder_moved hadder]
    trivial
  · have hsame : s'.timer = s.timer := by
      unfold Threads.timer
      rw [hblocks]
    have hlast : s.timer t = some timer := by rw [timer_of_cells hcell, htimer]
    have hfilter : ([(block.tfd, t)].map Prod.snd).filter (fun u => s.loop.spent ≠ some u) = [t] :=
      List.filter_cons_of_pos (decide_eq_true hspent)
    unfold timers
    rw [hinterest, hloop, hsame, List.map_append, List.filter_append, List.filterMap_append, hfilter,
      List.filterMap_cons_some hlast, List.filterMap_nil]

/-- The `close` of a call that failed. -/
theorem Sound.call_closes {t : Nat} {block : Block} (h : Sound before s) (hprepared : Prepared s)
    (hplace : s.adder u = .close t) (hcell : s.blocks.cells t = some block) :
    Advance before s ((s.close block.tfd).move u (.free t)) := by
  have hhas : s.open_block (.call u) = some t := congrArg Adder.open_block hplace
  have hfd : s.tfd t = some block.tfd := tfd_of_cells hcell
  have hframe : Frame s ((s.close block.tfd).move u (.free t)) (.call u) := .of_blocks rfl
  refine ⟨h.closes (p := .call u) hhas hfd (block_moved_same rfl rfl (by rw [hplace]; rfl)) (open_block_moved rfl)
      (fun o ho => (moved_of_ne rfl rfl ho).2) rfl rfl rfl rfl,
    hframe.prepared h hprepared (fun v hv => if_neg fun heq => hv (congrArg _ heq)) (fun v hv => ?_),
    .quiet rfl rfl (hframe.timers_eq h (h.interest_close hhas hfd) rfl), rfl⟩
  obtain rfl := Owner.call.inj hv
  rw [adder_move_self]
  trivial

/-- The `free` of a call that failed. -/
theorem Sound.call_frees {t : Nat} (h : Sound before s) (hprepared : Prepared s) (hplace : s.adder u = .free t) :
    Advance before s ((s.free t).move u (.done (-1))) := by
  have hhas : s.block (.call u) = some t := congrArg Adder.block hplace
  have hclosed : s.open_block (.call u) = none := congrArg Adder.open_block hplace
  have hframe : Frame s ((s.free t).move u (.done (-1))) (.call u) := .of_free hhas rfl
  refine ⟨h.frees hhas hclosed (block_moved rfl) (fun o ho => (moved_of_ne rfl rfl ho).1)
      (open_block_moved_same rfl rfl (by rw [hplace]; rfl)) rfl rfl rfl rfl,
    hframe.prepared h hprepared (fun v hv => if_neg fun heq => hv (congrArg _ heq)) (fun v hv => ?_),
    .quiet rfl rfl (hframe.timers_eq h rfl rfl), rfl⟩
  obtain rfl := Owner.call.inj hv
  rw [adder_move_self]
  trivial

/-- The statement of a call that is next does not fault, and keeps every block and descriptor
with its owner. -/
theorem Sound.add_spec (h : Sound before s) (hprepared : Prepared s)
    (hstarted : before s.epfd = some .epoll → 0 ≤ s.epfd) (u : Option T) (answers : Answers) :
    ∃ s', s.add u answers = ok s' ∧ Advance before s s' := by
  have hcells : ∀ t, (s.adder u).block = some t → ∃ block, s.blocks.cells t = some block :=
    fun t ht => h.cells (o := .call u) ht
  have hready := hprepared u
  unfold add
  cases hplace : s.adder u with
  | outside => exact ⟨s, rfl, h, hprepared, .quiet rfl rfl rfl, rfl⟩
  | test timer =>
    dsimp only
    split
    · exact ⟨_, rfl, h.gives_up hprepared timer (by rw [hplace]; rfl) (by rw [hplace]; rfl) trivial⟩
    · exact ⟨_, rfl, h.goes_on hprepared (by rw [hplace]; rfl) (by rw [hplace]; rfl) trivial⟩
  | malloc timer =>
    cases answers.malloc with
    | none => exact ⟨_, rfl, h.gives_up hprepared timer (by rw [hplace]; rfl) (by rw [hplace]; rfl) trivial⟩
    | some block =>
      have hnone : s.block (.call u) = none := congrArg Adder.block hplace
      have hopen : (Adder.cb timer s.blocks.next).open_block = (s.adder u).open_block := by rw [hplace]; rfl
      refine ⟨_, rfl, ?_⟩
      have hframe : Frame s ({ s with blocks := s.blocks.alloc block }.move u (.cb timer s.blocks.next)) (.call u) :=
        .of_alloc rfl
      refine ⟨h.allocates (p := .call u) (fun hi => by cases hi) hnone (block_moved rfl)
          (fun o ho => (moved_of_ne rfl rfl ho).1) (open_block_moved_same rfl rfl hopen) rfl rfl rfl rfl,
        hframe.prepared h hprepared (fun v hv => adder_moved_of_ne rfl hv) ?_,
        .quiet rfl rfl (hframe.timers_eq h rfl rfl), rfl⟩
      intro v hv
      obtain rfl := Owner.call.inj hv
      rw [adder_move_self]
      trivial
  | cb timer t =>
    rw [hplace] at hcells
    obtain ⟨block, hcell⟩ := hcells t rfl
    simp only [Heap.read_of_cells hcell, bind_ok]
    refine ⟨_, rfl, h.fills_in hprepared (by rw [hplace]; rfl) (by rw [hplace]; rfl) rfl rfl ?_⟩
    exact ⟨_, Heap.cells_set_self hcell, rfl⟩
  | user_data timer t =>
    rw [hplace] at hready
    obtain ⟨⟨⟨cb, user_data⟩, tfd⟩, hcell, hcb⟩ := hready
    obtain rfl : cb = timer.cb := hcb
    simp only [Heap.read_of_cells hcell, bind_ok]
    refine ⟨_, rfl, h.fills_in hprepared (by rw [hplace]; rfl) (by rw [hplace]; rfl) rfl rfl ?_⟩
    exact ⟨_, Heap.cells_set_self hcell, rfl⟩
  | timerfd_create timer t =>
    rw [hplace] at hready
    obtain ⟨block, hcell, htimer⟩ := hready
    simp only [Heap.read_of_cells hcell, bind_ok]
    unfold timerfd_create
    split
    · rename_i hfree
      dsimp only
      rw [if_neg (Int.not_lt.mpr hfree.1)]
      exact ⟨_, rfl, h.creates hprepared hplace hcell htimer hfree.2 rfl rfl rfl rfl rfl rfl rfl rfl⟩
    · dsimp only
      rw [if_pos (by decide)]
      obtain ⟨hsound, hprepared', htimers⟩ := h.writes hprepared
        (((s.write t { block with tfd := -1 }).conclude timer (-1)).move u (.free t)) rfl rfl (by rw [hplace]; rfl)
        (by rw [hplace]; rfl) rfl rfl trivial rfl rfl rfl
      exact ⟨_, rfl, hsound, hprepared', .fails timer rfl rfl htimers, rfl⟩
  | timerfd_settime timer t =>
    rw [hplace] at hready
    obtain ⟨block, hcell, htimer⟩ := hready
    simp only [Heap.read_of_cells hcell, bind_ok]
    split
    · exact ⟨_, rfl, h.gives_up hprepared timer (by rw [hplace]; rfl) (by rw [hplace]; rfl) trivial⟩
    · exact ⟨_, rfl, h.goes_on hprepared (by rw [hplace]; rfl) (by rw [hplace]; rfl) ⟨block, hcell, htimer⟩⟩
  | epoll_ctl timer t =>
    rw [hplace] at hready
    obtain ⟨block, hcell, htimer⟩ := hready
    simp only [Heap.read_of_cells hcell, bind_ok]
    unfold epoll_ctl_add
    split
    · rename_i hwilling
      dsimp only
      rw [if_neg (by decide)]
      have hepfd := hstarted ((h.kept _ _ (by decide)).mp hwilling.2.1)
      exact ⟨_, rfl, h.arms hprepared hepfd hplace hcell htimer rfl rfl rfl rfl rfl rfl rfl rfl⟩
    · dsimp only
      rw [if_pos (by decide)]
      exact ⟨_, rfl, h.gives_up hprepared timer (by rw [hplace]; rfl) (by rw [hplace]; rfl) trivial⟩
  | close t =>
    rw [hplace] at hcells
    obtain ⟨block, hcell⟩ := hcells t rfl
    simp only [Heap.read_of_cells hcell, bind_ok]
    exact ⟨_, rfl, h.call_closes hprepared hplace hcell⟩
  | free t =>
    rw [hplace] at hcells
    obtain ⟨block, hcell⟩ := hcells t rfl
    simp only [Heap.read_of_cells hcell, bind_ok]
    exact ⟨_, rfl, h.call_frees hprepared hplace⟩
  | done rc =>
    exact ⟨_, rfl, h.goes_on hprepared (by rw [hplace]; rfl) (by rw [hplace]; rfl) trivial⟩

end

theorem timers_of_not_spent (hspent : s.loop.spent = none) :
    s.timers = (s.interest.map Prod.snd).filterMap s.timer := by
  unfold timers
  rw [hspent, List.filter_eq_self.mpr]
  exact fun t _ => decide_eq_true fun hn => by cases hn

theorem loop_of_ne (s s' : Threads T) (hadder : s'.adder = s.adder) {o : Owner T} (ho : o ≠ .loop) :
    s'.block o = s.block o ∧ s'.open_block o = s.open_block o := by
  cases o with
  | call v => exact ⟨congrArg Adder.block (congrFun hadder v), congrArg Adder.open_block (congrFun hadder v)⟩
  | loop => exact absurd rfl ho
  | interest => exact ⟨rfl, rfl⟩

/-- The calls are where they were. -/
theorem Frame.loop_prepared (hframe : Frame s s' .loop) (h : Sound before s) (hprepared : Prepared s)
    (hadder : s'.adder = s.adder) : Prepared s' :=
  hframe.prepared h hprepared (fun v _ => by rw [hadder]) fun v hv => by cases hv

/-- A statement of the timer thread that leaves the heap and the kernel alone. -/
theorem Sound.turns (h : Sound before s) (hprepared : Prepared s) (loop : Loop) (called : List timer_s)
    (hblock : loop.block = s.loop.block) (hopen : loop.open_block = s.loop.open_block)
    (hevents : loop.registered.Nodup) (hregistered : ∀ t ∈ loop.registered, t ∈ s.interest.map Prod.snd) :
    Sound before { s with loop := loop, called := called } ∧ Prepared { s with loop := loop, called := called } := by
  have hframe : Frame s { s with loop := loop, called := called } .loop := .of_blocks rfl
  refine ⟨h.quiet (fun o => ?_) (fun o => ?_) rfl rfl (fun _ => rfl) (fun _ => .inl rfl) hevents hregistered,
    hframe.loop_prepared h hprepared rfl⟩
  · cases o with
    | loop => exact hblock
    | call v => rfl
    | interest => rfl
  · cases o with
    | loop => exact hopen
    | call v => rfl
    | interest => rfl

/-- A statement of the timer thread that goes on with the same batch. -/
theorem Sound.loop_goes_on {loop : Loop} (h : Sound before s) (hprepared : Prepared s)
    (hblock : loop.block = s.loop.block) (hopen : loop.open_block = s.loop.open_block)
    (hregistered : loop.registered = s.loop.registered) (hspent : loop.spent = s.loop.spent) :
    Advance before s { s with loop := loop } := by
  obtain ⟨hsound, hprepared'⟩ := h.turns hprepared loop s.called hblock hopen
    (by rw [hregistered]; exact h.events) (by rw [hregistered]; exact h.registered)
  have hframe : Frame s { s with loop := loop } .loop := .of_blocks rfl
  exact ⟨hsound, hprepared', .quiet rfl rfl (hframe.timers_eq h rfl hspent), rfl⟩

/-- The call of a callback. -/
theorem Sound.fires {t : Nat} {events : List Nat} {block : Block} (h : Sound before s) (hprepared : Prepared s)
    (hplace : s.loop = .cb t events) (hcell : s.blocks.cells t = some block) :
    Advance before s { s with loop := .calling t events, called := s.called ++ [block.totimer_s] } := by
  obtain ⟨hsound, hprepared'⟩ := h.turns hprepared (.calling t events) (s.called ++ [block.totimer_s])
    (by rw [hplace]; rfl) (by rw [hplace]; rfl) (by have hevents := h.events; rwa [hplace] at hevents)
    (by have hregistered := h.registered; rwa [hplace] at hregistered)
  refine ⟨hsound, hprepared', .fires block.totimer_s rfl rfl ?_, rfl⟩
  have hmem : t ∈ s.interest.map Prod.snd := h.registered t (by rw [hplace]; exact List.mem_cons_self)
  have hperm := (List.perm_cons_erase hmem).filterMap s.timer
  have htimer := timer_of_cells hcell
  rw [h.pointers_nodup.erase_eq_filter, List.filterMap_cons_some htimer] at hperm
  rw [timers_of_not_spent (by rw [hplace]; rfl)]
  refine hperm.trans (List.Perm.of_eq (congrArg _ ?_))
  unfold timers
  refine congrArg _ (List.filter_congr fun u _ => ?_)
  rw [Bool.eq_iff_iff, bne_iff_ne, decide_eq_true_eq]
  exact ⟨fun hne heq => hne (Option.some.inj heq).symm, fun hne heq => hne (congrArg some heq.symm)⟩

/-- The `EPOLL_CTL_DEL` of a timer whose callback was called. -/
theorem Sound.loop_unregisters {t : Nat} {events : List Nat} {block : Block} (h : Sound before s)
    (hprepared : Prepared s) (hplace : s.loop = .epoll_ctl t events) (hcell : s.blocks.cells t = some block) :
    Advance before s { s.epoll_ctl_del block.tfd with loop := .close t events } := by
  have hframe : Frame s { s.epoll_ctl_del block.tfd with loop := .close t events } .loop := .of_blocks rfl
  have hregistered : s.loop.registered = t :: events := by rw [hplace]; rfl
  have hfd : s.tfd t = some block.tfd := tfd_of_cells hcell
  refine ⟨h.unregisters hregistered (by rw [hplace]; rfl) rfl hfd rfl rfl rfl rfl, hframe.loop_prepared h hprepared rfl,
    .quiet rfl rfl ?_, rfl⟩
  have hmem := h.mem_of_registered (t := t) (hregistered ▸ List.mem_cons_self) hfd
  have hrest : (s.interest.filter fun r => r.1 ≠ block.tfd).map Prod.snd =
      (s.interest.map Prod.snd).filter fun u => some t ≠ some u := by
    rw [List.filter_map]
    refine congrArg _ (List.filter_congr fun r hr => ?_)
    rw [Function.comp_apply, decide_eq_decide, Ne, h.fst_eq_iff hmem hr]
    exact ⟨fun hne heq => hne (Option.some.inj heq).symm, fun hne heq => hne (congrArg some heq.symm)⟩
  rw [timers_of_not_spent rfl]
  unfold timers
  rw [show s.loop.spent = some t by rw [hplace]; rfl, ← hrest]
  rfl

/-- The `close` of a timer that was unregistered. -/
theorem Sound.loop_closes {t : Nat} {events : List Nat} {block : Block} (h : Sound before s) (hprepared : Prepared s)
    (hplace : s.loop = .close t events) (hcell : s.blocks.cells t = some block) :
    Advance before s { s.close block.tfd with loop := .free t events } := by
  have hframe : Frame s { s.close block.tfd with loop := .free t events } .loop := .of_blocks rfl
  have hhas : s.open_block .loop = some t := congrArg Loop.open_block hplace
  have hfd : s.tfd t = some block.tfd := tfd_of_cells hcell
  have hrest := fun o (ho : o ≠ Owner.loop) => loop_of_ne s { s.close block.tfd with loop := .free t events } rfl ho
  refine ⟨h.closes (p := .loop) hhas hfd (fun o => ?_) rfl (fun o ho => (hrest o ho).2) rfl rfl rfl
      (by rw [hplace]; rfl), hframe.loop_prepared h hprepared rfl,
    .quiet rfl rfl (hframe.timers_eq h (h.interest_close hhas hfd) (by rw [hplace]; rfl)), rfl⟩
  by_cases ho : o = .loop
  · rw [ho]
    exact (congrArg Loop.block hplace).symm
  · exact (hrest o ho).1

theorem Loop.registered_next (events : List Nat) : (Loop.next events).registered = events := by
  cases events <;> rfl

/-- The `free` of a timer whose descriptor was closed. -/
theorem Sound.loop_frees {t : Nat} {events : List Nat} (h : Sound before s) (hprepared : Prepared s)
    (hplace : s.loop = .free t events) : Advance before s { s.free t with loop := .next events } := by
  have hhas : s.block .loop = some t := congrArg Loop.block hplace
  have hframe : Frame s { s.free t with loop := .next events } .loop := .of_free hhas rfl
  have hrest := fun o (ho : o ≠ Owner.loop) => loop_of_ne s { s.free t with loop := .next events } rfl ho
  refine ⟨h.frees hhas (congrArg Loop.open_block hplace) ?_ (fun o ho => (hrest o ho).1) (fun o => ?_) rfl rfl rfl
      (by rw [hplace]; exact Loop.registered_next events), hframe.loop_prepared h hprepared rfl,
    .quiet rfl rfl (hframe.timers_eq h rfl ?_), rfl⟩
  · cases events <;> rfl
  · by_cases ho : o = .loop
    · rw [ho]
      refine Eq.trans ?_ (congrArg Loop.open_block hplace).symm
      cases events <;> rfl
    · exact (hrest o ho).2
  · rw [hplace]
    cases events <;> rfl

/-- The statement of the timer thread that is next does not fault either. -/
theorem Sound.handle_spec (h : Sound before s) (hprepared : Prepared s) :
    ∃ s', s.handle = ok s' ∧ Advance before s s' := by
  have hregistered : ∀ t ∈ s.loop.registered, ∃ block, s.blocks.cells t = some block :=
    fun t ht => h.cells_of_registered ht
  have hhas : ∀ t, s.loop.block = some t → ∃ block, s.blocks.cells t = some block := fun t ht => h.cells (o := .loop) ht
  unfold handle
  cases hplace : s.loop with
  | outside => exact ⟨s, rfl, h, hprepared, .quiet rfl rfl rfl, rfl⟩
  | epoll_wait => exact ⟨s, rfl, h, hprepared, .quiet rfl rfl rfl, rfl⟩
  | test =>
    refine ⟨_, rfl, ?_⟩
    split
    · exact h.loop_goes_on hprepared (by rw [hplace]; rfl) (by rw [hplace]; rfl) (by rw [hplace]; rfl)
        (by rw [hplace]; rfl)
    · exact h.loop_goes_on hprepared (by rw [hplace]; rfl) (by rw [hplace]; rfl) (by rw [hplace]; rfl)
        (by rw [hplace]; rfl)
  | read t events =>
    rw [hplace] at hregistered
    obtain ⟨block, hcell⟩ := hregistered t List.mem_cons_self
    simp only [Heap.read_of_cells hcell, bind_ok]
    exact ⟨_, rfl, h.loop_goes_on hprepared (by rw [hplace]; rfl) (by rw [hplace]; rfl) (by rw [hplace]; rfl)
      (by rw [hplace]; rfl)⟩
  | cb t events =>
    rw [hplace] at hregistered
    obtain ⟨block, hcell⟩ := hregistered t List.mem_cons_self
    simp only [Heap.read_of_cells hcell, bind_ok]
    exact ⟨_, rfl, h.fires hprepared hplace hcell⟩
  | calling t events =>
    exact ⟨_, rfl, h.loop_goes_on hprepared (by rw [hplace]; rfl) (by rw [hplace]; rfl) (by rw [hplace]; rfl)
      (by rw [hplace]; rfl)⟩
  | epoll_ctl t events =>
    rw [hplace] at hregistered
    obtain ⟨block, hcell⟩ := hregistered t List.mem_cons_self
    simp only [Heap.read_of_cells hcell, bind_ok]
    exact ⟨_, rfl, h.loop_unregisters hprepared hplace hcell⟩
  | close t events =>
    rw [hplace] at hhas
    obtain ⟨block, hcell⟩ := hhas t rfl
    simp only [Heap.read_of_cells hcell, bind_ok]
    exact ⟨_, rfl, h.loop_closes hprepared hplace hcell⟩
  | free t events =>
    rw [hplace] at hhas
    obtain ⟨block, hcell⟩ := hhas t rfl
    simp only [Heap.read_of_cells hcell, bind_ok]
    exact ⟨_, rfl, h.loop_frees hprepared hplace⟩

/-- The batch of an `epoll_wait`. -/
theorem Sound.waits (h : Sound before s) (hprepared : Prepared s) {events : List (Int × Nat)}
    (hplace : s.loop = .epoll_wait) (hnodup : events.Nodup) (hmem : ∀ r ∈ events, r ∈ s.interest) :
    Advance before s { s with loop := .next (events.map Prod.snd) } := by
  have hframe : Frame s { s with loop := .next (events.map Prod.snd) } .loop := .of_blocks rfl
  have hblock : (Loop.next (events.map Prod.snd)).block = s.loop.block := by
    rw [hplace]
    cases events <;> rfl
  have hopen : (Loop.next (events.map Prod.snd)).open_block = s.loop.open_block := by
    rw [hplace]
    cases events <;> rfl
  have hspent : (Loop.next (events.map Prod.snd)).spent = s.loop.spent := by
    rw [hplace]
    cases events <;> rfl
  obtain ⟨hsound, hprepared'⟩ := h.turns hprepared (.next (events.map Prod.snd)) s.called hblock hopen
    (by
      rw [Loop.registered_next]
      exact hnodup.map_on fun r hr q hq heq => Prod.ext ((h.fst_eq_iff (hmem q hq) (hmem r hr)).mpr heq) heq)
    (by
      rw [Loop.registered_next]
      intro t ht
      obtain ⟨r, hr, rfl⟩ := List.mem_map.mp ht
      exact List.mem_map_of_mem (hmem r hr))
  exact ⟨hsound, hprepared', .quiet rfl rfl (hframe.timers_eq h rfl hspent), rfl⟩

/-- No step that is enabled faults. -/
theorem Sound.step_spec [DecidableEq T] (h : Sound before s) (hprepared : Prepared s)
    (hstarted : before s.epfd = some .epoll → 0 ≤ s.epfd) {action : Action T} (henabled : s.enabled action) :
    ∃ s', s.step action = ok s' ∧ Advance before s s' := by
  cases action with
  | call u timer =>
    exact ⟨_, rfl, h.goes_on hprepared (by rw [henabled.1]; rfl) (by rw [henabled.1]; rfl) trivial⟩
  | add u answers => exact h.add_spec hprepared hstarted u answers
  | wait events =>
    cases events with
    | none =>
      have hplace : s.loop = .epoll_wait := henabled
      exact ⟨_, rfl, h.loop_goes_on hprepared (by rw [hplace]; rfl) (by rw [hplace]; rfl) (by rw [hplace]; rfl)
        (by rw [hplace]; rfl)⟩
    | some events =>
      obtain ⟨hplace, hnodup, hmem, -⟩ := henabled
      exact ⟨_, rfl, h.waits hprepared hplace hnodup hmem⟩
  | handle => exact h.handle_spec hprepared

end Threads

end mock_uas.timer_manager
