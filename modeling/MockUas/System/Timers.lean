import MockUas.System.Register
import MockUas.System.TimerSteps

open clib

namespace mock_uas.timer_manager

namespace Threads

variable {T : Type} {others : List Int} {before : Int → Option Descriptor} {s s' : Threads T}

/-- A timer manager in which nothing was added. -/
structure Blank (others : List Int) (s : Threads T) : Prop where
  blocks : s.blocks = .empty
  interest : s.interest = []
  adder : ∀ u, s.adder u = .outside
  loop : s.loop = .outside ∨ s.loop = .test
  timer : ∀ fd, s.opened fd ≠ some .timer
  other : ∀ fd, s.opened fd = some .other ↔ fd ∈ others
  started : s.opened s.epfd = some .epoll → 0 ≤ s.epfd
  concluded : s.concluded = []
  called : s.called = []

/-- `timer_one_shot_init` leaves such a timer manager, whether it succeeds or not. -/
theorem init_blank (T : Type) {others : List Int} {epoll_create1 : Int} (pthread_create : Bool)
    (hnew : 0 ≤ epoll_create1 → epoll_create1 ∉ others) :
    Blank others ((unstarted T others).timer_one_shot_init epoll_create1 pthread_create).2 := by
  have hblank : ∀ fd, (unstarted T others).opened fd = if fd ∈ others then some .other else none := fun _ => rfl
  have hother : ∀ fd, (unstarted T others).opened fd ≠ some .timer ∧ (unstarted T others).opened fd ≠ some .epoll ∧
      ((unstarted T others).opened fd = some .other ↔ fd ∈ others) := by
    intro fd
    rw [hblank]
    split
    · rename_i hmem
      exact ⟨fun hn => (by cases hn), fun hn => (by cases hn), fun _ => hmem, fun _ => rfl⟩
    · rename_i hmem
      exact ⟨fun hn => (by cases hn), fun hn => (by cases hn), fun hn => (by cases hn), fun hx => absurd hx hmem⟩
  unfold timer_one_shot_init
  dsimp only
  split
  · exact ⟨rfl, rfl, fun _ => rfl, .inl rfl, fun fd => (hother fd).1, fun fd => (hother fd).2.2,
      fun hepoll => absurd hepoll (hother _).2.1, rfl, rfl⟩
  · rename_i hlt
    have hle := Int.not_lt.mp hlt
    have hopened : ∀ (on : Option Descriptor) fd, on ≠ some .timer → on ≠ some .other →
        (if fd = epoll_create1 then on else (unstarted T others).opened fd) ≠ some .timer ∧
        ((if fd = epoll_create1 then on else (unstarted T others).opened fd) = some .other ↔ fd ∈ others) := by
      intro on fd htimer hon
      split
      · rename_i hfd
        exact ⟨htimer, fun hn => absurd hn hon, fun hmem => absurd (hfd ▸ hmem) (hnew hle)⟩
      · exact ⟨(hother fd).1, (hother fd).2.2⟩
    split
    · have hclosed : ∀ fd, (if fd = epoll_create1 then none else
          if fd = epoll_create1 then some Descriptor.epoll else (unstarted T others).opened fd) =
          if fd = epoll_create1 then none else (unstarted T others).opened fd := by
        intro fd
        split <;> rfl
      refine ⟨rfl, rfl, fun _ => rfl, .inl rfl, fun fd => ?_, fun fd => ?_, fun _ => hle, rfl, rfl⟩
      · exact (hclosed fd).trans_ne (hopened none fd (fun hn => by cases hn) fun hn => by cases hn).1
      · exact (Eq.congr_left (hclosed fd)).trans (hopened none fd (fun hn => by cases hn) fun hn => by cases hn).2
    · refine ⟨rfl, rfl, fun _ => rfl, .inr rfl, fun fd => ?_, fun fd => ?_, fun _ => hle, rfl, rfl⟩
      · exact (hopened (some .epoll) fd (fun hn => by cases hn) fun hn => by cases hn).1
      · exact (hopened (some .epoll) fd (fun hn => by cases hn) fun hn => by cases hn).2

theorem Blank.sound (h : Blank others s) : Sound s.opened s := by
  have hblock : ∀ o, s.block o = none := by
    intro o
    cases o with
    | call u => exact congrArg Adder.block (h.adder u)
    | loop => rcases h.loop with hplace | hplace <;> exact congrArg Loop.block hplace
    | interest => rfl
  have hopen : ∀ o, s.open_block o = none := by
    intro o
    cases ho : s.open_block o with
    | none => rfl
    | some t => cases (hblock o).symm.trans (block_of_open_block ho)
  have hholds : ∀ o t, ¬ s.Holds o t := by
    intro o t
    unfold Holds
    rw [hblock, h.interest]
    rintro (hn | ⟨-, hn⟩) <;> cases hn
  have hkeeps : ∀ o fd, ¬ s.Keeps o fd := by
    intro o fd
    unfold Keeps
    rw [h.interest]
    rintro (⟨t, ht, -⟩ | ⟨-, hn⟩)
    · cases (hopen o).symm.trans ht
    · cases hn
  have hregistered : s.loop.registered = [] := by
    rcases h.loop with hplace | hplace <;> rw [hplace] <;> rfl
  refine ⟨⟨fun o _ t ho => absurd ho (hholds o t), fun t => ?_⟩,
    ⟨fun o _ fd ho => absurd ho (hkeeps o fd), fun fd => ?_⟩,
    by rw [h.interest]; exact List.forall_mem_nil _, by rw [h.interest]; exact List.nodup_nil,
    by rw [hregistered]; exact List.nodup_nil, by rw [hregistered]; exact List.forall_mem_nil _, fun _ _ _ => Iff.rfl⟩
  · rw [h.blocks]
    exact ⟨fun hn => (by cases hn), fun hn => hn.elim fun o ho => absurd ho (hholds o t)⟩
  · exact ⟨fun hn => absurd hn (h.timer fd), fun hn => hn.elim fun o ho => absurd ho (hkeeps o fd)⟩

theorem Blank.prepared (h : Blank others s) : Prepared s := by
  intro u
  rw [h.adder]
  trivial

theorem Blank.timers (h : Blank others s) : s.timers = [] := by
  unfold Threads.timers
  rw [h.interest]
  rfl

/-- The register has seen what the threads have done. -/
structure Matches (s : Threads T) (r : Register) : Prop where
  epfd : r.epfd = s.epfd
  concluded : r.concluded = s.concluded
  called : r.called = s.called
  timers : r.timers.Perm s.timers

/-- Each step of the threads is a step of the register, or none. -/
theorem Effect.matches {r : Register} (h : Effect s s') (hepfd : s'.epfd = s.epfd) (hmatches : Matches s r) :
    ∃ r', Register.program.Path (fun _ _ => True) r r' ∧ Matches s' r' := by
  obtain ⟨hrepfd, hrconcluded, hrcalled, hrtimers⟩ := hmatches
  cases h with
  | quiet hconcluded hcalled htimers =>
    refine ⟨r, .refl r, hrepfd.trans hepfd.symm, hrconcluded.trans hconcluded.symm, hrcalled.trans hcalled.symm, ?_⟩
    rw [htimers]
    exact hrtimers
  | fails timer hconcluded hcalled htimers =>
    have hfails : timer_one_shot_add r.epfd ⟨false, false, false, false⟩ timer.cb timer.user_data = (-1, none) := by
      unfold timer_one_shot_add
      split <;> rfl
    have hstep : Register.program.step r (.add timer ⟨false, false, false, false⟩) = ok (r.add timer (-1, none)) :=
      congrArg (fun result => ok (r.add timer result)) hfails
    refine ⟨_, (Transitions.Path.refl r).tail (i := .add timer ⟨false, false, false, false⟩) trivial trivial hstep,
      hrepfd.trans hepfd.symm, ?_, hrcalled.trans hcalled.symm, ?_⟩
    · rw [hconcluded, ← hrconcluded]
      rfl
    · rw [htimers]
      exact (List.Perm.of_eq (List.append_nil _)).trans hrtimers
  | arms timer hstarted hconcluded hcalled htimers =>
    have hadds : timer_one_shot_add r.epfd ⟨true, true, true, true⟩ timer.cb timer.user_data = (0, some timer) :=
      timer_one_shot_add_of_succeeds ⟨hrepfd ▸ hstarted, rfl, rfl, rfl, rfl⟩ _ _
    have hstep : Register.program.step r (.add timer ⟨true, true, true, true⟩) = ok (r.add timer (0, some timer)) :=
      congrArg (fun result => ok (r.add timer result)) hadds
    refine ⟨_, (Transitions.Path.refl r).tail (i := .add timer ⟨true, true, true, true⟩) trivial trivial hstep,
      hrepfd.trans hepfd.symm, ?_, hrcalled.trans hcalled.symm, ?_⟩
    · rw [hconcluded, ← hrconcluded]
      rfl
    · rw [htimers]
      exact hrtimers.append (.refl _)
  | fires timer hconcluded hcalled htimers =>
    have hperm := hrtimers.trans htimers
    refine ⟨_, (Transitions.Path.refl r).tail (i := .fire timer) (hperm.mem_iff.mpr List.mem_cons_self) trivial rfl,
      hrepfd.trans hepfd.symm, hrconcluded.trans hconcluded.symm, ?_, ?_⟩
    · rw [hcalled, ← hrcalled]
      rfl
    · have herase := hperm.erase timer
      rwa [List.erase_cons_head] at herase

/-- What holds in every state that is reached. -/
structure Kept (others : List Int) (s : Threads T) (before : Int → Option Descriptor) (r : Register) : Prop where
  sound : Sound before s
  prepared : Prepared s
  other : ∀ fd, before fd = some .other ↔ fd ∈ others
  started : before s.epfd = some .epoll → 0 ≤ s.epfd
  register : Register.program.Reachable r
  matched : Matches s r

theorem reachable_kept [DecidableEq T] (h : (program T others).Reachable s) : ∃ before r, Kept others s before r := by
  refine h.invariant (P := fun s => ∃ before r, Kept others s before r) ?_ ?_
  · rintro s ⟨epoll_create1, pthread_create, hnew, rfl⟩
    have hblank := init_blank T pthread_create hnew
    generalize ((unstarted T others).timer_one_shot_init epoll_create1 pthread_create).2 = s at hblank
    refine ⟨s.opened, ⟨s.epfd, [], [], []⟩, hblank.sound, hblank.prepared, hblank.other, hblank.started,
      .initial ⟨rfl, rfl, rfl⟩, rfl, hblank.concluded.symm, hblank.called.symm, ?_⟩
    rw [hblank.timers]
  · rintro s action s' henabled - hstep ⟨before, r, hkept⟩
    obtain ⟨_, hspec, hadvance⟩ := hkept.sound.step_spec hkept.prepared hkept.started henabled
    obtain rfl := Except.ok.inj (hspec.symm.trans hstep)
    obtain ⟨r', hpath, hmatches⟩ := hadvance.effect.matches hadvance.epfd hkept.matched
    refine ⟨before, r', hadvance.sound, hadvance.prepared, hkept.other, ?_, hkept.register.append hpath, hmatches⟩
    rw [hadvance.epfd]
    exact hkept.started

/-- Between the calls and the batches, nothing is in use but what is registered. -/
theorem Sound.all_registered (h : Sound before s) (houtside : ∀ u, s.adder u = .outside)
    (hbatch : s.loop.block = none) :
    (∀ t, (s.blocks.cells t).isSome ↔ t ∈ s.interest.map Prod.snd) ∧
      ∀ fd, s.opened fd = some .timer ↔ fd ∈ s.interest.map Prod.fst := by
  have hblock : ∀ o, s.block o = none := by
    intro o
    cases o with
    | call u => exact congrArg Adder.block (houtside u)
    | loop => exact hbatch
    | interest => rfl
  constructor
  · intro t
    rw [← holds_interest]
    refine ⟨fun hlive => ?_, fun hi => h.blocks.used_of hi⟩
    obtain ⟨o, hblocked | ⟨rfl, hi⟩⟩ := (h.blocks.used_iff t).mp hlive
    · cases (hblock o).symm.trans hblocked
    · exact .inr ⟨rfl, hi⟩
  · intro fd
    rw [← keeps_interest]
    refine ⟨fun hopen => ?_, fun hi => h.descriptors.used_of hi⟩
    obtain ⟨o, ⟨t, ht, -⟩ | ⟨rfl, hi⟩⟩ := (h.descriptors.used_iff fd).mp hopen
    · cases (hblock o).symm.trans (block_of_open_block ht)
    · exact .inr ⟨rfl, hi⟩

/-- Each block and each descriptor of a timer belongs to one call of `timer_one_shot_add`, to the
epoll instance or to the timer thread, whatever the order of their statements: no statement uses
a block that was freed, nothing is left over once the calls and the batch are done, and the other
descriptors of the process stay open. -/
theorem timers_have_one_owner [DecidableEq T] (others : List Int) (s : Threads T) (h : (program T others).Reachable s) :
    (∀ action, s.enabled action → ∃ s', s.step action = ok s') ∧
      (∀ t, (s.blocks.cells t).isSome ↔ ∃! o, s.Holds o t) ∧
      (∀ fd, s.opened fd = some .timer ↔ ∃! o, s.Keeps o fd) ∧
      (∀ r ∈ s.interest, s.tfd r.2 = some r.1) ∧
      ((∀ u, s.adder u = .outside) → s.loop.block = none →
        (∀ t, (s.blocks.cells t).isSome ↔ t ∈ s.interest.map Prod.snd) ∧
          ∀ fd, s.opened fd = some .timer ↔ fd ∈ s.interest.map Prod.fst) ∧
      ∀ fd, s.opened fd = some .other ↔ fd ∈ others := by
  obtain ⟨before, r, hkept⟩ := reachable_kept h
  refine ⟨fun action henabled => ?_, hkept.sound.blocks.existsUnique, hkept.sound.descriptors.existsUnique,
    hkept.sound.tfd, hkept.sound.all_registered, fun fd => ?_⟩
  · obtain ⟨s', hstep, -⟩ := hkept.sound.step_spec hkept.prepared hkept.started henabled
    exact ⟨s', hstep⟩
  · rw [hkept.sound.kept fd .other (fun hn => by cases hn), hkept.other]

private def delete_timer (serial : Nat) : timer_s where
  cb := .transaction_delete_timeout
  user_data := ⟨serial, 0, ⟨[], Nat.zero_le _, List.not_mem_nil⟩, 0, none⟩

private def answers (fd : Int) : Answers := ⟨some ⟨delete_timer 9, 9⟩, fd, true, true⟩

/-- The timer thread has closed the descriptor of an expired timer and another call has been given
it, while the call that added the timer has yet to return. -/
private theorem racing_facts :
    ((program Bool [0, 3]).follow ((unstarted Bool [0, 3]).timer_one_shot_init 4 true).2
      ([.handle, .call (some true) (delete_timer 0)] ++ List.replicate 7 (.add (some true) (answers 5)) ++
        [.wait (some [(5, 0)]), .handle, .handle, .handle, .call (some false) (delete_timer 1)] ++
        List.replicate 4 (.add (some false) (answers 6)) ++ [.handle, .handle] ++
        [.add (some false) (answers 5)])).map
      (fun s => (s.loop, [s.adder (some true), s.adder (some false)], s.opened 5)) =
      some (.free 0 [], [.done 0, .timerfd_settime (delete_timer 1) 1], some .timer) := by
  decide

theorem racing_timers_have_one_owner :
    ∃ s : Threads Bool, s.loop = .free 0 [] ∧ s.adder (some true) = .done 0 ∧
      ((s.blocks.cells 0).isSome ↔ ∃! o, s.Holds o 0) ∧ ∃! o, s.Keeps o 5 := by
  obtain ⟨s, hs, hfacts⟩ := Option.map_eq_some_iff.mp racing_facts
  simp only [Prod.mk.injEq, List.cons.injEq] at hfacts
  obtain ⟨hloop, ⟨hdone, -⟩, hopened⟩ := hfacts
  have hreach : (program Bool [0, 3]).Reachable s := ⟨_, ⟨4, true, fun _ => by decide, rfl⟩, .of_follow hs⟩
  obtain ⟨-, hblocks, hdescriptors, -⟩ := timers_have_one_owner [0, 3] s hreach
  exact ⟨s, hloop, hdone, hblocks 0, (hdescriptors 5).mp hopened⟩

/-- A call of `timer_one_shot_add` and the expiry of a timer behave as one step each: a register
whose operations are steps comes to the same return codes, callbacks and armed timers, and each
timer for which the call is to return 0 is armed or had its callback called, once. -/
theorem timers_are_registered [DecidableEq T] (others : List Int) (s : Threads T)
    (h : (program T others).Reachable s) :
    (∃ r, Register.program.Reachable r ∧ Matches s r) ∧ (s.called ++ s.timers).Perm (added s.concluded) := by
  obtain ⟨before, r, hkept⟩ := reachable_kept h
  have hmatched := hkept.matched
  refine ⟨⟨r, hkept.register, hmatched⟩, ?_⟩
  rw [← hmatched.called, ← hmatched.concluded]
  exact (hmatched.timers.symm.append_left r.called).trans (Register.reachable_called hkept.register)

theorem racing_timers_are_registered :
    ∃ s : Threads Bool, s.loop = .free 0 [] ∧ s.adder (some true) = .done 0 ∧
      (∃ r, Register.program.Reachable r ∧ Matches s r) ∧ (s.called ++ s.timers).Perm (added s.concluded) := by
  obtain ⟨s, hs, hfacts⟩ := Option.map_eq_some_iff.mp racing_facts
  simp only [Prod.mk.injEq, List.cons.injEq] at hfacts
  obtain ⟨hloop, ⟨hdone, -⟩, -⟩ := hfacts
  have hreach : (program Bool [0, 3]).Reachable s := ⟨_, ⟨4, true, fun _ => by decide, rfl⟩, .of_follow hs⟩
  exact ⟨s, hloop, hdone, timers_are_registered [0, 3] s hreach⟩

end Threads

end mock_uas.timer_manager
