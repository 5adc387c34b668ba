import MockUas.System.Advance

open clib
open mock_uas.sip_server
open mock_uas.timer_manager

namespace mock_uas.timer_manager

/-- The timers as the rest of the server sees them: a call of `timer_one_shot_add` and the expiry of
a timer are one step each. The rest is the same log that the threads keep. -/
structure Register where
  epfd : Int
  timers : List timer_s
  concluded : List (timer_s × Int)
  called : List timer_s

namespace Register

inductive Action where
  | add (timer : timer_s) (answers : Syscalls)
  | fire (timer : timer_s)

def add (r : Register) (timer : timer_s) (result : Int × Option timer_s) : Register :=
  { r with timers := r.timers ++ result.2.toList, concluded := r.concluded ++ [(timer, result.1)] }

def fire (r : Register) (timer : timer_s) : Register :=
  { r with timers := r.timers.erase timer, called := r.called ++ [timer] }

def step (r : Register) : Action → Result Register
  | .add timer answers => ok (r.add timer (timer_one_shot_add r.epfd answers timer.cb timer.user_data))
  | .fire timer => ok (r.fire timer)

def enabled (r : Register) : Action → Prop
  | .add _ _ => True
  | .fire timer => timer ∈ r.timers

def program : Transitions Register Action where
  initial r := r.timers = [] ∧ r.concluded = [] ∧ r.called = []
  enabled := enabled
  step := step

end Register

/-- The timers for which the call returns 0. -/
def added (concluded : List (timer_s × Int)) : List timer_s := (concluded.filter fun call => call.2 = 0).map Prod.fst

theorem added_append (calls more : List (timer_s × Int)) : added (calls ++ more) = added calls ++ added more := by
  unfold added
  rw [List.filter_append, List.map_append]

namespace Register

/-- Each timer that was added is armed, or its callback was called, once. -/
theorem reachable_called {r : Register} (h : program.Reachable r) :
    (r.called ++ r.timers).Perm (added r.concluded) := by
  refine h.invariant (P := fun r => (r.called ++ r.timers).Perm (added r.concluded)) ?_ ?_
  · rintro r ⟨htimers, hconcluded, hcalled⟩
    rw [htimers, hconcluded, hcalled]
    exact .refl _
  · intro r action r' henabled _ hstep hperm
    cases action with
    | add timer answers =>
      obtain rfl : r.add timer (timer_one_shot_add r.epfd answers timer.cb timer.user_data) = r' := Except.ok.inj hstep
      have hzero := timer_one_shot_add_eq_zero_iff r.epfd answers timer.cb timer.user_data
      have harmed : ∀ armed, (timer_one_shot_add r.epfd answers timer.cb timer.user_data).2 = some armed →
          armed = timer := fun _ => timer_one_shot_add_armed
      generalize timer_one_shot_add r.epfd answers timer.cb timer.user_data = result at hzero harmed
      obtain ⟨rc, armed⟩ := result
      unfold add
      dsimp only at hzero ⊢
      rw [added_append, ← List.append_assoc]
      refine hperm.append (List.Perm.of_eq ?_)
      unfold added
      cases armed with
      | none =>
        rw [List.filter_cons_of_neg fun heq => by cases hzero.mp (of_decide_eq_true heq)]
        rfl
      | some armed =>
        obtain rfl := harmed armed rfl
        obtain rfl : rc = 0 := hzero.mpr rfl
        rfl
    | fire timer =>
      have hmem : timer ∈ r.timers := henabled
      obtain rfl : r.fire timer = r' := Except.ok.inj hstep
      unfold fire
      dsimp only
      rw [List.append_assoc]
      exact ((List.perm_cons_erase hmem).symm.append_left r.called).trans hperm

end Register

end mock_uas.timer_manager

namespace mock_uas.main

/-- A register that has the armed timers of the server. -/
def Registers (system : System) (r : Register) : Prop := r.epfd = system.epfd ∧ r.timers = system.timers

/-- Calls of `timer_one_shot_add` by a worker are steps of the register. -/
theorem register_adds {env : Environment} {queue serial : Nat} {adds : List TimerAdd}
    (h : Numbered env queue serial adds) {r : Register} (hepfd : r.epfd = env.epfd) :
    ∃ r', Register.program.Path (fun _ _ => True) r r' ∧ r'.epfd = r.epfd ∧
      r'.timers = r.timers ++ adds.filterMap TimerAdd.armed := by
  induction h generalizing r with
  | nil => exact ⟨r, .refl r, rfl, (List.append_nil _).symm⟩
  | @cons serial add adds _ _ harmed _ ih =>
    obtain ⟨k, harmed⟩ := harmed
    obtain ⟨r', hpath, hepfd', htimers⟩ :=
      ih (r := r.add ⟨add.callback, add.event⟩ (timer_one_shot_add r.epfd (env.timer k) add.callback add.event)) hepfd
    refine ⟨r', ((Transitions.Path.refl r).tail (i := .add ⟨add.callback, add.event⟩ (env.timer k)) trivial trivial
      rfl).trans hpath, hepfd', ?_⟩
    rw [htimers, Register.add, hepfd, ← harmed, List.append_assoc]
    cases harmed' : add.armed with
    | none =>
      rw [List.filterMap_cons_none harmed']
      rfl
    | some timer =>
      rw [List.filterMap_cons_some harmed']
      rfl

/-- So is the expiry of a timer. -/
theorem register_fires {r : Register} (timer : timer_s) (hmem : timer ∈ r.timers) :
    Register.program.Path (fun _ _ => True) r (r.fire timer) :=
  (Transitions.Path.refl r).tail (i := .fire timer) hmem trivial rfl

/-- The armed timers of the server are those of a register, over whole runs. -/
theorem timers_registered {system : System} (h : program.Reachable system) :
    ∃ r, Register.program.Reachable r ∧ Registers system r := by
  refine (invariant_of_advances (P := fun system => ∃ r, Register.program.Reachable r ∧ Registers system r) ?_ ?_ h).2
  · exact fun system hinitial => ⟨⟨system.epfd, [], [], []⟩, .initial ⟨rfl, rfl, rfl⟩, rfl, hinitial.timers.symm⟩
  · rintro system action system' - - hadvanced ⟨r, hr, hepfd, htimers⟩
    cases hadvanced with
    | @rearmed timer answers hcb hmem =>
      refine ⟨_, (hr.append ((Transitions.Path.refl r).tail
        (i := .add ⟨.transaction_delete_timeout, timer.user_data⟩ answers) trivial trivial rfl)).append
          (register_fires timer ?_), hepfd, ?_⟩
      · exact List.mem_append_left _ (htimers ▸ hmem)
      · rw [← hepfd, ← htimers]
        rfl
    | @expired timer answers k queue hcb hmem hk hqueue =>
      refine ⟨_, hr.append (register_fires timer (htimers ▸ hmem)), hepfd, ?_⟩
      exact congrArg (List.erase · timer) htimers
    | @lost timer answers k hcb hmem hk hfull =>
      refine ⟨_, hr.append (register_fires timer (htimers ▸ hmem)), hepfd, ?_⟩
      exact congrArg (List.erase · timer) htimers
    | @worked k env packet m' hcurrent henv hprocessed hworker hevents hnumbered hreachable =>
      obtain ⟨r', hpath, hepfd', htimers'⟩ := register_adds hnumbered (hepfd.trans henv.symm)
      refine ⟨r', hr.append hpath, hepfd'.trans hepfd, ?_⟩
      rw [htimers', htimers]
      rfl
    | _ => exact ⟨r, hr, hepfd, htimers⟩

end mock_uas.main
