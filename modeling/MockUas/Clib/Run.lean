import MockUas.Clib.Result

namespace clib

/-- A program that takes one input after another. A step that faults has no next state,
so that a run ends at its first fault. -/
structure Transitions (S I : Type) where
  initial : S → Prop
  enabled : S → I → Prop
  step : S → I → Result S

namespace Transitions

variable {S I : Type}

/-- The states one run passes through, by steps that are all allowed. -/
inductive Path (program : Transitions S I) (allowed : S → I → Prop) : S → S → Prop where
  | refl (s : S) : Path program allowed s s
  | tail {s t u : S} {i : I} (hpath : Path program allowed s t) (henabled : program.enabled t i)
      (hallowed : allowed t i) (hstep : program.step t i = ok u) : Path program allowed s u

/-- A state of a run from an initial state by steps that are all allowed. -/
def ReachableWhile (program : Transitions S I) (allowed : S → I → Prop) (s : S) : Prop :=
  ∃ start, program.initial start ∧ Path program allowed start s

/-- A state of any run. -/
def Reachable (program : Transitions S I) (s : S) : Prop := ReachableWhile program (fun _ _ => True) s

/-- The state a list of inputs leads to, if each of them is enabled and none of them faults. -/
def follow (program : Transitions S I) [∀ s i, Decidable (program.enabled s i)] (s : S) : List I → Option S
  | [] => some s
  | i :: inputs =>
    if program.enabled s i then
      match program.step s i with
      | ok t => follow program t inputs
      | error _ => none
    else none

/-- `follow`, as long as each input passes a test where it is taken. -/
def follow_tested (program : Transitions S I) [∀ s i, Decidable (program.enabled s i)] (test : S → I → Prop)
    [∀ s i, Decidable (test s i)] (s : S) : List I → Option S
  | [] => some s
  | i :: inputs =>
    if program.enabled s i ∧ test s i then
      match program.step s i with
      | ok t => follow_tested program test t inputs
      | error _ => none
    else none

variable {program : Transitions S I} {allowed : S → I → Prop}

theorem Path.trans {s t u : S} (hfirst : Path program allowed s t) (hsecond : Path program allowed t u) :
    Path program allowed s u := by
  induction hsecond with
  | refl => exact hfirst
  | tail _ henabled hallowed hstep ih => exact ih.tail henabled hallowed hstep

theorem follow_cons [∀ s i, Decidable (program.enabled s i)] {s t : S} {i : I} {inputs : List I}
    (h : program.follow s (i :: inputs) = some t) :
    ∃ u, program.enabled s i ∧ program.step s i = ok u ∧ program.follow u inputs = some t := by
  rw [follow] at h
  split at h
  · rename_i henabled
    cases hstep : program.step s i with
    | error fault => simp [hstep] at h
    | ok u =>
      rw [hstep] at h
      exact ⟨u, henabled, rfl, h⟩
  · cases h

theorem Path.of_follow_tested [∀ s i, Decidable (program.enabled s i)] {test : S → I → Prop}
    [∀ s i, Decidable (test s i)] {s t : S} {inputs : List I} (h : program.follow_tested test s inputs = some t)
    (hallowed : ∀ s, ∀ i ∈ inputs, test s i → allowed s i) : Path program allowed s t := by
  induction inputs generalizing s with
  | nil =>
    obtain rfl := Option.some.inj h
    exact .refl s
  | cons i inputs ih =>
    rw [follow_tested] at h
    split at h
    · rename_i htaken
      obtain ⟨henabled, htest⟩ := htaken
      cases hstep : program.step s i with
      | error fault => simp [hstep] at h
      | ok u =>
        rw [hstep] at h
        have hpath := ih h fun s j hj => hallowed s j (List.mem_cons_of_mem _ hj)
        exact ((Path.refl s).tail henabled (hallowed s i List.mem_cons_self htest) hstep).trans hpath
    · cases h

theorem follow_eq_tested [∀ s i, Decidable (program.enabled s i)] {s : S} {inputs : List I} :
    program.follow s inputs = program.follow_tested (fun _ _ => True) s inputs := by
  induction inputs generalizing s with
  | nil => rfl
  | cons i inputs ih => simp only [follow, follow_tested, and_true, ih]

theorem Path.of_follow_while [∀ s i, Decidable (program.enabled s i)] {s t : S} {inputs : List I}
    (h : program.follow s inputs = some t) (hallowed : ∀ s, ∀ i ∈ inputs, allowed s i) : Path program allowed s t :=
  .of_follow_tested (follow_eq_tested.symm.trans h) fun s i hi _ => hallowed s i hi

theorem Path.of_follow [∀ s i, Decidable (program.enabled s i)] {s t : S} {inputs : List I}
    (h : program.follow s inputs = some t) : Path program (fun _ _ => True) s t :=
  .of_follow_while h fun _ _ _ => trivial

theorem follow_single [∀ s i, Decidable (program.enabled s i)] {s t : S} {i : I}
    (h : program.follow s [i] = some t) : program.enabled s i ∧ program.step s i = ok t := by
  obtain ⟨u, henabled, hstep, hrest⟩ := follow_cons h
  obtain rfl := Option.some.inj hrest
  exact ⟨henabled, hstep⟩

/-- What every allowed step preserves holds to the end of a path. -/
theorem Path.preserves {P : S → Prop}
    (hpres : ∀ s i t, program.enabled s i → allowed s i → program.step s i = ok t → P s → P t)
    {s t : S} (hpath : Path program allowed s t) (hs : P s) : P t := by
  induction hpath with
  | refl => exact hs
  | tail _ henabled hallowed hstep ih => exact hpres _ _ _ henabled hallowed hstep ih

theorem Path.mono {weaker : S → I → Prop} (hweaker : ∀ s i, allowed s i → weaker s i) {s t : S}
    (hpath : Path program allowed s t) : Path program weaker s t := by
  induction hpath with
  | refl => exact .refl _
  | tail _ henabled hallowed hstep ih => exact ih.tail henabled (hweaker _ _ hallowed) hstep

/-- An invariant: it holds at the start, and every allowed step preserves it. -/
theorem ReachableWhile.invariant {P : S → Prop} (hinit : ∀ s, program.initial s → P s)
    (hpres : ∀ s i t, program.enabled s i → allowed s i → program.step s i = ok t → P s → P t)
    {s : S} (h : ReachableWhile program allowed s) : P s := by
  obtain ⟨start, hstart, hpath⟩ := h
  exact hpath.preserves hpres (hinit start hstart)

theorem ReachableWhile.step {s t : S} {i : I} (h : ReachableWhile program allowed s)
    (henabled : program.enabled s i) (hallowed : allowed s i) (hstep : program.step s i = ok t) :
    ReachableWhile program allowed t := by
  obtain ⟨start, hstart, hpath⟩ := h
  exact ⟨start, hstart, hpath.tail henabled hallowed hstep⟩

theorem ReachableWhile.append {s t : S} (h : ReachableWhile program allowed s)
    (hpath : Path program allowed s t) : ReachableWhile program allowed t := by
  obtain ⟨start, hstart, hbefore⟩ := h
  exact ⟨start, hstart, hbefore.trans hpath⟩

theorem ReachableWhile.of_follow_tested [∀ s i, Decidable (program.enabled s i)] [∀ s i, Decidable (allowed s i)]
    {start s : S} {inputs : List I} (hstart : program.initial start)
    (h : program.follow_tested allowed start inputs = some s) : ReachableWhile program allowed s :=
  ⟨start, hstart, .of_follow_tested h fun _ _ _ hallowed => hallowed⟩

theorem ReachableWhile.reachable {s : S} (h : ReachableWhile program allowed s) : Reachable program s := by
  obtain ⟨start, hstart, hpath⟩ := h
  exact ⟨start, hstart, hpath.mono fun _ _ _ => trivial⟩

theorem ReachableWhile.initial {s : S} (h : program.initial s) : ReachableWhile program allowed s :=
  ⟨s, h, .refl s⟩

/-- Forward simulation: where each step of one program is matched by a path of another
from any related state, every reachable state is related to a reachable one. -/
theorem ReachableWhile.simulates {T J : Type} {other : Transitions T J} {permitted : T → J → Prop}
    {R : S → T → Prop} (hinit : ∀ s, program.initial s → ∃ t, other.initial t ∧ R s t)
    (hmatch : ∀ s i s' t, program.enabled s i → allowed s i → program.step s i = ok s' → R s t →
      ∃ t', Path other permitted t t' ∧ R s' t')
    {s : S} (h : ReachableWhile program allowed s) : ∃ t, ReachableWhile other permitted t ∧ R s t := by
  refine h.invariant (P := fun s => ∃ t, ReachableWhile other permitted t ∧ R s t) ?_ ?_
  · intro s hs
    obtain ⟨t, ht, hrel⟩ := hinit s hs
    exact ⟨t, .initial ht, hrel⟩
  · rintro s i s' henabled hallowed hstep ⟨t, ht, hrel⟩
    obtain ⟨t', hpath, hrel'⟩ := hmatch s i s' t henabled hallowed hstep hrel
    exact ⟨t', ht.append hpath, hrel'⟩

end Transitions

end clib
