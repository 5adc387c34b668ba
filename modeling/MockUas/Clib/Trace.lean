import Mathlib.Algebra.BigOperators.Group.Finset.Basic
import MockUas.Clib.Run

namespace clib

namespace Transitions

variable {S I : Type}

/-- A path with the inputs it takes, each of which is allowed. -/
inductive Trace (program : Transitions S I) (allowed : S → I → Prop) : S → List I → S → Prop where
  | refl (s : S) : Trace program allowed s [] s
  | tail {s t u : S} {inputs : List I} {i : I} (htrace : Trace program allowed s inputs t)
      (henabled : program.enabled t i) (hallowed : allowed t i) (hstep : program.step t i = ok u) :
      Trace program allowed s (inputs ++ [i]) u

variable {program : Transitions S I} {allowed : S → I → Prop}

theorem Trace.path {inputs : List I} {s t : S} (h : Trace program allowed s inputs t) : Path program allowed s t := by
  induction h with
  | refl => exact .refl _
  | tail _ henabled hallowed hstep ih => exact ih.tail henabled hallowed hstep

theorem Trace.cons {inputs : List I} {i : I} {s t u : S} (henabled : program.enabled s i) (hallowed : allowed s i)
    (hstep : program.step s i = ok t) (h : Trace program allowed t inputs u) :
    Trace program allowed s (i :: inputs) u := by
  induction h with
  | refl => exact (Trace.refl s).tail henabled hallowed hstep
  | tail _ henabled' hallowed' hstep' ih => exact ih.tail henabled' hallowed' hstep'

theorem Path.trace {s t : S} (h : Path program allowed s t) : ∃ inputs, Trace program allowed s inputs t := by
  induction h with
  | refl => exact ⟨[], .refl _⟩
  | tail _ henabled hallowed hstep ih =>
    obtain ⟨inputs, htrace⟩ := ih
    exact ⟨_, htrace.tail henabled hallowed hstep⟩

/-- The path that the inputs of a run take. -/
theorem Trace.of_follow [∀ s i, Decidable (program.enabled s i)] {s t : S} {inputs : List I}
    (h : program.follow s inputs = some t) (hallowed : ∀ s, ∀ i ∈ inputs, allowed s i) :
    Trace program allowed s inputs t := by
  suffices hall : ∀ before u, Trace program allowed u before s → Trace program allowed u (before ++ inputs) t from
    hall [] s (.refl s)
  induction inputs generalizing s with
  | nil =>
    obtain rfl := Option.some.inj h
    intro before u hbefore
    rwa [List.append_nil]
  | cons i inputs ih =>
    obtain ⟨next, henabled, hstep, hrest⟩ := follow_cons h
    intro before u hbefore
    have hnext := hbefore.tail henabled (hallowed s i List.mem_cons_self) hstep
    have hall := ih hrest (fun s j hj => hallowed s j (List.mem_cons_of_mem _ hj)) _ _ hnext
    rwa [List.append_assoc] at hall

theorem Trace.mono {weaker : S → I → Prop} (hweaker : ∀ s i, allowed s i → weaker s i) {inputs : List I} {s t : S}
    (h : Trace program allowed s inputs t) : Trace program weaker s inputs t := by
  induction h with
  | refl => exact .refl _
  | tail _ henabled hallowed hstep ih => exact ih.tail henabled (hweaker _ _ hallowed) hstep

theorem Trace.restrict {Q : I → Prop} {inputs : List I} {s t : S} (h : Trace program allowed s inputs t)
    (hQ : ∀ i ∈ inputs, Q i) : Trace program (fun s i => allowed s i ∧ Q i) s inputs t := by
  induction h with
  | refl => exact .refl _
  | tail _ henabled hallowed hstep ih =>
    have hbefore := ih fun i hi => hQ i (List.mem_append_left _ hi)
    exact hbefore.tail henabled ⟨hallowed, hQ _ (List.mem_append_right _ List.mem_cons_self)⟩ hstep

/-- What every allowed step preserves, of the state and of the inputs taken so far, holds to the
end of a trace. -/
theorem Trace.preserves {P : List I → S → Prop} (hpres : ∀ inputs s i t, program.enabled s i → allowed s i →
      program.step s i = ok t → P inputs s → P (inputs ++ [i]) t)
    {inputs : List I} {s t : S} (h : Trace program allowed s inputs t) (hs : P [] s) : P inputs t := by
  induction h with
  | refl => exact hs
  | tail _ henabled hallowed hstep ih => exact hpres _ _ _ _ henabled hallowed hstep ih

/-- Where every allowed step keeps an invariant and is paid for, by a measure that gets smaller or
by what comes in, a run takes no more steps than there was and came in. -/
theorem Trace.length_le {P : S → Prop} {measure income : S → Nat}
    (hpres : ∀ s i t, program.enabled s i → allowed s i → program.step s i = ok t → P s →
      P t ∧ measure t + income s < measure s + income t)
    {inputs : List I} {s t : S} (h : Trace program allowed s inputs t) (hs : P s) :
    P t ∧ inputs.length + measure t + income s ≤ measure s + income t := by
  induction h with
  | refl => exact ⟨hs, by rw [List.length_nil]; omega⟩
  | tail _ henabled hallowed hstep ih =>
    obtain ⟨ht, hle⟩ := ih
    obtain ⟨hu, hlt⟩ := hpres _ _ _ henabled hallowed hstep ht
    refine ⟨hu, ?_⟩
    rw [List.length_append, List.length_singleton]
    omega

end Transitions

/-- A sum of which one term changes. -/
theorem sum_replaced {A : Type} [Fintype A] [DecidableEq A] {f g : A → Nat} {a : A} (hother : ∀ b, b ≠ a → g b = f b) :
    (∑ b, g b) + f a = (∑ b, f b) + g a := by
  have hrest : ∑ b ∈ Finset.univ.erase a, g b = ∑ b ∈ Finset.univ.erase a, f b :=
    Finset.sum_congr rfl fun b hb => hother b (Finset.ne_of_mem_erase hb)
  have hf := Finset.add_sum_erase Finset.univ f (Finset.mem_univ a)
  have hg := Finset.add_sum_erase Finset.univ g (Finset.mem_univ a)
  omega

end clib
