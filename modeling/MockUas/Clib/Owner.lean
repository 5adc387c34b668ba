import MockUas.Clib.Result

namespace clib

/-- Each resource that is in use has exactly one owner, and nobody owns any other. -/
structure SoleOwners {O A : Type} (owns : O → A → Prop) (used : A → Prop) : Prop where
  sole : ∀ o p a, owns o a → owns p a → o = p
  used_iff : ∀ a, used a ↔ ∃ o, owns o a

namespace SoleOwners

variable {O A : Type} {owns owns' : O → A → Prop} {used used' : A → Prop}

theorem existsUnique (h : SoleOwners owns used) (a : A) : used a ↔ ∃! o, owns o a := by
  rw [h.used_iff]
  constructor
  · rintro ⟨o, ho⟩
    exact ⟨o, ho, fun p hp => h.sole p o a hp ho⟩
  · rintro ⟨o, ho, -⟩
    exact ⟨o, ho⟩

theorem used_of (h : SoleOwners owns used) {o : O} {a : A} (ho : owns o a) : used a := (h.used_iff a).mpr ⟨o, ho⟩

theorem congr (h : SoleOwners owns used) (howns : ∀ o a, owns' o a ↔ owns o a) (hused : ∀ a, used' a ↔ used a) :
    SoleOwners owns' used' := by
  refine ⟨fun o p a ho hp => ?_, fun a => ?_⟩
  · exact h.sole o p a ((howns o a).mp ho) ((howns p a).mp hp)
  · rw [hused, h.used_iff]
    exact exists_congr fun o => (howns o a).symm

/-- A resource that was not in use gets an owner. -/
theorem acquire (h : SoleOwners owns used) {o : O} {a : A} (hfree : ¬ used a)
    (hself : ∀ b, owns' o b ↔ owns o b ∨ b = a) (hother : ∀ p b, p ≠ o → (owns' p b ↔ owns p b))
    (hused : ∀ b, used' b ↔ used b ∨ b = a) : SoleOwners owns' used' := by
  have howns : ∀ p b, owns' p b ↔ owns p b ∨ p = o ∧ b = a := by
    intro p b
    by_cases hp : p = o
    · rw [hp, hself]
      exact or_congr Iff.rfl ⟨fun hb => ⟨rfl, hb⟩, And.right⟩
    · rw [hother p b hp]
      exact ⟨.inl, fun hor => hor.resolve_right fun hb => hp hb.1⟩
  refine ⟨fun p q b hp hq => ?_, fun b => ?_⟩
  · rcases (howns p b).mp hp with hp | ⟨rfl, rfl⟩
    · rcases (howns q b).mp hq with hq | ⟨-, rfl⟩
      · exact h.sole p q b hp hq
      · exact absurd (h.used_of hp) hfree
    · rcases (howns q b).mp hq with hq | ⟨rfl, -⟩
      · exact absurd (h.used_of hq) hfree
      · rfl
  · rw [hused, h.used_iff]
    constructor
    · rintro (⟨p, hp⟩ | rfl)
      · exact ⟨p, (howns p b).mpr (.inl hp)⟩
      · exact ⟨o, (hself b).mpr (.inr rfl)⟩
    · rintro ⟨p, hp⟩
      exact ((howns p b).mp hp).imp (fun hb => ⟨p, hb⟩) And.right

/-- The owner of a resource gives it up, and it goes out of use. -/
theorem release (h : SoleOwners owns used) {o : O} {a : A} (ho : owns o a)
    (hself : ∀ b, owns' o b ↔ owns o b ∧ b ≠ a) (hother : ∀ p b, p ≠ o → (owns' p b ↔ owns p b))
    (hused : ∀ b, used' b ↔ used b ∧ b ≠ a) : SoleOwners owns' used' := by
  have howns : ∀ p b, owns' p b ↔ owns p b ∧ b ≠ a := by
    intro p b
    by_cases hp : p = o
    · rw [hp, hself]
    · rw [hother p b hp]
      refine ⟨fun hb => ⟨hb, ?_⟩, And.left⟩
      rintro rfl
      exact hp (h.sole p o b hb ho)
  refine ⟨fun p q b hp hq => ?_, fun b => ?_⟩
  · exact h.sole p q b ((howns p b).mp hp).1 ((howns q b).mp hq).1
  · rw [hused, h.used_iff]
    constructor
    · rintro ⟨⟨p, hp⟩, hne⟩
      exact ⟨p, (howns p b).mpr ⟨hp, hne⟩⟩
    · rintro ⟨p, hp⟩
      obtain ⟨hp, hne⟩ := (howns p b).mp hp
      exact ⟨⟨p, hp⟩, hne⟩

/-- The owner of a resource hands it to another. -/
theorem transfer (h : SoleOwners owns used) {o q : O} {a : A} (ho : owns o a)
    (hgiver : ∀ b, owns' o b ↔ owns o b ∧ b ≠ a) (htaker : ∀ b, owns' q b ↔ owns q b ∨ b = a)
    (hother : ∀ p b, p ≠ o → p ≠ q → (owns' p b ↔ owns p b)) (hused : ∀ b, used' b ↔ used b) :
    SoleOwners owns' used' := by
  have hmiddle : SoleOwners (fun p b => owns p b ∧ b ≠ a) fun b => used b ∧ b ≠ a := by
    refine h.release ho (fun b => Iff.rfl) (fun p b hp => ⟨And.left, fun hb => ⟨hb, ?_⟩⟩) fun b => Iff.rfl
    rintro rfl
    exact hp (h.sole p o b hb ho)
  have hnot : ∀ p, p ≠ o → ¬ owns p a := fun p hp hb => hp (h.sole p o a hb ho)
  refine hmiddle.acquire (o := q) (a := a) (fun hb => hb.2 rfl) (fun b => ?_) (fun p b hp => ?_) fun b => ?_
  · rw [htaker]
    refine ⟨fun hor => ?_, Or.imp And.left id⟩
    by_cases hb : b = a
    · exact .inr hb
    · exact .inl ⟨hor.resolve_right hb, hb⟩
  · by_cases hpo : p = o
    · rw [hpo, hgiver]
    · rw [hother p b hpo hp]
      refine ⟨fun hb => ⟨hb, ?_⟩, And.left⟩
      rintro rfl
      exact hnot p hpo hb
  · rw [hused]
    constructor
    · intro hb
      by_cases heq : b = a
      · exact .inr heq
      · exact .inl ⟨hb, heq⟩
    · rintro (⟨hb, -⟩ | rfl)
      · exact hb
      · exact h.used_of ho

end SoleOwners

end clib
