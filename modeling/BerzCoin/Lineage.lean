import Mathlib.Logic.Relation

/-! The transitive closure of a relation on a part that the relation does not leave, and its
closure after one point was added that nothing is related to. -/
namespace Lineage
open Relation
variable {α : Type*} {R R' : α → α → Prop} {T : α → Prop}

lemma transGen_on (hstep : ∀ a b, T a → R a b → R' a b ∧ T b) {a b : α} (ha : T a)
    (h : TransGen R a b) : TransGen R' a b ∧ T b := by
  induction h with
  | single h =>
    obtain ⟨h', hb⟩ := hstep _ _ ha h
    exact ⟨.single h', hb⟩
  | tail _ h ih =>
    obtain ⟨hpath, hb⟩ := ih
    obtain ⟨h', hc⟩ := hstep _ _ hb h
    exact ⟨hpath.tail h', hc⟩

/-- Two relations that agree on a closed part have the same closure there. -/
lemma transGen_congr_on (hsame : ∀ a b, T a → (R' a b ↔ R a b)) (hclosed : ∀ a b, T a → R a b → T b)
    {a b : α} (ha : T a) : TransGen R' a b ↔ TransGen R a b := by
  constructor
  · intro h
    refine (transGen_on ?_ ha h).1
    intro a b ha hab
    have hab' := (hsame a b ha).1 hab
    exact ⟨hab', hclosed a b ha hab'⟩
  · intro h
    refine (transGen_on ?_ ha h).1
    intro a b ha hab
    exact ⟨(hsame a b ha).2 hab, hclosed a b ha hab⟩

/-- The ends of a path are ends of its first and last steps. -/
lemma transGen_ends {P Q : α → Prop} (hstep : ∀ a b, R a b → P a ∧ Q b) {a b : α}
    (h : TransGen R a b) : P a ∧ Q b := by
  induction h with
  | single h => exact hstep _ _ h
  | tail _ h ih => exact ⟨ih.1, (hstep _ _ h).2⟩

/-- From the new point `t` one reaches its targets and what they reach. -/
lemma transGen_new {t : α} (hold : ∀ a b, a ≠ t → (R' a b ↔ R a b)) (hne : ∀ a b, R' a b → b ≠ t)
    {b : α} : TransGen R' t b ↔ ∃ p, R' t p ∧ (b = p ∨ TransGen R p b) := by
  have hclosed (a b : α) (ha : a ≠ t) (hab : R a b) : b ≠ t := hne a b ((hold a b ha).2 hab)
  rw [TransGen.head'_iff]
  refine exists_congr fun p => and_congr_right fun hp => ?_
  rw [reflTransGen_iff_eq_or_transGen, transGen_congr_on hold hclosed (hne t p hp)]

/-- On the way along a changed relation everything is as before up to the first point where the
relation was changed. -/
lemma reflTransGen_change (hsame : ∀ a b, ¬ T a → (R' a b ↔ R a b)) {a b : α}
    (h : ReflTransGen R' a b) :
    ReflTransGen R a b ∨
      ∃ t, T t ∧ ReflTransGen R a t ∧ ReflTransGen R' a t ∧ ReflTransGen R' t b := by
  induction h using ReflTransGen.head_induction_on with
  | refl => exact Or.inl .refl
  | @head a c hac hcb ih =>
    by_cases ha : T a
    · exact Or.inr ⟨a, ha, .refl, .refl, hcb.head hac⟩
    · have hac' : R a c := (hsame a c ha).1 hac
      rcases ih with h | ⟨t, ht, hct, hct', htb⟩
      · exact Or.inl (h.head hac')
      · exact Or.inr ⟨t, ht, hct.head hac', hct'.head hac, htb⟩

end Lineage
