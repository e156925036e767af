import Mathlib

/-! Matching two lists in order: each entry of the first gets an entry of the second, later ones for
later ones. Taking the first entry that fits finds such a matching if there is one. -/
namespace BerzCoin

variable {α β : Type}

/-- Each entry of the first list has its own entry of the second, in order. -/
def OrderedMatching (R : α → β → Prop) (as : List α) (bs : List β) : Prop :=
  ∃ f : Fin as.length → Fin bs.length, StrictMono f ∧ ∀ i, R (as.get i) (bs.get (f i))

lemma orderedMatching_iff {R : α → β → Prop} {as : List α} {bs : List β} :
    OrderedMatching R as bs ↔ List.SublistForall₂ R as bs := by
  rw [List.sublistForall₂_iff]
  constructor
  · rintro ⟨f, hmono, hf⟩
    refine ⟨List.ofFn fun i => bs.get (f i), ?_, ?_⟩
    · rw [List.forall₂_iff_get]
      refine ⟨by simp, ?_⟩
      intro i hi hi'
      simpa using hf ⟨i, hi⟩
    · rw [List.sublist_iff_exists_fin_orderEmbedding_get_eq]
      refine ⟨OrderEmbedding.ofStrictMono (fun i => f (i.cast (by simp))) ?_, ?_⟩
      · intro i j hij
        exact hmono (by simpa using hij)
      · intro i
        rw [List.get_ofFn]
        rfl
  · rintro ⟨bs', hall, hsub⟩
    obtain ⟨g, hg⟩ := List.sublist_iff_exists_fin_orderEmbedding_get_eq.1 hsub
    obtain ⟨hlen, hall⟩ := List.forall₂_iff_get.1 hall
    refine ⟨fun i => g (i.cast hlen), ?_, ?_⟩
    · intro i j hij
      exact g.strictMono (by simpa using hij)
    · intro i
      have hi := hall i i.2 (hlen ▸ i.2)
      rw [← hg (i.cast hlen)]
      exact hi

lemma orderedMatching_reverse {R : α → β → Prop} {as : List α} {bs : List β} :
    OrderedMatching R as.reverse bs.reverse ↔ OrderedMatching R as bs := by
  have hone {as : List α} {bs : List β} (h : List.SublistForall₂ R as bs) :
      List.SublistForall₂ R as.reverse bs.reverse := by
    obtain ⟨bs', hall, hsub⟩ := List.sublistForall₂_iff.1 h
    exact List.sublistForall₂_iff.2 ⟨bs'.reverse, List.rel_reverse hall, hsub.reverse⟩
  rw [orderedMatching_iff, orderedMatching_iff]
  constructor
  · intro h
    have hback := hone h
    rwa [List.reverse_reverse, List.reverse_reverse] at hback
  · exact hone

lemma orderedMatching_nil (R : α → β → Prop) (bs : List β) : OrderedMatching R [] bs :=
  orderedMatching_iff.2 .nil

lemma not_orderedMatching_cons_nil {R : α → β → Prop} {a : α} {as : List α} :
    ¬ OrderedMatching R (a :: as) [] := by
  rw [orderedMatching_iff]
  intro h
  cases h

/-- A matching of more entries matches fewer. -/
lemma OrderedMatching.tail {R : α → β → Prop} {a : α} {as : List α} {bs : List β}
    (h : OrderedMatching R (a :: as) bs) : OrderedMatching R as bs := by
  rw [orderedMatching_iff] at h ⊢
  generalize has : a :: as = as' at h
  induction h with
  | nil => cases has
  | cons _ h _ =>
    cases has
    exact .cons_right h
  | cons_right _ ih => exact .cons_right (ih has)

/-- The exchange: where the first entries fit, they can be matched. -/
lemma orderedMatching_cons_of_fits {R : α → β → Prop} {a : α} {b : β} {as : List α} {bs : List β}
    (hfits : R a b) : OrderedMatching R (a :: as) (b :: bs) ↔ OrderedMatching R as bs := by
  constructor
  · intro h
    rw [orderedMatching_iff] at h
    cases h with
    | cons _ h => exact orderedMatching_iff.2 h
    | cons_right h => exact (orderedMatching_iff.2 h).tail
  · intro h
    exact orderedMatching_iff.2 (.cons hfits (orderedMatching_iff.1 h))

lemma orderedMatching_cons_of_misfits {R : α → β → Prop} {a : α} {b : β} {as : List α} {bs : List β}
    (hmisfits : ¬ R a b) : OrderedMatching R (a :: as) (b :: bs) ↔ OrderedMatching R (a :: as) bs := by
  rw [orderedMatching_iff, orderedMatching_iff]
  constructor
  · intro h
    cases h with
    | cons hfits _ => exact absurd hfits hmisfits
    | cons_right h => exact h
  · exact .cons_right

end BerzCoin
