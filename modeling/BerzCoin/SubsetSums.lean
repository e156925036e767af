import Mathlib

/-! Choices of items by their total weight: tables of the choices with the fewest items, and the
shortest beginning of a list that reaches a total. -/
namespace SubsetSums
open List
variable {α : Type*} {weight : α → ℕ}

def total (weight : α → ℕ) (items : List α) : ℕ := (items.map weight).sum

@[simp] lemma total_nil : total weight [] = 0 := rfl

@[simp] lemma total_cons (item : α) (items : List α) :
    total weight (item :: items) = weight item + total weight items := by simp [total]

@[simp] lemma total_append (items items' : List α) :
    total weight (items ++ items') = total weight items + total weight items' := by simp [total]

lemma total_perm {items items' : List α} (h : items ~ items') :
    total weight items = total weight items' := (h.map weight).sum_eq

lemma total_subperm_le {items items' : List α} (h : items <+~ items') :
    total weight items ≤ total weight items' := by
  obtain ⟨chosen, hperm, hsub⟩ := h
  rw [← total_perm hperm]
  exact (hsub.map weight).sum_le_sum fun _ _ => Nat.zero_le _

/-- A choice from a list with one more item leaves the item or takes it. -/
lemma subperm_cons_iff {item : α} {items chosen : List α} :
    chosen <+~ item :: items ↔
      chosen <+~ items ∨ ∃ rest, chosen ~ item :: rest ∧ rest <+~ items := by
  constructor
  · rintro ⟨chosen', hperm, hsub⟩
    cases hsub with
    | cons _ hsub => exact .inl ⟨chosen', hperm, hsub⟩
    | cons_cons _ hsub => exact .inr ⟨_, hperm.symm, hsub.subperm⟩
  · rintro (h | ⟨rest, hperm, hrest⟩)
    · exact h.cons_right item
    · exact hperm.symm.subperm_right.1 ((subperm_cons item).2 hrest)

/-! Tables of fewest choices. -/

/-- A choice with a given total that has as few items as any. -/
structure IsFewest (weight : α → ℕ) (items : List α) (sum : ℕ) (chosen : List α) : Prop where
  subperm : chosen <+~ items
  total : total weight chosen = sum
  fewest : ∀ other, other <+~ items → SubsetSums.total weight other = sum →
    chosen.length ≤ other.length

/-- What is known of a sum: that no choice has it, or a choice with the fewest items. -/
def Settles (weight : α → ℕ) (items : List α) (sum : ℕ) : Option (List α) → Prop
  | none => ∀ chosen, chosen <+~ items → total weight chosen ≠ sum
  | some chosen => IsFewest weight items sum chosen

lemma Settles.perm {items items' : List α} {sum : ℕ} {cell : Option (List α)} (hperm : items ~ items')
    (h : Settles weight items sum cell) : Settles weight items' sum cell := by
  cases cell with
  | none =>
    intro chosen hchosen
    exact h chosen (hperm.subperm_left.2 hchosen)
  | some chosen =>
    refine ⟨hperm.subperm_left.1 h.subperm, h.total, ?_⟩
    intro other hother
    exact h.fewest other (hperm.subperm_left.2 hother)

/-- The old choice, unless the new one has fewer items. -/
def fewer (old new : Option (List α)) : Option (List α) :=
  match old, new with
  | old, none => old
  | none, some new => some new
  | some old, some new => if new.length < old.length then some new else some old

lemma settles_nil (sum : ℕ) :
    Settles weight ([] : List α) sum (if sum = 0 then some [] else none) := by
  split_ifs with h
  · exact ⟨.refl _, h.symm, fun _ _ _ => Nat.zero_le _⟩
  · intro chosen hchosen htotal
    rw [subperm_nil.1 hchosen] at htotal
    exact h htotal.symm

/-- Items that weigh nothing are in no choice with the fewest items. -/
lemma Settles.cons_zero {items : List α} {item : α} {sum : ℕ} {cell : Option (List α)}
    (hzero : weight item = 0) (h : Settles weight items sum cell) :
    Settles weight (item :: items) sum cell := by
  have hdrop (other : List α) (hother : other <+~ item :: items) :
      ∃ rest, rest <+~ items ∧ total weight rest = total weight other ∧ rest.length ≤ other.length := by
    rcases subperm_cons_iff.1 hother with h | ⟨rest, hperm, hrest⟩
    · exact ⟨other, h, rfl, le_rfl⟩
    · refine ⟨rest, hrest, ?_, ?_⟩
      · rw [total_perm hperm, total_cons, hzero, Nat.zero_add]
      · rw [hperm.length_eq, length_cons]
        exact Nat.le_succ _
  cases cell with
  | none =>
    intro other hother htotal
    obtain ⟨rest, hrest, hsame, -⟩ := hdrop other hother
    exact h rest hrest (hsame.trans htotal)
  | some chosen =>
    refine ⟨h.subperm.cons_right item, h.total, ?_⟩
    intro other hother htotal
    obtain ⟨rest, hrest, hsame, hle⟩ := hdrop other hother
    exact (h.fewest rest hrest (hsame.trans htotal)).trans hle

/-- A choice has the fewest items if it has no more than those without the new item and those with
it. -/
lemma isFewest_cons {items chosen : List α} {item : α} {sum : ℕ} (hsub : chosen <+~ item :: items)
    (htotal : total weight chosen = sum)
    (hleave : ∀ other, other <+~ items → total weight other = sum → chosen.length ≤ other.length)
    (htake : ∀ others, others <+~ items → weight item + total weight others = sum →
      chosen.length ≤ others.length + 1) : IsFewest weight (item :: items) sum chosen := by
  refine ⟨hsub, htotal, ?_⟩
  intro other hother hothertotal
  rcases subperm_cons_iff.1 hother with hother | ⟨others, hperm, hothers⟩
  · exact hleave other hother hothertotal
  · rw [total_perm hperm, total_cons] at hothertotal
    rw [hperm.length_eq, length_cons]
    exact htake others hothers hothertotal

/-- The new item is added to a choice for the rest of the sum. -/
lemma isFewest_append_singleton {items chosen : List α} {item : α} {sum : ℕ}
    (h : IsFewest weight items (sum - weight item) chosen) (hle : weight item ≤ sum) :
    chosen ++ [item] <+~ item :: items ∧ total weight (chosen ++ [item]) = sum ∧
      ∀ others, others <+~ items → weight item + total weight others = sum →
        (chosen ++ [item]).length ≤ others.length + 1 := by
  refine ⟨?_, ?_, ?_⟩
  · exact (perm_append_singleton item chosen).symm.subperm_right.1
      ((subperm_cons item).2 h.subperm)
  · rw [total_append, h.total, total_cons, total_nil]
    omega
  · intro others hothers htotal
    rw [length_append, length_singleton]
    exact Nat.succ_le_succ (h.fewest others hothers (by omega))

/-- A choice with the new item comes from a choice for the rest of the sum. -/
lemma Settles.cons {items : List α} {item : α} {sum : ℕ} {cell rest : Option (List α)}
    (h : Settles weight items sum cell)
    (hrest : weight item ≤ sum → Settles weight items (sum - weight item) rest)
    (hnone : sum < weight item → rest = none) :
    Settles weight (item :: items) sum (fewer cell (rest.map (· ++ [item]))) := by
  cases rest with
  | none =>
    have hleft (others : List α) (hothers : others <+~ items)
        (htotal : weight item + total weight others = sum) : False :=
      hrest (by omega) others hothers (by omega)
    cases cell with
    | none =>
      intro other hother htotal
      rcases subperm_cons_iff.1 hother with hother | ⟨others, hperm, hothers⟩
      · exact h other hother htotal
      · rw [total_perm hperm, total_cons] at htotal
        exact hleft others hothers htotal
    | some chosen =>
      exact isFewest_cons (h.subperm.cons_right item) h.total h.fewest fun others hothers htotal =>
        (hleft others hothers htotal).elim
  | some before =>
    have hle : weight item ≤ sum := by
      by_contra hlt
      cases hnone (not_le.1 hlt)
    obtain ⟨hsub, htotalNew, htake⟩ := isFewest_append_singleton (hrest hle) hle
    cases cell with
    | none =>
      exact isFewest_cons hsub htotalNew (fun other hother htotal => (h other hother htotal).elim) htake
    | some chosen =>
      simp only [Option.map_some, fewer]
      split_ifs with hlt
      · exact isFewest_cons hsub htotalNew
          (fun other hother htotal => hlt.le.trans (h.fewest other hother htotal)) htake
      · exact isFewest_cons (h.subperm.cons_right item) h.total h.fewest
          fun others hothers htotal => (not_lt.1 hlt).trans (htake others hothers htotal)

/-! The shortest beginning of a list that reaches a total. -/

structure IsShortest (weight : α → ℕ) (target : ℕ) (items first : List α) : Prop where
  start : first <+: items
  reaches : target ≤ total weight first
  shortest : ∀ other, other <+: items → target ≤ total weight other → first.length ≤ other.length

lemma IsShortest.unique {target : ℕ} {items first first' : List α}
    (h : IsShortest weight target items first) (h' : IsShortest weight target items first') :
    first = first' := by
  have hlength : first.length = first'.length :=
    le_antisymm (h.shortest _ h'.start h'.reaches) (h'.shortest _ h.start h.reaches)
  exact (prefix_of_prefix_length_le h.start h'.start hlength.le).eq_of_length hlength

lemma IsShortest.subperm {target : ℕ} {items first : List α}
    (h : IsShortest weight target items first) : first <+~ items := h.start.sublist.subperm

/-- A loop that takes items until the total of all that were taken reaches the target; `sum` is the
total of those before. -/
def upTo (weight : α → ℕ) (target : ℕ) : ℕ → List α → List α
  | _, [] => []
  | sum, item :: items =>
    item :: if target ≤ sum + weight item then [] else upTo weight target (sum + weight item) items

lemma upTo_of_lt {target sum : ℕ} {items : List α} (h : sum + total weight items < target) :
    upTo weight target sum items = items := by
  induction items generalizing sum with
  | nil => rfl
  | cons item items ih =>
    rw [total_cons, ← Nat.add_assoc] at h
    rw [upTo, if_neg (by omega), ih h]

lemma upTo_isShortest {target sum : ℕ} {items : List α} (hsum : sum < target)
    (h : target ≤ sum + total weight items) :
    IsShortest weight (target - sum) items (upTo weight target sum items) := by
  induction items generalizing sum with
  | nil =>
    rw [total_nil] at h
    omega
  | cons item items ih =>
    rw [total_cons, ← Nat.add_assoc] at h
    rw [upTo]
    split_ifs with hreach
    · refine ⟨⟨items, rfl⟩, ?_, ?_⟩
      · rw [total_cons, total_nil]
        omega
      · intro other _ hother
        cases other with
        | nil =>
          rw [total_nil] at hother
          omega
        | cons _ _ => simp
    · obtain ⟨hstart, hreaches, hshortest⟩ := ih (not_le.1 hreach) h
      refine ⟨(prefix_cons_inj item).2 hstart, ?_, ?_⟩
      · rw [total_cons]
        omega
      · intro other hprefix hother
        cases other with
        | nil =>
          rw [total_nil] at hother
          omega
        | cons item' other =>
          obtain ⟨rfl, hrest⟩ := cons_prefix_cons.1 hprefix
          rw [total_cons] at hother
          have hle := hshortest other hrest (by omega)
          simpa using hle

lemma upTo_beginning (target sum : ℕ) (items : List α) : upTo weight target sum items <+: items := by
  induction items generalizing sum with
  | nil => exact prefix_rfl
  | cons item items ih =>
    rw [upTo, prefix_cons_inj]
    split_ifs
    · exact nil_prefix
    · exact ih _

/-- The loop reaches the target if all items together do. -/
lemma upTo_reaches_iff {target sum : ℕ} {items : List α} :
    target ≤ sum + total weight (upTo weight target sum items) ↔
      target ≤ sum + total weight items := by
  have hle : total weight (upTo weight target sum items) ≤ total weight items :=
    total_subperm_le (upTo_beginning target sum items).sublist.subperm
  constructor
  · intro h
    exact h.trans (Nat.add_le_add_left hle sum)
  · intro h
    by_cases hsum : sum < target
    · have hreaches := (upTo_isShortest hsum h).reaches
      omega
    · omega

end SubsetSums
