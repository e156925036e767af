import Mathlib

/-! Sorting by repeated passes: a pass takes over every element whose parents are placed already.
The elements of a pass come in any order, and what is left when a pass takes over nothing is put
at the end. -/
namespace Topological
open Relation

section sort
variable {α : Type} [DecidableEq α] (parents : α → List α) (all : List α)

/-- One pass over the elements that are left, after the ones that are placed. -/
def pass : List α → List α → List α × List α
  | [], placed => (placed, [])
  | x :: left, placed =>
    if (parents x).all fun p => p ∉ all || p ∈ placed then pass left (placed ++ [x])
    else ((pass left placed).1, x :: (pass left placed).2)

/-- The passes. `order` is the order in which a pass sees what is left, `giveUp` the one in which
it is put at the end. -/
def passes (order giveUp : List α → List α) : ℕ → List α → List α → List α
  | _, [], placed => placed
  | 0, left, placed => placed ++ giveUp left
  | fuel + 1, left, placed =>
    let next := pass parents all (order left) placed
    if next.2.length < left.length then passes order giveUp fuel next.2 next.1
    else next.1 ++ giveUp next.2

/-- A pass that goes on leaves fewer elements, so their number is enough. -/
def sort (order giveUp : List α → List α) : List α :=
  passes parents all order giveUp all.length all []

/-- Every element comes after its parents among `all`. -/
def InOrder (l : List α) : Prop :=
  ∀ before x after, l = before ++ x :: after → ∀ p ∈ parents x, p ∈ all → p ∈ before

/-- A relation between elements of `all`. -/
def Above (x p : α) : Prop := x ∈ all ∧ p ∈ all ∧ p ∈ parents x

end sort

variable {α : Type} [DecidableEq α] {parents : α → List α} {all : List α}

omit [DecidableEq α] in
lemma inOrder_nil : InOrder parents all [] := by
  intro before x after h
  simp at h

omit [DecidableEq α] in
lemma InOrder.append_singleton {l : List α} {x : α} (h : InOrder parents all l)
    (hx : ∀ p ∈ parents x, p ∈ all → p ∈ l) : InOrder parents all (l ++ [x]) := by
  intro before y after heq p hp hall
  rcases List.eq_nil_or_concat after with rfl | ⟨after', z, rfl⟩
  · obtain ⟨rfl, hxy⟩ := List.append_inj' heq rfl
    cases hxy
    exact hx p hp hall
  · have hsplit : l ++ [x] = (before ++ y :: after') ++ [z] := by simpa using heq
    obtain ⟨rfl, -⟩ := List.append_inj' hsplit rfl
    exact h before y after' rfl p hp hall

lemma pass_perm (left placed : List α) :
    ((pass parents all left placed).1 ++ (pass parents all left placed).2).Perm (placed ++ left) := by
  induction left generalizing placed with
  | nil => simp [pass]
  | cons x left ih =>
    rw [pass]
    split_ifs
    · simpa using ih (placed ++ [x])
    · exact List.perm_middle.trans ((ih placed).cons x |>.trans List.perm_middle.symm)

lemma pass_inOrder {left placed : List α} (h : InOrder parents all placed) :
    InOrder parents all (pass parents all left placed).1 := by
  induction left generalizing placed with
  | nil => exact h
  | cons x left ih =>
    rw [pass]
    split_ifs with hx
    · refine ih (h.append_singleton ?_)
      intro p hp hall
      simpa [hall] using List.all_eq_true.1 hx p hp
    · exact ih h

lemma pass_length (left placed : List α) :
    placed.length ≤ (pass parents all left placed).1.length ∧
      (pass parents all left placed).2.length ≤ left.length := by
  have hgrows : placed.length ≤ (pass parents all left placed).1.length := by
    induction left generalizing placed with
    | nil => exact le_refl _
    | cons x left ih =>
      rw [pass]
      split_ifs
      · have hmore := ih (placed ++ [x])
        simp only [List.length_append, List.length_singleton] at hmore
        omega
      · exact ih placed
  have hsame := (@pass_perm α _ parents all left placed).length_eq
  simp only [List.length_append] at hsame
  omega

/-- Where nothing is taken over, every element waits for a parent. -/
lemma pass_stuck {left placed : List α}
    (hstuck : ¬ (pass parents all left placed).2.length < left.length) :
    (pass parents all left placed) = (placed, left) ∧
      ∀ x ∈ left, ∃ p ∈ parents x, p ∈ all ∧ p ∉ placed := by
  induction left generalizing placed with
  | nil => exact ⟨rfl, by simp⟩
  | cons x left ih =>
    rw [pass] at hstuck ⊢
    split_ifs at hstuck ⊢ with hx
    · have hless := (@pass_length α _ parents all left (placed ++ [x])).2
      simp only [List.length_cons] at hstuck
      omega
    · simp only [List.length_cons, Nat.add_lt_add_iff_right] at hstuck
      obtain ⟨heq, hwait⟩ := ih hstuck
      rw [heq]
      refine ⟨rfl, ?_⟩
      intro y hy
      rcases List.mem_cons.1 hy with rfl | hy
      · simpa using hx
      · exact hwait y hy

omit [DecidableEq α] in
/-- Where every element of a finite set has a successor in it, there is a cycle. -/
lemma exists_cycle {r : α → α → Prop} {l : List α} (hne : l ≠ [])
    (h : ∀ x ∈ l, ∃ y ∈ l, r x y) : ∃ x, TransGen r x x := by
  by_contra hno
  have htrans : IsTrans {x // x ∈ l} fun a b => TransGen r b.1 a.1 := ⟨fun _ _ _ hab hbc => hbc.trans hab⟩
  have hirrefl : Std.Irrefl fun a b : {x // x ∈ l} => TransGen r b.1 a.1 :=
    ⟨fun a ha => hno ⟨a.1, ha⟩⟩
  have hfinite : Finite {x // x ∈ l} := l.finite_toSet.to_subtype
  have hwf := Finite.wellFounded_of_trans_of_irrefl fun a b : {x // x ∈ l} => TransGen r b.1 a.1
  obtain ⟨x, hx⟩ := List.exists_mem_of_ne_nil l hne
  obtain ⟨m, -, hmin⟩ := hwf.has_min Set.univ ⟨⟨x, hx⟩, trivial⟩
  obtain ⟨y, hy, hr⟩ := h m.1 m.2
  exact hmin ⟨y, hy⟩ trivial (TransGen.single hr)

lemma passes_succ {order giveUp : List α → List α} (fuel : ℕ) {left : List α} (hne : left ≠ [])
    (placed : List α) : passes parents all order giveUp (fuel + 1) left placed =
      if (pass parents all (order left) placed).2.length < left.length then
        passes parents all order giveUp fuel (pass parents all (order left) placed).2
          (pass parents all (order left) placed).1
      else (pass parents all (order left) placed).1 ++
        giveUp (pass parents all (order left) placed).2 := by
  cases left with
  | nil => exact absurd rfl hne
  | cons x left => rfl

section sorted
variable {order giveUp : List α → List α} (horder : ∀ l, (order l).Perm l)
  (hgive : ∀ l, (giveUp l).Perm l)
include horder hgive

lemma passes_perm (fuel : ℕ) (left placed : List α) :
    (passes parents all order giveUp fuel left placed).Perm (placed ++ left) := by
  induction fuel generalizing left placed with
  | zero =>
    cases left with
    | nil => simp [passes]
    | cons x left => exact (hgive _).append_left placed
  | succ fuel ih =>
    cases left with
    | nil => simp [passes]
    | cons x left =>
      have hpass := (@pass_perm α _ parents all (order (x :: left)) placed).trans
        ((horder _).append_left placed)
      rw [passes_succ fuel (List.cons_ne_nil x left)]
      split_ifs
      · exact (ih _ _).trans hpass
      · exact ((hgive _).append_left _).trans hpass

theorem sort_perm : (sort parents all order giveUp).Perm all := by
  simpa [sort] using @passes_perm α _ parents all _ _ horder hgive all.length all []

omit hgive in
lemma passes_inOrder (hacyclic : ∀ x, ¬ TransGen (Above parents all) x x) (fuel : ℕ)
    {left placed : List α} (hfuel : left.length ≤ fuel) (hperm : (placed ++ left).Perm all)
    (h : InOrder parents all placed) :
    InOrder parents all (passes parents all order giveUp fuel left placed) := by
  induction fuel generalizing left placed with
  | zero =>
    have hnil : left = [] := List.length_eq_zero_iff.1 (Nat.le_zero.1 hfuel)
    subst hnil
    exact h
  | succ fuel ih =>
    by_cases hne : left = []
    · subst hne
      exact h
    rw [passes_succ fuel hne]
    split_ifs with hprogress
    · refine ih (by omega) ?_ (pass_inOrder h)
      exact (pass_perm _ _).trans (((horder left).append_left placed).trans hperm)
    · -- every element that is left has a parent that is left
      exfalso
      rw [← (horder left).length_eq] at hprogress
      obtain ⟨-, hwait⟩ := pass_stuck hprogress
      have hstep : ∀ y ∈ left, ∃ p ∈ left, Above parents all y p := by
        intro y hy
        obtain ⟨p, hp, hall, hnot⟩ := hwait y ((horder left).mem_iff.2 hy)
        have hpleft : p ∈ left := (List.mem_append.1 (hperm.mem_iff.2 hall)).resolve_left hnot
        exact ⟨p, hpleft, hperm.mem_iff.1 (List.mem_append_right _ hy), hall, hp⟩
      obtain ⟨y, hcycle⟩ := exists_cycle hne hstep
      exact hacyclic y hcycle

omit hgive in
/-- Without a cycle among `all` the sorted list has every element after its parents. -/
theorem sort_inOrder (hacyclic : ∀ x, ¬ TransGen (Above parents all) x x) :
    InOrder parents all (sort parents all order giveUp) :=
  passes_inOrder horder hacyclic all.length (le_refl _) (by simp) inOrder_nil

end sorted
end Topological
