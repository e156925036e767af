import Mathlib.Data.List.Sort

/-! The median of the last elements of a sequence. An element is at most the median if no more than
half of the elements are below it, so a sequence each new element of which is above the median of
the window before it has medians that never decrease. -/
namespace WindowMedian
variable {α : Type} [LinearOrder α] {m t d : α} {l : List α} {n : ℕ}

/-- The upper median of a list, and `d` for the empty list. -/
def median (d : α) (l : List α) : α := ((l.insertionSort (· ≤ ·))[l.length / 2]?).getD d

def lastOf (n : ℕ) (l : List α) : List α := l.drop (l.length - n)

omit [LinearOrder α] in
lemma length_lastOf (n : ℕ) (l : List α) : (lastOf n l).length = min n l.length := by
  rw [lastOf, List.length_drop]
  omega

/-- In a sorted list the elements below `m` are the first ones. -/
lemma le_getElem_iff (hsorted : l.Pairwise (· ≤ ·)) {i : ℕ} (hi : i < l.length) :
    m ≤ l[i] ↔ l.countP (· < m) ≤ i := by
  induction l generalizing i with
  | nil => simp at hi
  | cons a l ih =>
    obtain ⟨hfirst, hrest⟩ := List.pairwise_cons.1 hsorted
    by_cases ha : a < m
    · rw [List.countP_cons_of_pos (by simpa using ha)]
      cases i with
      | zero => simpa using ha
      | succ i =>
        rw [List.getElem_cons_succ, ih hrest (by simpa using hi)]
        omega
    · have hnone : (a :: l).countP (· < m) = 0 := by
        rw [List.countP_eq_zero]
        intro x hx
        have hle : a ≤ x := by
          rcases List.mem_cons.1 hx with rfl | hx
          · exact le_rfl
          · exact hfirst x hx
        simpa using (not_lt.1 ha).trans hle
      rw [hnone]
      refine iff_of_true ?_ (Nat.zero_le _)
      cases i with
      | zero => exact not_lt.1 ha
      | succ i => exact (not_lt.1 ha).trans (hfirst _ (List.getElem_mem _))

lemma le_median_iff (hl : l ≠ []) : m ≤ median d l ↔ l.countP (· < m) ≤ l.length / 2 := by
  have hperm := List.perm_insertionSort (· ≤ ·) l
  have hlength := hperm.length_eq
  have hpos := List.length_pos_of_ne_nil hl
  have hi : l.length / 2 < (l.insertionSort (· ≤ ·)).length := by omega
  rw [median, List.getElem?_eq_getElem hi, Option.getD_some,
    le_getElem_iff (List.pairwise_insertionSort (· ≤ ·) l) hi, hperm.countP_eq]

/-- A new element above the median does not lower the median, while the window moves on. -/
theorem median_le_push (hn : 0 < n) (ht : median d (lastOf n l) < t) :
    median d (lastOf n l) ≤ median d (lastOf n (l ++ [t])) := by
  have hnew : lastOf n (l ++ [t]) = l.drop (l.length + 1 - n) ++ [t] := by
    rw [lastOf, List.length_append, List.length_singleton, List.drop_append_of_le_length (by omega)]
  have hlength := length_lastOf n (l ++ [t])
  rw [List.length_append, List.length_singleton] at hlength
  have hne : lastOf n (l ++ [t]) ≠ [] := by simp [hnew]
  rw [le_median_iff hne]
  -- the elements below the old median were in the old window
  have hcount : (lastOf n (l ++ [t])).countP (· < median d (lastOf n l)) ≤
      (lastOf n l).countP (· < median d (lastOf n l)) := by
    have hkept : (l.drop (l.length + 1 - n)).Sublist (lastOf n l) :=
      List.drop_sublist_drop_left l (by omega)
    rw [hnew, List.countP_append, List.countP_singleton, if_neg (by simpa using ht.le), Nat.add_zero]
    exact hkept.countP_le
  by_cases hold : lastOf n l = []
  · have hzero : (lastOf n l).countP (· < median d (lastOf n l)) = 0 := by
      simp only [hold, List.countP_nil]
    omega
  · have hmedian : (lastOf n l).countP (· < median d (lastOf n l)) ≤ (lastOf n l).length / 2 :=
      (le_median_iff hold).1 le_rfl
    have hgrow : (lastOf n l).length / 2 ≤ (lastOf n (l ++ [t])).length / 2 := by
      rw [length_lastOf, hlength]
      omega
    exact (hcount.trans hmedian).trans hgrow

end WindowMedian
