import Mathlib

/-! Numerals in a base, the most significant digit first. -/
namespace Numerals
variable {b : ℕ}

/-- The number that a list of digits denotes. -/
def value (b : ℕ) (digits : List ℕ) : ℕ := digits.foldl (fun n digit => n * b + digit) 0

lemma value_eq_ofDigits (b : ℕ) (digits : List ℕ) : value b digits = Nat.ofDigits b digits.reverse := by
  induction digits using List.reverseRecOn with
  | nil => rfl
  | append_singleton digits digit ih =>
    rw [value, List.foldl_append, List.reverse_append, List.reverse_singleton, List.singleton_append,
      Nat.ofDigits_cons, ← ih]
    simp only [List.foldl_cons, List.foldl_nil, value]
    ring

@[simp] lemma value_nil (b : ℕ) : value b [] = 0 := rfl

lemma value_append (b : ℕ) (xs ys : List ℕ) :
    value b (xs ++ ys) = value b xs * b ^ ys.length + value b ys := by
  rw [value_eq_ofDigits, List.reverse_append, Nat.ofDigits_append, ← value_eq_ofDigits,
    ← value_eq_ofDigits, List.length_reverse]
  ring

lemma value_cons (b x : ℕ) (xs : List ℕ) : value b (x :: xs) = x * b ^ xs.length + value b xs := by
  have happend := value_append b [x] xs
  simpa [value] using happend

lemma value_snoc (b : ℕ) (xs : List ℕ) (x : ℕ) : value b (xs ++ [x]) = value b xs * b + x := by
  rw [value_append, List.length_singleton, pow_one]
  simp [value]

lemma value_zeros (b n : ℕ) : value b (List.replicate n 0) = 0 := by
  induction n with
  | zero => rfl
  | succ n ih => rw [List.replicate_succ, value_cons, ih, Nat.zero_mul]

/-- Leading zeros do not count. -/
lemma value_zeros_append (b n : ℕ) (xs : List ℕ) : value b (List.replicate n 0 ++ xs) = value b xs := by
  rw [value_append, value_zeros, Nat.zero_mul, Nat.zero_add]

lemma value_lt {xs : List ℕ} (h : ∀ x ∈ xs, x < b) : value b xs < b ^ xs.length := by
  induction xs with
  | nil => simp
  | cons x xs ih =>
    have hx : x + 1 ≤ b := h x (by simp)
    have hxs := ih fun y hy => h y (by simp [hy])
    rw [value_cons, List.length_cons, pow_succ']
    calc x * b ^ xs.length + value b xs < (x + 1) * b ^ xs.length := by
          rw [Nat.add_mul]
          omega
      _ ≤ b * b ^ xs.length := Nat.mul_le_mul_right _ hx

/-- Numerals of one length are equal if their numbers are. -/
lemma value_inj (hb : 1 < b) {xs ys : List ℕ} (hlength : xs.length = ys.length)
    (hxs : ∀ x ∈ xs, x < b) (hys : ∀ y ∈ ys, y < b) (h : value b xs = value b ys) : xs = ys := by
  rw [value_eq_ofDigits, value_eq_ofDigits] at h
  apply List.reverse_injective
  apply Nat.ofDigits_inj_of_len_eq hb _ _ _ h
  · simpa using hlength
  · intro x hx
    exact hxs x (List.mem_reverse.1 hx)
  · intro y hy
    exact hys y (List.mem_reverse.1 hy)

/-- The digits of a number, none for zero. -/
def digits (b n : ℕ) : List ℕ := (Nat.digits b n).reverse

lemma value_digits (b n : ℕ) : value b (digits b n) = n := by
  rw [digits, value_eq_ofDigits, List.reverse_reverse, Nat.ofDigits_digits]

lemma digits_lt (hb : 1 < b) {n digit : ℕ} (h : digit ∈ digits b n) : digit < b :=
  Nat.digits_lt_base hb (List.mem_reverse.1 h)

/-- The digits of a number do not start with zero. -/
lemma digits_head (b n : ℕ) : (digits b n).head? ≠ some 0 := by
  intro hzero
  rw [digits, List.head?_reverse] at hzero
  have hne : Nat.digits b n ≠ [] := by
    intro hnil
    rw [hnil] at hzero
    cases hzero
  have hlast := Nat.getLast_digit_ne_zero b (Nat.digits_ne_nil_iff_ne_zero.1 hne)
  rw [List.getLast?_eq_some_getLast hne, Option.some.injEq] at hzero
  exact hlast hzero

/-- A numeral without leading zeros consists of the digits of its number. -/
lemma digits_value (hb : 1 < b) {xs : List ℕ} (hxs : ∀ x ∈ xs, x < b) (hhead : xs.head? ≠ some 0) :
    digits b (value b xs) = xs := by
  rw [digits, value_eq_ofDigits, Nat.digits_ofDigits b hb, List.reverse_reverse]
  · intro x hx
    exact hxs x (List.mem_reverse.1 hx)
  · intro hne hzero
    apply hhead
    rw [← hzero, ← List.getLast?_eq_some_getLast, List.getLast?_reverse]

/-- The first digit is what is left of the number above the others. -/
lemma digits_eq_cons {k n : ℕ} (hpos : 0 < n / b ^ k) (hlt : n / b ^ k < b) :
    ∃ rest, digits b n = n / b ^ k :: rest := by
  induction k generalizing n with
  | zero =>
    rw [pow_zero, Nat.div_one] at hpos hlt ⊢
    exact ⟨[], by rw [digits, Nat.digits_of_lt b n hpos.ne' hlt, List.reverse_singleton]⟩
  | succ k ih =>
    have hb : 1 < b := by omega
    rw [pow_succ', ← Nat.div_div_eq_div_mul] at hpos hlt ⊢
    obtain ⟨rest, hrest⟩ := ih hpos hlt
    have hn : 0 < n := by
      by_contra hzero
      obtain rfl : n = 0 := by omega
      simp at hpos
    refine ⟨rest ++ [n % b], ?_⟩
    rw [digits, Nat.digits_def' hb hn, List.reverse_cons]
    change digits b (n / b) ++ [n % b] = _
    rw [hrest, List.cons_append]

/-! Digits as the characters of an alphabet. -/
section alphabet
variable {α : Type*} [BEq α] [LawfulBEq α] {alphabet : List α} (other : α)

/-- The character of a digit, and its place. -/
lemma idxOf_getD (h : alphabet.Nodup) {digit : ℕ} (hdigit : digit < alphabet.length) :
    alphabet.getD digit other ∈ alphabet ∧ alphabet.idxOf (alphabet.getD digit other) = digit := by
  rw [List.getD_eq_getElem _ _ hdigit]
  exact ⟨List.getElem_mem hdigit, h.idxOf_getElem digit hdigit⟩

/-- The place of a character, and its digit. -/
lemma getD_idxOf {char : α} (h : char ∈ alphabet) :
    alphabet.idxOf char < alphabet.length ∧ alphabet.getD (alphabet.idxOf char) other = char := by
  have hindex := List.idxOf_lt_length_of_mem h
  rw [List.getD_eq_getElem _ _ hindex]
  exact ⟨hindex, List.getElem_idxOf hindex⟩

end alphabet

/-! A list is its leading zeros and a numeral. -/
section zeros
variable {α : Type*} [DecidableEq α] (zero : α)

lemma takeWhile_replicate_append (n : ℕ) {xs : List α} (hhead : xs.head? ≠ some zero) :
    (List.replicate n zero ++ xs).takeWhile (· = zero) = List.replicate n zero := by
  induction n with
  | zero =>
    cases xs with
    | nil => rfl
    | cons x xs =>
      have hx : x ≠ zero := by
        intro heq
        exact hhead (by rw [heq, List.head?_cons])
      simp [hx]
  | succ n ih => simp [List.replicate_succ, ih]

/-- Counting the leading zeros and splitting them off. -/
lemma exists_zeros (xs : List α) :
    ∃ n ys, xs = List.replicate n zero ++ ys ∧ ys.head? ≠ some zero ∧
      (xs.takeWhile (· = zero)).length = n := by
  induction xs with
  | nil => exact ⟨0, [], rfl, by simp, rfl⟩
  | cons x xs ih =>
    by_cases hx : x = zero
    · obtain ⟨n, ys, hsplit, hhead, hcount⟩ := ih
      refine ⟨n + 1, ys, ?_, hhead, ?_⟩
      · rw [List.replicate_succ, List.cons_append, ← hsplit, hx]
      · rw [List.takeWhile_cons_of_pos (by simpa using hx), List.length_cons, hcount]
    · refine ⟨0, x :: xs, rfl, ?_, ?_⟩
      · simpa using hx
      · rw [List.takeWhile_cons_of_neg (by simpa using hx), List.length_nil]

end zeros
end Numerals
