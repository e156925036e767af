import Mathlib

/-! Checksums of a register that is shifted by a map linear in exclusive or, and into which one
value after another is mixed. -/

namespace XorSum
variable {ι : Type*} (f g : ι → ℕ)

/-- The exclusive or of the values over a list. -/
def xorSum (is : List ι) : ℕ := is.foldl (fun acc i => acc ^^^ f i) 0

lemma foldl_xor (acc : ℕ) (is : List ι) : is.foldl (fun acc i => acc ^^^ f i) acc = acc ^^^ xorSum f is := by
  induction is generalizing acc with
  | nil => exact (Nat.xor_zero acc).symm
  | cons i is ih =>
    have hsum : xorSum f (i :: is) = 0 ^^^ f i ^^^ xorSum f is := ih (0 ^^^ f i)
    rw [List.foldl_cons, ih, hsum, Nat.zero_xor, Nat.xor_assoc]

lemma xorSum_cons (i : ι) (is : List ι) : xorSum f (i :: is) = f i ^^^ xorSum f is := by
  rw [xorSum, List.foldl_cons, foldl_xor, Nat.zero_xor]

lemma xorSum_xor (is : List ι) : xorSum (fun i => f i ^^^ g i) is = xorSum f is ^^^ xorSum g is := by
  induction is with
  | nil => exact (Nat.xor_self 0).symm
  | cons i is ih =>
    rw [xorSum_cons, xorSum_cons, xorSum_cons, ih]
    ac_rfl

lemma xorSum_lt {width : ℕ} {is : List ι} (h : ∀ i ∈ is, f i < 2 ^ width) : xorSum f is < 2 ^ width := by
  induction is with
  | nil => exact Nat.two_pow_pos width
  | cons i is ih =>
    rw [xorSum_cons]
    apply Nat.xor_lt_two_pow
    · exact h i (by simp)
    · exact ih fun j hj => h j (by simp [hj])

end XorSum

/-- The shift keeps `width` bits and loses nothing. -/
structure XorRegister where
  width : ℕ
  shift : ℕ → ℕ
  shift_xor : ∀ a b, shift (a ^^^ b) = shift a ^^^ shift b
  shift_lt : ∀ a, shift a < 2 ^ width
  eq_zero_of_shift : ∀ a, a < 2 ^ width → shift a = 0 → a = 0

namespace XorRegister
variable (R : XorRegister)

def absorb (state value : ℕ) : ℕ := R.shift state ^^^ value

def run (state : ℕ) (values : List ℕ) : ℕ := values.foldl R.absorb state

lemma run_cons (state value : ℕ) (values : List ℕ) :
    R.run state (value :: values) = R.run (R.absorb state value) values := rfl

lemma run_append (state : ℕ) (xs ys : List ℕ) : R.run state (xs ++ ys) = R.run (R.run state xs) ys :=
  List.foldl_append

/-- A difference of the states is shifted along. -/
lemma run_xor (state difference : ℕ) (values : List ℕ) :
    R.run (state ^^^ difference) values = R.run state values ^^^ R.shift^[values.length] difference := by
  induction values generalizing state difference with
  | nil => rfl
  | cons value values ih =>
    have habsorb : R.absorb (state ^^^ difference) value = R.absorb state value ^^^ R.shift difference := by
      rw [absorb, absorb, R.shift_xor, Nat.xor_right_comm]
    rw [run_cons, habsorb, ih, run_cons, List.length_cons, Function.iterate_succ_apply]

/-- Zeros only shift. -/
lemma run_zeros (state n : ℕ) : R.run state (List.replicate n 0) = R.shift^[n] state := by
  induction n generalizing state with
  | zero => rfl
  | succ n ih => rw [List.replicate_succ, run_cons, absorb, Nat.xor_zero, ih, Function.iterate_succ_apply]

/-- What values add to a run over as many zeros. -/
lemma run_eq_zeros (state : ℕ) (values : List ℕ) :
    R.run state values = R.run state (List.replicate values.length 0) ^^^ R.run 0 values := by
  have h := R.run_xor 0 state values
  rw [Nat.zero_xor] at h
  rw [h, R.run_zeros, Nat.xor_comm]

lemma iterate_shift_ne_zero {difference : ℕ} (hlt : difference < 2 ^ R.width) (hne : difference ≠ 0)
    (n : ℕ) : R.shift^[n] difference ≠ 0 := by
  induction n generalizing difference with
  | zero => exact hne
  | succ n ih =>
    rw [Function.iterate_succ_apply]
    apply ih (R.shift_lt _)
    intro hzero
    exact hne (R.eq_zero_of_shift _ hlt hzero)

/-- Another value at one place leads to another state. -/
theorem run_substitute (state : ℕ) (before after : List ℕ) {value value' : ℕ} (hne : value ≠ value')
    (hlt : value < 2 ^ R.width) (hlt' : value' < 2 ^ R.width) :
    R.run state (before ++ value' :: after) ≠ R.run state (before ++ value :: after) := by
  have hdifference : value ^^^ value' ≠ 0 := by
    rwa [ne_eq, Nat.xor_eq_zero_iff]
  have habsorb : R.absorb (R.run state before) value' =
      R.absorb (R.run state before) value ^^^ (value ^^^ value') := by
    rw [absorb, absorb, Nat.xor_assoc, ← Nat.xor_assoc value, Nat.xor_self, Nat.zero_xor]
  rw [run_append, run_append, run_cons, run_cons, habsorb, R.run_xor]
  intro heq
  apply R.iterate_shift_ne_zero (Nat.xor_lt_two_pow hlt hlt') hdifference after.length
  exact Nat.xor_right_injective (heq.trans (Nat.xor_zero _).symm)

end XorRegister
