import Mathlib.Data.Nat.Init
import Mathlib.Tactic.Common

/-! Loops that test their state first. A run has a number of turns to spend, and gives nothing when
they do not suffice, so that a result at every number from some bound on means that the loop
ends. -/
namespace WhileLoop
variable {σ : Type*} {test : σ → Bool} {step : σ → σ} {s : σ} {n : ℕ}

/-- `while test(s): s = step(s)`. -/
def run (test : σ → Bool) (step : σ → σ) : ℕ → σ → Option σ
  | 0, _ => none
  | n + 1, s => if test s then run test step n (step s) else some s

@[simp] lemma run_zero : run test step 0 s = none := rfl

lemma run_stop (h : test s = false) : run test step (n + 1) s = some s := by
  rw [run, if_neg (by simp [h])]

lemma run_step (h : test s = true) : run test step (n + 1) s = run test step n (step s) := by
  rw [run, if_pos h]

/-- A loop runs along a sequence of states up to the first that fails its test. -/
lemma run_sequence (states : ℕ → σ) {last : ℕ}
    (hstep : ∀ k < last, test (states k) = true ∧ step (states k) = states (k + 1))
    (hstop : test (states last) = false) (hn : last < n) :
    run test step n (states 0) = some (states last) := by
  have hfrom (turns k : ℕ) (hk : k ≤ last) (hturns : last - k < turns) :
      run test step turns (states k) = some (states last) := by
    induction turns generalizing k with
    | zero => omega
    | succ turns ih =>
      by_cases hlast : k = last
      · rw [hlast, run_stop hstop]
      · obtain ⟨htest, hnext⟩ := hstep k (by omega)
        rw [run_step htest, hnext]
        exact ih (k + 1) (by omega) (by omega)
  exact hfrom n 0 (Nat.zero_le _) (by omega)

/-- A loop returns a result: some number of turns suffices for it, and so does any larger one. -/
def Returns {α : Type*} (loop : ℕ → Option α) (result : α) : Prop :=
  ∃ last, ∀ n, last < n → loop n = some result

end WhileLoop
