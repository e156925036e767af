import Mathlib.Logic.Basic

/-! Programs over a state that keep an invariant of the state, whether they return or raise, and
what is known of the value that they return. -/
namespace StateInvariant
variable {ε σ α β : Type}

def Keeps (I : σ → Prop) (x : EStateM ε σ α) (Q : α → Prop) : Prop :=
  ∀ s, I s → match x s with
    | .ok a s' => I s' ∧ Q a
    | .error _ s' => I s'

variable {I : σ → Prop} {Q : α → Prop} {R : β → Prop}

lemma keeps_pure {a : α} (h : Q a) : Keeps I (pure a : EStateM ε σ α) Q :=
  fun _ hs => ⟨hs, h⟩

lemma keeps_throw {e : ε} : Keeps I (throw e : EStateM ε σ α) Q := fun _ hs => hs

lemma keeps_get : Keeps I (get : EStateM ε σ σ) I := fun _ hs => ⟨hs, hs⟩

lemma keeps_set {s : σ} (h : I s) : Keeps I (set s : EStateM ε σ PUnit) fun _ => True :=
  fun _ _ => ⟨h, trivial⟩

lemma keeps_modify {f : σ → σ} (h : ∀ s, I s → I (f s)) :
    Keeps I (modify f : EStateM ε σ PUnit) fun _ => True :=
  fun s hs => ⟨h s hs, trivial⟩

lemma Keeps.bind {x : EStateM ε σ α} {f : α → EStateM ε σ β} (hx : Keeps I x Q)
    (hf : ∀ a, Q a → Keeps I (f a) R) : Keeps I (x >>= f) R := by
  intro s hs
  have hfirst := hx s hs
  simp only [Bind.bind, EStateM.bind]
  cases hrun : x s with
  | error e s' =>
    rw [hrun] at hfirst
    exact hfirst
  | ok a s' =>
    rw [hrun] at hfirst
    exact hf a hfirst.2 s' hfirst.1

lemma keeps_ite {p : Prop} [Decidable p] {x y : EStateM ε σ α} (hx : p → Keeps I x Q)
    (hy : ¬ p → Keeps I y Q) : Keeps I (if p then x else y) Q := by
  by_cases h : p
  · rw [if_pos h]
    exact hx h
  · rw [if_neg h]
    exact hy h

end StateInvariant
