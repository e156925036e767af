import Mathlib

/-! Two ends joined by a stream in each direction. An end takes turns on its own: a turn reads from
the front of what has come for it and writes at the back of what the other end has still to read. -/
namespace DuplexLink

inductive Side
  | caller | callee
  deriving DecidableEq, Repr

def Side.other : Side → Side
  | caller => callee
  | callee => caller

@[simp] lemma Side.other_other (s : Side) : s.other.other = s := by cases s <;> rfl
@[simp] lemma Side.other_ne (s : Side) : s.other ≠ s := by cases s <;> decide
@[simp] lemma Side.ne_other (s : Side) : s ≠ s.other := by cases s <;> decide

lemma Side.eq_or_eq_other (s t : Side) : t = s ∨ t = s.other := by
  cases s <;> cases t <;> simp [Side.other]

/-- What a turn leaves: the state of the end, what it has not read, and what it has written. -/
structure Turn (σ α : Type) where
  state : σ
  rest : List α
  written : List α

/-- The states of both ends, and what each of them has still to read. -/
structure Link (σ α : Type) where
  state : Side → σ
  unread : Side → List α

section link
variable {σ α : Type}

/-- The link after a turn of one end. -/
def Link.after (l : Link σ α) (s : Side) (t : Turn σ α) : Link σ α where
  state := Function.update l.state s t.state
  unread := Function.update (Function.update l.unread s t.rest) s.other (l.unread s.other ++ t.written)

variable {l l' : Link σ α} {s : Side} {t : Turn σ α}

@[simp] lemma Link.after_state_self : (l.after s t).state s = t.state := by simp [Link.after]

@[simp] lemma Link.after_state_other : (l.after s t).state s.other = l.state s.other := by
  simp [Link.after]

@[simp] lemma Link.after_unread_self : (l.after s t).unread s = t.rest := by simp [Link.after]

@[simp] lemma Link.after_unread_other :
    (l.after s t).unread s.other = l.unread s.other ++ t.written := by
  simp [Link.after]

variable (Moves : σ → List α → Turn σ α → Prop)

/-- One of the ends takes a turn. -/
def Step (l l' : Link σ α) : Prop :=
  ∃ s t, Moves (l.state s) (l.unread s) t ∧ l' = l.after s t

/-- Any number of turns, in any order of the ends. -/
inductive Run (l : Link σ α) : ℕ → Link σ α → Prop
  | refl : Run l 0 l
  | step {n : ℕ} {l' l'' : Link σ α} : Run l n l' → Step Moves l' l'' → Run l (n + 1) l''

/-- A relation between an end, the other end and what the first one has still to read. -/
def Holds (I : σ → σ → List α → Prop) (l : Link σ α) : Prop :=
  ∀ s, I (l.state s) (l.state s.other) (l.unread s)

/-- The relation of both directions is kept by a turn. -/
structure Kept (I : σ → σ → List α → Prop) : Prop where
  reader : ∀ {p q u v t}, I p q u → I q p v → Moves p u t → I t.state q t.rest
  writer : ∀ {p q u v t}, I p q u → I q p v → Moves p u t → I q t.state (v ++ t.written)

variable {Moves} {I : σ → σ → List α → Prop} {n : ℕ}

lemma Kept.step (hkept : Kept Moves I) (h : Holds I l) (hstep : Step Moves l l') : Holds I l' := by
  obtain ⟨s, t, hmove, rfl⟩ := hstep
  have hother := h s.other
  rw [Side.other_other] at hother
  intro s'
  rcases Side.eq_or_eq_other s s' with rfl | rfl
  · rw [Link.after_state_self, Link.after_state_other, Link.after_unread_self]
    exact hkept.reader (h _) hother hmove
  · rw [Side.other_other, Link.after_state_self, Link.after_state_other, Link.after_unread_other]
    exact hkept.writer (h _) hother hmove

/-- What a turn keeps holds after any run. -/
theorem Kept.run (hkept : Kept Moves I) (h : Holds I l) (hrun : Run Moves l n l') : Holds I l' := by
  induction hrun with
  | refl => exact h
  | step _ hstep ih => exact hkept.step ih hstep

lemma Run.mono {Moves' : σ → List α → Turn σ α → Prop} (hmono : ∀ p u t, Moves p u t → Moves' p u t)
    (hrun : Run Moves l n l') : Run Moves' l n l' := by
  induction hrun with
  | refl => exact .refl
  | step _ hstep ih =>
    obtain ⟨s, t, hmove, rfl⟩ := hstep
    exact .step ih ⟨s, t, hmono _ _ _ hmove, rfl⟩

/-- What no turn of an end changes is the same after any run. -/
theorem Kept.static {β : Type} {f : σ → β} (hkept : Kept Moves I)
    (hstatic : ∀ {p q u v t}, I p q u → I q p v → Moves p u t → f t.state = f p) (h : Holds I l)
    (hrun : Run Moves l n l') (s : Side) : f (l'.state s) = f (l.state s) := by
  induction hrun with
  | refl => rfl
  | step hbefore hstep ih =>
    have hholds := hkept.run h hbefore
    obtain ⟨s', t, hmove, rfl⟩ := hstep
    have hother := hholds s'.other
    rw [Side.other_other] at hother
    rcases Side.eq_or_eq_other s' s with rfl | rfl
    · rw [Link.after_state_self, hstatic (hholds s) hother hmove, ih]
    · rw [Link.after_state_other, ih]

/-- Where an end that is not done leaves a turn to one of both, the link is not stuck before both
are done. -/
theorem exists_step_or {P : σ → Prop}
    (h : ∀ s, P (l.state s) ∨ (∃ t, Moves (l.state s) (l.unread s) t) ∨
      ∃ t, Moves (l.state s.other) (l.unread s.other) t) :
    (∃ l', Step Moves l l') ∨ ∀ s, P (l.state s) := by
  by_cases hstep : ∃ l', Step Moves l l'
  · exact .inl hstep
  · refine .inr ?_
    intro s
    rcases h s with hdone | ⟨t, hmove⟩ | ⟨t, hmove⟩
    · exact hdone
    · exact absurd ⟨_, s, t, hmove, rfl⟩ hstep
    · exact absurd ⟨_, s.other, t, hmove, rfl⟩ hstep

/-- Where no run of fewer turns is stuck, there is a run of that many turns. -/
lemma exists_run {bound : ℕ} (h : ∀ n l', Run Moves l n l' → n < bound → ∃ l'', Step Moves l' l'') :
    ∃ l', Run Moves l bound l' := by
  have hall : ∀ n, n ≤ bound → ∃ l', Run Moves l n l' := by
    intro n
    induction n with
    | zero => exact fun _ => ⟨l, .refl⟩
    | succ n ih =>
      intro hle
      obtain ⟨l', hrun⟩ := ih (by omega)
      obtain ⟨l'', hstep⟩ := h n l' hrun (by omega)
      exact ⟨l'', .step hrun hstep⟩
  exact hall bound (Nat.le_refl _)

/-- The turns that both ends have left. -/
def total (rank : σ → ℕ) (l : Link σ α) : ℕ := rank (l.state .caller) + rank (l.state .callee)

lemma total_eq (rank : σ → ℕ) (l : Link σ α) (s : Side) :
    total rank l = rank (l.state s) + rank (l.state s.other) := by
  cases s with
  | caller => rfl
  | callee => exact Nat.add_comm _ _

/-- Where every turn uses up a rank, a run has no more turns than the ranks at its beginning. -/
theorem Kept.turns_le {rank : σ → ℕ} (hkept : Kept Moves I)
    (hrank : ∀ {p q u v t}, I p q u → I q p v → Moves p u t → rank t.state + 1 = rank p)
    (h : Holds I l) (hrun : Run Moves l n l') : n + total rank l' = total rank l := by
  induction hrun with
  | refl => exact Nat.zero_add _
  | step hbefore hstep ih =>
    have hholds := hkept.run h hbefore
    obtain ⟨s, t, hmove, rfl⟩ := hstep
    have hother := hholds s.other
    rw [Side.other_other] at hother
    have hused := hrank (hholds s) hother hmove
    rw [total_eq rank _ s] at ih ⊢
    rw [Link.after_state_self, Link.after_state_other]
    omega

end link
end DuplexLink
