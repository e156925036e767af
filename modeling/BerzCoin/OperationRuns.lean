import Mathlib.Logic.Basic

/-! Runs of a machine that takes one operation after the other: properties of every state on the
way, and conditions on every operation. -/
namespace OperationRuns
variable {σ ο : Type} {step : ο → σ → σ}

/-- A property of each state of a run, the first one included. -/
def Along (step : ο → σ → σ) (P : σ → Prop) : List ο → σ → Prop
  | [], s => P s
  | op :: ops, s => P s ∧ Along step P ops (step op s)

/-- Each operation of a run is safe in the state that it meets. -/
def AllSafe (step : ο → σ → σ) (safe : σ → ο → Prop) : List ο → σ → Prop
  | [], _ => True
  | op :: ops, s => safe s op ∧ AllSafe step safe ops (step op s)

instance decidableAlong (P : σ → Prop) [DecidablePred P] :
    (ops : List ο) → (s : σ) → Decidable (Along step P ops s)
  | [], s => inferInstanceAs (Decidable (P s))
  | op :: ops, s =>
    have := decidableAlong P ops (step op s)
    inferInstanceAs (Decidable (P s ∧ Along step P ops (step op s)))

instance decidableAllSafe (safe : σ → ο → Prop) [∀ s op, Decidable (safe s op)] :
    (ops : List ο) → (s : σ) → Decidable (AllSafe step safe ops s)
  | [], _ => isTrue trivial
  | op :: ops, s =>
    have := decidableAllSafe safe ops (step op s)
    inferInstanceAs (Decidable (safe s op ∧ AllSafe step safe ops (step op s)))

variable {P Q I : σ → Prop} {safe safe' : σ → ο → Prop}

lemma AllSafe.imp (hsafe : ∀ s op, safe s op → safe' s op) {ops : List ο} {s : σ}
    (h : AllSafe step safe ops s) : AllSafe step safe' ops s := by
  induction ops generalizing s with
  | nil => trivial
  | cons op ops ih => exact ⟨hsafe s op h.1, ih h.2⟩

lemma Along.head {ops : List ο} {s : σ} (h : Along step P ops s) : P s := by
  cases ops with
  | nil => exact h
  | cons op ops => exact h.1

lemma Along.last {ops : List ο} {s : σ} (h : Along step P ops s) :
    P (ops.foldl (fun s op => step op s) s) := by
  induction ops generalizing s with
  | nil => exact h
  | cons op ops ih => exact ih h.2

lemma Along.imp (hPQ : ∀ s, P s → Q s) {ops : List ο} {s : σ} (h : Along step P ops s) :
    Along step Q ops s := by
  induction ops generalizing s with
  | nil => exact hPQ s h
  | cons op ops ih => exact ⟨hPQ s h.1, ih h.2⟩

/-- What every operation keeps holds in every state of a run. -/
lemma along_of_invariant (hstep : ∀ s op, I s → I (step op s)) {ops : List ο} {s : σ} (h : I s) :
    Along step I ops s := by
  induction ops generalizing s with
  | nil => exact h
  | cons op ops ih => exact ⟨h, ih (hstep s op h)⟩

lemma along_of_forall (hP : ∀ s, P s) (ops : List ο) (s : σ) : Along step P ops s :=
  along_of_invariant (fun s op _ => hP (step op s)) (hP s)

/-- A run keeps a property exactly when its operations are safe: an operation is safe when the
property holds after it, and then the invariant is back. `Q` is what is known of all states. -/
theorem along_iff_allSafe (hInv : ∀ s, I s → P s)
    (hstep : ∀ s op, I s → Q s → Q (step op s) →
      (P (step op s) ↔ safe s op) ∧ (P (step op s) → I (step op s)))
    {ops : List ο} {s : σ} (h : I s) (hQ : Along step Q ops s) :
    Along step P ops s ↔ AllSafe step safe ops s := by
  induction ops generalizing s with
  | nil => exact iff_of_true (hInv s h) trivial
  | cons op ops ih =>
    obtain ⟨hhead, htail⟩ := hQ
    obtain ⟨hsafe, hinv⟩ := hstep s op h hhead htail.head
    constructor
    · rintro ⟨-, hrest⟩
      exact ⟨hsafe.1 hrest.head, (ih (hinv hrest.head) htail).1 hrest⟩
    · rintro ⟨hop, hrest⟩
      exact ⟨hInv s h, (ih (hinv (hsafe.2 hop)) htail).2 hrest⟩

/-- The same for an invariant that needs nothing else. -/
theorem along_iff_allSafe_of_step (hInv : ∀ s, I s → P s)
    (hstep : ∀ s op, I s → (P (step op s) ↔ safe s op) ∧ (P (step op s) → I (step op s)))
    {ops : List ο} {s : σ} (h : I s) : Along step P ops s ↔ AllSafe step safe ops s :=
  along_iff_allSafe hInv (fun s op hs _ _ => hstep s op hs) h
    (along_of_forall (P := fun _ => True) (fun _ => trivial) ops s)

end OperationRuns
