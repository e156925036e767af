import BerzCoin.StorageInside

/-! Two runs of the same code inside a transaction, on data that differ only in what the code does
not look at: they end alike, and what they leave differs no more than before. -/
namespace BerzCoin
namespace Database
variable {σ ι α β : Type}

/-- Two outcomes with the same value or the same exception, and with related data. -/
inductive Paired (R : σ × ι → σ × ι → Prop) :
    EStateM.Result PyError (σ × ι) α → EStateM.Result PyError (σ × ι) α → Prop
  | ok (a : α) {d d' : σ × ι} : R d d' → Paired R (.ok a d) (.ok a d')
  | error (e : PyError) {d d' : σ × ι} : R d d' → Paired R (.error e d) (.error e d')

/-- Code that does not tell related data apart. -/
structure Blind (R : σ × ι → σ × ι → Prop) (x : Db σ ι α) : Prop where
  client : Client x
  paired : ∀ d d', R d d' → Paired R (inside x d) (inside x d')

namespace Blind
variable {R : σ × ι → σ × ι → Prop} {x : Db σ ι α}

lemma ret (a : α) : Blind R (pure a : Db σ ι α) := ⟨.ret a, fun _ _ h => .ok a h⟩

lemma raise (e : PyError) : Blind R (throw e : Db σ ι α) := ⟨.raise e, fun _ _ h => .error e h⟩

lemma memory {f : ι → α × ι}
    (hf : ∀ d d', R d d' → (f d.2).1 = (f d'.2).1 ∧ R (d.1, (f d.2).2) (d'.1, (f d'.2).2)) :
    Blind R (onMemory f : Db σ ι α) := by
  refine ⟨.memory f, fun d d' h => ?_⟩
  obtain ⟨hvalue, hrest⟩ := hf d d' h
  have hrun (d : σ × ι) : inside (onMemory f) d = .ok (f d.2).1 (d.1, (f d.2).2) := rfl
  rw [hrun, hrun, hvalue]
  exact .ok _ hrest

/-- A statement that raises alike, or else yields the same and leaves related data. -/
lemma execute {stmt : Statement σ α}
    (h : ∀ d d', R d d' → (∃ e, stmt.run d.1 = .error e ∧ stmt.run d'.1 = .error e) ∨
      ∃ a data data', stmt.run d.1 = .ok (data, a) ∧ stmt.run d'.1 = .ok (data', a) ∧
        R (data, d.2) (data', d'.2)) :
    Blind R (Database.execute stmt : Db σ ι α) := by
  refine ⟨.execute stmt, fun d d' hd => ?_⟩
  rw [inside_execute, inside_execute]
  rcases h d d' hd with ⟨e, hrun, hrun'⟩ | ⟨a, data, data', hrun, hrun', hrest⟩
  · rw [hrun, hrun']
    exact .error e hd
  · rw [hrun, hrun']
    exact .ok a hrest

lemma query {g : σ → α} (hg : ∀ d d', R d d' → g d.1 = g d'.1) :
    Blind R (Database.execute (.query g) : Db σ ι α) :=
  .execute fun d d' h => .inr ⟨g d.1, d.1, d'.1, rfl, by rw [hg d d' h]; rfl, h⟩

lemma change {g : σ → σ} (hg : ∀ d d', R d d' → R (g d.1, d.2) (g d'.1, d'.2)) :
    Blind R (Database.execute (.change g) : Db σ ι Unit) :=
  .execute fun d d' h => .inr ⟨(), g d.1, g d'.1, rfl, rfl, hg d d' h⟩

lemma bind {f : α → Db σ ι β} (hx : Blind R x) (hf : ∀ a, Blind R (f a)) : Blind R (x >>= f) := by
  refine ⟨.bind hx.client fun a => (hf a).client, fun d d' h => ?_⟩
  rw [inside_bind hx.client fun a => (hf a).client, inside_bind hx.client fun a => (hf a).client]
  have hpaired := hx.paired d d' h
  generalize inside x d = r, inside x d' = r' at hpaired ⊢
  cases hpaired with
  | ok a h => exact (hf a).paired _ _ h
  | error e h => exact .error e h

lemma handle {k : PyError → Db σ ι α} (hx : Blind R x) (hk : ∀ e, Blind R (k e)) :
    Blind R (tryCatch x k : Db σ ι α) := by
  refine ⟨.handle hx.client fun e => (hk e).client, fun d d' h => ?_⟩
  rw [inside_tryCatch hx.client fun e => (hk e).client,
    inside_tryCatch hx.client fun e => (hk e).client]
  have hpaired := hx.paired d d' h
  generalize inside x d = r, inside x d' = r' at hpaired ⊢
  cases hpaired with
  | ok a h => exact .ok a h
  | error e h => exact (hk e).paired _ _ h

lemma transaction (hx : Blind R x) : Blind R (Database.transaction x) := by
  refine ⟨.transaction hx.client, fun d d' h => ?_⟩
  rw [inside_transaction, inside_transaction]
  have hpaired := hx.paired d d' h
  generalize inside x d = r, inside x d' = r' at hpaired ⊢
  cases hpaired with
  | ok a h => exact .ok a h
  | error e h => exact .error _ h

end Blind
end Database
end BerzCoin
