import Mathlib

/-! A reader over a stream of values that arrives in pieces. `cuts` says how much each later
call of `read` finds: one value more than the number at its position. -/
structure ChunkedReader (α : Type) where
  data : List α
  cuts : ℕ → ℕ

namespace ChunkedReader
variable {α : Type} {n : ℕ} {r r' : ChunkedReader α} {chunk : List α}

/-- The positions after the first one. -/
def later (cuts : ℕ → ℕ) : ℕ → ℕ := fun i => cuts (i + 1)

/-- At most `n` values, and at least one unless the stream has ended. -/
def read (n : ℕ) (r : ChunkedReader α) : List α × ChunkedReader α :=
  (r.data.take (min n (r.cuts 0 + 1)), ⟨r.data.drop (min n (r.cuts 0 + 1)), later r.cuts⟩)

/-- Exactly `n` values, or nothing where the stream ends before. -/
def readExactly (n : ℕ) (r : ChunkedReader α) : Option (List α × ChunkedReader α) :=
  if r.data.length < n then none else some (r.data.take n, ⟨r.data.drop n, r.cuts⟩)

lemma read_append (h : r.read n = (chunk, r')) : r.data = chunk ++ r'.data := by
  cases h
  exact (List.take_append_drop _ _).symm

lemma read_length (h : r.read n = (chunk, r')) : chunk.length = min (min n (r.cuts 0 + 1)) r.data.length := by
  cases h
  exact List.length_take

lemma read_cuts (h : r.read n = (chunk, r')) : r'.cuts = later r.cuts := by
  cases h
  rfl

lemma readExactly_append (h : r.readExactly n = some (chunk, r')) :
    r.data = chunk ++ r'.data ∧ chunk.length = n := by
  unfold readExactly at h
  split_ifs at h with hlt
  cases h
  refine ⟨(List.take_append_drop _ _).symm, ?_⟩
  rw [List.length_take]
  omega

lemma readExactly_front {front rest : List α} {cuts : ℕ → ℕ} (h : front.length = n) :
    readExactly n ⟨front ++ rest, cuts⟩ = some (front, ⟨rest, cuts⟩) := by
  subst h
  rw [readExactly, if_neg (by simp)]
  simp

end ChunkedReader
