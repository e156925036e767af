import Mathlib.Algebra.Order.Group.Defs
import Mathlib.Data.List.Basic
import Mathlib.Tactic

/-! A limit on the events of every window of time, kept with a log of admitted events. A log
forgets an event only when no window that is still to come can hold it. -/
namespace SlidingWindow
variable {T : Type} [AddCommGroup T] [LinearOrder T]

/-- The times that are less than a window ago. -/
def recent (window now : T) (log : List T) : List T := log.filter fun t => now - t < window

/-- Times of which no two are a window apart. -/
def Narrow (window : T) (inside : T → Bool) : Prop :=
  ∀ t u, inside t = true → inside u = true → u - t < window

/-- At the time `last` and later a log is as good as the list of all that was admitted. -/
structure Tracks (window last : T) (log admitted : List T) : Prop where
  recent_eq : ∀ now, last ≤ now → recent window now log = recent window now admitted
  le_last : ∀ t ∈ admitted, t ≤ last

def WithinLimit (limit : ℕ) (window : T) (admitted : List T) : Prop :=
  ∀ inside, Narrow window inside → admitted.countP inside ≤ limit

variable {window last now : T} {log admitted : List T} {limit : ℕ}

lemma recent_append (log log' : List T) :
    recent window now (log ++ log') = recent window now log ++ recent window now log' :=
  List.filter_append _ _

lemma tracks_nil (window last : T) : Tracks window last [] [] :=
  ⟨fun _ _ => rfl, fun _ ht => by cases ht⟩

lemma Tracks.wait (h : Tracks window last log admitted) (hle : last ≤ now) :
    Tracks window now log admitted :=
  ⟨fun later hlater => h.recent_eq later (hle.trans hlater), fun t ht => (h.le_last t ht).trans hle⟩

lemma Tracks.push (h : Tracks window now log admitted) :
    Tracks window now (log ++ [now]) (admitted ++ [now]) := by
  refine ⟨?_, ?_⟩
  · intro later hlater
    rw [recent_append, recent_append, h.recent_eq later hlater]
  · intro t ht
    cases List.mem_append.1 ht with
    | inl ht => exact h.le_last t ht
    | inr ht => exact (List.mem_singleton.1 ht).le

lemma withinLimit_nil (limit : ℕ) (window : T) : WithinLimit limit window [] :=
  fun _ _ => Nat.zero_le _

/-- A set of times that holds `now` and no time a window away holds only recent times. -/
lemma countP_le_recent {inside : T → Bool} (hinside : Narrow window inside)
    (hnow : inside now = true) (admitted : List T) :
    admitted.countP inside ≤ (recent window now admitted).length := by
  rw [recent, ← List.countP_eq_length_filter]
  apply List.countP_mono_left
  intro t _ ht
  exact decide_eq_true (hinside t now ht hnow)

/-- Admitting an event keeps the limit if the recent ones are below it. -/
theorem WithinLimit.push (h : WithinLimit limit window admitted)
    (hlt : (recent window now admitted).length < limit) :
    WithinLimit limit window (admitted ++ [now]) := by
  intro inside hinside
  rw [List.countP_append]
  cases hnow : inside now with
  | true =>
    have hle := countP_le_recent hinside hnow admitted
    have hone : List.countP inside [now] = 1 := by simp [hnow]
    omega
  | false =>
    have hzero : List.countP inside [now] = 0 := by simp [hnow]
    have hle := h inside hinside
    omega

variable [IsOrderedAddMonoid T]

lemma recent_recent (hle : last ≤ now) (log : List T) :
    recent window now (recent window last log) = recent window now log := by
  rw [recent, recent, recent, List.filter_filter]
  apply List.filter_congr
  intro t _
  have hmono : now - t < window → last - t < window := (sub_le_sub_right hle t).trans_lt
  rw [← Bool.decide_and]
  exact decide_eq_decide.2 ⟨And.left, fun h => ⟨h, hmono h⟩⟩

lemma Tracks.prune (h : Tracks window now log admitted) :
    Tracks window now (recent window now log) admitted :=
  ⟨fun later hlater => by rw [recent_recent hlater, h.recent_eq later hlater], h.le_last⟩

lemma narrow_Ico (window start : T) :
    Narrow window fun t => start ≤ t && t < start + window := by
  intro t u ht hu
  simp only [Bool.and_eq_true, decide_eq_true_eq] at ht hu
  rw [sub_lt_iff_lt_add]
  calc u < start + window := hu.2
    _ ≤ t + window := add_le_add_left ht.1 window
    _ = window + t := add_comm _ _

lemma narrow_Ioc (window start : T) :
    Narrow window fun t => start < t && t ≤ start + window := by
  intro t u ht hu
  simp only [Bool.and_eq_true, decide_eq_true_eq] at ht hu
  rw [sub_lt_iff_lt_add]
  calc u ≤ start + window := hu.2
    _ < t + window := add_lt_add_left ht.1 window
    _ = window + t := add_comm _ _

end SlidingWindow
