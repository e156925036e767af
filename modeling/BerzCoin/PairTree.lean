import Mathlib.Data.List.Basic
import Mathlib.Data.Set.Function
import Mathlib.Tactic

/-! A tree that pairs neighbours on each level and pairs a last element without neighbour
with itself. Its root determines the leaves up to that repetition. -/
namespace PairTree
variable {α : Type*} (node : α × α → α)

def pairs : List α → List (α × α)
  | a :: b :: rest => (a, b) :: pairs rest
  | [a] => [(a, a)]
  | [] => []

/-- The level above. -/
def level (xs : List α) : List α := (pairs xs).map node

/-- The pairs below the level `d`. -/
def pairsBelow : ℕ → List α → List (α × α)
  | 0, _ => []
  | d + 1, xs => pairs xs ++ pairsBelow d (level node xs)

/-- No pair of neighbours consists of one element twice. -/
def Unrepeated : List α → Prop
  | a :: b :: rest => a ≠ b ∧ Unrepeated rest
  | _ => True

def UnrepeatedBelow : ℕ → List α → Prop
  | 0, _ => True
  | d + 1, xs => Unrepeated xs ∧ UnrepeatedBelow d (level node xs)

lemma length_pairs (xs : List α) : (pairs xs).length = (xs.length + 1) / 2 := by
  induction xs using pairs.induct with
  | case1 a b rest ih =>
    simp only [pairs, List.length_cons, ih]
    omega
  | case2 a => simp [pairs]
  | case3 => simp [pairs]

lemma length_level (xs : List α) : (level node xs).length = (xs.length + 1) / 2 := by
  rw [level, List.length_map, length_pairs]

lemma mem_pairs {xs : List α} {p : α × α} (hp : p ∈ pairs xs) : p.1 ∈ xs ∧ p.2 ∈ xs := by
  induction xs using pairs.induct with
  | case1 a b rest ih =>
    rcases List.mem_cons.1 hp with rfl | hrest
    · simp
    · simp [ih hrest]
  | case2 a => simp_all [pairs]
  | case3 => cases hp

lemma pairsBelow_forall {P : α → Prop} (hnode : ∀ p, P (node p)) {d : ℕ} {xs : List α}
    (hleaf : ∀ x ∈ xs, P x) {p : α × α} (hp : p ∈ pairsBelow node d xs) : P p.1 ∧ P p.2 := by
  induction d generalizing xs with
  | zero => cases hp
  | succ d ih =>
    cases List.mem_append.1 hp with
    | inl hbottom => exact ⟨hleaf _ (mem_pairs hbottom).1, hleaf _ (mem_pairs hbottom).2⟩
    | inr habove =>
      apply ih _ habove
      intro x hx
      obtain ⟨q, _, rfl⟩ := List.mem_map.1 hx
      exact hnode q

lemma pairs_inj_of_length {xs ys : List α} (hlength : xs.length = ys.length)
    (h : pairs xs = pairs ys) : xs = ys := by
  induction xs using pairs.induct generalizing ys with
  | case1 a b rest ih =>
    match ys, hlength with
    | c :: d :: others, hlength =>
      simp only [List.length_cons, Nat.add_right_cancel_iff] at hlength
      simp only [pairs, List.cons.injEq, Prod.mk.injEq] at h
      rw [h.1.1, h.1.2, ih hlength h.2]
  | case2 a =>
    match ys, hlength with
    | [c], _ => simpa [pairs] using h
  | case3 => exact (List.length_eq_zero_iff.1 hlength.symm).symm

lemma pairs_inj_of_unrepeated {xs ys : List α} (hxs : Unrepeated xs) (hys : Unrepeated ys)
    (h : pairs xs = pairs ys) : xs = ys := by
  induction xs using pairs.induct generalizing ys with
  | case1 a b rest ih =>
    match ys, hys with
    | [], _ => simp [pairs] at h
    | [c], _ =>
      simp only [pairs, List.cons.injEq, Prod.mk.injEq] at h
      exact absurd (h.1.1.trans h.1.2.symm) hxs.1
    | c :: d :: others, hys =>
      simp only [pairs, List.cons.injEq, Prod.mk.injEq] at h
      rw [h.1.1, h.1.2, ih hxs.2 hys.2 h.2]
  | case2 a =>
    match ys, hys with
    | [], _ => simp [pairs] at h
    | [c], _ => simpa [pairs] using h
    | c :: d :: others, hys =>
      simp only [pairs, List.cons.injEq, Prod.mk.injEq] at h
      exact absurd (h.1.1.symm.trans h.1.2) hys.1
  | case3 =>
    match ys with
    | [] => rfl
    | [c] => simp [pairs] at h
    | c :: d :: others => simp [pairs] at h

/-- Repeating the last of an odd number of leaves does not change the level above. -/
lemma pairs_append_last (xs : List α) (a : α) (hodd : xs.length % 2 = 0) :
    pairs (xs ++ [a, a]) = pairs (xs ++ [a]) := by
  induction xs using pairs.induct with
  | case1 b c rest ih =>
    have heven : rest.length % 2 = 0 := by
      simp only [List.length_cons] at hodd
      omega
    simp [pairs, ih heven]
  | case2 b => simp at hodd
  | case3 => simp [pairs]

lemma level_append_last (xs : List α) (a : α) (heven : xs.length % 2 = 0) :
    level node (xs ++ [a, a]) = level node (xs ++ [a]) := by
  rw [level, pairs_append_last xs a heven, level]

/-! The way from a leaf up: each element on it stands beside one other. -/

/-- What the element at `i` is paired with. -/
def sibling (xs : List α) (i : ℕ) : Option α :=
  if i % 2 = 0 then (xs[i + 1]?).or xs[i]? else xs[i - 1]?

/-- The pair of an element and its sibling, in the order of the level. -/
def beside (i : ℕ) (x sibling : α) : α × α := if i % 2 = 0 then (x, sibling) else (sibling, x)

lemma pairs_sibling {xs : List α} {i : ℕ} {x : α} (hx : xs[i]? = some x) :
    ∃ s, sibling xs i = some s ∧ (pairs xs)[i / 2]? = some (beside i x s) := by
  induction xs using pairs.induct generalizing i with
  | case1 a b rest ih =>
    rcases i with _ | _ | i
    · exact ⟨b, rfl, by simpa [pairs, beside] using hx⟩
    · exact ⟨a, rfl, by simpa [pairs, beside] using hx⟩
    · obtain ⟨s, hsibling, hpair⟩ := ih (i := i) (by simpa using hx)
      refine ⟨s, ?_, ?_⟩
      · rw [← hsibling]
        cases i with
        | zero => rfl
        | succ i =>
          have hparity : (i + 1 + 1 + 1) % 2 = (i + 1) % 2 := by omega
          simp [sibling, hparity]
      · rw [Nat.add_assoc, Nat.add_div_right i (by omega), pairs, List.getElem?_cons_succ, hpair]
        simp [beside]
  | case2 a =>
    cases i with
    | zero => exact ⟨x, by simpa [sibling] using hx, by simpa [pairs, beside] using hx⟩
    | succ i => simp at hx
  | case3 => simp at hx

lemma level_sibling {xs : List α} {i : ℕ} {x : α} (hx : xs[i]? = some x) :
    ∃ s, sibling xs i = some s ∧ (level node xs)[i / 2]? = some (node (beside i x s)) := by
  obtain ⟨s, hsibling, hpair⟩ := pairs_sibling hx
  exact ⟨s, hsibling, by rw [level, List.getElem?_map, hpair, Option.map_some]⟩

/-- What holds of a single leaf and of a tree whenever it holds of the level above it. -/
theorem levels_induction {P : List α → Prop} (single : ∀ x, P [x])
    (above : ∀ xs, 2 ≤ xs.length → P (level node xs) → P xs) {xs : List α} (hne : xs ≠ []) : P xs := by
  obtain ⟨n, hn⟩ : ∃ n, xs.length = n := ⟨_, rfl⟩
  induction n using Nat.strong_induction_on generalizing xs with
  | _ n ih =>
    by_cases htwo : 2 ≤ xs.length
    · have hlength := length_level node xs
      apply above xs htwo
      exact ih _ (by omega) (List.ne_nil_of_length_pos (by omega)) rfl
    · have hpos := List.length_pos_iff.2 hne
      obtain ⟨x, rfl⟩ := List.length_eq_one_iff.1 (show xs.length = 1 by omega)
      exact single x

/-! A node that has no two preimages among the pairs of the trees at hand. -/
section injective
variable {node} {xs ys : List α}

lemma map_inj_of_injOn {β : Type*} {f : α → β} {s : Set α} (hinj : Set.InjOn f s)
    (hxs : ∀ x ∈ xs, x ∈ s) (hys : ∀ y ∈ ys, y ∈ s) (h : xs.map f = ys.map f) : xs = ys := by
  induction xs generalizing ys with
  | nil => exact (List.map_eq_nil_iff.1 h.symm).symm
  | cons x xs ih =>
    obtain ⟨y, ys, rfl, hy, hrest⟩ := List.map_eq_cons_iff.1 h.symm
    rw [hinj (hys y (by simp)) (hxs x (by simp)) hy]
    rw [ih (fun a ha => hxs a (by simp [ha])) (fun a ha => hys a (by simp [ha])) hrest.symm]

/-- The pairs of both trees below the level `d`. -/
def PairsOfBoth (node : α × α → α) (d : ℕ) (xs ys : List α) : Set (α × α) :=
  {p | p ∈ pairsBelow node d xs ∨ p ∈ pairsBelow node d ys}

lemma pairs_eq_of_level_eq {d : ℕ} (hinj : Set.InjOn node (PairsOfBoth node (d + 1) xs ys))
    (h : level node xs = level node ys) : pairs xs = pairs ys := by
  apply map_inj_of_injOn hinj _ _ h
  · intro p hp
    left
    simp [pairsBelow, hp]
  · intro p hp
    right
    simp [pairsBelow, hp]

lemma injOn_level {d : ℕ} (hinj : Set.InjOn node (PairsOfBoth node (d + 1) xs ys)) :
    Set.InjOn node (PairsOfBoth node d (level node xs) (level node ys)) := by
  apply hinj.mono
  intro p hp
  cases hp with
  | inl hp =>
    left
    simp [pairsBelow, hp]
  | inr hp =>
    right
    simp [pairsBelow, hp]

theorem leaves_eq_of_length {d : ℕ} (hinj : Set.InjOn node (PairsOfBoth node d xs ys))
    (hlength : xs.length = ys.length) (h : (level node)^[d] xs = (level node)^[d] ys) :
    xs = ys := by
  induction d generalizing xs ys with
  | zero => exact h
  | succ d ih =>
    have hlevel : level node xs = level node ys := by
      apply ih (injOn_level hinj) _ h
      rw [length_level, length_level, hlength]
    exact pairs_inj_of_length hlength (pairs_eq_of_level_eq hinj hlevel)

theorem leaves_eq_of_unrepeated {d : ℕ} (hinj : Set.InjOn node (PairsOfBoth node d xs ys))
    (hxs : UnrepeatedBelow node d xs) (hys : UnrepeatedBelow node d ys)
    (h : (level node)^[d] xs = (level node)^[d] ys) : xs = ys := by
  induction d generalizing xs ys with
  | zero => exact h
  | succ d ih =>
    have hlevel : level node xs = level node ys := ih (injOn_level hinj) hxs.2 hys.2 h
    exact pairs_inj_of_unrepeated hxs.1 hys.1 (pairs_eq_of_level_eq hinj hlevel)

end injective

/-! The root of a tree over `n` leaves is reached after `Nat.clog 2 n` levels. -/

lemma clog_succ_half {n : ℕ} (h : 2 ≤ n) : Nat.clog 2 n = Nat.clog 2 ((n + 1) / 2) + 1 := by
  rw [Nat.clog_of_two_le (by omega) h, show n + 2 - 1 = n + 1 by omega]

lemma length_levels (d : ℕ) (xs : List α) (h : Nat.clog 2 xs.length = d) (hne : xs ≠ []) :
    ((level node)^[d] xs).length = 1 := by
  induction d generalizing xs with
  | zero =>
    have hpos := List.length_pos_iff.2 hne
    have hlt : ¬2 ≤ xs.length := by
      intro hge
      rw [clog_succ_half hge] at h
      omega
    simp only [Function.iterate_zero, id_eq]
    omega
  | succ d ih =>
    have hge : 2 ≤ xs.length := by
      by_contra hlt
      rw [Nat.clog_of_right_le_one (by omega)] at h
      omega
    rw [clog_succ_half hge] at h
    rw [Function.iterate_succ_apply]
    apply ih
    · rw [length_level]
      omega
    · apply List.ne_nil_of_length_pos
      rw [length_level]
      omega

def depth (xs : List α) : ℕ := Nat.clog 2 xs.length

lemma levels_depth {xs : List α} (hne : xs ≠ []) :
    ∃ root, (level node)^[depth xs] xs = [root] :=
  List.length_eq_one_iff.1 (length_levels node (depth xs) xs rfl hne)

section unrepeated
variable {node} {xs ys : List α}

lemma mem_pairsBelow_of_levels {d : ℕ} {p : α × α} (k : ℕ)
    (hp : p ∈ pairsBelow node d ((level node)^[k] xs)) : p ∈ pairsBelow node (d + k) xs := by
  induction k generalizing xs with
  | zero => exact hp
  | succ k ih =>
    rw [Function.iterate_succ_apply] at hp
    rw [← Nat.add_assoc, pairsBelow]
    exact List.mem_append_right _ (ih hp)

lemma unrepeatedBelow_levels {d : ℕ} (k : ℕ) (h : UnrepeatedBelow node (d + k) xs) :
    UnrepeatedBelow node d ((level node)^[k] xs) := by
  induction k generalizing xs with
  | zero => exact h
  | succ k ih =>
    rw [Function.iterate_succ_apply]
    exact ih h.2

lemma mem_pairsBelow_of_le {d e : ℕ} {p : α × α} (hp : p ∈ pairsBelow node d xs)
    (hle : d ≤ e) : p ∈ pairsBelow node e xs := by
  induction d generalizing e xs with
  | zero => cases hp
  | succ d ih =>
    obtain ⟨e, rfl⟩ := Nat.exists_eq_add_of_le' (show 1 ≤ e by omega)
    rw [pairsBelow, List.mem_append] at hp ⊢
    exact hp.imp id fun hrest => ih hrest (by omega)

/-- A tree at least as deep as the other, whose inner nodes are no leaves of the other. -/
lemma leaves_eq_of_depth_le {root : α} {d k : ℕ} (hne : xs ≠ [])
    (hinj : Set.InjOn node {p | p ∈ pairsBelow node d xs ∨ p ∈ pairsBelow node (d + k) ys})
    (hxs : UnrepeatedBelow node d xs) (hys : UnrepeatedBelow node (d + k) ys)
    (hleaf : ∀ p ∈ pairsBelow node (d + k) ys, node p ∉ xs)
    (hrootx : (level node)^[d] xs = [root]) (hrooty : (level node)^[d + k] ys = [root]) :
    xs = ys := by
  rw [Function.iterate_add_apply] at hrooty
  have heq : xs = (level node)^[k] ys := by
    apply leaves_eq_of_unrepeated _ hxs (unrepeatedBelow_levels k hys) (hrootx.trans hrooty.symm)
    apply hinj.mono
    intro p hp
    exact hp.imp id (mem_pairsBelow_of_levels k)
  cases k with
  | zero => exact heq
  | succ k =>
    -- a leaf of `xs` would be a node of `ys`
    obtain ⟨x, rest, rfl⟩ := List.exists_cons_of_ne_nil hne
    rw [Function.iterate_succ_apply'] at heq
    have hx : x ∈ level node ((level node)^[k] ys) := by
      rw [← heq]
      exact List.mem_cons_self
    obtain ⟨p, hp, hnode⟩ := List.mem_map.1 hx
    have hbelow : p ∈ pairsBelow node 1 ((level node)^[k] ys) := by
      simp [pairsBelow, hp]
    have hmem : p ∈ pairsBelow node (d + (k + 1)) ys := by
      have hinner := mem_pairsBelow_of_levels k hbelow
      exact mem_pairsBelow_of_le hinner (by omega)
    exact absurd (hnode ▸ List.mem_cons_self) (hleaf p hmem)

theorem leaves_eq_of_root_eq {root : α} (hnex : xs ≠ []) (hney : ys ≠ [])
    (hinj : Set.InjOn node
      {p | p ∈ pairsBelow node (depth xs) xs ∨ p ∈ pairsBelow node (depth ys) ys})
    (hxs : UnrepeatedBelow node (depth xs) xs) (hys : UnrepeatedBelow node (depth ys) ys)
    (hleafx : ∀ p ∈ pairsBelow node (depth ys) ys, node p ∉ xs)
    (hleafy : ∀ p ∈ pairsBelow node (depth xs) xs, node p ∉ ys)
    (hrootx : (level node)^[depth xs] xs = [root])
    (hrooty : (level node)^[depth ys] ys = [root]) : xs = ys := by
  cases Nat.le_total (depth xs) (depth ys) with
  | inl hle =>
    obtain ⟨k, hk⟩ := Nat.exists_eq_add_of_le hle
    rw [hk] at hinj hys hleafx hrooty
    exact leaves_eq_of_depth_le hnex hinj hxs hys hleafx hrootx hrooty
  | inr hle =>
    obtain ⟨k, hk⟩ := Nat.exists_eq_add_of_le hle
    rw [hk] at hinj hxs hleafy hrootx
    apply Eq.symm
    exact leaves_eq_of_depth_le hney (hinj.mono fun p hp => hp.symm) hys hxs hleafy hrooty hrootx

end unrepeated
end PairTree
