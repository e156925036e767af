import Mathlib

/-! Walking up a forest that is given by a parent function, with heights that go down by one
at each step. -/
namespace ParentPath
variable {α κ : Type}

/-- `a`, its parent and so on, at most `n` parents. -/
def path (parent : α → Option α) : ℕ → α → List α
  | 0, a => [a]
  | n + 1, a =>
    a :: match parent a with
      | none => []
      | some p => path parent n p

/-- On the nodes of `S` every parent is one lower. -/
structure Forest (parent : α → Option α) (height : α → ℕ) (S : α → Prop) : Prop where
  closed : ∀ a p, S a → parent a = some p → S p
  step : ∀ a p, S a → parent a = some p → height a = height p + 1

/-- The first node on the way up that is not above `h`. -/
def climb (parent : α → Option α) (height : α → ℕ) (n : ℕ) (a : α) (h : ℕ) : Option α :=
  (path parent n a).find? (height · ≤ h)

/-- Bring both nodes to one height, then go up together until they agree on a key. -/
def meet [DecidableEq κ] (parent : α → Option α) (height : α → ℕ) (key : α → κ) (n : ℕ) (a c : α) :
    Option α := do
  let a ← climb parent height n a (height c)
  let c ← climb parent height n c (height a)
  let pair ← ((path parent n a).zip (path parent n c)).find? fun p => key p.1 = key p.2
  return pair.1

variable {parent : α → Option α} {height : α → ℕ} {key : α → κ} {S : α → Prop}

lemma path_getElem?_zero (n : ℕ) (a : α) : (path parent n a)[0]? = some a := by
  cases n <;> rfl

lemma path_getElem?_succ {n : ℕ} {a x : α} {i : ℕ} (h : (path parent n a)[i + 1]? = some x) :
    ∃ m p, n = m + 1 ∧ parent a = some p ∧ (path parent m p)[i]? = some x := by
  cases n with
  | zero => simp [path] at h
  | succ m =>
    cases hp : parent a with
    | none => simp [path, hp] at h
    | some p =>
      refine ⟨m, p, rfl, rfl, ?_⟩
      simpa [path, hp] using h

namespace Forest
variable (hf : Forest parent height S)
include hf

lemma height_getElem? {n : ℕ} {a x : α} {i : ℕ} (ha : S a) (h : (path parent n a)[i]? = some x) :
    S x ∧ height a = height x + i := by
  induction i generalizing n a with
  | zero =>
    rw [path_getElem?_zero] at h
    cases h
    exact ⟨ha, rfl⟩
  | succ i ih =>
    obtain ⟨m, p, -, hp, h⟩ := path_getElem?_succ h
    obtain ⟨hx, hheight⟩ := ih (hf.closed a p ha hp) h
    have hstep := hf.step a p ha hp
    exact ⟨hx, by omega⟩

end Forest

lemma path_getElem?_mono {m n : ℕ} (hmn : m ≤ n) {a x : α} {i : ℕ}
    (h : (path parent m a)[i]? = some x) : (path parent n a)[i]? = some x := by
  induction i generalizing m n a with
  | zero =>
    rw [path_getElem?_zero] at h ⊢
    exact h
  | succ i ih =>
    obtain ⟨m', p, rfl, hp, h⟩ := path_getElem?_succ h
    obtain ⟨n', rfl⟩ : ∃ n', n = n' + 1 := ⟨n - 1, by omega⟩
    have hrest := ih (by omega) h (n := n')
    simpa [path, hp] using hrest

/-- Going up from a node of the path is going on along the path. -/
lemma path_getElem?_add {n : ℕ} {a x y : α} {i j : ℕ} (hx : (path parent n a)[i]? = some x)
    (hy : (path parent n a)[i + j]? = some y) : (path parent n x)[j]? = some y := by
  induction i generalizing n a with
  | zero =>
    rw [path_getElem?_zero] at hx
    cases hx
    simpa using hy
  | succ i ih =>
    obtain ⟨m, p, rfl, hp, hx⟩ := path_getElem?_succ hx
    have hidx : i + 1 + j = (i + j) + 1 := by omega
    rw [hidx] at hy
    obtain ⟨m', p', hm, hp', hy'⟩ := path_getElem?_succ hy
    have hmm : m' = m := by omega
    have hpp : p' = p := Option.some.inj (hp'.symm.trans hp)
    subst hmm hpp
    exact path_getElem?_mono (by omega) (ih hx hy')

namespace Forest
variable (hf : Forest parent height S)
include hf

/-- The heights go down along a path. -/
lemma pairwise_height {n : ℕ} {a : α} (ha : S a) :
    (path parent n a).Pairwise fun x y => height y < height x := by
  rw [List.pairwise_iff_getElem]
  intro i j hi hj hij
  obtain ⟨-, hhi⟩ := hf.height_getElem? ha (List.getElem?_eq_getElem hi)
  obtain ⟨-, hhj⟩ := hf.height_getElem? ha (List.getElem?_eq_getElem hj)
  omega

lemma getElem?_of_mem {n : ℕ} {a x : α} (ha : S a) (hx : x ∈ path parent n a) :
    height x ≤ height a ∧ (path parent n a)[height a - height x]? = some x := by
  obtain ⟨i, hi⟩ := List.mem_iff_getElem?.1 hx
  obtain ⟨-, hheight⟩ := hf.height_getElem? ha hi
  refine ⟨by omega, ?_⟩
  have hidx : height a - height x = i := by omega
  rw [hidx]
  exact hi

lemma mem_of_mem {n : ℕ} {a x y : α} (ha : S a) (hx : x ∈ path parent n a)
    (hy : y ∈ path parent n a) (hle : height y ≤ height x) : y ∈ path parent n x := by
  obtain ⟨hxa, hxi⟩ := hf.getElem?_of_mem ha hx
  obtain ⟨hya, hyi⟩ := hf.getElem?_of_mem ha hy
  have hidx : height a - height y = height a - height x + (height x - height y) := by omega
  rw [hidx] at hyi
  exact List.mem_of_getElem? (path_getElem?_add hxi hyi)

lemma climb_height {n h : ℕ} {a c : α} (ha : S a) (hle : h ≤ height a)
    (hc : climb parent height n a h = some c) : height c = h := by
  obtain ⟨hch, i, hi, hci, hbefore⟩ := List.find?_eq_some_iff_getElem.1 hc
  have hget : (path parent n a)[i]? = some c := by rw [List.getElem?_eq_getElem hi, hci]
  obtain ⟨-, hheight⟩ := hf.height_getElem? ha hget
  have hch' : height c ≤ h := by simpa using hch
  cases i with
  | zero => omega
  | succ i =>
    have hlt : i < (path parent n a).length := by omega
    have hprev : (path parent n a)[i]? = some ((path parent n a)[i]) := List.getElem?_eq_getElem hlt
    obtain ⟨-, hheight'⟩ := hf.height_getElem? ha hprev
    have hnot := hbefore i (by omega)
    have habove : h < height ((path parent n a)[i]) := by simpa using hnot
    omega

lemma climb_of_mem {n h : ℕ} {a x c : α} (ha : S a) (hx : x ∈ path parent n a)
    (hle : height x ≤ h) (hc : climb parent height n a h = some c) :
    S c ∧ height x ≤ height c ∧ x ∈ path parent n c := by
  obtain ⟨hch, i, hi, hci, hbefore⟩ := List.find?_eq_some_iff_getElem.1 hc
  have hget : (path parent n a)[i]? = some c := by rw [List.getElem?_eq_getElem hi, hci]
  obtain ⟨hSc, hheight⟩ := hf.height_getElem? ha hget
  obtain ⟨hxa, hxi⟩ := hf.getElem?_of_mem ha hx
  have hxc : height x ≤ height c := by
    by_contra hlt
    have hpos : height a - height x < i := by omega
    have hnot := hbefore _ hpos
    have hlt' : height a - height x < (path parent n a).length := by omega
    rw [List.getElem?_eq_getElem hlt', Option.some.injEq] at hxi
    rw [hxi] at hnot
    simp only [Bool.not_eq_true', decide_eq_false_iff_not] at hnot
    omega
  have hcmem : c ∈ path parent n a := List.mem_of_getElem? hget
  exact ⟨hSc, hxc, hf.mem_of_mem ha hcmem hx hxc⟩

/-- No common node of the two paths is above the one where they meet. -/
theorem height_le_meet [DecidableEq κ] {n : ℕ} {a c f x : α} (ha : S a) (hc : S c)
    (hmeet : meet parent height key n a c = some f) (hxa : x ∈ path parent n a)
    (hxc : x ∈ path parent n c) : height x ≤ height f := by
  simp only [meet, Option.bind_eq_bind, Option.bind_eq_some_iff] at hmeet
  obtain ⟨a', ha', c', hc', pair, hpair, hfst⟩ := hmeet
  have hxc' := (hf.getElem?_of_mem hc hxc).1
  obtain ⟨hSa', hxa', hmema⟩ := hf.climb_of_mem ha hxa hxc' ha'
  obtain ⟨hSc', -, hmemc⟩ := hf.climb_of_mem hc hxc hxa' hc'
  have hac : height a' ≤ height c := by
    have := List.find?_some ha'
    simpa using this
  have hheights := hf.climb_height hc hac hc'
  obtain ⟨-, hai⟩ := hf.getElem?_of_mem hSa' hmema
  obtain ⟨-, hci⟩ := hf.getElem?_of_mem hSc' hmemc
  rw [hheights] at hci
  obtain ⟨hkey, i, hi, hpi, hbefore⟩ := List.find?_eq_some_iff_getElem.1 hpair
  have hlen := @List.length_zip _ _ (path parent n a') (path parent n c')
  have hlta : height a' - height x < (path parent n a').length :=
    (List.getElem?_eq_some_iff.1 hai).1
  have hltc : height a' - height x < (path parent n c').length :=
    (List.getElem?_eq_some_iff.1 hci).1
  have hle : i ≤ height a' - height x := by
    by_contra hlt
    have hnot := hbefore (height a' - height x) (by omega)
    rw [List.getElem?_eq_getElem hlta, Option.some.injEq] at hai
    rw [List.getElem?_eq_getElem hltc, Option.some.injEq] at hci
    simp [List.getElem_zip, hai, hci] at hnot
  have hfi : (path parent n a')[i]? = some f := by
    have hlti : i < (path parent n a').length := by omega
    rw [List.getElem?_eq_getElem hlti]
    have : pair.1 = (path parent n a')[i] := by
      rw [← hpi, List.getElem_zip]
    rw [← this]
    exact hfst
  obtain ⟨-, hfheight⟩ := hf.height_getElem? hSa' hfi
  omega

/-- Two paths with a common node meet. -/
theorem meet_ne_none [DecidableEq κ] {n : ℕ} {a c x : α} (ha : S a) (hc : S c)
    (hxa : x ∈ path parent n a) (hxc : x ∈ path parent n c) : meet parent height key n a c ≠ none := by
  obtain ⟨a', ha'⟩ : ∃ a', climb parent height n a (height c) = some a' := by
    apply Option.isSome_iff_exists.1
    rw [climb, List.find?_isSome]
    exact ⟨x, hxa, by simpa using (hf.getElem?_of_mem hc hxc).1⟩
  obtain ⟨hSa', hxa', hmema⟩ := hf.climb_of_mem ha hxa (hf.getElem?_of_mem hc hxc).1 ha'
  obtain ⟨c', hc'⟩ : ∃ c', climb parent height n c (height a') = some c' := by
    apply Option.isSome_iff_exists.1
    rw [climb, List.find?_isSome]
    exact ⟨x, hxc, by simpa using hxa'⟩
  obtain ⟨hSc', -, hmemc⟩ := hf.climb_of_mem hc hxc hxa' hc'
  have hac : height a' ≤ height c := by simpa using List.find?_some ha'
  have hheights := hf.climb_height hc hac hc'
  obtain ⟨-, hai⟩ := hf.getElem?_of_mem hSa' hmema
  obtain ⟨-, hci⟩ := hf.getElem?_of_mem hSc' hmemc
  rw [hheights] at hci
  have hpair : (x, x) ∈ (path parent n a').zip (path parent n c') := by
    apply List.mem_of_getElem? (i := height a' - height x)
    rw [List.getElem?_zip_eq_some]
    exact ⟨hai, hci⟩
  have hfound : ((path parent n a').zip (path parent n c')).find? (fun p => key p.1 = key p.2) ≠ none := by
    rw [ne_eq, List.find?_eq_none]
    intro hnone
    exact hnone (x, x) hpair (by simp)
  obtain ⟨pair, hpair'⟩ := Option.ne_none_iff_exists'.1 hfound
  simp [meet, ha', hc', hpair']

end Forest
end ParentPath
