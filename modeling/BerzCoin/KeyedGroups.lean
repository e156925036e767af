import BerzCoin.KeyedRows

/-! The values of a list in groups under their keys, in the order in which the keys come up. -/
namespace KeyedRows
variable {K V : Type} [DecidableEq K]

/-- `d.setdefault(key, []).append(value)`. -/
def appendAt (t : KeyedRows K (List V)) (k : K) (v : V) : KeyedRows K (List V) :=
  t.put k ((t.get? k).getD [] ++ [v])

def groupBy (key : V → K) (values : List V) : KeyedRows K (List V) :=
  values.foldl (fun t v => t.appendAt (key v) v) empty

variable {key : V → K} {values : List V} {k : K}

lemma get?_appendAt (t : KeyedRows K (List V)) (k k' : K) (v : V) :
    (t.appendAt k v).get? k' = if k' = k then some ((t.get? k).getD [] ++ [v]) else t.get? k' :=
  get?_put t k k' _

/-- The group of a key holds its values in their order, and no group is empty. -/
theorem get?_groupBy (key : V → K) (values : List V) (k : K) :
    (groupBy key values).get? k =
      if values.filter (key · = k) = [] then none else some (values.filter (key · = k)) := by
  induction values using List.reverseRecOn with
  | nil => rfl
  | append_singleton values v ih =>
    have happend : groupBy key (values ++ [v]) = (groupBy key values).appendAt (key v) v := by
      simp [groupBy]
    rw [happend, get?_appendAt, List.filter_append]
    by_cases hk : k = key v
    · subst hk
      rw [ih]
      split_ifs <;> simp_all
    · simp [hk, Ne.symm hk, ih]

/-- Each value has a group, and whoever is in it has the same key. -/
lemma exists_group (key : V → K) {v : V} (hv : v ∈ values) :
    ∃ group, (key v, group) ∈ (groupBy key values).rows ∧ group ≠ [] ∧
      ∀ w ∈ group, w ∈ values ∧ key w = key v := by
  have hmem : v ∈ values.filter (key · = key v) := List.mem_filter.2 ⟨hv, decide_eq_true rfl⟩
  have hne := List.ne_nil_of_mem hmem
  refine ⟨values.filter (key · = key v), mem_rows_of_get? ?_, hne, ?_⟩
  · rw [get?_groupBy, if_neg hne]
  · intro w hw
    exact ⟨(List.mem_filter.1 hw).1, of_decide_eq_true (List.mem_filter.1 hw).2⟩

end KeyedRows
