import Mathlib

/-! Rows with unique keys, in their order: a database table with a primary key or a
dictionary. -/

structure KeyedRows (K V : Type) where
  rows : List (K × V)
  nodupKeys : (rows.map Prod.fst).Nodup

namespace KeyedRows
variable {K V : Type}

@[ext]
lemma ext {t u : KeyedRows K V} (h : t.rows = u.rows) : t = u := by
  obtain ⟨rows, nodup⟩ := t
  obtain ⟨rows', nodup'⟩ := u
  cases h
  rfl

instance [DecidableEq K] [DecidableEq V] : DecidableEq (KeyedRows K V) := fun t u =>
  decidable_of_iff (t.rows = u.rows) ⟨ext, fun h => h ▸ rfl⟩

def empty : KeyedRows K V := ⟨[], List.nodup_nil⟩

/-- The sum of a column. -/
def sum (t : KeyedRows K V) (f : V → ℕ) : ℕ := (t.rows.map fun r => f r.2).sum

@[simp] lemma sum_empty (f : V → ℕ) : (empty : KeyedRows K V).sum f = 0 := rfl

variable [DecidableEq K]

def get? (t : KeyedRows K V) (k : K) : Option V := (t.rows.find? (·.1 = k)).map Prod.snd

def contains (t : KeyedRows K V) (k : K) : Bool := (t.get? k).isSome

/-- `DELETE ... WHERE`. -/
def deleteWhere (t : KeyedRows K V) (p : K → Bool) : KeyedRows K V where
  rows := t.rows.filter fun r => !p r.1
  nodupKeys := t.nodupKeys.sublist (List.filter_sublist.map Prod.fst)

def delete (t : KeyedRows K V) (k : K) : KeyedRows K V := t.deleteWhere fun k' => k' = k

/-- Without the rows at the given keys. -/
def deleteAll (t : KeyedRows K V) (keys : List K) : KeyedRows K V := t.deleteWhere (· ∈ keys)

/-- `UPDATE ... SET` at the keys that meet a condition. -/
def updateWhere (t : KeyedRows K V) (p : K → Bool) (f : V → V) : KeyedRows K V where
  rows := t.rows.map fun r => if p r.1 then (r.1, f r.2) else r
  nodupKeys := by
    have hkeys : (t.rows.map fun r => if p r.1 then (r.1, f r.2) else r).map Prod.fst =
        t.rows.map Prod.fst := by
      rw [List.map_map]
      refine List.map_congr_left ?_
      intro r _
      by_cases hp : p r.1 = true <;> simp [hp]
    rw [hkeys]
    exact t.nodupKeys

def update (t : KeyedRows K V) (k : K) (f : V → V) : KeyedRows K V := t.updateWhere (fun k' => k' = k) f

def mapValues (t : KeyedRows K V) (f : V → V) : KeyedRows K V := t.updateWhere (fun _ => true) f

lemma get?_eq_none_iff {t : KeyedRows K V} {k : K} : t.get? k = none ↔ k ∉ t.rows.map Prod.fst := by
  simp only [get?, Option.map_eq_none_iff, List.find?_eq_none, List.mem_map, not_exists, not_and]
  constructor
  · intro h r hr hk
    exact h r hr (by simpa using hk)
  · intro h r hr hk
    exact h r hr (by simpa using hk)

lemma mem_rows_of_get? {t : KeyedRows K V} {k : K} {v : V} (h : t.get? k = some v) :
    (k, v) ∈ t.rows := by
  obtain ⟨⟨k', v'⟩, hf, hv⟩ := Option.map_eq_some_iff.1 h
  have hk : k' = k := by simpa using List.find?_some hf
  have hv' : v' = v := hv
  subst hk hv'
  exact List.mem_of_find?_eq_some hf

/-- A row under a new key, at the end. -/
def insertNew (t : KeyedRows K V) (k : K) (v : V) (h : t.get? k = none) : KeyedRows K V where
  rows := t.rows ++ [(k, v)]
  nodupKeys := by
    rw [List.map_append, List.nodup_append]
    refine ⟨t.nodupKeys, by simp, ?_⟩
    rintro a ha b hb rfl
    have hk : a = k := by simpa using hb
    exact get?_eq_none_iff.1 h (hk ▸ ha)

/-- `INSERT`, which fails on a key that is taken. -/
def insert? (t : KeyedRows K V) (k : K) (v : V) : Option (KeyedRows K V) :=
  if h : t.get? k = none then some (t.insertNew k v h) else none

/-- Assignment to a dictionary key: a key that is there keeps its place. -/
def put (t : KeyedRows K V) (k : K) (v : V) : KeyedRows K V :=
  if h : t.get? k = none then t.insertNew k v h else t.update k fun _ => v

/-- `INSERT OR REPLACE`: the old row goes and the new one comes last. -/
def insertOrReplace (t : KeyedRows K V) (k : K) (v : V) : KeyedRows K V where
  rows := (t.delete k).rows ++ [(k, v)]
  nodupKeys := by
    rw [List.map_append, List.nodup_append]
    refine ⟨(t.delete k).nodupKeys, by simp, ?_⟩
    rintro a ha b hb rfl
    obtain ⟨r, hr, rfl⟩ := List.mem_map.1 ha
    have hk : r.1 = k := by simpa using hb
    have hne : r.1 ≠ k := by simpa [delete, deleteWhere] using (List.mem_filter.1 hr).2
    exact hne hk

lemma find?_filter_key (l : List (K × V)) (p : K → Bool) (k : K) :
    (l.filter fun r => !p r.1).find? (·.1 = k) =
      if p k then none else l.find? (·.1 = k) := by
  induction l with
  | nil => simp
  | cons r l ih =>
    by_cases hr : r.1 = k
    · by_cases hp : p k = true
      · simp [hr, hp, ih]
      · simp [hr, hp]
    · by_cases hp : p r.1 = true
      · simp [hp, hr, ih]
      · simp [hp, hr, ih]

@[simp] lemma get?_empty (k : K) : (empty : KeyedRows K V).get? k = none := rfl

@[simp] lemma get?_deleteWhere (t : KeyedRows K V) (p : K → Bool) (k : K) :
    (t.deleteWhere p).get? k = if p k then none else t.get? k := by
  simp only [get?, deleteWhere, find?_filter_key]
  by_cases hp : p k = true <;> simp [hp]

@[simp] lemma get?_delete (t : KeyedRows K V) (k k' : K) :
    (t.delete k).get? k' = if k' = k then none else t.get? k' := by
  simp [delete]

@[simp] lemma get?_insertOrReplace (t : KeyedRows K V) (k k' : K) (v : V) :
    (t.insertOrReplace k v).get? k' = if k' = k then some v else t.get? k' := by
  have hfind : (t.insertOrReplace k v).rows.find? (·.1 = k') =
      ((t.delete k).rows.find? (·.1 = k')).or ([(k, v)].find? (·.1 = k')) := List.find?_append
  have hdel := get?_delete t k k'
  simp only [get?] at hdel ⊢
  rw [hfind]
  by_cases hk : k' = k
  · subst hk
    simp only [if_true, Option.map_eq_none_iff] at hdel ⊢
    simp [hdel]
  · have hk' : k ≠ k' := fun h => hk h.symm
    simp only [hk, if_false] at hdel ⊢
    rw [← hdel]
    simp [hk']

lemma get?_insertNew (t : KeyedRows K V) (k k' : K) (v : V) (h : t.get? k = none) :
    (t.insertNew k v h).get? k' = if k' = k then some v else t.get? k' := by
  have hfind : (t.insertNew k v h).rows.find? (·.1 = k') =
      (t.rows.find? (·.1 = k')).or ([(k, v)].find? (·.1 = k')) := List.find?_append
  simp only [get?] at h ⊢
  rw [hfind]
  by_cases hk : k' = k
  · subst hk
    simp only [Option.map_eq_none_iff] at h
    simp [h]
  · have hk' : k ≠ k' := fun h => hk h.symm
    simp [hk, hk']

@[simp] lemma get?_updateWhere (t : KeyedRows K V) (p : K → Bool) (f : V → V) (k : K) :
    (t.updateWhere p f).get? k = if p k then (t.get? k).map f else t.get? k := by
  simp only [get?, updateWhere, List.find?_map]
  have hcongr : ((fun r : K × V => decide (r.1 = k)) ∘ fun r => if p r.1 then (r.1, f r.2) else r) =
      fun r => decide (r.1 = k) := by
    funext r
    by_cases hp : p r.1 = true <;> simp [hp]
  rw [hcongr]
  cases hfind : t.rows.find? fun r => decide (r.1 = k) with
  | none => simp
  | some r =>
    have hk : r.1 = k := by simpa using List.find?_some hfind
    by_cases hp : p k = true <;> simp [hk, hp]

@[simp] lemma get?_update (t : KeyedRows K V) (k k' : K) (f : V → V) :
    (t.update k f).get? k' = if k' = k then (t.get? k').map f else t.get? k' := by
  simp [update]

@[simp] lemma get?_mapValues (t : KeyedRows K V) (f : V → V) (k : K) :
    (t.mapValues f).get? k = (t.get? k).map f := by
  simp [mapValues]

@[simp] lemma get?_put (t : KeyedRows K V) (k k' : K) (v : V) :
    (t.put k v).get? k' = if k' = k then some v else t.get? k' := by
  unfold put
  split_ifs with h hk hk
  · rw [get?_insertNew, if_pos hk]
  · rw [get?_insertNew, if_neg hk]
  · obtain ⟨w, hw⟩ := Option.ne_none_iff_exists'.1 h
    simp [hk, hw]
  · simp [hk]

lemma perm_delete_rows (l : List (K × V)) (hl : (l.map Prod.fst).Nodup) {k : K} {v : V}
    (h : l.find? (·.1 = k) = some (k, v)) :
    l.Perm ((k, v) :: l.filter fun r => !decide (r.1 = k)) := by
  induction l with
  | nil => cases h
  | cons r l ih =>
    obtain ⟨hr, hl'⟩ := List.nodup_cons.1 hl
    by_cases hk : r.1 = k
    · have hrv : r = (k, v) := by simpa [hk] using h
      have hfilter : l.filter (fun r => !decide (r.1 = k)) = l := by
        refine List.filter_eq_self.2 ?_
        intro r' hr'
        have hne : r'.1 ≠ k := by
          intro hr'k
          exact hr (List.mem_map.2 ⟨r', hr', hr'k.trans hk.symm⟩)
        simp [hne]
      simp only [List.filter_cons, hk, decide_true, Bool.not_true]
      rw [if_neg (by simp), hfilter, hrv]
    · have hfind : l.find? (·.1 = k) = some (k, v) := by simpa [hk] using h
      simp only [List.filter_cons, hk, decide_false, Bool.not_false, if_true]
      exact ((ih hl' hfind).cons r).trans (List.Perm.swap ..)

lemma perm_delete {t : KeyedRows K V} {k : K} {v : V} (h : t.get? k = some v) :
    t.rows.Perm ((k, v) :: (t.delete k).rows) := by
  obtain ⟨⟨k', v'⟩, hfind, hv⟩ := Option.map_eq_some_iff.1 h
  have hk : k' = k := by simpa using List.find?_some hfind
  have hv' : v' = v := hv
  subst hk hv'
  exact perm_delete_rows t.rows t.nodupKeys hfind

lemma deleteWhere_eq_self {t : KeyedRows K V} {p : K → Bool}
    (h : ∀ k, p k = true → t.get? k = none) : t.deleteWhere p = t := by
  refine ext (List.filter_eq_self.2 ?_)
  intro r hr
  by_contra hp
  have hnone := h r.1 (by simpa using hp)
  exact get?_eq_none_iff.1 hnone (List.mem_map.2 ⟨r, hr, rfl⟩)

lemma deleteWhere_delete (t : KeyedRows K V) (k : K) (p : K → Bool) :
    (t.delete k).deleteWhere p = t.deleteWhere fun k' => decide (k' = k) || p k' := by
  refine ext ?_
  simp only [delete, deleteWhere, List.filter_filter]
  refine List.filter_congr ?_
  intro r _
  by_cases hk : r.1 = k <;> simp [hk]

lemma deleteWhere_update (t : KeyedRows K V) (k : K) (f : V → V) (p : K → Bool) :
    (t.update k f).deleteWhere p = (t.deleteWhere p).update k f := by
  refine ext ?_
  simp only [update, updateWhere, deleteWhere, List.filter_map]
  congr 1
  refine List.filter_congr ?_
  intro r _
  by_cases hk : r.1 = k <;> simp [hk]

/-- The entry of a column at a key, zero where there is no row. -/
def columnAt (t : KeyedRows K V) (f : V → ℕ) (k : K) : ℕ := ((t.get? k).map f).getD 0

lemma sum_delete (t : KeyedRows K V) (k : K) (f : V → ℕ) :
    (t.delete k).sum f + t.columnAt f k = t.sum f := by
  cases h : t.get? k with
  | some v =>
    have hsum := ((perm_delete h).map fun r => f r.2).sum_eq
    rw [List.map_cons, List.sum_cons, Nat.add_comm] at hsum
    simp only [columnAt, h, Option.map_some, Option.getD_some]
    exact hsum.symm
  | none =>
    have hrows : (t.delete k).rows = t.rows := by
      refine List.filter_eq_self.2 ?_
      intro r hr
      have hne : r.1 ≠ k := by
        intro hk
        exact get?_eq_none_iff.1 h (List.mem_map.2 ⟨r, hr, hk⟩)
      simp [hne]
    simp [sum, columnAt, h, hrows]

lemma length_delete {t : KeyedRows K V} {k : K} {v : V} (h : t.get? k = some v) :
    (t.delete k).rows.length + 1 = t.rows.length :=
  (perm_delete h).length_eq.symm

lemma length_put (t : KeyedRows K V) (k : K) (v : V) :
    (t.put k v).rows.length = if t.get? k = none then t.rows.length + 1 else t.rows.length := by
  unfold put
  split_ifs with h
  · simp [insertNew]
  · simp [update, updateWhere]

lemma get?_of_head? {t : KeyedRows K V} {r : K × V} (h : t.rows.head? = some r) :
    t.get? r.1 = some r.2 := by
  obtain ⟨rest, hrows⟩ := List.head?_eq_some_iff.1 h
  simp [get?, hrows]

@[simp] lemma deleteAll_nil (t : KeyedRows K V) : t.deleteAll [] = t := by
  refine ext ?_
  simp [deleteAll, deleteWhere]

lemma deleteAll_delete (t : KeyedRows K V) (k : K) (keys : List K) :
    (t.delete k).deleteAll keys = t.deleteAll (k :: keys) := by
  rw [deleteAll, deleteWhere_delete, deleteAll]
  refine congrArg t.deleteWhere ?_
  funext k'
  simp

/-- The rows at distinct keys are counted once each. -/
lemma sum_deleteAll (t : KeyedRows K V) (f : V → ℕ) {keys : List K} (hkeys : keys.Nodup) :
    (t.deleteAll keys).sum f + (keys.map (t.columnAt f)).sum = t.sum f := by
  induction keys generalizing t with
  | nil => simp
  | cons k keys ih =>
    obtain ⟨hk, hkeys'⟩ := List.nodup_cons.1 hkeys
    have hrest := ih (t.delete k) hkeys'
    have hcolumn : keys.map ((t.delete k).columnAt f) = keys.map (t.columnAt f) := by
      refine List.map_congr_left ?_
      intro k' hk'
      have hne : k' ≠ k := fun h => hk (h ▸ hk')
      simp [columnAt, hne]
    have hdelete := sum_delete t k f
    rw [deleteAll_delete, hcolumn] at hrest
    rw [List.map_cons, List.sum_cons]
    omega

lemma sum_deleteWhere_insertOrReplace_le (t : KeyedRows K V) (k : K) (v : V) (p : K → Bool)
    (f : V → ℕ) :
    ((t.insertOrReplace k v).deleteWhere p).sum f ≤ (t.deleteWhere p).sum f + f v := by
  have hsum : ((t.insertOrReplace k v).deleteWhere p).sum f ≤
      ((t.deleteWhere p).delete k).sum f + f v := by
    have hcomm : (t.delete k).deleteWhere p = (t.deleteWhere p).delete k := by
      rw [deleteWhere_delete, delete, deleteWhere, deleteWhere, deleteWhere]
      refine ext ?_
      simp only [List.filter_filter]
      refine List.filter_congr ?_
      intro r _
      by_cases hk : r.1 = k <;> simp [hk]
    rw [← hcomm]
    by_cases hp : p k = true
    · simp [sum, insertOrReplace, deleteWhere, hp]
    · simp [sum, insertOrReplace, deleteWhere, hp]
  have hdelete := sum_delete (t.deleteWhere p) k f
  omega

lemma sum_update (t : KeyedRows K V) (k : K) (g : V → V) (f : V → ℕ) (h : ∀ v, f (g v) = f v) :
    (t.update k g).sum f = t.sum f := by
  simp only [sum, update, updateWhere, List.map_map]
  congr 1
  refine List.map_congr_left ?_
  intro r _
  by_cases hk : r.1 = k <;> simp [hk, h]

/-! Keys, and sums of signed columns. -/

def keys (t : KeyedRows K V) : List K := t.rows.map Prod.fst

/-- The sum of a signed column. -/
def total (t : KeyedRows K V) (f : V → ℤ) : ℤ := (t.rows.map fun r => f r.2).sum

lemma mem_keys {t : KeyedRows K V} {k : K} : k ∈ t.keys ↔ t.get? k ≠ none := by
  rw [Ne, get?_eq_none_iff, not_not]
  rfl

lemma get?_of_mem_rows {t : KeyedRows K V} {r : K × V} (h : r ∈ t.rows) : t.get? r.1 = some r.2 := by
  obtain ⟨v, hv⟩ := Option.ne_none_iff_exists'.1 (mem_keys.1 (List.mem_map_of_mem h))
  have hrow := List.inj_on_of_nodup_map t.nodupKeys (mem_rows_of_get? hv) h rfl
  rw [hv, ← hrow]

omit [DecidableEq K] in
@[simp] lemma keys_updateWhere (t : KeyedRows K V) (p : K → Bool) (f : V → V) :
    (t.updateWhere p f).keys = t.keys := by
  simp only [keys, updateWhere, List.map_map]
  refine List.map_congr_left ?_
  intro r _
  by_cases hp : p r.1 = true <;> simp [hp]

lemma perm_keys_delete {t : KeyedRows K V} {k : K} {v : V} (h : t.get? k = some v) :
    t.keys.Perm (k :: (t.delete k).keys) := (perm_delete h).map Prod.fst

lemma rows_put_new {t : KeyedRows K V} {k : K} (v : V) (h : t.get? k = none) :
    (t.put k v).rows = t.rows ++ [(k, v)] := by
  simp [put, h, insertNew]

lemma keys_put_new {t : KeyedRows K V} {k : K} (v : V) (h : t.get? k = none) :
    (t.put k v).keys = t.keys ++ [k] := by
  simp [keys, rows_put_new v h]

lemma total_delete {t : KeyedRows K V} {k : K} {v : V} (h : t.get? k = some v) (f : V → ℤ) :
    (t.delete k).total f = t.total f - f v := by
  have hsum := ((perm_delete h).map fun r => f r.2).sum_eq
  simp only [List.map_cons, List.sum_cons] at hsum
  simp only [total]
  omega

lemma total_put_new {t : KeyedRows K V} {k : K} {v : V} (h : t.get? k = none) (f : V → ℤ) :
    (t.put k v).total f = t.total f + f v := by
  simp [total, rows_put_new v h]

omit [DecidableEq K] in
lemma total_updateWhere (t : KeyedRows K V) (p : K → Bool) {g : V → V} {f : V → ℤ}
    (h : ∀ v, f (g v) = f v) : (t.updateWhere p g).total f = t.total f := by
  simp only [total, updateWhere, List.map_map]
  congr 1
  refine List.map_congr_left ?_
  intro r _
  by_cases hp : p r.1 = true <;> simp [hp, h]

lemma mem_rows_iff {t : KeyedRows K V} {r : K × V} : r ∈ t.rows ↔ t.get? r.1 = some r.2 :=
  ⟨get?_of_mem_rows, mem_rows_of_get?⟩

omit [DecidableEq K] in
lemma nodup_rows (t : KeyedRows K V) : t.rows.Nodup := List.Nodup.of_map _ t.nodupKeys

/-- The sum of a column depends on the map only. -/
lemma sum_eq_of_get? {t u : KeyedRows K V} (h : t.get? = u.get?) (f : V → ℕ) : t.sum f = u.sum f := by
  have hperm : t.rows.Perm u.rows := by
    rw [List.perm_ext_iff_of_nodup (nodup_rows _) (nodup_rows _)]
    intro r
    rw [mem_rows_iff, mem_rows_iff, h]
  exact (hperm.map fun r => f r.2).sum_eq

/-- A row that is put takes the place of the one under its key. -/
lemma perm_put (t : KeyedRows K V) (k : K) (v : V) :
    (t.put k v).rows.Perm ((k, v) :: (t.delete k).rows) := by
  have hnew : (k, v) ∉ (t.delete k).rows := by
    rw [mem_rows_iff, get?_delete, if_pos rfl]
    simp
  rw [List.perm_ext_iff_of_nodup (nodup_rows _) (List.nodup_cons.2 ⟨hnew, nodup_rows _⟩)]
  intro r
  rw [mem_rows_iff, List.mem_cons, mem_rows_iff, get?_put, get?_delete, Prod.ext_iff]
  by_cases hk : r.1 = k
  · simp [hk, eq_comm]
  · simp [hk]

/-- A sum over keys and rows: the new row counts, and the one that it replaces does not. -/
lemma sum_map_insertOrReplace (t : KeyedRows K V) (k : K) (v : V) (g : K × V → ℤ) :
    ((t.insertOrReplace k v).rows.map g).sum =
      (t.rows.map g).sum - ((t.get? k).map fun old => g (k, old)).getD 0 + g (k, v) := by
  have hnew : ((t.insertOrReplace k v).rows.map g).sum = ((t.delete k).rows.map g).sum + g (k, v) := by
    simp [insertOrReplace]
  rw [hnew]
  cases h : t.get? k with
  | none =>
    have hkeep : t.delete k = t := deleteWhere_eq_self fun k' hk' => by rwa [of_decide_eq_true hk']
    simp [hkeep]
  | some old =>
    have hsum := ((perm_delete h).map g).sum_eq
    simp only [List.map_cons, List.sum_cons] at hsum
    simp only [Option.map_some, Option.getD_some]
    omega

/-- The best row, in the order of a comparison, is one of the rows. -/
lemma foldl_better_mem {β : Type} (better : β → β → Prop) [DecidableRel better] (first : β)
    (rest : List β) :
    rest.foldl (fun best r => if better r best then r else best) first ∈ first :: rest := by
  induction rest generalizing first with
  | nil => exact List.mem_singleton_self first
  | cons r rest ih =>
    rw [List.foldl_cons]
    split_ifs
    · exact List.mem_cons_of_mem _ (ih r)
    · rcases List.mem_cons.1 (ih first) with hfirst | hrest
      · rw [hfirst]
        exact List.mem_cons_self
      · exact List.mem_cons_of_mem _ (List.mem_cons_of_mem _ hrest)

lemma sum_put (t : KeyedRows K V) (k : K) (v : V) (f : V → ℕ) :
    (t.put k v).sum f = f v + (t.delete k).sum f := by
  have hsum := ((perm_put t k v).map fun r => f r.2).sum_eq
  simpa [sum] using hsum

lemma sum_delete_le (t : KeyedRows K V) (k : K) (f : V → ℕ) : (t.delete k).sum f ≤ t.sum f := by
  have hsum := sum_delete t k f
  omega

lemma sum_put_le (t : KeyedRows K V) (k : K) (v : V) (f : V → ℕ) :
    (t.put k v).sum f ≤ f v + t.sum f := by
  have hle := sum_delete_le t k f
  rw [sum_put]
  omega

end KeyedRows
