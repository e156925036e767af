import Mathlib

/-! Undoing a sequence of updates of a map from a log. Each step takes some keys away, each
under an identifier in the log, and then puts new values at some of its own keys. Undoing
goes through the steps from the last to the first: it puts back what the log holds and then
clears all keys of the step. -/
namespace UndoLog

structure Step (K I V : Type) where
  takes : List (I × K)
  puts : List (K × V)
  outs : List K
  puts_mem : ∀ p ∈ puts, p.1 ∈ outs

variable {K I V : Type} [DecidableEq K] [DecidableEq I]

abbrev Store (K V : Type) := K → Option V

/-- Take the keys away one by one, writing their values to the log. -/
def takeAll : List (I × K) → Store K V × Store I V → Option (Store K V × Store I V)
  | [], p => some p
  | (i, k) :: rest, (store, log) =>
    match store k with
    | none => none
    | some v => takeAll rest (Function.update store k none, Function.update log i (some v))

def putAll (puts : List (K × V)) (store : Store K V) : Store K V :=
  puts.foldl (fun store p => Function.update store p.1 (some p.2)) store

def restoreAll (log : Store I V) : List (I × K) → Store K V → Option (Store K V)
  | [], store => some store
  | (i, k) :: rest, store =>
    match log i with
    | none => none
    | some v => restoreAll log rest (Function.update store k (some v))

def clearAll (outs : List K) (store : Store K V) : Store K V :=
  outs.foldl (fun store k => Function.update store k none) store

namespace Step

def apply (step : Step K I V) (p : Store K V × Store I V) : Option (Store K V × Store I V) :=
  (takeAll step.takes p).map fun q => (putAll step.puts q.1, q.2)

def undo (log : Store I V) (step : Step K I V) (store : Store K V) : Option (Store K V) :=
  (restoreAll log step.takes store).map (clearAll step.outs)

end Step

def applyAll : List (Step K I V) → Store K V × Store I V → Option (Store K V × Store I V)
  | [], p => some p
  | step :: steps, p => (step.apply p).bind (applyAll steps)

/-- The last step is undone first. -/
def undoAll (log : Store I V) : List (Step K I V) → Store K V → Option (Store K V)
  | [], store => some store
  | step :: steps, store => (undoAll log steps store).bind (step.undo log)

/-- One identifier stands for one key. -/
def Consistent (steps : List (Step K I V)) : Prop :=
  ∀ step ∈ steps, ∀ step' ∈ steps, ∀ i k k', (i, k) ∈ step.takes → (i, k') ∈ step'.takes → k = k'

lemma putAll_of_notMem {puts : List (K × V)} {k : K} (h : ∀ p ∈ puts, p.1 ≠ k) (store : Store K V) :
    putAll puts store k = store k := by
  induction puts generalizing store with
  | nil => rfl
  | cons p puts ih =>
    have hp : p.1 ≠ k := h p (List.mem_cons_self ..)
    have hrest := ih (fun q hq => h q (List.mem_cons_of_mem _ hq))
      (Function.update store p.1 (some p.2))
    simp only [putAll, List.foldl_cons] at hrest ⊢
    rw [hrest, Function.update_of_ne hp.symm]

lemma clearAll_apply (outs : List K) (store : Store K V) (k : K) :
    clearAll outs store k = if k ∈ outs then none else store k := by
  induction outs generalizing store with
  | nil => rfl
  | cons o outs ih =>
    have hrest := ih (Function.update store o none)
    simp only [clearAll, List.foldl_cons] at hrest ⊢
    rw [hrest]
    by_cases hk : k = o
    · subst hk
      by_cases hmem : k ∈ outs <;> simp [hmem]
    · by_cases hmem : k ∈ outs <;> simp [hmem, hk]

/-- What taking away does: each key had a value, it is gone, and the log holds it, unless a
later identifier of the same list overwrote it. -/
lemma takeAll_spec {takes : List (I × K)} {store store' : Store K V} {log log' : Store I V}
    (h : takeAll takes (store, log) = some (store', log')) :
    (∀ k, (∀ i, (i, k) ∉ takes) → store' k = store k) ∧
      (∀ i k, (i, k) ∈ takes → store' k = none ∧ ∃ v, store k = some v) ∧
      (∀ i, (∀ k, (i, k) ∉ takes) → log' i = log i) ∧
      ∀ i k, (i, k) ∈ takes → (∀ k', (i, k') ∈ takes → k' = k) → log' i = store k := by
  induction takes generalizing store log with
  | nil =>
    cases h
    exact ⟨fun _ _ => rfl, fun _ _ hm => (List.not_mem_nil hm).elim, fun _ _ => rfl,
      fun _ _ hm => (List.not_mem_nil hm).elim⟩
  | cons p takes ih =>
    obtain ⟨i0, k0⟩ := p
    cases hv : store k0 with
    | none => simp [takeAll, hv] at h
    | some v0 =>
      simp only [takeAll, hv] at h
      obtain ⟨h1, h2, h3, h4⟩ := ih h
      -- the key just taken is not taken again
      have hk0 : ∀ i, (i, k0) ∉ takes := by
        intro i hi
        obtain ⟨-, v, hv'⟩ := h2 i k0 hi
        simp at hv'
      refine ⟨?_, ?_, ?_, ?_⟩
      · intro k hk
        have hne : k ≠ k0 := by
          rintro rfl
          exact hk i0 (List.mem_cons_self ..)
        rw [h1 k fun i hi => hk i (List.mem_cons_of_mem _ hi), Function.update_of_ne hne]
      · intro i k hmem
        by_cases hkk : k = k0
        · subst hkk
          refine ⟨?_, v0, hv⟩
          rw [h1 k hk0, Function.update_self]
        · have hmem' : (i, k) ∈ takes := by
            rcases List.mem_cons.1 hmem with heq | hmem'
            · exact absurd (Prod.mk.inj heq).2 hkk
            · exact hmem'
          obtain ⟨hnone, v, hsome⟩ := h2 i k hmem'
          rw [Function.update_of_ne hkk] at hsome
          exact ⟨hnone, v, hsome⟩
      · intro i hi
        have hne : i ≠ i0 := by
          rintro rfl
          exact hi k0 (List.mem_cons_self ..)
        rw [h3 i fun k hk => hi k (List.mem_cons_of_mem _ hk), Function.update_of_ne hne]
      · intro i k hmem huniq
        by_cases hii : i = i0
        · subst hii
          have hkk : k0 = k := huniq k0 (List.mem_cons_self ..)
          subst hkk
          have hno : ∀ k, (i, k) ∉ takes := by
            intro k hk
            have := huniq k (List.mem_cons_of_mem _ hk)
            subst this
            exact hk0 i hk
          rw [h3 i hno, Function.update_self, hv]
        · have hmem' : (i, k) ∈ takes := by
            rcases List.mem_cons.1 hmem with heq | hmem'
            · exact absurd (Prod.mk.inj heq).1 hii
            · exact hmem'
          have hkk : k ≠ k0 := by
            rintro rfl
            exact hk0 i hmem'
          rw [h4 i k hmem' fun k' hk' => huniq k' (List.mem_cons_of_mem _ hk'),
            Function.update_of_ne hkk]

omit [DecidableEq I] in
lemma restoreAll_spec {log : Store I V} {takes : List (I × K)} {store : Store K V}
    (hlog : ∀ i k, (i, k) ∈ takes → ∃ v, log i = some v) :
    ∃ store', restoreAll log takes store = some store' ∧
      (∀ k, (∀ i, (i, k) ∉ takes) → store' k = store k) ∧
      ∀ k, (∃ i, (i, k) ∈ takes) → ∃ i, (i, k) ∈ takes ∧ store' k = log i := by
  induction takes generalizing store with
  | nil => exact ⟨store, rfl, fun _ _ => rfl, fun _ ⟨_, hi⟩ => (List.not_mem_nil hi).elim⟩
  | cons p takes ih =>
    obtain ⟨i0, k0⟩ := p
    obtain ⟨v0, hv0⟩ := hlog i0 k0 (List.mem_cons_self ..)
    obtain ⟨store', hrun, hother, hback⟩ := @ih (Function.update store k0 (some v0))
      fun i k hk => hlog i k (List.mem_cons_of_mem _ hk)
    refine ⟨store', by simpa [restoreAll, hv0] using hrun, ?_, ?_⟩
    · intro k hk
      have hne : k ≠ k0 := by
        rintro rfl
        exact hk i0 (List.mem_cons_self ..)
      rw [hother k fun i hi => hk i (List.mem_cons_of_mem _ hi), Function.update_of_ne hne]
    · rintro k ⟨i, hi⟩
      by_cases hmem : ∃ i, (i, k) ∈ takes
      · obtain ⟨i, hi, hval⟩ := hback k hmem
        exact ⟨i, List.mem_cons_of_mem _ hi, hval⟩
      · have hik : (i, k) = (i0, k0) := by
          rcases List.mem_cons.1 hi with heq | hi
          · exact heq
          · exact absurd ⟨i, hi⟩ hmem
        obtain ⟨rfl, rfl⟩ := Prod.mk.inj hik
        refine ⟨i, hi, ?_⟩
        rw [hother k fun i hi => hmem ⟨i, hi⟩, Function.update_self, hv0]

lemma applyAll_cons {step : Step K I V} {steps : List (Step K I V)}
    {p q : Store K V × Store I V} (h : applyAll (step :: steps) p = some q) :
    ∃ store log, takeAll step.takes p = some (store, log) ∧
      applyAll steps (putAll step.puts store, log) = some q := by
  simp only [applyAll, Step.apply] at h
  cases ht : takeAll step.takes p with
  | none => simp [ht] at h
  | some r => exact ⟨r.1, r.2, rfl, by simpa [ht] using h⟩

/-- A key that is absent and is no output of the steps is not taken by them. -/
lemma notMem_takes_of_absent {steps : List (Step K I V)} {store : Store K V} {log : Store I V}
    {q : Store K V × Store I V} {k : K} (h : applyAll steps (store, log) = some q)
    (hk : store k = none) (hout : ∀ step ∈ steps, k ∉ step.outs) :
    ∀ step ∈ steps, ∀ i, (i, k) ∉ step.takes := by
  induction steps generalizing store log with
  | nil => exact fun _ hs => (List.not_mem_nil hs).elim
  | cons step steps ih =>
    obtain ⟨store', log', ht, hrest⟩ := applyAll_cons h
    obtain ⟨hother, htaken, -, -⟩ := takeAll_spec ht
    have hno : ∀ i, (i, k) ∉ step.takes := by
      intro i hi
      obtain ⟨-, v, hv⟩ := htaken i k hi
      exact nomatch hk.symm.trans hv
    have hk' : putAll step.puts store' k = none := by
      rw [putAll_of_notMem _ store', hother k hno, hk]
      rintro p hp rfl
      exact hout step (List.mem_cons_self ..) (step.puts_mem p hp)
    intro s hs
    rcases List.mem_cons.1 hs with rfl | hs
    · exact hno
    · exact ih hrest hk' (fun s hs => hout s (List.mem_cons_of_mem _ hs)) s hs

/-- An identifier that no step uses keeps its entry in the log. -/
lemma applyAll_log_of_unused {steps : List (Step K I V)} {store store' : Store K V}
    {log log' : Store I V} {i : I} (h : applyAll steps (store, log) = some (store', log'))
    (hi : ∀ step ∈ steps, ∀ k, (i, k) ∉ step.takes) : log' i = log i := by
  induction steps generalizing store log with
  | nil =>
    cases h
    rfl
  | cons step steps ih =>
    obtain ⟨store1, log1, ht, hrest⟩ := applyAll_cons h
    obtain ⟨-, -, hlog, -⟩ := takeAll_spec ht
    rw [ih hrest fun s hs => hi s (List.mem_cons_of_mem _ hs)]
    exact hlog i (hi step (List.mem_cons_self ..))

lemma log_isSome_takeAll {takes : List (I × K)} {store store' : Store K V} {log log' : Store I V}
    (h : takeAll takes (store, log) = some (store', log')) {i : I}
    (hi : (∃ v, log i = some v) ∨ ∃ k, (i, k) ∈ takes) : ∃ v, log' i = some v := by
  induction takes generalizing store log with
  | nil =>
    cases h
    rcases hi with hi | ⟨k, hk⟩
    · exact hi
    · exact (List.not_mem_nil hk).elim
  | cons p takes ih =>
    obtain ⟨i0, k0⟩ := p
    cases hv : store k0 with
    | none => simp [takeAll, hv] at h
    | some v0 =>
      simp only [takeAll, hv] at h
      refine ih h ?_
      by_cases hii : i = i0
      · subst hii
        exact Or.inl ⟨v0, Function.update_self ..⟩
      · rw [Function.update_of_ne hii]
        rcases hi with hi | ⟨k, hk⟩
        · exact Or.inl hi
        · refine Or.inr ⟨k, ?_⟩
          rcases List.mem_cons.1 hk with heq | hk
          · exact absurd (Prod.mk.inj heq).1 hii
          · exact hk

lemma log_isSome_applyAll {steps : List (Step K I V)} {store store' : Store K V}
    {log log' : Store I V} (h : applyAll steps (store, log) = some (store', log')) {i : I}
    (hi : (∃ v, log i = some v) ∨ ∃ step ∈ steps, ∃ k, (i, k) ∈ step.takes) :
    ∃ v, log' i = some v := by
  induction steps generalizing store log with
  | nil =>
    cases h
    rcases hi with hi | ⟨step, hs, -⟩
    · exact hi
    · exact (List.not_mem_nil hs).elim
  | cons step steps ih =>
    obtain ⟨store1, log1, ht, hrest⟩ := applyAll_cons h
    rcases hi with hi | ⟨s, hs, k, hk⟩
    · exact ih hrest (Or.inl (log_isSome_takeAll ht (Or.inl hi)))
    · rcases List.mem_cons.1 hs with rfl | hs
      · exact ih hrest (Or.inl (log_isSome_takeAll ht (Or.inr ⟨k, hk⟩)))
      · exact ih hrest (Or.inr ⟨s, hs, k, hk⟩)

/-- Undoing the steps from the log they wrote gives back every key that was absent or is no
output of a step. A key that is both present and an output may be lost. -/
lemma undoAll_applyAll_key {steps : List (Step K I V)} (hcons : Consistent steps)
    {store store' : Store K V} {log log' : Store I V}
    (h : applyAll steps (store, log) = some (store', log')) :
    ∃ back, undoAll log' steps store' = some back ∧
      ∀ k, (∀ step ∈ steps, k ∉ step.outs) ∨ store k = none → back k = store k := by
  induction steps generalizing store log with
  | nil =>
    cases h
    exact ⟨_, rfl, fun _ _ => rfl⟩
  | cons step steps ih =>
    obtain ⟨store1, log1, ht, hrest⟩ := applyAll_cons h
    obtain ⟨hother, htaken, -, hlog⟩ := takeAll_spec ht
    have hcons' : Consistent steps := fun s hs s' hs' =>
      hcons s (List.mem_cons_of_mem _ hs) s' (List.mem_cons_of_mem _ hs')
    obtain ⟨back1, hback1, hkeys⟩ := ih hcons' hrest
    have hself : step ∈ step :: steps := List.mem_cons_self ..
    have hfound : ∀ i k, (i, k) ∈ step.takes → ∃ v, log' i = some v := fun i k hik =>
      log_isSome_applyAll h (Or.inr ⟨step, hself, k, hik⟩)
    obtain ⟨back2, hback2, hsame, hput⟩ := @restoreAll_spec _ _ _ _ _ _ back1 hfound
    refine ⟨clearAll step.outs back2, by simp [undoAll, hback1, Step.undo, hback2], ?_⟩
    have hstep1 (k : K) (hk : k ∉ step.outs) : putAll step.puts store1 k = store1 k := by
      refine putAll_of_notMem ?_ store1
      rintro p hp rfl
      exact hk (step.puts_mem p hp)
    intro k hk
    rw [clearAll_apply]
    split_ifs with hout
    · rcases hk with hk | hk
      · exact absurd hout (hk step hself)
      · exact hk.symm
    · by_cases htk : ∃ i, (i, k) ∈ step.takes
      · -- a key that was taken: no later step can have used its identifier again
        obtain ⟨i, hi, hval⟩ := hput k htk
        obtain ⟨hnone, v, hv⟩ := htaken i k hi
        have hout' : ∀ s ∈ steps, k ∉ s.outs := by
          rcases hk with hk | hk
          · exact fun s hs => hk s (List.mem_cons_of_mem _ hs)
          · exact nomatch hk.symm.trans hv
        have habsent : putAll step.puts store1 k = none := (hstep1 k hout).trans hnone
        have hunused : ∀ s ∈ steps, ∀ k', (i, k') ∉ s.takes := by
          intro s hs k' hk'
          have hkk := hcons step hself s (List.mem_cons_of_mem _ hs) i k k' hi hk'
          subst hkk
          exact notMem_takes_of_absent hrest habsent hout' s hs i hk'
        have huniq : ∀ k', (i, k') ∈ step.takes → k' = k := fun k' hk' =>
          hcons step hself step hself i k' k hk' hi
        rw [hval, applyAll_log_of_unused hrest hunused, hlog i k hi huniq]
      · have hno : ∀ i, (i, k) ∉ step.takes := fun i hi => htk ⟨i, hi⟩
        have hkeep : putAll step.puts store1 k = store k := (hstep1 k hout).trans (hother k hno)
        rw [hsame k hno, hkeys k, hkeep]
        rcases hk with hk | hk
        · exact Or.inl fun s hs => hk s (List.mem_cons_of_mem _ hs)
        · exact Or.inr (hkeep.trans hk)

/-- If no output of a step is there beforehand, undoing gives back the whole map. -/
theorem undoAll_applyAll {steps : List (Step K I V)} (hcons : Consistent steps)
    {store store' : Store K V} {log log' : Store I V}
    (hfresh : ∀ step ∈ steps, ∀ k ∈ step.outs, store k = none)
    (h : applyAll steps (store, log) = some (store', log')) :
    undoAll log' steps store' = some store := by
  obtain ⟨back, hback, hkeys⟩ := undoAll_applyAll_key hcons h
  rw [hback]
  congr 1
  funext k
  refine hkeys k ?_
  by_cases hk : ∃ step ∈ steps, k ∈ step.outs
  · obtain ⟨step, hs, hks⟩ := hk
    exact Or.inr (hfresh step hs k hks)
  · left
    intro step hs hks
    exact hk ⟨step, hs, hks⟩

end UndoLog
