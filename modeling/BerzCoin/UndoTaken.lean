import BerzCoin.UndoHistory

/-! Which keys a history of updates takes away from a map and which it puts there. Where every update
takes keys that are there before it and puts values at keys of its own, no key is taken twice, and
the map holds what was put and not taken. -/
namespace UndoLog
variable {N K I V : Type}

/-- The map `after` comes from `before` by taking keys away, each of them once, and putting
entries at other keys. -/
structure Moved (taken : List K) (puts : List (K × V)) (before after : Store K V) : Prop where
  nodup : taken.Nodup
  found : ∀ k ∈ taken, before k ≠ none
  gone : ∀ k ∈ taken, after k = none
  put : ∀ p ∈ puts, ∃ v, (p.1, v) ∈ puts ∧ after p.1 = some v
  kept : ∀ k, k ∉ taken → (∀ p ∈ puts, p.1 ≠ k) → after k = before k

namespace Moved
variable {taken taken' : List K} {puts puts' : List (K × V)} {a b c : Store K V}

lemma nil (a : Store K V) : Moved [] [] a a where
  nodup := List.nodup_nil
  found _ h := by cases h
  gone _ h := by cases h
  put _ h := by cases h
  kept _ _ _ := rfl

lemma trans (h : Moved taken puts a b) (h' : Moved taken' puts' b c)
    (hapart : ∀ p ∈ puts ++ puts', p.1 ∉ taken ++ taken') :
    Moved (taken ++ taken') (puts ++ puts') a c := by
  have hputs : ∀ p ∈ puts, p.1 ∉ taken ∧ p.1 ∉ taken' := fun p hp => by
    simpa using hapart p (List.mem_append_left _ hp)
  have hputs' : ∀ p ∈ puts', p.1 ∉ taken ∧ p.1 ∉ taken' := fun p hp => by
    simpa using hapart p (List.mem_append_right _ hp)
  -- a key that is taken first is not there any more
  have hdisjoint : ∀ k ∈ taken, k ∉ taken' := fun k hk hk' => h'.found k hk' (h.gone k hk)
  refine ⟨?_, ?_, ?_, ?_, ?_⟩
  · refine List.nodup_append.2 ⟨h.nodup, h'.nodup, ?_⟩
    rintro k hk _ hk' rfl
    exact hdisjoint k hk hk'
  · intro k hk
    rcases List.mem_append.1 hk with hfirst | hsecond
    · exact h.found k hfirst
    · have hfound := h'.found k hsecond
      rwa [h.kept k (fun hfirst => hdisjoint k hfirst hsecond)
        fun p hp heq => (hputs p hp).2 (heq ▸ hsecond)] at hfound
  · intro k hk
    rcases List.mem_append.1 hk with hfirst | hsecond
    · rw [h'.kept k (hdisjoint k hfirst) fun p hp heq => (hputs' p hp).1 (heq ▸ hfirst)]
      exact h.gone k hfirst
    · exact h'.gone k hsecond
  · intro p hp
    by_cases hagain : ∃ p' ∈ puts', p'.1 = p.1
    · obtain ⟨p', hp', heq⟩ := hagain
      obtain ⟨v, hv, hafter⟩ := h'.put p' hp'
      rw [heq] at hv hafter
      exact ⟨v, List.mem_append_right _ hv, hafter⟩
    · have hfirst : p ∈ puts := (List.mem_append.1 hp).resolve_right fun h => hagain ⟨p, h, rfl⟩
      obtain ⟨v, hv, hafter⟩ := h.put p hfirst
      refine ⟨v, List.mem_append_left _ hv, ?_⟩
      rw [h'.kept p.1 (hputs p hfirst).2 fun p' hp' heq => hagain ⟨p', hp', heq⟩, hafter]
  · intro k hk hkeys
    rw [List.mem_append, not_or] at hk
    rw [h'.kept k hk.2 fun p hp => hkeys p (List.mem_append_right _ hp),
      h.kept k hk.1 fun p hp => hkeys p (List.mem_append_left _ hp)]

end Moved

variable [DecidableEq K] [DecidableEq I]

section steps
variable {takes : List (I × K)} {puts : List (K × V)} {k : K}
variable {p q : Store K V × Store I V} {steps : List (Step K I V)}

/-- The keys that a list of steps takes away. -/
def takenOf (steps : List (Step K I V)) : List K :=
  steps.flatMap fun step => step.takes.map Prod.snd

def putsOf (steps : List (Step K I V)) : List (K × V) := steps.flatMap Step.puts

lemma takeAll_nodup (h : takeAll takes p = some q) : (takes.map Prod.snd).Nodup := by
  induction takes generalizing p with
  | nil => exact List.nodup_nil
  | cons t takes ih =>
    obtain ⟨i, k⟩ := t
    obtain ⟨store, log⟩ := p
    cases hv : store k with
    | none => simp [takeAll, hv] at h
    | some v =>
      simp only [takeAll, hv] at h
      refine List.nodup_cons.2 ⟨?_, ih h⟩
      intro hmem
      obtain ⟨⟨j, k'⟩, hj, rfl⟩ := List.mem_map.1 hmem
      obtain ⟨-, w, hw⟩ := (takeAll_spec h).2.1 j k' hj
      simp at hw

lemma putAll_mem (hmem : ∃ p ∈ puts, p.1 = k) (store : Store K V) :
    ∃ v, (k, v) ∈ puts ∧ putAll puts store k = some v := by
  induction puts generalizing store with
  | nil => simp at hmem
  | cons p puts ih =>
    by_cases hrest : ∃ p ∈ puts, p.1 = k
    · obtain ⟨v, hv, hput⟩ := ih hrest (Function.update store p.1 (some p.2))
      exact ⟨v, List.mem_cons_of_mem _ hv, hput⟩
    · have hlast := putAll_of_notMem (fun q hq heq => hrest ⟨q, hq, heq⟩)
        (Function.update store p.1 (some p.2))
      obtain ⟨q, hq, rfl⟩ := hmem
      rcases List.mem_cons.1 hq with rfl | hq
      · refine ⟨q.2, List.mem_cons_self .., ?_⟩
        simp only [putAll, List.foldl_cons] at hlast ⊢
        rw [hlast, Function.update_self]
      · exact absurd ⟨q, hq, rfl⟩ hrest

lemma moved_takeAll (h : takeAll takes p = some q) : Moved (takes.map Prod.snd) [] p.1 q.1 := by
  obtain ⟨store, log⟩ := p
  obtain ⟨store', log'⟩ := q
  obtain ⟨hother, htaken, -, -⟩ := takeAll_spec h
  refine ⟨takeAll_nodup h, ?_, ?_, fun _ hp => (List.not_mem_nil hp).elim, ?_⟩
  · intro k hk
    obtain ⟨⟨i, k⟩, hi, rfl⟩ := List.mem_map.1 hk
    obtain ⟨-, v, hv⟩ := htaken i k hi
    simp [hv]
  · intro k hk
    obtain ⟨⟨i, k⟩, hi, rfl⟩ := List.mem_map.1 hk
    exact (htaken i k hi).1
  · intro k hk _
    exact hother k fun i hi => hk (List.mem_map.2 ⟨(i, k), hi, rfl⟩)

lemma moved_putAll (puts : List (K × V)) (store : Store K V) :
    Moved [] puts store (putAll puts store) where
  nodup := List.nodup_nil
  found _ h := by cases h
  gone _ h := by cases h
  put p hp := putAll_mem ⟨p, hp, rfl⟩ store
  kept _ _ h := putAll_of_notMem h store

/-- Steps move what they take and put, where none puts a value at a key that one of them takes. -/
lemma moved_applyAll (h : applyAll steps p = some q)
    (hapart : ∀ p ∈ putsOf steps, p.1 ∉ takenOf steps) :
    Moved (takenOf steps) (putsOf steps) p.1 q.1 := by
  induction steps generalizing p with
  | nil =>
    cases h
    exact Moved.nil _
  | cons step steps ih =>
    obtain ⟨store, log, htake, hrest⟩ := applyAll_cons h
    simp only [takenOf, putsOf, List.flatMap_cons, List.mem_append, not_or] at hapart
    have hmoved := ih hrest fun p hp => (hapart p (.inr hp)).2
    have hstep := (moved_takeAll htake).trans (moved_putAll step.puts store) (by
      intro p hp
      simpa using (hapart p (.inl hp)).1)
    rw [List.append_nil, List.nil_append] at hstep
    exact hstep.trans hmoved fun p hp => by
      simpa [takenOf, putsOf] using hapart p (List.mem_append.1 hp)

end steps

section history
variable {base store : Store K V} {history past : List (Update N K I V)} {u : Update N K I V}

namespace Update

def taken (u : Update N K I V) : List K := takenOf u.steps

def puts (u : Update N K I V) : List (K × V) := putsOf u.steps

end Update

omit [DecidableEq K] [DecidableEq I] in
/-- An update puts values at its own keys only. -/
lemma mem_outs_of_puts {p : K × V} (hp : p ∈ u.puts) : p.1 ∈ u.outs := by
  obtain ⟨step, hstep, hmem⟩ := List.mem_flatMap.1 hp
  exact List.mem_flatMap.2 ⟨step, hstep, step.puts_mem p hmem⟩

/-- The keys that a history takes away, each as often as it is taken. -/
def takenBy (history : List (Update N K I V)) : List K := history.flatMap Update.taken

/-- The updates take only what is there before them. -/
def Founded (base : Store K V) : List (Update N K I V) → Prop
  | [] => True
  | u :: past => Founded base past ∧
      ∀ before, replay base past = some before → ∀ k ∈ u.taken, before k ≠ none

/-- The base has the key, or an update puts a value at it. -/
def Entered (base : Store K V) (history : List (Update N K I V)) (k : K) : Prop :=
  base k ≠ none ∨ ∃ u ∈ history, ∃ p ∈ u.puts, p.1 = k

/-- The map holds what was entered and has not been taken, and nothing is taken twice. -/
structure Accounts (base : Store K V) (history : List (Update N K I V)) (store : Store K V) :
    Prop where
  nodup : (takenBy history).Nodup
  found : ∀ k ∈ takenBy history, Entered base history k
  holds : ∀ k, store k ≠ none ↔ k ∉ takenBy history ∧ Entered base history k
  origin : ∀ k v, store k = some v → base k = some v ∨ ∃ u ∈ history, (k, v) ∈ u.puts

omit [DecidableEq K] [DecidableEq I] in
lemma entered_cons {k : K} :
    Entered base (u :: past) k ↔ Entered base past k ∨ ∃ p ∈ u.puts, p.1 = k := by
  simp only [Entered, List.mem_cons, exists_eq_or_imp]
  rw [← or_assoc, or_right_comm]

lemma Founded.moved {before after : Store K V} {log : Store I V}
    (hfresh : ∀ k ∈ u.outs, before k = none) (hfound : ∀ k ∈ u.taken, before k ≠ none)
    (hrun : u.run before = some (after, log)) : Moved u.taken u.puts before after :=
  moved_applyAll hrun fun p hp hmem => hfound p.1 hmem (hfresh p.1 (mem_outs_of_puts hp))

theorem Separate.accounts (hseparate : Separate base history) (hfounded : Founded base history)
    (h : replay base history = some store) : Accounts base history store := by
  induction history generalizing store with
  | nil =>
    cases h
    exact ⟨List.nodup_nil, by simp [takenBy], by simp [takenBy, Entered], fun k v hv => .inl hv⟩
  | cons u past ih =>
    obtain ⟨before, hbefore, hafter⟩ := Option.bind_eq_some_iff.1 h
    obtain ⟨⟨after, log⟩, hrun, hstore⟩ := Option.map_eq_some_iff.1 hafter
    obtain rfl : after = store := hstore
    have hpast := ih hseparate.below hfounded.1 hbefore
    have hfound : ∀ k ∈ u.taken, k ∉ takenBy past ∧ Entered base past k := fun k hk =>
      (hpast.holds k).1 (hfounded.2 before hbefore k hk)
    -- what the update puts was neither there nor taken before
    have hfresh : ∀ k ∈ u.outs, ¬ Entered base past k := by
      rintro k hk (hbase | ⟨v, hv, p, hp, rfl⟩)
      · exact hbase (hseparate.base u (List.mem_cons_self ..) k hk)
      · exact (List.pairwise_cons.1 hseparate.apart).1 v hv _ hk (mem_outs_of_puts hp)
    have hmoved : Moved u.taken u.puts before after := by
      refine Founded.moved (fun k hk => ?_) (hfounded.2 before hbefore) hrun
      by_contra hsome
      exact hfresh k hk ((hpast.holds k).1 hsome).2
    have htaken : takenBy (u :: past) = u.taken ++ takenBy past := rfl
    refine ⟨?_, ?_, ?_, ?_⟩
    · rw [htaken, List.nodup_append]
      refine ⟨hmoved.nodup, hpast.nodup, ?_⟩
      rintro k hk _ hk' rfl
      exact (hfound k hk).1 hk'
    · intro k hk
      rw [htaken, List.mem_append] at hk
      rcases hk with hk | hk
      · exact entered_cons.2 (.inl (hfound k hk).2)
      · exact entered_cons.2 (.inl (hpast.found k hk))
    · intro k
      rw [htaken, List.mem_append, not_or, entered_cons]
      by_cases hk : k ∈ u.taken
      · simp [hk, hmoved.gone k hk]
      · by_cases hput : ∃ p ∈ u.puts, p.1 = k
        · have hnever : k ∉ takenBy past := by
            intro hmem
            obtain ⟨p, hp, rfl⟩ := hput
            exact hfresh _ (mem_outs_of_puts hp) (hpast.found _ hmem)
          obtain ⟨p, hp, rfl⟩ := hput
          obtain ⟨v, -, hafter⟩ := hmoved.put p hp
          simp only [hafter, ne_eq, reduceCtorEq, not_false_eq_true, hk, hnever, and_self, true_and,
            true_iff]
          exact .inr ⟨p, hp, rfl⟩
        · rw [hmoved.kept k hk fun p hp heq => hput ⟨p, hp, heq⟩, hpast.holds k]
          simp [hk, hput]
    · intro k v hv
      by_cases hput : ∃ p ∈ u.puts, p.1 = k
      · obtain ⟨p, hp, rfl⟩ := hput
        obtain ⟨w, hw, hafter⟩ := hmoved.put p hp
        rw [hafter] at hv
        cases hv
        exact .inr ⟨u, List.mem_cons_self .., hw⟩
      · have hk : k ∉ u.taken := by
          intro hmem
          rw [hmoved.gone k hmem] at hv
          cases hv
        rw [hmoved.kept k hk fun p hp heq => hput ⟨p, hp, heq⟩] at hv
        exact (hpast.origin k v hv).imp_right fun ⟨w, hw, hmem⟩ => ⟨w, List.mem_cons_of_mem _ hw, hmem⟩

end history
end UndoLog
