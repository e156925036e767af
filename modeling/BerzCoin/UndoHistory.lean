import BerzCoin.UndoLog

/-! Histories of updates of a map. An update is a sequence of steps that keeps its log under its
name; the latest update of a history can be undone from its log. -/
namespace UndoLog
variable {N K I V : Type} [DecidableEq K] [DecidableEq I]

structure Update (N K I V : Type) where
  name : N
  steps : List (Step K I V)

namespace Update

def outs (u : Update N K I V) : List K := u.steps.flatMap Step.outs

/-- The map after the update, and the log. -/
def run (u : Update N K I V) (store : Store K V) : Option (Store K V × Store I V) :=
  applyAll u.steps (store, fun _ => none)

end Update

/-- The map after the updates of a history, the latest of which comes first. -/
def replay (base : Store K V) : List (Update N K I V) → Option (Store K V)
  | [] => some base
  | u :: past => (replay base past).bind fun store => (u.run store).map Prod.fst

/-- Every update of the history has left its log. -/
def Logged (base : Store K V) (logs : N → Store I V) : List (Update N K I V) → Prop
  | [] => True
  | u :: past => Logged base logs past ∧
      ∀ before, replay base past = some before → (u.run before).map Prod.snd = some (logs u.name)

/-- No update puts a value at a key that is in use before it. -/
def Fresh (base : Store K V) : List (Update N K I V) → Prop
  | [] => True
  | u :: past => Fresh base past ∧
      ∀ before, replay base past = some before → ∀ k ∈ u.outs, before k = none

/-- The map is what the history makes of the base, and the logs are those of its updates. -/
structure Follows (base : Store K V) (history : List (Update N K I V)) (store : Store K V)
    (logs : N → Store I V) : Prop where
  store : replay base history = some store
  logs : Logged base logs history

variable {base store store' : Store K V} {logs logs' : N → Store I V}
variable {u : Update N K I V} {past history : List (Update N K I V)}

lemma Logged.congr (h : Logged base logs history)
    (hlogs : ∀ v ∈ history, logs' v.name = logs v.name) : Logged base logs' history := by
  induction history with
  | nil => trivial
  | cons u past ih =>
    obtain ⟨hpast, hlast⟩ := h
    refine ⟨ih hpast fun v hv => hlogs v (List.mem_cons_of_mem _ hv), fun before hbefore => ?_⟩
    rw [hlogs u (List.mem_cons_self ..)]
    exact hlast before hbefore

lemma Follows.congr (h : Follows base history store logs)
    (hlogs : ∀ v ∈ history, logs' v.name = logs v.name) : Follows base history store logs' :=
  ⟨h.store, h.logs.congr hlogs⟩

lemma Follows.nil : Follows base [] base logs := ⟨rfl, trivial⟩

/-- An update of the map that keeps its log and leaves the others prolongs the history. -/
lemma Follows.push (h : Follows base past store logs)
    (hrun : u.run store = some (store', logs' u.name))
    (hlogs : ∀ v ∈ past, logs' v.name = logs v.name) : Follows base (u :: past) store' logs' := by
  refine ⟨by simp [replay, h.store, hrun], h.logs.congr hlogs, fun before hbefore => ?_⟩
  obtain rfl : store = before := Option.some.inj (h.store.symm.trans hbefore)
  simp [hrun]

/-- Undoing the latest update from its log shortens the history. -/
lemma Follows.pop (h : Follows base (u :: past) store logs) (hfresh : Fresh base (u :: past))
    (hcons : Consistent u.steps) :
    ∃ before, undoAll (logs u.name) u.steps store = some before ∧
      Follows base past before logs := by
  obtain ⟨hstore, hpast, hlast⟩ := h
  obtain ⟨before, hbefore, hafter⟩ := Option.bind_eq_some_iff.1 hstore
  obtain ⟨⟨after, log⟩, hrun, rfl⟩ := Option.map_eq_some_iff.1 hafter
  have hlog : log = logs u.name := by
    have hsnd := hlast before hbefore
    rw [hrun] at hsnd
    exact Option.some.inj hsnd
  refine ⟨before, ?_, hbefore, hpast⟩
  rw [← hlog]
  refine undoAll_applyAll hcons (fun step hstep k hk => ?_) hrun
  exact hfresh.2 before hbefore k (List.mem_flatMap.2 ⟨step, hstep, hk⟩)

/-! Where the keys of a map come from. -/

lemma takeAll_key {takes : List (I × K)} {p q : Store K V × Store I V}
    (h : takeAll takes p = some q) {k : K} (hk : q.1 k ≠ none) : p.1 k ≠ none := by
  obtain ⟨store, log⟩ := p
  obtain ⟨store', log'⟩ := q
  obtain ⟨hother, htaken, -, -⟩ := takeAll_spec h
  by_cases hmem : ∃ i, (i, k) ∈ takes
  · obtain ⟨i, hi⟩ := hmem
    exact absurd (htaken i k hi).1 hk
  · have hkeep := hother k fun i hi => hmem ⟨i, hi⟩
    simp only at hk ⊢
    rwa [← hkeep]

lemma applyAll_key {steps : List (Step K I V)} {p q : Store K V × Store I V}
    (h : applyAll steps p = some q) {k : K} (hk : q.1 k ≠ none) :
    p.1 k ≠ none ∨ ∃ step ∈ steps, k ∈ step.outs := by
  induction steps generalizing p with
  | nil =>
    cases h
    exact .inl hk
  | cons step steps ih =>
    obtain ⟨store, log, ht, hrest⟩ := applyAll_cons h
    rcases ih hrest with hput | ⟨s, hs, hks⟩
    · by_cases hout : k ∈ step.outs
      · exact .inr ⟨step, List.mem_cons_self .., hout⟩
      · have hkeep : putAll step.puts store k = store k := by
          refine putAll_of_notMem ?_ store
          rintro p hp rfl
          exact hout (step.puts_mem p hp)
        simp only [hkeep] at hput
        exact .inl (takeAll_key ht hput)
    · exact .inr ⟨s, List.mem_cons_of_mem _ hs, hks⟩

/-- A key of the map is one of the base or was put there by an update. -/
lemma replay_key (h : replay base history = some store) {k : K} (hk : store k ≠ none) :
    base k ≠ none ∨ ∃ u ∈ history, k ∈ u.outs := by
  induction history generalizing store with
  | nil =>
    cases h
    exact .inl hk
  | cons u past ih =>
    obtain ⟨before, hbefore, hafter⟩ := Option.bind_eq_some_iff.1 h
    obtain ⟨⟨after, log⟩, hrun, rfl⟩ := Option.map_eq_some_iff.1 hafter
    rcases applyAll_key hrun hk with hold | ⟨step, hstep, hout⟩
    · rcases ih hbefore hold with hbase | ⟨v, hv, hkv⟩
      · exact .inl hbase
      · exact .inr ⟨v, List.mem_cons_of_mem _ hv, hkv⟩
    · exact .inr ⟨u, List.mem_cons_self .., List.mem_flatMap.2 ⟨step, hstep, hout⟩⟩

/-- No key that an update may put a value at is one of the base or of another update. -/
structure Separate (base : Store K V) (history : List (Update N K I V)) : Prop where
  base : ∀ u ∈ history, ∀ k ∈ u.outs, base k = none
  apart : history.Pairwise fun u v => ∀ k ∈ u.outs, k ∉ v.outs

omit [DecidableEq K] [DecidableEq I] in
lemma Separate.below (h : Separate base (u :: past)) : Separate base past :=
  ⟨fun v hv => h.base v (List.mem_cons_of_mem _ hv), (List.pairwise_cons.1 h.apart).2⟩

/-- Updates that put values at keys of their own only are fresh. -/
lemma Separate.fresh (h : Separate base history) : Fresh base history := by
  induction history with
  | nil => trivial
  | cons u past ih =>
    refine ⟨ih h.below, ?_⟩
    intro before hbefore k hk
    by_contra hsome
    rcases replay_key hbefore hsome with hold | ⟨v, hv, hkv⟩
    · exact hold (h.base u (List.mem_cons_self ..) k hk)
    · exact (List.pairwise_cons.1 h.apart).1 v hv k hk hkv

/-! Histories whose updates take the same keys and put values that agree in a part of them. -/
section agree
variable {W : Type} (f : V → W)

def AgreeAt (store store' : Store K V) : Prop := ∀ k, (store k).map f = (store' k).map f

def Step.Agree (s s' : Step K I V) : Prop :=
  s.takes = s'.takes ∧ s.puts.map (Prod.map id f) = s'.puts.map (Prod.map id f)

def Update.Agree (u u' : Update N K I V) : Prop := List.Forall₂ (Step.Agree f) u.steps u'.steps

variable {f}

lemma AgreeAt.update (h : AgreeAt f store store') (k : K) {v v' : Option V}
    (hv : v.map f = v'.map f) :
    AgreeAt f (Function.update store k v) (Function.update store' k v') := by
  intro k'
  by_cases hk : k' = k
  · subst hk
    simpa using hv
  · simpa [hk] using h k'

lemma putAll_agree {puts puts' : List (K × V)} (h : AgreeAt f store store')
    (hputs : puts.map (Prod.map id f) = puts'.map (Prod.map id f)) :
    AgreeAt f (putAll puts store) (putAll puts' store') := by
  induction puts generalizing puts' store store' with
  | nil =>
    obtain rfl : puts' = [] := List.map_eq_nil_iff.1 hputs.symm
    exact h
  | cons p puts ih =>
    cases puts' with
    | nil => cases hputs
    | cons p' puts' =>
      simp only [List.map_cons, List.cons.injEq, Prod.map, id, Prod.mk.injEq] at hputs
      obtain ⟨⟨hkey, hvalue⟩, hrest⟩ := hputs
      have hsome : (some p.2).map f = (some p'.2).map f := by simpa using hvalue
      have hnext := h.update p.1 hsome
      have hend := ih hnext hrest
      rw [hkey] at hend
      simp only [putAll, List.foldl_cons] at hend ⊢
      rw [hkey]
      exact hend

lemma takeAll_agree {takes : List (I × K)} {p p' q : Store K V × Store I V}
    (hstore : AgreeAt f p.1 p'.1) (h : takeAll takes p = some q) :
    ∃ q', takeAll takes p' = some q' ∧ AgreeAt f q.1 q'.1 := by
  induction takes generalizing p p' with
  | nil =>
    cases h
    exact ⟨p', rfl, hstore⟩
  | cons t takes ih =>
    obtain ⟨i, k⟩ := t
    obtain ⟨store, log⟩ := p
    obtain ⟨store', log'⟩ := p'
    have hk := hstore k
    simp only at hk
    cases hv : store k with
    | none => simp [takeAll, hv] at h
    | some v =>
      simp only [takeAll, hv] at h
      rw [hv, Option.map_some] at hk
      obtain ⟨v', hv', -⟩ := Option.map_eq_some_iff.1 hk.symm
      simp only [takeAll, hv']
      exact ih (hstore.update k rfl) h

lemma applyAll_agree {steps steps' : List (Step K I V)} {p p' q : Store K V × Store I V}
    (hsteps : List.Forall₂ (Step.Agree f) steps steps') (hstore : AgreeAt f p.1 p'.1)
    (h : applyAll steps p = some q) : ∃ q', applyAll steps' p' = some q' ∧ AgreeAt f q.1 q'.1 := by
  induction hsteps generalizing p p' with
  | nil =>
    cases h
    exact ⟨p', rfl, hstore⟩
  | @cons s s' steps steps' hstep _ ih =>
    obtain ⟨store, log, htake, hrest⟩ := applyAll_cons h
    obtain ⟨q', htake', hagree⟩ := takeAll_agree hstore htake
    have hputs : AgreeAt f (putAll s.puts store) (putAll s'.puts q'.1) :=
      putAll_agree hagree hstep.2
    obtain ⟨q'', hrest', hend⟩ := @ih _ (putAll s'.puts q'.1, q'.2) hputs hrest
    refine ⟨q'', ?_, hend⟩
    rw [hstep.1] at htake'
    simp only [applyAll, Step.apply, htake', Option.map_some, Option.bind_some]
    exact hrest'

/-- The maps after two such histories agree in that part. -/
lemma replay_agree {base' : Store K V} {history' : List (Update N K I V)}
    (hbase : AgreeAt f base base') (hupdates : List.Forall₂ (Update.Agree f) history history')
    (h : replay base history = some store) :
    ∃ store', replay base' history' = some store' ∧ AgreeAt f store store' := by
  induction hupdates generalizing store with
  | nil =>
    cases h
    exact ⟨base', rfl, hbase⟩
  | @cons u u' past past' hu _ ih =>
    obtain ⟨before, hbefore, hafter⟩ := Option.bind_eq_some_iff.1 h
    obtain ⟨⟨after, log⟩, hrun, rfl⟩ := Option.map_eq_some_iff.1 hafter
    obtain ⟨before', hbefore', hagree⟩ := ih hbefore
    have hstart : AgreeAt f (before, (fun _ => none : Store I V)).1 (before', (fun _ => none : Store I V)).1 :=
      hagree
    obtain ⟨⟨after', log'⟩, hrun', hend⟩ := applyAll_agree hu hstart hrun
    refine ⟨after', ?_, hend⟩
    rw [replay, hbefore', Option.bind_some, Update.run, hrun', Option.map_some]

end agree

end UndoLog
