import Mathlib

/-! Two searches of a graph that is given by the successors of a node. The first one looks for a
hit in depth, and all its calls share the nodes seen so far; the second one collects in breadth
whatever can be reached. -/
namespace GraphSearch
variable {α : Type} [DecidableEq α]

/-! A search in depth. -/

section search
variable (present hit : α → Bool) (next : α → List α)

/-- Whether there is a hit, with the nodes seen. Every level enters a new node, so `fuel` is more
than the number of nodes. -/
def search : ℕ → List α → α → Bool × List α
  | 0, seen, _ => (false, seen)
  | fuel + 1, seen, a =>
    if present a then
      if hit a then (true, seen)
      else if a ∈ seen then (false, seen)
      else (next a).foldl (fun r b => if r.1 then r else search fuel r.2 b) (false, seen ++ [a])
    else (false, seen)

/-- The loop over the successors of a node. -/
def searchEach (fuel : ℕ) (r : Bool × List α) (nodes : List α) : Bool × List α :=
  nodes.foldl (fun r b => if r.1 then r else search present hit next fuel r.2 b) r

/-- One step of a path, from a node that is there. -/
def Step (a b : α) : Prop := present a = true ∧ b ∈ next a

/-- A node that was left without success: neither it nor a successor is a hit, and the successors
were seen. -/
structure Exhausted (seen : List α) (a : α) : Prop where
  entered : present a = true
  miss : hit a = false
  successors : ∀ b ∈ next a, present b = true → hit b = false ∧ b ∈ seen

end search

variable {present hit : α → Bool} {next : α → List α} {fuel : ℕ} {seen seen' : List α} {a : α}

omit [DecidableEq α] in
lemma Exhausted.mono (h : Exhausted present hit next seen a) (hsub : seen ⊆ seen') :
    Exhausted present hit next seen' a :=
  ⟨h.entered, h.miss, fun b hb hpresent => ⟨(h.successors b hb hpresent).1,
    hsub (h.successors b hb hpresent).2⟩⟩

lemma searchEach_true (fuel : ℕ) (seen : List α) (nodes : List α) :
    searchEach present hit next fuel (true, seen) nodes = (true, seen) := by
  induction nodes with
  | nil => rfl
  | cons b nodes ih => exact ih

lemma search_succ (fuel : ℕ) (seen : List α) (a : α) :
    search present hit next (fuel + 1) seen a =
      if present a then
        if hit a then (true, seen)
        else if a ∈ seen then (false, seen)
        else searchEach present hit next fuel (false, seen ++ [a]) (next a)
      else (false, seen) := rfl

/-! What is found is there. -/

lemma searchEach_sound {P : α → Prop}
    (hsearch : ∀ seen b, (search present hit next fuel seen b).1 = true → P b) (nodes : List α) :
    ∀ seen, (searchEach present hit next fuel (false, seen) nodes).1 = true → ∃ b ∈ nodes, P b := by
  induction nodes with
  | nil =>
    intro seen h
    cases h
  | cons b nodes ih =>
    intro seen h
    have hcons : searchEach present hit next fuel (false, seen) (b :: nodes) =
        searchEach present hit next fuel (search present hit next fuel seen b) nodes := rfl
    rw [hcons] at h
    rcases hb : search present hit next fuel seen b with ⟨found, seen₁⟩
    cases found with
    | true => exact ⟨b, List.mem_cons_self, hsearch seen b (by rw [hb])⟩
    | false =>
      rw [hb] at h
      obtain ⟨x, hx, hP⟩ := ih seen₁ h
      exact ⟨x, List.mem_cons_of_mem _ hx, hP⟩

lemma search_sound (h : (search present hit next fuel seen a).1 = true) :
    ∃ b, Relation.ReflTransGen (Step present next) a b ∧ present b = true ∧ hit b = true := by
  induction fuel generalizing seen a with
  | zero => cases h
  | succ fuel ih =>
    rw [search_succ] at h
    split_ifs at h with hpresent hhit hseen
    · exact ⟨a, .refl, hpresent, hhit⟩
    · obtain ⟨x, hx, b, hpath, hb⟩ := searchEach_sound (fun _ _ => ih) (next a) _ h
      exact ⟨b, .head ⟨hpresent, hx⟩ hpath, hb⟩

/-! Without success everything in reach was seen. -/

/-- The nodes not seen yet. -/
def unseen (nodes seen : List α) : ℕ := (nodes.filter (· ∉ seen)).length

lemma unseen_le (nodes : List α) (hsub : seen ⊆ seen') : unseen nodes seen' ≤ unseen nodes seen := by
  refine List.Sublist.length_le (List.monotone_filter_right nodes ?_)
  intro b hb
  simp only [decide_eq_true_eq] at hb ⊢
  exact fun hmem => hb (hsub hmem)

lemma unseen_lt {nodes : List α} (hmem : a ∈ nodes) (hnew : a ∉ seen) :
    unseen nodes (seen ++ [a]) < unseen nodes seen := by
  have hsplit : nodes.filter (· ∉ seen ++ [a]) = (nodes.filter (· ∉ seen)).filter (· ≠ a) := by
    rw [List.filter_filter]
    refine List.filter_congr fun b _ => ?_
    simp only [List.mem_append, List.mem_singleton, not_or, ne_eq, Bool.decide_and, decide_not]
    exact Bool.and_comm _ _
  unfold unseen
  rw [hsplit, List.length_filter_lt_length_iff_exists]
  exact ⟨a, List.mem_filter.2 ⟨hmem, by simpa using hnew⟩, by simp⟩

/-- The outcome of a search without success, from a node or from each of some nodes. -/
structure Misses (present hit : α → Bool) (next : α → List α) (seen seen' : List α)
    (nodes : List α) : Prop where
  subset : seen ⊆ seen'
  exhausted : ∀ b ∈ seen', b ∉ seen → Exhausted present hit next seen' b
  targets : ∀ b ∈ nodes, present b = true → hit b = false ∧ b ∈ seen'

lemma searchEach_misses {nodes : List α}
    (hsearch : ∀ seen seen' b, unseen nodes seen < fuel →
      search present hit next fuel seen b = (false, seen') →
        Misses present hit next seen seen' [b]) (targets : List α) :
    ∀ seen seen', unseen nodes seen < fuel →
      searchEach present hit next fuel (false, seen) targets = (false, seen') →
        Misses present hit next seen seen' targets := by
  induction targets with
  | nil =>
    intro seen seen' _ h
    cases h
    exact ⟨List.Subset.refl _, fun b hb hnot => absurd hb hnot, by simp⟩
  | cons b targets ih =>
    intro seen seen' hfuel h
    have hcons : searchEach present hit next fuel (false, seen) (b :: targets) =
        searchEach present hit next fuel (search present hit next fuel seen b) targets := rfl
    rw [hcons] at h
    rcases hb : search present hit next fuel seen b with ⟨found, seen₁⟩
    rw [hb] at h
    cases found with
    | true =>
      rw [searchEach_true] at h
      cases h
    | false =>
      have hfirst := hsearch seen seen₁ b hfuel hb
      have hrest := ih seen₁ seen' ((unseen_le nodes hfirst.subset).trans_lt hfuel) h
      refine ⟨List.Subset.trans hfirst.subset hrest.subset, ?_, ?_⟩
      · intro x hx hnew
        by_cases hmid : x ∈ seen₁
        · exact (hfirst.exhausted x hmid hnew).mono hrest.subset
        · exact hrest.exhausted x hx hmid
      · intro x hx hpresent
        rcases List.mem_cons.1 hx with rfl | hx
        · obtain ⟨hmiss, hmem⟩ := hfirst.targets x (List.mem_singleton_self x) hpresent
          exact ⟨hmiss, hrest.subset hmem⟩
        · exact hrest.targets x hx hpresent

lemma search_misses {nodes : List α} (hnodes : ∀ b, present b = true → b ∈ nodes)
    (hfuel : unseen nodes seen < fuel) (h : search present hit next fuel seen a = (false, seen')) :
    Misses present hit next seen seen' [a] := by
  induction fuel generalizing seen seen' a with
  | zero => exact absurd hfuel (Nat.not_lt_zero _)
  | succ fuel ih =>
    rw [search_succ] at h
    have hsame (hgone : present a = true → hit a = false ∧ a ∈ seen) :
        Misses present hit next seen seen [a] :=
      ⟨List.Subset.refl _, fun b hb hnot => absurd hb hnot,
        fun b hb hpresent => List.mem_singleton.1 hb ▸ hgone (List.mem_singleton.1 hb ▸ hpresent)⟩
    split_ifs at h with hpresent hhit hseen
    · cases h
    · cases h
      exact hsame fun _ => ⟨by simpa using hhit, hseen⟩
    · have hless := unseen_lt (hnodes a hpresent) hseen
      have hloop := searchEach_misses (fun _ _ _ => ih) (next a) (seen ++ [a]) seen' (by omega) h
      have hself : a ∈ seen' := hloop.subset (by simp)
      have hmiss : hit a = false := by simpa using hhit
      refine ⟨fun b hb => hloop.subset (List.mem_append_left _ hb), ?_, ?_⟩
      · intro b hb hnew
        by_cases heq : b = a
        · exact heq ▸ ⟨hpresent, hmiss, hloop.targets⟩
        · exact hloop.exhausted b hb (by simp [hnew, heq])
      · intro b hb _
        rw [List.mem_singleton.1 hb]
        exact ⟨hmiss, hself⟩
    · cases h
      exact hsame fun habsent => absurd habsent hpresent

/-- A search succeeds exactly where a path leads to a hit. -/
theorem search_iff {nodes : List α} (hnodes : ∀ b, present b = true → b ∈ nodes)
    (hfuel : nodes.length < fuel) (a : α) :
    (search present hit next fuel [] a).1 = true ↔
      ∃ b, Relation.ReflTransGen (Step present next) a b ∧ present b = true ∧ hit b = true := by
  refine ⟨search_sound, ?_⟩
  rintro ⟨b, hpath, hpresent, hhit⟩
  rcases hsearch : search present hit next fuel [] a with ⟨found, seen'⟩
  cases found with
  | true => rfl
  | false =>
    have hless : unseen nodes [] < fuel := (List.length_filter_le _ _).trans_lt hfuel
    have hmisses := search_misses hnodes hless hsearch
    -- The nodes in reach are among the seen ones, and none of those is a hit.
    have hreach : ∀ x, Relation.ReflTransGen (Step present next) a x → present x = true →
        hit x = false ∧ x ∈ seen' := by
      intro x hx
      induction hx with
      | refl => exact hmisses.targets a (List.mem_singleton_self a)
      | tail _ hstep ih =>
        obtain ⟨-, hmem⟩ := ih hstep.1
        exact (hmisses.exhausted _ hmem (List.not_mem_nil)).successors _ hstep.2
    rw [(hreach b hpath hpresent).1] at hhit
    cases hhit

/-! A search in breadth. -/

/-- The nodes found from a queue: a node enters the queue when it is found. -/
def collect (next : α → List α) : ℕ → List α → List α → List α
  | 0, _, found => found
  | _, [], found => found
  | fuel + 1, a :: queue, found =>
    collect next fuel (queue ++ (next a).filter (· ∉ found)) (found ++ (next a).filter (· ∉ found))

/-- Nodes with all their successors. -/
def Closed (next : α → List α) (found : List α) : Prop := ∀ a ∈ found, next a ⊆ found

lemma subset_collect (next : α → List α) (fuel : ℕ) : ∀ queue found : List α,
    found ⊆ collect next fuel queue found := by
  induction fuel with
  | zero => exact fun _ _ => List.Subset.refl _
  | succ fuel ih =>
    intro queue found
    cases queue with
    | nil => exact List.Subset.refl _
    | cons a queue => exact fun b hb => ih _ _ (List.mem_append_left _ hb)

lemma nodup_collect (hnext : ∀ a, (next a).Nodup) (fuel : ℕ) : ∀ queue found : List α, found.Nodup →
    (collect next fuel queue found).Nodup := by
  induction fuel with
  | zero => exact fun _ _ h => h
  | succ fuel ih =>
    intro queue found h
    cases queue with
    | nil => exact h
    | cons a queue =>
      refine ih _ _ (List.Nodup.append h ((hnext a).filter _) ?_)
      intro b hb hnew
      have hnot := (List.mem_filter.1 hnew).2
      simp only [decide_eq_true_eq] at hnot
      exact hnot hb

lemma collect_sound {P : α → Prop} (hstep : ∀ a, P a → ∀ b ∈ next a, P b) (fuel : ℕ) :
    ∀ queue found : List α, (∀ a ∈ queue, ∀ b ∈ next a, P b) → (∀ a ∈ found, P a) →
      ∀ b ∈ collect next fuel queue found, P b := by
  induction fuel with
  | zero => exact fun _ _ _ hfound => hfound
  | succ fuel ih =>
    intro queue found hqueue hfound
    cases queue with
    | nil => exact hfound
    | cons a queue =>
      have hnew : ∀ b ∈ (next a).filter (· ∉ found), P b := fun b hb =>
        hqueue a List.mem_cons_self b (List.mem_of_mem_filter hb)
      refine ih _ _ ?_ ?_
      · intro b hb
        rcases List.mem_append.1 hb with hb | hb
        · exact hqueue b (List.mem_cons_of_mem _ hb)
        · exact hstep b (hnew b hb)
      · intro b hb
        rcases List.mem_append.1 hb with hb | hb
        · exact hfound b hb
        · exact hnew b hb

/-- New nodes leave as many fewer to find. -/
lemma unseen_append {nodes new : List α} (hnew : new.Nodup) (hsub : new ⊆ nodes)
    (hfresh : ∀ a ∈ new, a ∉ seen) :
    unseen nodes (seen ++ new) + new.length ≤ unseen nodes seen := by
  induction new generalizing seen with
  | nil => simp
  | cons a new ih =>
    obtain ⟨hnot, hnodup⟩ := List.nodup_cons.1 hnew
    have hfirst := unseen_lt (hsub List.mem_cons_self) (hfresh a List.mem_cons_self)
    have hrest := @ih (seen ++ [a]) hnodup (fun b hb => hsub (List.mem_cons_of_mem _ hb))
      (fun b hb hmem => by
        rcases List.mem_append.1 hmem with hmem | hmem
        · exact hfresh b (List.mem_cons_of_mem _ hb) hmem
        · exact hnot (List.mem_singleton.1 hmem ▸ hb))
    rw [List.append_assoc, List.singleton_append] at hrest
    rw [List.length_cons]
    omega

lemma collect_closed {nodes : List α} (hnext : ∀ a, (next a).Nodup) (hnodes : ∀ a, next a ⊆ nodes)
    (fuel : ℕ) : ∀ queue found : List α, queue.length + unseen nodes found ≤ fuel →
      (∀ a ∈ found, a ∈ queue ∨ next a ⊆ found) →
      (∀ a ∈ queue, next a ⊆ collect next fuel queue found) ∧
        Closed next (collect next fuel queue found) := by
  induction fuel with
  | zero =>
    intro queue found hfuel hdone
    obtain rfl : queue = [] := List.length_eq_zero_iff.1 (by omega)
    exact ⟨by simp, fun a ha => (hdone a ha).resolve_left List.not_mem_nil⟩
  | succ fuel ih =>
    intro queue found hfuel hdone
    cases queue with
    | nil => exact ⟨by simp, fun a ha => (hdone a ha).resolve_left List.not_mem_nil⟩
    | cons a queue =>
      have hcover : next a ⊆ found ++ (next a).filter (· ∉ found) := by
        intro b hb
        by_cases hmem : b ∈ found
        · exact List.mem_append_left _ hmem
        · exact List.mem_append_right _ (List.mem_filter.2 ⟨hb, by simpa using hmem⟩)
      have hless := @unseen_append _ _ found nodes _ ((hnext a).filter (· ∉ found))
        (fun b hb => hnodes a (List.mem_of_mem_filter hb))
        (fun b hb => by simpa using (List.mem_filter.1 hb).2)
      rw [List.length_cons] at hfuel
      obtain ⟨hqueue, hclosed⟩ := ih (queue ++ (next a).filter (· ∉ found))
        (found ++ (next a).filter (· ∉ found)) (by rw [List.length_append]; omega) (by
          intro b hb
          rcases List.mem_append.1 hb with hb | hb
          · rcases hdone b hb with hqueued | hsub
            · rcases List.mem_cons.1 hqueued with rfl | hqueued
              · exact .inr hcover
              · exact .inl (List.mem_append_left _ hqueued)
            · exact .inr fun x hx => List.mem_append_left _ (hsub hx)
          · exact .inl (List.mem_append_right _ hb))
      refine ⟨?_, hclosed⟩
      intro b hb
      rcases List.mem_cons.1 hb with rfl | hb
      · exact fun x hx => subset_collect next fuel _ _ (hcover hx)
      · exact hqueue b (List.mem_append_left _ hb)

/-- What is collected from a node is what paths from it lead to. -/
theorem mem_collect_iff {nodes : List α} (hnext : ∀ a, (next a).Nodup) (hnodes : ∀ a, next a ⊆ nodes)
    (hfuel : 1 + nodes.length ≤ fuel) (a b : α) :
    b ∈ collect next fuel [a] [] ↔ Relation.TransGen (fun x y => y ∈ next x) a b := by
  have hless : unseen nodes [] ≤ nodes.length := List.length_filter_le _ _
  obtain ⟨hfirst, hclosed⟩ := collect_closed hnext hnodes fuel [a] []
    (by rw [List.length_singleton]; omega) (by simp)
  constructor
  · refine collect_sound (fun x hx y hy => hx.tail hy) fuel [a] [] ?_ (by simp) b
    intro x hx y hy
    rw [List.mem_singleton.1 hx] at hy
    exact .single hy
  · intro hpath
    induction hpath with
    | single hstep => exact hfirst a (List.mem_singleton_self a) hstep
    | tail _ hstep ih => exact hclosed _ ih hstep

end GraphSearch
