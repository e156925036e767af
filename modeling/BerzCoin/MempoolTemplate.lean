import BerzCoin.MempoolAdmission
import BerzCoin.Topological

/-! The transactions for a block: packages of an entry and its ancestors are taken in the order of
their fee rates while they fit. -/
namespace BerzCoin

namespace Mempool
open Relation
variable {F : Type} [LinearOrder F]

section selection
variable (settings : MempoolSettings F) (chain : ChainView) (pool : Mempool F) (order : SetOrder)
  (lowest : F) (maxWeight : ℕ)

def parentsOf (txid : Bytes) : List Bytes := (pool.unconfirmedParents.get? txid).getD []

def topoSortTxids (txids : List Bytes) : List Bytes :=
  Topological.sort pool.parentsOf txids order.list fun left =>
    left.insertionSort fun a b => txidLe a b = true

/-- An entry and those of its ancestors that are in the pool and not selected. -/
def unselectedAncestors (txid : Bytes) (entry : MempoolEntry F) (selected : List Bytes) : List Bytes :=
  addNew (entry.ancestors.filter fun a => a ∉ selected ∧ pool.transactions.contains a).dedup [txid]

def getUnselectedAncestorPackage (txid : Bytes) (selected : List Bytes) : List Bytes :=
  match pool.transactions.get? txid with
  | none => []
  | some entry => pool.topoSortTxids order (pool.unselectedAncestors txid entry selected)

def weightOf (ids : List Bytes) : ℕ := ((pool.entriesOf ids).map MempoolEntry.weight).sum

def feeOf (ids : List Bytes) : ℤ := ((pool.entriesOf ids).map MempoolEntry.fee).sum

/-- The variables of the outer loop. -/
structure Selection where
  selected : List Transaction
  selectedTxids : List Bytes
  currentWeight : ℕ

structure Offer (F : Type) where
  ids : List Bytes
  weight : ℕ
  rate : F

def validForNextBlock (entry : MempoolEntry F) : Bool :=
  (isConsensusTxValidForHeight chain.params entry.tx chain.nextHeight).isOk

/-- The package of an entry, where the loop over `tx_by_fee` does not pass over it. -/
def offer (s : Selection) (txid : Bytes) : Option (Offer F) :=
  if txid ∈ s.selectedTxids || !pool.transactions.contains txid then none
  else
    let ids := pool.getUnselectedAncestorPackage order txid s.selectedTxids
    let weight := pool.weightOf ids
    if ids.isEmpty then none
    else if (pool.entriesOf ids).any fun entry => !validForNextBlock chain entry then none
    else if weight = 0 ∨ maxWeight < s.currentWeight + weight then none
    else some ⟨ids, weight, settings.rate (pool.feeOf ids) weight⟩

/-- The best package so far with its rate, and the next one. -/
def better (best : Option (Offer F) × F) (o : Offer F) : Option (Offer F) × F :=
  if best.2 < o.rate then (some o, o.rate) else best

def bestOffer (s : Selection) : Option (Offer F) :=
  ((pool.txByFee.filterMap (pool.offer settings chain order maxWeight s)).foldl better
    (none, lowest)).1

def Selection.add (s : Selection) (txid : Bytes) : Selection :=
  if txid ∈ s.selectedTxids then s
  else
    match pool.transactions.get? txid with
    | none => s
    | some entry =>
      { s with selected := s.selected ++ [entry.tx], selectedTxids := s.selectedTxids ++ [txid] }

def Selection.take (s : Selection) (o : Offer F) : Selection :=
  { o.ids.foldl (Selection.add pool) s with currentWeight := s.currentWeight + o.weight }

/-- The outer loop; `none` where the fuel runs out. -/
def selectLoop : ℕ → Selection → Option Selection
  | 0, _ => none
  | fuel + 1, s =>
    match pool.bestOffer settings chain order lowest maxWeight s with
    | none => some s
    | some o => selectLoop fuel (s.take pool o)

/-- `lowest` is the rate that the search for the best package starts from. Every round but the last
selects an entry. -/
def getTransactionsForBlock : Option (List Transaction) :=
  (pool.selectLoop settings chain order lowest maxWeight (pool.count + 1) ⟨[], [], 0⟩).map
    Selection.selected

end selection

/-! The relation of the entries to their parents. -/

/-- Both are in the pool, and the second is an unconfirmed parent of the first. -/
def Parent (pool : Mempool F) (txid parent : Bytes) : Prop :=
  pool.transactions.get? txid ≠ none ∧ pool.transactions.get? parent ≠ none ∧
    parent ∈ pool.parentsOf txid

/-- What the selection relies on: the index by fee rate lists every entry, no entry is its own
ancestor, and the ancestors in the pool are those that the parents lead to. -/
structure FamilyTree (pool : Mempool F) : Prop where
  listed : ∀ txid, pool.transactions.get? txid ≠ none → txid ∈ pool.txByFee
  acyclic : ∀ txid, ¬ TransGen pool.Parent txid txid
  closed : ∀ txid entry, pool.transactions.get? txid = some entry → ∀ ancestor,
    (ancestor ∈ entry.ancestors ∧ pool.transactions.get? ancestor ≠ none) ↔
      TransGen pool.Parent txid ancestor

/-- Every entry comes after its parents. -/
def ParentsFirst (pool : Mempool F) (ids : List Bytes) : Prop :=
  ∀ before txid after, ids = before ++ txid :: after → ∀ parent, pool.Parent txid parent →
    parent ∈ before

section package
variable {settings : MempoolSettings F} {chain : ChainView} {pool : Mempool F} {order : SetOrder}
  {lowest : F} {maxWeight : ℕ} {txid : Bytes} {entry : MempoolEntry F} {selected : List Bytes}

omit [LinearOrder F] in
lemma mem_unselectedAncestors {a : Bytes} : a ∈ pool.unselectedAncestors txid entry selected ↔
    a = txid ∨ a ∈ entry.ancestors ∧ a ∉ selected ∧ pool.transactions.get? a ≠ none := by
  unfold unselectedAncestors
  rw [mem_addNew, List.mem_dedup, List.mem_filter, List.mem_singleton]
  simp only [KeyedRows.contains, Option.isSome_iff_ne_none, decide_eq_true_eq]
  tauto

omit [LinearOrder F] in
lemma nodup_unselectedAncestors : (pool.unselectedAncestors txid entry selected).Nodup :=
  nodup_addNew (List.nodup_dedup _) (List.nodup_singleton _)

omit [LinearOrder F] in
lemma topoSortTxids_perm (txids : List Bytes) : (pool.topoSortTxids order txids).Perm txids :=
  Topological.sort_perm order.perm fun left => List.perm_insertionSort _ left

omit [LinearOrder F] in
lemma topoSortTxids_inOrder (h : pool.FamilyTree) {txids : List Bytes}
    (hpresent : ∀ a ∈ txids, pool.transactions.get? a ≠ none) :
    Topological.InOrder pool.parentsOf txids (pool.topoSortTxids order txids) := by
  refine Topological.sort_inOrder order.perm ?_
  intro a hcycle
  refine h.acyclic a (hcycle.lift id ?_)
  intro x p hxp
  exact ⟨hpresent x hxp.1, hpresent p hxp.2.1, hxp.2.2⟩

/-- What an offer is made of. -/
structure Offered (chain : ChainView) (pool : Mempool F) (maxWeight : ℕ) (s : Selection) (txid : Bytes)
    (entry : MempoolEntry F) (o : Offer F) : Prop where
  found : pool.transactions.get? txid = some entry
  unselected : txid ∉ s.selectedTxids
  perm : o.ids.Perm (pool.unselectedAncestors txid entry s.selectedTxids)
  weight_eq : o.weight = pool.weightOf o.ids
  fits : s.currentWeight + o.weight ≤ maxWeight

omit [LinearOrder F] in
lemma offer_some {s : Selection} {o : Offer F}
    (h : pool.offer settings chain order maxWeight s txid = some o) :
    ∃ entry, Offered chain pool maxWeight s txid entry o ∧
      o.ids = pool.topoSortTxids order (pool.unselectedAncestors txid entry s.selectedTxids) := by
  unfold offer at h
  by_cases hskip : (txid ∈ s.selectedTxids || !pool.transactions.contains txid) = true
  · rw [if_pos hskip] at h
    cases h
  rw [if_neg hskip] at h
  simp only [Bool.or_eq_true, decide_eq_true_eq, Bool.not_eq_true', not_or, Bool.not_eq_false] at hskip
  obtain ⟨entry, hentry⟩ := Option.isSome_iff_exists.1 hskip.2
  simp only at h
  split_ifs at h with hempty hvalid hfits
  cases h
  refine ⟨entry, ⟨hentry, hskip.1, ?_, rfl, ?_⟩, ?_⟩
  · simp only [getUnselectedAncestorPackage, hentry]
    exact topoSortTxids_perm _
  · simp only [not_or, not_lt] at hfits
    exact hfits.2
  · simp only [getUnselectedAncestorPackage, hentry]

variable {s : Selection} {o : Offer F}

omit [LinearOrder F] in
lemma Offered.not_selected (h : Offered chain pool maxWeight s txid entry o) (a : Bytes) (ha : a ∈ o.ids) :
    a ∉ s.selectedTxids ∧ pool.transactions.get? a ≠ none := by
  rcases mem_unselectedAncestors.1 (h.perm.mem_iff.1 ha) with rfl | ⟨-, hnot, hpresent⟩
  · exact ⟨h.unselected, by simp [h.found]⟩
  · exact ⟨hnot, hpresent⟩

omit [LinearOrder F] in
lemma add_foldl {ids : List Bytes} (hnodup : ids.Nodup)
    (hids : ∀ a ∈ ids, a ∉ s.selectedTxids ∧ pool.transactions.get? a ≠ none) :
    (ids.foldl (Selection.add pool) s).selectedTxids = s.selectedTxids ++ ids ∧
      (ids.foldl (Selection.add pool) s).selected =
        s.selected ++ (pool.entriesOf ids).map MempoolEntry.tx := by
  induction ids generalizing s with
  | nil => simp [entriesOf]
  | cons a ids ih =>
    obtain ⟨hnot, hpresent⟩ := hids a List.mem_cons_self
    obtain ⟨entry, hentry⟩ := Option.ne_none_iff_exists'.1 hpresent
    obtain ⟨hfirst, hrest⟩ := List.nodup_cons.1 hnodup
    have hadd : s.add pool a =
        { s with selected := s.selected ++ [entry.tx], selectedTxids := s.selectedTxids ++ [a] } := by
      simp [Selection.add, hnot, hentry]
    rw [List.foldl_cons, hadd]
    obtain ⟨hids', htxs⟩ := @ih
      { s with selected := s.selected ++ [entry.tx], selectedTxids := s.selectedTxids ++ [a] } hrest (by
        intro b hb
        obtain ⟨hb', hpresent'⟩ := hids b (List.mem_cons_of_mem _ hb)
        refine ⟨?_, hpresent'⟩
        simp only [List.mem_append, List.mem_singleton, not_or]
        exact ⟨hb', fun heq => hfirst (heq ▸ hb)⟩)
    rw [hids', htxs]
    simp [entriesOf, hentry]

omit [LinearOrder F] in
lemma weightOf_append (ids ids' : List Bytes) :
    pool.weightOf (ids ++ ids') = pool.weightOf ids + pool.weightOf ids' := by
  simp [weightOf, entriesOf]

/-- What is selected is in the pool, once each. -/
structure Picked (pool : Mempool F) (s : Selection) : Prop where
  nodup : s.selectedTxids.Nodup
  present : ∀ a ∈ s.selectedTxids, pool.transactions.get? a ≠ none
  txs : s.selected = (pool.entriesOf s.selectedTxids).map MempoolEntry.tx

omit [LinearOrder F] in
lemma Picked.length_le (hs : Picked pool s) : s.selectedTxids.length ≤ pool.count := by
  have hsub : s.selectedTxids ⊆ pool.txids := fun a ha => mem_txids.2 (hs.present a ha)
  have hlength := (List.subperm_of_subset hs.nodup hsub).length_le
  simpa [txids, count] using hlength

omit [LinearOrder F] in
/-- An offer adds its ids, one at least. -/
lemma Picked.take (hs : Picked pool s) (ho : pool.offer settings chain order maxWeight s txid = some o) :
    Picked pool (s.take pool o) ∧ (s.take pool o).selectedTxids = s.selectedTxids ++ o.ids ∧
      s.selectedTxids.length < (s.take pool o).selectedTxids.length := by
  obtain ⟨entry, hoffered, hids⟩ := offer_some ho
  have hnodup : o.ids.Nodup := hoffered.perm.nodup_iff.2 nodup_unselectedAncestors
  obtain ⟨htxids, htxs⟩ := add_foldl hnodup hoffered.not_selected
  have htake : (s.take pool o).selectedTxids = s.selectedTxids ++ o.ids := htxids
  have hmem : txid ∈ o.ids := hoffered.perm.mem_iff.2 (mem_unselectedAncestors.2 (Or.inl rfl))
  refine ⟨⟨?_, ?_, ?_⟩, htake, ?_⟩
  · rw [htake]
    refine hs.nodup.append hnodup ?_
    intro a ha ha'
    exact (hoffered.not_selected a ha').1 ha
  · intro a ha
    rw [htake] at ha
    rcases List.mem_append.1 ha with ha | ha
    · exact hs.present a ha
    · exact (hoffered.not_selected a ha).2
  · have hsel : (s.take pool o).selected = s.selected ++ (pool.entriesOf o.ids).map MempoolEntry.tx := htxs
    rw [hsel, htake, hs.txs]
    simp [entriesOf]
  · have hpos := List.length_pos_of_mem hmem
    rw [htake, List.length_append]
    omega

/-- The invariant of the outer loop. -/
structure Chosen (pool : Mempool F) (maxWeight : ℕ) (s : Selection) : Prop where
  nodup : s.selectedTxids.Nodup
  present : ∀ a ∈ s.selectedTxids, pool.transactions.get? a ≠ none
  txs : s.selected = (pool.entriesOf s.selectedTxids).map MempoolEntry.tx
  weight_eq : s.currentWeight = pool.weightOf s.selectedTxids
  bound : s.currentWeight ≤ maxWeight
  parentsFirst : pool.ParentsFirst s.selectedTxids

omit [LinearOrder F] in
lemma Chosen.start : Chosen pool maxWeight ⟨[], [], 0⟩ where
  nodup := List.nodup_nil
  present := by simp
  txs := rfl
  weight_eq := rfl
  bound := Nat.zero_le _
  parentsFirst := by
    intro before txid after h
    simp at h

lemma split_append {α : Type} {l l' before after : List α} {a : α}
    (h : l ++ l' = before ++ a :: after) :
    (∃ more, before = l ++ more ∧ l' = more ++ a :: after) ∨ ∃ more, l = before ++ a :: more := by
  rcases List.append_eq_append_iff.1 h with ⟨more, hbefore, hmore⟩ | ⟨more, hl, hmore⟩
  · exact Or.inl ⟨more, hbefore, hmore⟩
  · cases more with
    | nil => exact Or.inl ⟨[], by simpa using hl.symm, by simpa using hmore.symm⟩
    | cons b more =>
      obtain ⟨rfl, -⟩ := List.cons.inj hmore
      exact Or.inr ⟨more, hl⟩

omit [LinearOrder F] in
/-- A package in order behind what is selected keeps parents first. -/
lemma ParentsFirst.append (h : pool.FamilyTree) {ids : List Bytes}
    (hfirst : pool.ParentsFirst ids) (hentry : pool.transactions.get? txid = some entry) :
    pool.ParentsFirst (ids ++ pool.topoSortTxids order (pool.unselectedAncestors txid entry ids)) := by
  intro before a after heq parent hparent
  have hall : ∀ b ∈ pool.unselectedAncestors txid entry ids, pool.transactions.get? b ≠ none := by
    intro b hb
    rcases mem_unselectedAncestors.1 hb with rfl | ⟨-, -, hpresent⟩
    · simp [hentry]
    · exact hpresent
  rcases split_append heq with ⟨more, rfl, hmore⟩ | ⟨more, hids⟩
  · -- the entry belongs to the package
    have hmem : a ∈ pool.unselectedAncestors txid entry ids := by
      have hin : a ∈ pool.topoSortTxids order (pool.unselectedAncestors txid entry ids) := by
        rw [hmore]
        simp
      exact (topoSortTxids_perm _).mem_iff.1 hin
    have hancestor : TransGen pool.Parent txid parent := by
      rcases mem_unselectedAncestors.1 hmem with rfl | ⟨hanc, -, hpresent⟩
      · exact TransGen.single hparent
      · exact ((h.closed txid entry hentry a).1 ⟨hanc, hpresent⟩).tail hparent
    obtain ⟨hanc, hpresent⟩ := (h.closed txid entry hentry parent).2 hancestor
    by_cases hselected : parent ∈ ids
    · exact List.mem_append_left _ hselected
    · have hneeded : parent ∈ pool.unselectedAncestors txid entry ids :=
        mem_unselectedAncestors.2 (Or.inr ⟨hanc, hselected, hpresent⟩)
      exact List.mem_append_right _
        (topoSortTxids_inOrder h hall more a after hmore parent hparent.2.2 hneeded)
  · -- the entry was selected before
    exact hfirst before a more hids parent hparent

omit [LinearOrder F] in
lemma Chosen.picked (hs : Chosen pool maxWeight s) : Picked pool s := ⟨hs.nodup, hs.present, hs.txs⟩

omit [LinearOrder F] in
lemma Chosen.take (h : pool.FamilyTree) (hs : Chosen pool maxWeight s)
    (ho : pool.offer settings chain order maxWeight s txid = some o) :
    Chosen pool maxWeight (s.take pool o) := by
  obtain ⟨entry, hoffered, hids⟩ := offer_some ho
  obtain ⟨hpicked, htake, -⟩ := hs.picked.take ho
  refine ⟨hpicked.nodup, hpicked.present, hpicked.txs, ?_, hoffered.fits, ?_⟩
  · have hweight : (s.take pool o).currentWeight = s.currentWeight + o.weight := rfl
    rw [hweight, htake, weightOf_append, hs.weight_eq, hoffered.weight_eq]
  · rw [htake, hids]
    exact hs.parentsFirst.append h hoffered.found

/-- The best of some offers is one of them. -/
lemma mem_of_foldl_better {offers : List (Offer F)} {best : Option (Offer F) × F}
    (h : (offers.foldl better best).1 = some o) : best.1 = some o ∨ o ∈ offers := by
  induction offers generalizing best with
  | nil => exact Or.inl h
  | cons first offers ih =>
    rcases ih h with hbest | hmem
    · unfold better at hbest
      split_ifs at hbest
      · exact Or.inr (by simpa using Or.inl (Option.some.inj hbest).symm)
      · exact Or.inl hbest
    · exact Or.inr (List.mem_cons_of_mem _ hmem)

/-- Where none is chosen, none is above the rate that the search starts from. -/
lemma foldl_better_none {offers : List (Offer F)} {rate : F}
    (h : (offers.foldl better (none, rate)).1 = none) : ∀ o ∈ offers, o.rate ≤ rate := by
  have hsome (offers : List (Offer F)) (best : Offer F) (rate : F) :
      (offers.foldl better (some best, rate)).1 ≠ none := by
    induction offers generalizing best rate with
    | nil => simp
    | cons first offers ih =>
      rw [List.foldl_cons, better]
      split_ifs
      · exact ih first first.rate
      · exact ih best rate
  induction offers with
  | nil => simp
  | cons first offers ih =>
    rw [List.foldl_cons, better] at h
    split_ifs at h with hrate
    · exact absurd h (hsome offers first first.rate)
    · intro o ho
      rcases List.mem_cons.1 ho with rfl | ho
      · exact not_lt.1 hrate
      · exact ih h o ho

lemma exists_offer (h : pool.bestOffer settings chain order lowest maxWeight s = some o) :
    ∃ txid, pool.offer settings chain order maxWeight s txid = some o := by
  rcases mem_of_foldl_better h with hnone | hmem
  · cases hnone
  · obtain ⟨txid, -, hoffer⟩ := List.mem_filterMap.1 hmem
    exact ⟨txid, hoffer⟩

/-- With a round for each entry that is not selected and one more, the loop comes to its end, with
what every offer keeps. -/
lemma selectLoop_ends {I : Selection → Prop} (hpicked : ∀ s, I s → Picked pool s)
    (htake : ∀ s txid o, I s → pool.offer settings chain order maxWeight s txid = some o →
      I (s.take pool o))
    (fuel : ℕ) (hs : I s) (hfuel : pool.count < fuel + s.selectedTxids.length) :
    ∃ final, pool.selectLoop settings chain order lowest maxWeight fuel s = some final ∧ I final ∧
      pool.bestOffer settings chain order lowest maxWeight final = none := by
  induction fuel generalizing s with
  | zero =>
    have hlength := (hpicked s hs).length_le
    omega
  | succ fuel ih =>
    rw [Mempool.selectLoop]
    cases hbest : pool.bestOffer settings chain order lowest maxWeight s with
    | none => exact ⟨s, rfl, hs, hbest⟩
    | some o =>
      obtain ⟨txid, hoffer⟩ := exists_offer hbest
      obtain ⟨-, -, hgrows⟩ := (hpicked s hs).take hoffer
      exact ih (htake s txid o hs hoffer) (by omega)

/-- The selection comes to an end with entries that are listed once. -/
lemma getTransactionsForBlock_picked (settings : MempoolSettings F) (chain : ChainView)
    (pool : Mempool F) (order : SetOrder) (lowest : F) (maxWeight : ℕ) :
    ∃ ids, pool.getTransactionsForBlock settings chain order lowest maxWeight =
        some ((pool.entriesOf ids).map MempoolEntry.tx) ∧
      ids.Nodup ∧ ∀ a ∈ ids, pool.transactions.get? a ≠ none := by
  have hstart : Picked pool ⟨[], [], 0⟩ := ⟨List.nodup_nil, by simp, rfl⟩
  obtain ⟨final, hloop, hpicked, -⟩ := @selectLoop_ends F _ settings chain pool order lowest maxWeight
    _ (Picked pool) (fun _ h => h) (fun _ _ _ h ho => (h.take ho).1) (pool.count + 1) hstart (by simp)
  refine ⟨final.selectedTxids, ?_, hpicked.nodup, hpicked.present⟩
  rw [getTransactionsForBlock, hloop, Option.map_some, hpicked.txs]

/-- The rest of the package of an entry could be selected as well. -/
structure Addable (chain : ChainView) (pool : Mempool F) (maxWeight : ℕ) (ids : List Bytes) (txid : Bytes)
    (entry : MempoolEntry F) : Prop where
  valid : ∀ e ∈ pool.entriesOf (pool.unselectedAncestors txid entry ids),
    validForNextBlock chain e = true
  fee : ∀ e ∈ pool.entriesOf (pool.unselectedAncestors txid entry ids), 0 ≤ e.fee
  weight : 0 < pool.weightOf (pool.unselectedAncestors txid entry ids)
  fits : pool.weightOf ids + pool.weightOf (pool.unselectedAncestors txid entry ids) ≤ maxWeight

omit [LinearOrder F] in
lemma entriesOf_perm {ids ids' : List Bytes} (h : ids.Perm ids') :
    (pool.entriesOf ids).Perm (pool.entriesOf ids') := h.filterMap _

omit [LinearOrder F] in
lemma Addable.offer (hs : Chosen pool maxWeight s) (hentry : pool.transactions.get? txid = some entry)
    (hnot : txid ∉ s.selectedTxids) (h : Addable chain pool maxWeight s.selectedTxids txid entry) :
    ∃ o, pool.offer settings chain order maxWeight s txid = some o ∧
      ∃ fee weight, 0 ≤ fee ∧ 0 < weight ∧ o.rate = settings.rate fee weight := by
  set ids := pool.getUnselectedAncestorPackage order txid s.selectedTxids with hids
  have hperm : ids.Perm (pool.unselectedAncestors txid entry s.selectedTxids) := by
    simp only [hids, getUnselectedAncestorPackage, hentry]
    exact topoSortTxids_perm _
  have hentries := @entriesOf_perm F pool _ _ hperm
  have hweight : pool.weightOf ids =
      pool.weightOf (pool.unselectedAncestors txid entry s.selectedTxids) :=
    (hentries.map MempoolEntry.weight).sum_eq
  have hskip : ¬ (txid ∈ s.selectedTxids || !pool.transactions.contains txid) = true := by
    simp [hnot, KeyedRows.contains, hentry]
  have hne : ¬ ids.isEmpty = true := by
    rw [List.isEmpty_iff]
    intro hnil
    have hmem := hperm.mem_iff.2 (mem_unselectedAncestors.2 (Or.inl rfl))
    rw [hnil] at hmem
    cases hmem
  have hvalid : ¬ ((pool.entriesOf ids).any fun entry => !validForNextBlock chain entry) = true := by
    simp only [List.any_eq_true, Bool.not_eq_true', not_exists, not_and, Bool.not_eq_false]
    intro e he
    exact h.valid e (hentries.mem_iff.1 he)
  have hfits : ¬ (pool.weightOf ids = 0 ∨ maxWeight < s.currentWeight + pool.weightOf ids) := by
    have hpos := h.weight
    have hbound := h.fits
    rw [hweight, hs.weight_eq]
    omega
  refine ⟨⟨ids, pool.weightOf ids, settings.rate (pool.feeOf ids) (pool.weightOf ids)⟩, ?_,
    pool.feeOf ids, pool.weightOf ids, ?_, ?_, rfl⟩
  · unfold Mempool.offer
    simp only [if_neg hskip, ← hids, if_neg hne, if_neg hvalid, if_neg hfits]
  · refine List.sum_nonneg ?_
    intro fee hfee
    obtain ⟨e, he, rfl⟩ := List.mem_map.1 hfee
    exact h.fee e (hentries.mem_iff.1 he)
  · rw [hweight]
    exact h.weight

omit [LinearOrder F] in
/-- Entries under different ids hold different transactions. -/
lemma nodup_txs {H : Hashlib} {ids : List Bytes}
    (hkeyed : ∀ txid entry, pool.transactions.get? txid = some entry → entry.tx.txid H = txid)
    (hnodup : ids.Nodup) : ((pool.entriesOf ids).map MempoolEntry.tx).Nodup := by
  induction ids with
  | nil => exact List.nodup_nil
  | cons a ids ih =>
    obtain ⟨hnot, hrest⟩ := List.nodup_cons.1 hnodup
    cases hentry : pool.transactions.get? a with
    | none => simpa [entriesOf, hentry] using ih hrest
    | some entry =>
      have hcons : pool.entriesOf (a :: ids) = entry :: pool.entriesOf ids := by
        simp [entriesOf, hentry]
      rw [hcons, List.map_cons, List.nodup_cons]
      refine ⟨?_, ih hrest⟩
      intro hmem
      obtain ⟨entry', hentry', heq⟩ := List.mem_map.1 hmem
      obtain ⟨b, hb, hfound⟩ := List.mem_filterMap.1 hentry'
      have hab : b = a := by rw [← hkeyed b entry' hfound, ← hkeyed a entry hentry, heq]
      exact hnot (hab ▸ hb)

/-- Whatever the order in which sets are gone through, the selection comes to an end with entries
that are listed once, have room and come after their parents, and no entry is left out whose
package would still have been taken. -/
theorem getTransactionsForBlock_spec (settings : MempoolSettings F) (chain : ChainView)
    (pool : Mempool F) (order : SetOrder) (lowest : F) (maxWeight : ℕ) (h : pool.FamilyTree)
    (hlowest : ∀ fee weight, 0 ≤ fee → 0 < weight → lowest < settings.rate fee weight) :
    ∃ ids, pool.getTransactionsForBlock settings chain order lowest maxWeight =
        some ((pool.entriesOf ids).map MempoolEntry.tx) ∧
      ids.Nodup ∧ ids ⊆ pool.txids ∧ pool.weightOf ids ≤ maxWeight ∧ pool.ParentsFirst ids ∧
      (∀ txid entry, pool.transactions.get? txid = some entry → txid ∉ ids →
        ¬ Addable chain pool maxWeight ids txid entry) ∧
      ((∀ txid entry, pool.transactions.get? txid = some entry →
          entry.tx.txid settings.crypto.toHashlib = txid) →
        ((pool.entriesOf ids).map MempoolEntry.tx).Nodup) := by
  obtain ⟨final, hloop, hchosen, hbest⟩ := @selectLoop_ends F _ settings chain pool order lowest
    maxWeight _ (Chosen pool maxWeight) (fun _ hs => hs.picked) (fun _ _ _ hs ho => hs.take h ho)
    (pool.count + 1) Chosen.start (by simp)
  refine ⟨final.selectedTxids, ?_, hchosen.nodup, ?_, ?_, hchosen.parentsFirst, ?_, ?_⟩
  · rw [getTransactionsForBlock, hloop, Option.map_some, hchosen.txs]
  · exact fun a ha => mem_txids.2 (hchosen.present a ha)
  · rw [← hchosen.weight_eq]
    exact hchosen.bound
  · intro txid entry hentry hnot haddable
    obtain ⟨o, hoffer, fee, weight, hfee, hweight, hrate⟩ :=
      @Addable.offer F settings chain pool order maxWeight txid entry final hchosen hentry hnot haddable
    have hlisted : txid ∈ pool.txByFee := h.listed txid (by simp [hentry])
    have hle := foldl_better_none hbest o (List.mem_filterMap.2 ⟨txid, hlisted, hoffer⟩)
    rw [hrate] at hle
    exact absurd (hlowest fee weight hfee hweight) (not_lt.2 hle)
  · intro hkeyed
    exact nodup_txs hkeyed hchosen.nodup

end package

end Mempool

namespace MempoolExample
open Relation

lemma family_parent {txid parent : Bytes} (h : family.Parent txid parent) :
    txid = childId ∧ parent = firstId := by
  have hrows : family.unconfirmedParents.rows = [(childId, [firstId])] := by decide +kernel
  obtain ⟨-, -, hmem⟩ := h
  simp only [Mempool.parentsOf, KeyedRows.get?, hrows, List.find?_singleton] at hmem
  split_ifs at hmem with hchild
  · simp only [decide_eq_true_eq] at hchild
    simp only [Option.map_some, Option.getD_some, List.mem_singleton] at hmem
    exact ⟨hchild.symm, hmem⟩
  · simp at hmem

lemma family_path {txid ancestor : Bytes} (h : TransGen family.Parent txid ancestor) :
    txid = childId ∧ ancestor = firstId := by
  induction h with
  | single hstep => exact family_parent hstep
  | tail _ hstep ih => exact ⟨ih.1, (family_parent hstep).2⟩

lemma family_tree : family.FamilyTree where
  listed := by
    intro txid h
    have hbooks := (Mempool.runCalls_backed (settings 1000) [(chain, .addTransaction args first),
      (chain, .addTransaction args child)]).1
    exact hbooks.byFee.mem_iff.2 (Mempool.mem_txids.2 h)
  acyclic := by
    intro txid h
    obtain ⟨rfl, hfirst⟩ := family_path h
    revert hfirst
    decide
  closed := by
    intro txid entry hentry ancestor
    have hrows : (family.transactions.rows.map fun r => (r.1, r.2.ancestors)) =
        [(firstId, []), (childId, [firstId])] := by decide +kernel
    have hmem : (txid, entry.ancestors) ∈ [(firstId, []), (childId, [firstId])] := by
      rw [← hrows]
      exact List.mem_map.2 ⟨(txid, entry), KeyedRows.mem_rows_of_get? hentry, rfl⟩
    simp only [List.mem_cons, Prod.mk.injEq, List.not_mem_nil, or_false] at hmem
    rcases hmem with ⟨rfl, hancestors⟩ | ⟨rfl, hancestors⟩
    · rw [hancestors]
      refine iff_of_false (by simp) ?_
      intro hpath
      exact absurd (family_path hpath).1 (by decide)
    · rw [hancestors, List.mem_singleton]
      constructor
      · rintro ⟨rfl, hpresent⟩
        exact TransGen.single ⟨by simp [hentry], hpresent, by decide +kernel⟩
      · intro hpath
        obtain ⟨-, rfl⟩ := family_path hpath
        exact ⟨rfl, Mempool.mem_txids.1 (by decide +kernel)⟩

end MempoolExample

namespace Mempool
open MempoolExample

/-- Both transactions of the family, the child second. -/
theorem getTransactionsForBlock_spec_family :
    family.FamilyTree ∧
      family.getTransactionsForBlock (settings 1000) chain .listed (-1) 4000 =
        some [first, child] ∧
      ∃ ids, family.getTransactionsForBlock (settings 1000) chain .listed (-1) 4000 =
        some ((family.entriesOf ids).map MempoolEntry.tx) ∧ family.ParentsFirst ids := by
  have hrate : ∀ (fee : ℤ) (weight : ℕ), 0 ≤ fee → 0 < weight →
      (-1 : ℚ) < (settings 1000).rate fee weight := by
    intro fee weight hfee _
    have hnonneg : (0 : ℚ) ≤ (fee : ℚ) / (weight : ℚ) :=
      div_nonneg (by exact_mod_cast hfee) (Nat.cast_nonneg weight)
    exact lt_of_lt_of_le (by norm_num) hnonneg
  obtain ⟨ids, hids, -, -, -, hfirst, -⟩ := getTransactionsForBlock_spec (settings 1000) chain family
    .listed (-1) 4000 family_tree hrate
  exact ⟨family_tree, by decide +kernel, ids, hids, hfirst⟩

end Mempool

end BerzCoin
