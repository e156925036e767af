import BerzCoin.Lineage
import BerzCoin.MempoolRejection

/-! Ancestors and descendants of the entries as the transitive closure of "spends an output of".
Removals with descendants and additions keep them so, as long as an addition finds its parents
among the entries and does not remove its own ancestors. -/
namespace BerzCoin
namespace Mempool
open Relation
variable {F : Type}

/-- The input of the entry `txid` spends an output of another entry. -/
def FromEntry (pool : Mempool F) (txid : Bytes) (txin : TxIn) : Prop :=
  txin.prevTxHash ≠ txid ∧ ∃ parent, pool.transactions.get? txin.prevTxHash = some parent ∧
    txin.outpoint.2 < parent.tx.vout.length

/-- The entry `txid` spends an output of the entry `other`. -/
def Spends (pool : Mempool F) (txid other : Bytes) : Prop :=
  ∃ entry, pool.transactions.get? txid = some entry ∧ ∃ txin ∈ entry.tx.vin,
    txin.prevTxHash = other ∧ pool.FromEntry txid txin

lemma Spends.present {pool : Mempool F} (a b : Bytes) (h : pool.Spends a b) :
    pool.transactions.get? a ≠ none ∧ pool.transactions.get? b ≠ none := by
  obtain ⟨entry, hentry, txin, -, rfl, -, parent, hparent, -⟩ := h
  exact ⟨by simp [hentry], by simp [hparent]⟩

/-! Removal of entries between which the links are mutual. -/

/-- Links go both ways and only to entries. -/
structure Mutual (pool : Mempool F) : Prop where
  backed : pool.Backed
  nodup : ∀ txid entry, pool.transactions.get? txid = some entry → entry.ancestors.Nodup
  listed : ∀ txid entry, pool.transactions.get? txid = some entry → ∀ ancestor ∈ entry.ancestors,
    ∃ entry', pool.transactions.get? ancestor = some entry' ∧ txid ∈ entry'.descendants

/-- An entry without its links to some ids. -/
def stripped (ids : List Bytes) (entry : MempoolEntry F) : MempoolEntry F :=
  { entry with
    descendants := entry.descendants.filter (· ∉ ids)
    ancestors := entry.ancestors.filter (· ∉ ids) }

lemma stripped_nil (entry : MempoolEntry F) : stripped [] entry = entry := by
  simp [stripped]

lemma stripped_stripped (txid : Bytes) (ids : List Bytes) (entry : MempoolEntry F) :
    stripped ids (stripped [txid] entry) = stripped (txid :: ids) entry := by
  simp only [stripped, List.filter_filter, MempoolEntry.mk.injEq, true_and]
  constructor <;>
    refine List.filter_congr fun x _ => ?_ <;> simp [Bool.and_comm]

lemma erase_eq_filter {ids : List Bytes} (h : ids.Nodup) (txid : Bytes) :
    ids.erase txid = ids.filter (· ∉ [txid]) := by
  rw [h.erase_eq_filter]
  refine List.filter_congr fun x _ => ?_
  simp [bne, Bool.beq_eq_decide_eq]

lemma filter_eq_self {ids : List Bytes} {txid : Bytes} (h : txid ∉ ids) :
    ids.filter (· ∉ [txid]) = ids := by
  rw [List.filter_eq_self]
  intro x hx
  simp only [List.mem_singleton, decide_not, Bool.not_eq_eq_eq_not, Bool.not_true,
    decide_eq_false_iff_not]
  rintro rfl
  exact h hx

lemma Mutual.unlink_eq {pool : Mempool F} (h : pool.Mutual) {txid txid' : Bytes}
    {old entry : MempoolEntry F} (hold : pool.transactions.get? txid = some old)
    (hentry : pool.transactions.get? txid' = some entry) :
    unlink txid old txid' entry = stripped [txid] entry := by
  obtain ⟨hnodup, hback⟩ := h.backed txid' entry hentry
  have hdesc : (if txid' ∈ old.ancestors then entry.descendants.erase txid else entry.descendants) =
      entry.descendants.filter (· ∉ [txid]) := by
    split_ifs with hmem
    · exact erase_eq_filter hnodup txid
    · refine (filter_eq_self ?_).symm
      intro hin
      obtain ⟨old', hold', hmem'⟩ := hback txid hin
      rw [hold] at hold'
      cases hold'
      exact hmem hmem'
  have hanc : (if txid' ∈ old.descendants then entry.ancestors.erase txid else entry.ancestors) =
      entry.ancestors.filter (· ∉ [txid]) := by
    split_ifs with hmem
    · exact erase_eq_filter (h.nodup txid' entry hentry) txid
    · refine (filter_eq_self ?_).symm
      intro hin
      obtain ⟨old', hold', hmem'⟩ := h.listed txid' entry hentry txid hin
      rw [hold] at hold'
      cases hold'
      exact hmem hmem'
  unfold unlink stripped
  rw [hdesc, hanc]

lemma Mutual.removeEntry_get? {pool : Mempool F} (h : pool.Mutual) (txid txid' : Bytes) :
    (pool.removeEntry txid).transactions.get? txid' =
      if txid' = txid then none else (pool.transactions.get? txid').map (stripped [txid]) := by
  cases hold : pool.transactions.get? txid with
  | none =>
    have hsame : pool.removeEntry txid = pool := by
      unfold removeEntry
      rw [hold]
    rw [hsame]
    split_ifs with heq
    · rw [heq, hold]
    · cases hentry : pool.transactions.get? txid' with
      | none => rfl
      | some entry =>
        have hdesc : txid ∉ entry.descendants := h.backed.absent hold txid' entry hentry
        have hanc : txid ∉ entry.ancestors := by
          intro hin
          obtain ⟨old', hold', -⟩ := h.listed txid' entry hentry txid hin
          rw [hold] at hold'
          cases hold'
        simp only [Option.map_some, stripped, filter_eq_self hdesc, filter_eq_self hanc]
  | some old =>
    rw [Mempool.removeEntry_get? hold]
    split_ifs with heq
    · rfl
    · cases hentry : pool.transactions.get? txid' with
      | none => rfl
      | some entry => simp only [Option.map_some, h.unlink_eq hold hentry]

lemma keptByRemoval_mutual : KeptByRemoval (Mutual : Mempool F → Prop) := by
  intro pool txid h
  -- The entries that are left, each with its old form.
  have hleft {txid' : Bytes} {entry : MempoolEntry F}
      (hentry : (pool.removeEntry txid).transactions.get? txid' = some entry) :
      txid' ≠ txid ∧ ∃ old, pool.transactions.get? txid' = some old ∧ entry = stripped [txid] old := by
    rw [h.removeEntry_get?] at hentry
    split_ifs at hentry with heq
    obtain ⟨old, hold, rfl⟩ := Option.map_eq_some_iff.1 hentry
    exact ⟨heq, old, hold, rfl⟩
  refine ⟨keptByRemoval_backed pool txid h.backed, ?_, ?_⟩
  · intro txid' entry hentry
    obtain ⟨-, old, hold, rfl⟩ := hleft hentry
    exact (h.nodup txid' old hold).filter _
  · intro txid' entry hentry ancestor hmem
    obtain ⟨hne, old, hold, rfl⟩ := hleft hentry
    obtain ⟨hmem, hancestor⟩ := List.mem_filter.1 hmem
    have hancestor : ancestor ≠ txid := by simpa using hancestor
    obtain ⟨entry', hentry', hdesc⟩ := h.listed txid' old hold ancestor hmem
    refine ⟨stripped [txid] entry', ?_, ?_⟩
    · rw [h.removeEntry_get?, if_neg hancestor, hentry']
      rfl
    · exact List.mem_filter.2 ⟨hdesc, by simpa using hne⟩

lemma Mutual.removeEntries_get? {pool : Mempool F} (h : pool.Mutual) (ids : List Bytes)
    (txid : Bytes) : (pool.removeEntries ids).transactions.get? txid =
      if txid ∈ ids then none else (pool.transactions.get? txid).map (stripped ids) := by
  induction ids generalizing pool with
  | nil =>
    have hid : (stripped [] : MempoolEntry F → MempoolEntry F) = id := funext stripped_nil
    rw [hid]
    simp [removeEntries]
  | cons id ids ih =>
    have hstep : pool.removeEntries (id :: ids) = (pool.removeEntry id).removeEntries ids := rfl
    rw [hstep, ih (keptByRemoval_mutual pool id h), h.removeEntry_get?]
    by_cases hid : txid = id
    · simp [hid]
    · by_cases hids : txid ∈ ids
      · simp [hids]
      · rw [if_neg hids, if_neg hid, if_neg (by simp [hid, hids]), Option.map_map]
        congr 1
        exact funext fun entry => stripped_stripped id ids entry

/-! Links as a closure. -/

/-- The ancestors are what an entry reaches by spending, the descendants are the converse. -/
structure Linked (settings : MempoolSettings F) (pool : Mempool F) : Prop where
  ancestors : ∀ txid entry, pool.transactions.get? txid = some entry →
    ∀ other, other ∈ entry.ancestors ↔ TransGen pool.Spends txid other
  descendants : ∀ txid entry, pool.transactions.get? txid = some entry →
    ∀ other, other ∈ entry.descendants ↔ TransGen pool.Spends other txid
  nodup : ∀ txid entry, pool.transactions.get? txid = some entry →
    entry.ancestors.Nodup ∧ entry.descendants.Nodup
  bounds : ∀ txid entry, pool.transactions.get? txid = some entry →
    entry.ancestors.length ≤ settings.limits.maxAncestors ∧
      entry.descendants.length ≤ settings.limits.maxDescendants

variable {settings : MempoolSettings F} {pool : Mempool F}

lemma Linked.empty : Linked settings (Mempool.empty : Mempool F) := by
  constructor <;> intro txid entry h <;> cases h

lemma transGen_present {a b : Bytes} (h : TransGen pool.Spends a b) :
    (∃ entry, pool.transactions.get? a = some entry) ∧
      ∃ entry, pool.transactions.get? b = some entry := by
  obtain ⟨ha, hb⟩ := Lineage.transGen_ends Spends.present h
  exact ⟨Option.ne_none_iff_exists'.1 ha, Option.ne_none_iff_exists'.1 hb⟩

lemma Linked.mutual (h : Linked settings pool) : pool.Mutual := by
  refine ⟨?_, fun txid entry hentry => (h.nodup txid entry hentry).1, ?_⟩
  · intro txid entry hentry
    refine ⟨(h.nodup txid entry hentry).2, ?_⟩
    intro desc hdesc
    have hpath := (h.descendants txid entry hentry desc).1 hdesc
    obtain ⟨⟨entry', hentry'⟩, -⟩ := transGen_present hpath
    exact ⟨entry', hentry', (h.ancestors desc entry' hentry' txid).2 hpath⟩
  · intro txid entry hentry ancestor hanc
    have hpath := (h.ancestors txid entry hentry ancestor).1 hanc
    obtain ⟨-, entry', hentry'⟩ := transGen_present hpath
    exact ⟨entry', hentry', (h.descendants ancestor entry' hentry' txid).2 hpath⟩

lemma spends_congr {pool' : Mempool F}
    (h : ∀ txid, pool'.transactions.get? txid = pool.transactions.get? txid) :
    pool'.Spends = pool.Spends := by
  funext a b
  unfold Spends FromEntry
  simp only [h]

lemma Linked.congr {pool' : Mempool F} (hlinked : Linked settings pool)
    (h : ∀ txid, pool'.transactions.get? txid = pool.transactions.get? txid) :
    Linked settings pool' := by
  refine ⟨?_, ?_, ?_, ?_⟩
  · intro txid entry hentry
    rw [spends_congr h]
    exact hlinked.ancestors txid entry (h txid ▸ hentry)
  · intro txid entry hentry
    rw [spends_congr h]
    exact hlinked.descendants txid entry (h txid ▸ hentry)
  · intro txid entry hentry
    exact hlinked.nodup txid entry (h txid ▸ hentry)
  · intro txid entry hentry
    exact hlinked.bounds txid entry (h txid ▸ hentry)

/-! A part of the pool that keeps, with an entry, all that it spends. -/

structure Prunes (pool' pool : Mempool F) : Prop where
  within : pool'.Within pool
  closed : ∀ a b, pool'.transactions.get? a ≠ none → pool.Spends a b →
    pool'.transactions.get? b ≠ none

lemma Prunes.fromEntry {pool' : Mempool F} (h : pool'.Prunes pool) {txid : Bytes} {txin : TxIn}
    (hpresent : pool'.transactions.get? txin.prevTxHash ≠ none) :
    pool'.FromEntry txid txin ↔ pool.FromEntry txid txin := by
  obtain ⟨parent', hparent'⟩ := Option.ne_none_iff_exists'.1 hpresent
  obtain ⟨parent, hparent, hcore⟩ := h.within _ parent' hparent'
  have htx : parent'.tx = parent.tx := (core_congr hcore).1
  unfold FromEntry
  simp [hparent', hparent, htx]

lemma Prunes.spends_iff {pool' : Mempool F} (h : pool'.Prunes pool) {a : Bytes}
    (ha : pool'.transactions.get? a ≠ none) (b : Bytes) : pool'.Spends a b ↔ pool.Spends a b := by
  obtain ⟨entry', hentry'⟩ := Option.ne_none_iff_exists'.1 ha
  obtain ⟨entry, hentry, hcore⟩ := h.within a entry' hentry'
  have htx : entry'.tx = entry.tx := (core_congr hcore).1
  constructor
  · rintro ⟨e, he, txin, hmem, rfl, hfrom⟩
    rw [hentry'] at he
    cases he
    have hpresent : pool'.transactions.get? txin.prevTxHash ≠ none := by
      obtain ⟨-, parent, hparent, -⟩ := hfrom
      simp [hparent]
    exact ⟨entry, hentry, txin, htx ▸ hmem, rfl, (h.fromEntry hpresent).1 hfrom⟩
  · intro hspends
    have hpresent := h.closed a b ha hspends
    obtain ⟨e, he, txin, hmem, rfl, hfrom⟩ := hspends
    rw [hentry] at he
    cases he
    exact ⟨entry', hentry', txin, htx ▸ hmem, rfl, (h.fromEntry hpresent).2 hfrom⟩

lemma Prunes.transGen_iff {pool' : Mempool F} (h : pool'.Prunes pool) {a : Bytes}
    (ha : pool'.transactions.get? a ≠ none) (b : Bytes) :
    TransGen pool'.Spends a b ↔ TransGen pool.Spends a b :=
  Lineage.transGen_congr_on (fun _ b ha => h.spends_iff ha b) h.closed ha

lemma Prunes.refl (pool : Mempool F) : pool.Prunes pool :=
  ⟨.refl pool, fun a b _ h => (Spends.present a b h).2⟩

lemma Prunes.trans {pool' pool'' : Mempool F} (h : pool''.Prunes pool') (h' : pool'.Prunes pool) :
    pool''.Prunes pool := by
  refine ⟨h.within.trans h'.within, ?_⟩
  intro a b ha hspends
  have ha' : pool'.transactions.get? a ≠ none := fun hnone => ha (h.within.absent hnone)
  exact h.closed a b ha ((h'.spends_iff ha' b).2 hspends)

/-! Removal with descendants. -/

/-- The loop adds nothing when the queue has no descendants that are not found. -/
lemma descendantsLoop_closed (pool : Mempool F) (fuel : ℕ) : ∀ queue found : List Bytes,
    (∀ txid ∈ queue, ∀ entry, pool.transactions.get? txid = some entry →
      entry.descendants ⊆ found) → pool.descendantsLoop fuel queue found = found := by
  induction fuel with
  | zero =>
    intro queue found _
    simp [descendantsLoop]
  | succ fuel ih =>
    intro queue found hqueue
    cases queue with
    | nil => simp [descendantsLoop]
    | cons current queue =>
      have hrest := fun txid hmem => hqueue txid (List.mem_cons_of_mem current hmem)
      rw [descendantsLoop]
      cases hentry : pool.transactions.get? current with
      | none => exact ih queue found hrest
      | some entry =>
        have hnew : entry.descendants.filter (· ∉ found) = [] := by
          rw [List.filter_eq_nil_iff]
          intro desc hdesc
          simpa using hqueue current List.mem_cons_self entry hentry hdesc
        simp only [hnew, List.append_nil]
        exact ih queue found hrest

lemma Linked.getDescendants_eq (h : Linked settings pool) {txid : Bytes} {entry : MempoolEntry F}
    (hentry : pool.transactions.get? txid = some entry) :
    pool.getDescendants txid = entry.descendants := by
  unfold getDescendants
  rw [Nat.add_comm, descendantsLoop, hentry]
  have hall : entry.descendants.filter (· ∉ ([] : List Bytes)) = entry.descendants := by simp
  simp only [hall, List.nil_append]
  refine descendantsLoop_closed pool _ _ _ ?_
  intro desc hdesc entry' hentry' desc' hdesc'
  have hfirst := (h.descendants txid entry hentry desc).1 hdesc
  have hsecond := (h.descendants desc entry' hentry' desc').1 hdesc'
  exact (h.descendants txid entry hentry desc').2 (hsecond.trans hfirst)

/-- What a removal with descendants leaves. -/
lemma Linked.removeTransaction_get? (h : Linked settings pool) {txid : Bytes}
    {entry : MempoolEntry F} (hentry : pool.transactions.get? txid = some entry) (txid' : Bytes) :
    (pool.removeTransaction txid true).transactions.get? txid' =
      if txid' ∈ addNew [txid] entry.descendants then none
      else (pool.transactions.get? txid').map (stripped (addNew [txid] entry.descendants)) := by
  unfold removeTransaction
  rw [if_pos (by simp [KeyedRows.contains, hentry]), if_pos rfl, h.getDescendants_eq hentry,
    h.mutual.removeEntries_get?]

lemma Linked.mem_departing (h : Linked settings pool) {txid : Bytes} {entry : MempoolEntry F}
    (hentry : pool.transactions.get? txid = some entry) {other : Bytes} :
    other ∈ addNew [txid] entry.descendants ↔ other = txid ∨ TransGen pool.Spends other txid := by
  rw [mem_addNew, List.mem_singleton, h.descendants txid entry hentry]

/-- Whoever reaches a departing entry departs too. -/
lemma Linked.departing_of_path (h : Linked settings pool) {txid : Bytes} {entry : MempoolEntry F}
    (hentry : pool.transactions.get? txid = some entry) {a b : Bytes}
    (hpath : TransGen pool.Spends a b) (hb : b ∈ addNew [txid] entry.descendants) :
    a ∈ addNew [txid] entry.descendants := by
  rw [h.mem_departing hentry] at hb ⊢
  rcases hb with rfl | hb
  · exact .inr hpath
  · exact .inr (hpath.trans hb)

lemma Linked.removeTransaction_prunes (h : Linked settings pool) (txid : Bytes) :
    (pool.removeTransaction txid true).Prunes pool := by
  refine ⟨(keptByRemoval_within pool).removeTransaction (.refl pool) txid true, ?_⟩
  intro a b ha hspends
  cases hentry : pool.transactions.get? txid with
  | none =>
    have hsame : pool.removeTransaction txid true = pool := by
      simp [removeTransaction, KeyedRows.contains, hentry]
    rw [hsame]
    exact (Spends.present a b hspends).2
  | some entry =>
    rw [h.removeTransaction_get? hentry] at ha ⊢
    split_ifs at ha with hdepart
    · exact absurd rfl ha
    · have hb : b ∉ addNew [txid] entry.descendants :=
        fun hb => hdepart (h.departing_of_path hentry (.single hspends) hb)
      rw [if_neg hb]
      simpa using (Spends.present a b hspends).2

lemma Linked.removeTransaction (h : Linked settings pool) (txid : Bytes) :
    Linked settings (pool.removeTransaction txid true) := by
  have hprunes := h.removeTransaction_prunes txid
  cases hentry : pool.transactions.get? txid with
  | none =>
    have hsame : pool.removeTransaction txid true = pool := by
      simp [Mempool.removeTransaction, KeyedRows.contains, hentry]
    rw [hsame]
    exact h
  | some entry =>
    -- The entries that stay, each with its old form.
    have hstay {txid' : Bytes} {new : MempoolEntry F}
        (hnew : (pool.removeTransaction txid true).transactions.get? txid' = some new) :
        txid' ∉ addNew [txid] entry.descendants ∧ ∃ old, pool.transactions.get? txid' = some old ∧
          new = stripped (addNew [txid] entry.descendants) old := by
      rw [h.removeTransaction_get? hentry] at hnew
      split_ifs at hnew with hdepart
      obtain ⟨old, hold, rfl⟩ := Option.map_eq_some_iff.1 hnew
      exact ⟨hdepart, old, hold, rfl⟩
    have hpresent {txid' : Bytes} (hdepart : txid' ∉ addNew [txid] entry.descendants)
        (hold : ∃ old, pool.transactions.get? txid' = some old) :
        (pool.removeTransaction txid true).transactions.get? txid' ≠ none := by
      obtain ⟨old, hold⟩ := hold
      rw [h.removeTransaction_get? hentry, if_neg hdepart, hold]
      simp
    refine ⟨?_, ?_, ?_, ?_⟩
    · intro txid' new hnew other
      obtain ⟨hdepart, old, hold, rfl⟩ := hstay hnew
      rw [hprunes.transGen_iff (by rw [hnew]; simp), ← h.ancestors txid' old hold]
      simp only [stripped, List.mem_filter, decide_eq_true_eq, and_iff_left_iff_imp]
      intro hmem hother
      exact hdepart (h.departing_of_path hentry ((h.ancestors txid' old hold other).1 hmem) hother)
    · intro txid' new hnew other
      obtain ⟨hdepart, old, hold, rfl⟩ := hstay hnew
      simp only [stripped, List.mem_filter, decide_eq_true_eq, h.descendants txid' old hold]
      constructor
      · rintro ⟨hpath, hother⟩
        exact (hprunes.transGen_iff (hpresent hother (transGen_present hpath).1) txid').2 hpath
      · intro hpath
        obtain ⟨⟨other', hother'⟩, -⟩ := transGen_present hpath
        refine ⟨(hprunes.transGen_iff (by rw [hother']; simp) txid').1 hpath, ?_⟩
        exact (hstay hother').1
    · intro txid' new hnew
      obtain ⟨-, old, hold, rfl⟩ := hstay hnew
      obtain ⟨hanc, hdesc⟩ := h.nodup txid' old hold
      exact ⟨hanc.filter _, hdesc.filter _⟩
    · intro txid' new hnew
      obtain ⟨-, old, hold, rfl⟩ := hstay hnew
      obtain ⟨hanc, hdesc⟩ := h.bounds txid' old hold
      exact ⟨(List.length_filter_le _ _).trans hanc, (List.length_filter_le _ _).trans hdesc⟩

lemma keptByDeparture_linked (settings : MempoolSettings F) (pool : Mempool F) :
    KeptByDeparture fun pool' => Linked settings pool' ∧ pool'.Prunes pool :=
  fun _ txid h => ⟨h.1.removeTransaction txid, (h.1.removeTransaction_prunes txid).trans h.2⟩

/-! The ancestors of a new entry. -/

lemma ancestorsLoop_sound {Q : Bytes → Prop}
    (hQ : ∀ txid entry, pool.transactions.get? txid = some entry → Q txid →
      ∀ ancestor ∈ entry.ancestors, Q ancestor) (fuel : ℕ) :
    ∀ queue found : List Bytes, (∀ txid ∈ queue, Q txid) → (∀ txid ∈ found, Q txid) →
      ∀ txid ∈ pool.ancestorsLoop fuel queue found, Q txid := by
  induction fuel with
  | zero =>
    intro queue found _ hfound
    simpa [ancestorsLoop] using hfound
  | succ fuel ih =>
    intro queue found hqueue hfound
    cases queue with
    | nil => simpa [ancestorsLoop] using hfound
    | cons current queue =>
      have hcurrent : Q current := hqueue current List.mem_cons_self
      have hrest : ∀ txid ∈ queue, Q txid := fun txid hmem => hqueue txid (List.mem_cons_of_mem _ hmem)
      have hmore : ∀ txid ∈ found ++ [current], Q txid := by
        intro txid hmem
        rcases List.mem_append.1 hmem with hmem | hmem
        · exact hfound txid hmem
        · rwa [List.mem_singleton.1 hmem]
      rw [ancestorsLoop]
      split_ifs
      · exact ih queue found hrest hfound
      · cases hentry : pool.transactions.get? current with
        | none => exact ih queue _ hrest hmore
        | some entry =>
          refine ih _ _ ?_ hmore
          intro txid hmem
          rcases List.mem_append.1 hmem with hmem | hmem
          · exact hrest txid hmem
          · exact hQ current entry hentry hcurrent txid (List.mem_filter.1 hmem).1

/-- The number of ancestors that the entry of an id lists. -/
def ancestorCount (pool : Mempool F) (txid : Bytes) : ℕ :=
  pool.transactions.columnAt (fun entry => entry.ancestors.length) txid

/-- With enough fuel the result has the queue and the ancestors of all that it has. The fuel covers
the queue and the ancestors of the entries that are not found yet. -/
lemma ancestorsLoop_complete (pool : Mempool F) (fuel : ℕ) : ∀ queue found : List Bytes, found.Nodup →
    queue.length + (pool.transactions.sum fun entry => entry.ancestors.length) ≤
      fuel + (found.map pool.ancestorCount).sum →
    (∀ txid ∈ found, ∀ entry, pool.transactions.get? txid = some entry →
      entry.ancestors ⊆ found ++ queue) →
    found ++ queue ⊆ pool.ancestorsLoop fuel queue found ∧
      ∀ txid ∈ pool.ancestorsLoop fuel queue found, ∀ entry,
        pool.transactions.get? txid = some entry →
        entry.ancestors ⊆ pool.ancestorsLoop fuel queue found := by
  induction fuel with
  | zero =>
    intro queue found hnodup hfuel hfound
    have hsum := pool.transactions.sum_deleteAll (fun entry => entry.ancestors.length) hnodup
    have hsame : found.map pool.ancestorCount =
      found.map (pool.transactions.columnAt fun entry => entry.ancestors.length) := rfl
    have hempty : queue = [] := by
      refine List.length_eq_zero_iff.1 ?_
      rw [hsame] at hfuel
      omega
    subst hempty
    simpa [ancestorsLoop] using hfound
  | succ fuel ih =>
    intro queue found hnodup hfuel hfound
    cases queue with
    | nil => simpa [ancestorsLoop] using hfound
    | cons current queue =>
      rw [List.length_cons] at hfuel
      rw [ancestorsLoop]
      split_ifs with hmem
      · obtain ⟨hsub, hclosed⟩ := ih queue found hnodup (by omega) (by
          intro txid htxid entry hentry ancestor hancestor
          rcases List.mem_append.1 (hfound txid htxid entry hentry hancestor) with hin | hin
          · exact List.mem_append_left _ hin
          · rcases List.mem_cons.1 hin with rfl | hin
            · exact List.mem_append_left _ hmem
            · exact List.mem_append_right _ hin)
        refine ⟨?_, hclosed⟩
        intro txid htxid
        rcases List.mem_append.1 htxid with hin | hin
        · exact hsub (List.mem_append_left _ hin)
        · rcases List.mem_cons.1 hin with rfl | hin
          · exact hsub (List.mem_append_left _ hmem)
          · exact hsub (List.mem_append_right _ hin)
      · have hnodup' : (found ++ [current]).Nodup := by
          rw [← addNew_of_not_mem hmem]
          exact nodup_addNew hnodup (List.nodup_singleton current)
        have hcount : ((found ++ [current]).map pool.ancestorCount).sum =
            (found.map pool.ancestorCount).sum + pool.ancestorCount current := by simp
        have hlist : found ++ current :: queue = (found ++ [current]) ++ queue := by simp
        rw [hlist] at hfound ⊢
        cases hentry : pool.transactions.get? current with
        | none =>
          refine ih queue (found ++ [current]) hnodup' (by omega) ?_
          intro txid htxid entry htxid'
          rcases List.mem_append.1 htxid with hin | hin
          · exact hfound txid hin entry htxid'
          · rw [List.mem_singleton.1 hin, hentry] at htxid'
            cases htxid'
        | some entry =>
          have hown : pool.ancestorCount current = entry.ancestors.length := by
            simp [ancestorCount, KeyedRows.columnAt, hentry]
          have hnew := List.length_filter_le (fun a => decide (a ∉ found ++ [current])) entry.ancestors
          obtain ⟨hsub, hclosed⟩ := ih
            (queue ++ entry.ancestors.filter (· ∉ found ++ [current])) (found ++ [current]) hnodup'
            (by rw [List.length_append]; omega) (by
              intro txid htxid entry' hentry' ancestor hancestor
              rcases List.mem_append.1 htxid with hin | hin
              · have hold := hfound txid hin entry' hentry' hancestor
                rw [← List.append_assoc]
                exact List.mem_append_left _ hold
              · rw [List.mem_singleton.1 hin, hentry] at hentry'
                cases hentry'
                by_cases hseen : ancestor ∈ found ++ [current]
                · exact List.mem_append_left _ hseen
                · refine List.mem_append_right _ (List.mem_append_right _ ?_)
                  exact List.mem_filter.2 ⟨hancestor, by simpa using hseen⟩)
          refine ⟨?_, hclosed⟩
          intro txid htxid
          refine hsub ?_
          rw [← List.append_assoc]
          exact List.mem_append_left _ htxid

/-- In a linked pool the ancestors of some parents are the parents and all that they reach. -/
lemma Linked.mem_collectAncestors (h : Linked settings pool) {parents : List Bytes}
    (hparents : ∀ parent ∈ parents, pool.transactions.get? parent ≠ none) {txid : Bytes} :
    txid ∈ pool.collectAncestors parents ↔
      ∃ parent ∈ parents, txid = parent ∨ TransGen pool.Spends parent txid := by
  obtain ⟨hsub, hclosed⟩ := ancestorsLoop_complete pool
    (1 + parents.length + pool.transactions.sum fun entry => entry.ancestors.length) parents []
    List.nodup_nil (by simp) (by simp)
  constructor
  · refine ancestorsLoop_sound (Q := fun txid => ∃ parent ∈ parents, txid = parent ∨
      TransGen pool.Spends parent txid) ?_ _ parents [] ?_ (by simp) txid
    · rintro current entry hentry ⟨parent, hparent, hreach⟩ ancestor hancestor
      have hstep := (h.ancestors current entry hentry ancestor).1 hancestor
      rcases hreach with rfl | hreach
      · exact ⟨current, hparent, .inr hstep⟩
      · exact ⟨parent, hparent, .inr (hreach.trans hstep)⟩
    · intro parent hparent
      exact ⟨parent, hparent, .inl rfl⟩
  · rintro ⟨parent, hparent, hreach⟩
    have hin : parent ∈ pool.collectAncestors parents := hsub hparent
    rcases hreach with rfl | hreach
    · exact hin
    · obtain ⟨entry, hentry⟩ := Option.ne_none_iff_exists'.1 (hparents parent hparent)
      exact hclosed parent hin entry hentry ((h.ancestors parent entry hentry txid).2 hreach)

end Mempool
end BerzCoin
