import BerzCoin.Mempool

/-! The redundant records of the mempool: totals, spent outpoints and the two sorted indexes agree
with the entries in every state that the calls reach, whatever the chain shows to each call. -/
namespace BerzCoin

/-- An entry without its links to other entries. -/
def MempoolEntry.core {F : Type} (entry : MempoolEntry F) : MempoolEntry F :=
  { entry with ancestors := [], descendants := [] }

namespace Mempool
variable {F : Type}

lemma nodup_txids (pool : Mempool F) : pool.txids.Nodup := pool.transactions.nodupKeys

lemma mem_txids {pool : Mempool F} {txid : Bytes} :
    txid ∈ pool.txids ↔ pool.transactions.get? txid ≠ none := KeyedRows.mem_keys

/-- The entries of a pool are among those of another one, up to their links. -/
def Within (pool pool' : Mempool F) : Prop :=
  ∀ txid entry, pool.transactions.get? txid = some entry →
    ∃ entry', pool'.transactions.get? txid = some entry' ∧ entry.core = entry'.core

lemma Within.refl (pool : Mempool F) : pool.Within pool := fun _ entry h => ⟨entry, h, rfl⟩

lemma Within.trans {pool pool' pool'' : Mempool F} (h : pool.Within pool')
    (h' : pool'.Within pool'') : pool.Within pool'' := by
  intro txid entry hentry
  obtain ⟨entry', hentry', hcore⟩ := h txid entry hentry
  obtain ⟨entry'', hentry'', hcore'⟩ := h' txid entry' hentry'
  exact ⟨entry'', hentry'', hcore.trans hcore'⟩

lemma Within.absent {pool pool' : Mempool F} (h : pool.Within pool') {txid : Bytes}
    (hnone : pool'.transactions.get? txid = none) : pool.transactions.get? txid = none := by
  by_contra hsome
  obtain ⟨entry, hentry⟩ := Option.ne_none_iff_exists'.1 hsome
  obtain ⟨entry', hentry', -⟩ := h txid entry hentry
  rw [hnone] at hentry'
  cases hentry'

/-! Changes of links. -/

/-- A change of entries that leaves all but their links alone. -/
def Relinks (g : MempoolEntry F → MempoolEntry F) : Prop := ∀ entry, (g entry).core = entry.core

def relink (pool : Mempool F) (p : Bytes → Bool) (g : MempoolEntry F → MempoolEntry F) : Mempool F :=
  { pool with transactions := pool.transactions.updateWhere p g }

lemma relink_get? (pool : Mempool F) (p : Bytes → Bool) (g : MempoolEntry F → MempoolEntry F)
    (txid : Bytes) : (pool.relink p g).transactions.get? txid =
      if p txid then (pool.transactions.get? txid).map g else pool.transactions.get? txid :=
  KeyedRows.get?_updateWhere ..

lemma Relinks.get? {g : MempoolEntry F → MempoolEntry F} (hg : Relinks g) {pool : Mempool F}
    {p : Bytes → Bool} {txid : Bytes} {entry : MempoolEntry F}
    (h : (pool.relink p g).transactions.get? txid = some entry) :
    ∃ entry', pool.transactions.get? txid = some entry' ∧ entry.core = entry'.core := by
  rw [relink_get?] at h
  split_ifs at h with hp
  · obtain ⟨entry', hentry', rfl⟩ := Option.map_eq_some_iff.1 h
    exact ⟨entry', hentry', hg entry'⟩
  · exact ⟨entry, h, rfl⟩

lemma Relinks.within {g : MempoolEntry F → MempoolEntry F} (hg : Relinks g) (pool : Mempool F)
    (p : Bytes → Bool) : (pool.relink p g).Within pool := fun _ _ h => hg.get? h

/-- Every field of an entry but its links can be read off its core. -/
lemma core_congr {entry entry' : MempoolEntry F} (h : entry.core = entry'.core) :
    entry.tx = entry'.tx ∧ entry.txid = entry'.txid ∧ entry.size = entry'.size ∧
      entry.vsize = entry'.vsize ∧ entry.weight = entry'.weight ∧ entry.fee = entry'.fee ∧
      entry.feeRate = entry'.feeRate := by
  have hfields := h
  simp only [MempoolEntry.core, MempoolEntry.mk.injEq] at hfields
  obtain ⟨htx, hid, hsize, hvsize, hweight, hfee, hrate, -⟩ := hfields
  exact ⟨htx, hid, hsize, hvsize, hweight, hfee, hrate⟩

lemma Relinks.feeRateOf {g : MempoolEntry F → MempoolEntry F} (hg : Relinks g) (pool : Mempool F)
    (p : Bytes → Bool) (txid : Bytes) : (pool.relink p g).feeRateOf txid = pool.feeRateOf txid := by
  unfold Mempool.feeRateOf
  rw [relink_get?]
  split_ifs
  · cases pool.transactions.get? txid with
    | none => rfl
    | some entry =>
      obtain ⟨-, -, -, -, -, -, hrate⟩ := core_congr (hg entry)
      exact congrArg some hrate
  · rfl

variable [LinearOrder F]

/-- The records that are kept next to the entries. -/
structure Books (pool : Mempool F) : Prop where
  ids : ∀ txid entry, pool.transactions.get? txid = some entry → entry.txid = txid
  size : pool.totalSize = pool.transactions.total fun entry => entry.size
  vsize : pool.totalVsize = pool.transactions.total fun entry => entry.vsize
  weight : pool.totalWeight = pool.transactions.total fun entry => entry.weight
  fee : pool.totalFee = pool.transactions.total fun entry => entry.fee
  spent : ∀ outpoint, outpoint ∈ pool.spentUtxos ↔
    ∃ txid entry, pool.transactions.get? txid = some entry ∧ outpoint ∈ outpointsOf entry.tx
  distinct : ∀ txid txid' entry entry' outpoint, pool.transactions.get? txid = some entry →
    pool.transactions.get? txid' = some entry' → outpoint ∈ outpointsOf entry.tx →
    outpoint ∈ outpointsOf entry'.tx → txid = txid'
  byFee : pool.txByFee.Perm pool.txids
  byFeeSorted : pool.txByFee.Pairwise fun a b => pool.feeRateOf b ≤ pool.feeRateOf a
  byTime : pool.txByTime.Perm pool.txids

lemma Books.empty : Books (Mempool.empty : Mempool F) where
  ids := by simp [Mempool.empty]
  size := rfl
  vsize := rfl
  weight := rfl
  fee := rfl
  spent := by simp [Mempool.empty]
  distinct := by simp [Mempool.empty]
  byFee := List.Perm.nil
  byFeeSorted := List.Pairwise.nil
  byTime := List.Perm.nil

lemma Books.relink {pool : Mempool F} (h : pool.Books) {g : MempoolEntry F → MempoolEntry F}
    (hg : Relinks g) (p : Bytes → Bool) : (pool.relink p g).Books := by
  have hfields (entry : MempoolEntry F) := core_congr (hg entry)
  have htotal {f : MempoolEntry F → ℤ} (hf : ∀ entry, f (g entry) = f entry) :
      (pool.relink p g).transactions.total f = pool.transactions.total f :=
    KeyedRows.total_updateWhere _ _ hf
  have hids : (pool.relink p g).txids = pool.txids := KeyedRows.keys_updateWhere ..
  refine ⟨?_, ?_, ?_, ?_, ?_, ?_, ?_, ?_, ?_, ?_⟩
  · intro txid entry hentry
    obtain ⟨entry', hentry', hcore⟩ := hg.get? hentry
    exact (core_congr hcore).2.1.trans (h.ids txid entry' hentry')
  · rw [htotal fun entry => by rw [(hfields entry).2.2.1]]
    exact h.size
  · rw [htotal fun entry => by rw [(hfields entry).2.2.2.1]]
    exact h.vsize
  · rw [htotal fun entry => by rw [(hfields entry).2.2.2.2.1]]
    exact h.weight
  · rw [htotal fun entry => by rw [(hfields entry).2.2.2.2.2.1]]
    exact h.fee
  · intro outpoint
    have hspent : (pool.relink p g).spentUtxos = pool.spentUtxos := rfl
    rw [hspent, h.spent]
    constructor
    · rintro ⟨txid, entry, hentry, hmem⟩
      by_cases hp : p txid = true
      · refine ⟨txid, g entry, by rw [relink_get?, if_pos hp, hentry]; rfl, ?_⟩
        rwa [(hfields entry).1]
      · exact ⟨txid, entry, by rw [relink_get?, if_neg hp, hentry], hmem⟩
    · rintro ⟨txid, entry, hentry, hmem⟩
      obtain ⟨entry', hentry', hcore⟩ := hg.get? hentry
      rw [(core_congr hcore).1] at hmem
      exact ⟨txid, entry', hentry', hmem⟩
  · intro txid txid' entry entry' outpoint hentry hentry' hmem hmem'
    obtain ⟨old, hold, hcore⟩ := hg.get? hentry
    obtain ⟨old', hold', hcore'⟩ := hg.get? hentry'
    rw [(core_congr hcore).1] at hmem
    rw [(core_congr hcore').1] at hmem'
    exact h.distinct txid txid' old old' outpoint hold hold' hmem hmem'
  · rw [hids]
    exact h.byFee
  · have hsame : (pool.relink p g).txByFee = pool.txByFee := rfl
    rw [hsame]
    refine h.byFeeSorted.imp ?_
    intro a b hle
    rwa [hg.feeRateOf, hg.feeRateOf]
  · rw [hids]
    exact h.byTime

/-! Removal. -/

/-- A pool without an entry, whose links still stand in the others. -/
def withoutEntry (pool : Mempool F) (entry : MempoolEntry F) (txid : Bytes) : Mempool F :=
  { transactions := pool.transactions.delete txid
    txByFee := pool.txByFee.erase txid
    txByTime := pool.txByTime.erase txid
    spentUtxos := pool.spentUtxos \ (entry.tx.vin.map TxIn.outpoint).toFinset
    unconfirmedParents := pool.unconfirmedParents.delete txid
    totalSize := pool.totalSize - entry.size
    totalVsize := pool.totalVsize - entry.vsize
    totalWeight := pool.totalWeight - entry.weight
    totalFee := pool.totalFee - entry.fee }

def eraseDescendant (txid : Bytes) (entry : MempoolEntry F) : MempoolEntry F :=
  { entry with descendants := entry.descendants.erase txid }

def eraseAncestor (txid : Bytes) (entry : MempoolEntry F) : MempoolEntry F :=
  { entry with ancestors := entry.ancestors.erase txid }

omit [LinearOrder F] in
lemma removeEntry_eq {pool : Mempool F} {txid : Bytes} {entry : MempoolEntry F}
    (h : pool.transactions.get? txid = some entry) :
    pool.removeEntry txid = ((pool.withoutEntry entry txid).relink (· ∈ entry.ancestors)
      (eraseDescendant txid)).relink (· ∈ entry.descendants) (eraseAncestor txid) := by
  unfold removeEntry
  rw [h]
  rfl

omit [LinearOrder F] in
lemma relinks_eraseDescendant (txid : Bytes) : Relinks (eraseDescendant txid : _ → MempoolEntry F) :=
  fun _ => rfl

omit [LinearOrder F] in
lemma relinks_eraseAncestor (txid : Bytes) : Relinks (eraseAncestor txid : _ → MempoolEntry F) :=
  fun _ => rfl

omit [LinearOrder F] in
lemma withoutEntry_get? {pool : Mempool F} {entry entry' : MempoolEntry F} {txid txid' : Bytes} :
    (pool.withoutEntry entry txid).transactions.get? txid' = some entry' ↔
      txid' ≠ txid ∧ pool.transactions.get? txid' = some entry' := by
  simp only [withoutEntry, KeyedRows.get?_delete]
  split_ifs with h <;> simp [h]

lemma Books.withoutEntry {pool : Mempool F} (h : pool.Books) {txid : Bytes} {entry : MempoolEntry F}
    (hentry : pool.transactions.get? txid = some entry) : (pool.withoutEntry entry txid).Books := by
  have hkeys := KeyedRows.perm_keys_delete hentry
  have hperm {l : List Bytes} (hl : l.Perm pool.txids) :
      (l.erase txid).Perm (pool.withoutEntry entry txid).txids := by
    have hboth := (hl.trans hkeys).erase txid
    rwa [List.erase_cons_head] at hboth
  refine ⟨?_, ?_, ?_, ?_, ?_, ?_, ?_, hperm h.byFee, ?_, hperm h.byTime⟩
  · intro txid' entry' hentry'
    exact h.ids txid' entry' (withoutEntry_get?.1 hentry').2
  · exact (congrArg (· - (entry.size : ℤ)) h.size).trans (KeyedRows.total_delete hentry _).symm
  · exact (congrArg (· - (entry.vsize : ℤ)) h.vsize).trans (KeyedRows.total_delete hentry _).symm
  · exact (congrArg (· - (entry.weight : ℤ)) h.weight).trans (KeyedRows.total_delete hentry _).symm
  · exact (congrArg (· - entry.fee) h.fee).trans (KeyedRows.total_delete hentry _).symm
  · intro outpoint
    have hspent : outpoint ∈ (pool.withoutEntry entry txid).spentUtxos ↔
        outpoint ∈ pool.spentUtxos ∧ outpoint ∉ outpointsOf entry.tx := by
      simp [Mempool.withoutEntry, outpointsOf]
    rw [hspent, h.spent]
    constructor
    · rintro ⟨⟨txid', entry', hentry', hmem⟩, hnot⟩
      refine ⟨txid', entry', withoutEntry_get?.2 ⟨?_, hentry'⟩, hmem⟩
      rintro rfl
      rw [hentry] at hentry'
      cases hentry'
      exact hnot hmem
    · rintro ⟨txid', entry', hentry', hmem⟩
      obtain ⟨hne, hentry'⟩ := withoutEntry_get?.1 hentry'
      refine ⟨⟨txid', entry', hentry', hmem⟩, ?_⟩
      intro hown
      exact hne (h.distinct txid' txid entry' entry outpoint hentry' hentry hmem hown)
  · intro txid₁ txid₂ entry₁ entry₂ outpoint h₁ h₂
    exact h.distinct txid₁ txid₂ entry₁ entry₂ outpoint (withoutEntry_get?.1 h₁).2
      (withoutEntry_get?.1 h₂).2
  · -- Among the ids that are left the rates are as before.
    have hsub : ((pool.txByFee.erase txid).Pairwise fun a b => pool.feeRateOf b ≤ pool.feeRateOf a) :=
      h.byFeeSorted.sublist List.erase_sublist
    have hnodup : pool.txByFee.Nodup := h.byFee.nodup_iff.2 pool.nodup_txids
    refine hsub.imp_of_mem ?_
    intro a b ha hb hle
    have hrate {c : Bytes} (hc : c ∈ pool.txByFee.erase txid) :
        (pool.withoutEntry entry txid).feeRateOf c = pool.feeRateOf c := by
      have hne : c ≠ txid := (hnodup.mem_erase_iff.1 hc).1
      unfold Mempool.feeRateOf Mempool.withoutEntry
      rw [KeyedRows.get?_delete, if_neg hne]
    rwa [hrate ha, hrate hb]

lemma Books.removeEntry {pool : Mempool F} (h : pool.Books) (txid : Bytes) :
    (pool.removeEntry txid).Books := by
  cases hentry : pool.transactions.get? txid with
  | none =>
    unfold Mempool.removeEntry
    rw [hentry]
    exact h
  | some entry =>
    rw [removeEntry_eq hentry]
    exact ((h.withoutEntry hentry).relink (relinks_eraseDescendant txid) _).relink
      (relinks_eraseAncestor txid) _

omit [LinearOrder F] in
lemma removeEntry_within (pool : Mempool F) (txid : Bytes) : (pool.removeEntry txid).Within pool := by
  cases hentry : pool.transactions.get? txid with
  | none =>
    unfold Mempool.removeEntry
    rw [hentry]
    exact .refl pool
  | some entry =>
    rw [removeEntry_eq hentry]
    refine ((relinks_eraseAncestor txid).within _ _).trans
      (((relinks_eraseDescendant txid).within _ _).trans ?_)
    intro txid' entry' hentry'
    exact ⟨entry', (withoutEntry_get?.1 hentry').2, rfl⟩

omit [LinearOrder F] in
lemma removeEntry_absent (pool : Mempool F) (txid : Bytes) :
    (pool.removeEntry txid).transactions.get? txid = none := by
  cases hentry : pool.transactions.get? txid with
  | none =>
    unfold Mempool.removeEntry
    rw [hentry]
    exact hentry
  | some entry =>
    rw [removeEntry_eq hentry]
    refine ((relinks_eraseAncestor txid).within _ _).absent
      (((relinks_eraseDescendant txid).within _ _).absent ?_)
    simp [Mempool.withoutEntry]

/-- A property that every single removal keeps. -/
def KeptByRemoval (P : Mempool F → Prop) : Prop := ∀ pool txid, P pool → P (pool.removeEntry txid)

/-- A property that every removal of an entry with its descendants keeps. -/
def KeptByDeparture (P : Mempool F → Prop) : Prop :=
  ∀ pool txid, P pool → P (pool.removeTransaction txid true)

section removal
variable {P : Mempool F → Prop}

omit [LinearOrder F] in
lemma KeptByRemoval.removeEntries (hP : KeptByRemoval P) {pool : Mempool F} (h : P pool)
    (ids : List Bytes) : P (pool.removeEntries ids) := by
  induction ids generalizing pool with
  | nil => exact h
  | cons txid ids ih => exact ih (hP pool txid h)

omit [LinearOrder F] in
lemma KeptByRemoval.removeTransaction (hP : KeptByRemoval P) {pool : Mempool F} (h : P pool)
    (txid : Bytes) (desc : Bool) : P (pool.removeTransaction txid desc) := by
  unfold Mempool.removeTransaction
  split_ifs
  · exact hP.removeEntries h _
  · exact hP.removeEntries h _
  · exact h

omit [LinearOrder F] in
lemma KeptByRemoval.departure (hP : KeptByRemoval P) : KeptByDeparture P :=
  fun _ txid h => hP.removeTransaction h txid true

variable (hP : KeptByDeparture P)
include hP

omit [LinearOrder F] in
lemma KeptByDeparture.removeEach {pool : Mempool F} (h : P pool) (ids : List Bytes) :
    P (pool.removeEach ids) := by
  induction ids generalizing pool with
  | nil => exact h
  | cons txid ids ih => exact ih (hP pool txid h)

lemma KeptByDeparture.evictLoop (settings : MempoolSettings F) (size weight : ℕ) (feeRate : F)
    {pool : Mempool F} (h : P pool) (ids : List Bytes) :
    P (evictLoop settings size weight feeRate ids pool) := by
  induction ids generalizing pool with
  | nil => exact h
  | cons txid ids ih =>
    rw [Mempool.evictLoop]
    split_ifs
    · exact h
    · exact h
    · exact ih (hP pool txid h)
    · exact ih h

lemma KeptByDeparture.makeRoom (settings : MempoolSettings F) {pool : Mempool F} (h : P pool)
    (c : Candidate F) : P (pool.makeRoom settings c) := by
  unfold Mempool.makeRoom
  split_ifs
  · exact h
  · exact hP.evictLoop settings _ _ _ h _

omit [LinearOrder F] in
lemma KeptByDeparture.revalidateLoop (settings : MempoolSettings F) (chain : ChainView)
    {pool : Mempool F} (h : P pool) (ids : List Bytes) :
    P (revalidateLoop settings chain ids pool) := by
  induction ids generalizing pool with
  | nil => exact h
  | cons txid ids ih =>
    rw [Mempool.revalidateLoop]
    cases pool.transactions.get? txid with
    | none => exact ih h
    | some entry =>
      simp only
      split_ifs
      · exact ih h
      · exact ih (hP pool txid h)

omit [LinearOrder F] in
lemma KeptByDeparture.handleConnectedBlock (settings : MempoolSettings F) (chain : ChainView)
    {pool : Mempool F} (h : P pool) (block : Block) :
    P (pool.handleConnectedBlock settings chain block) :=
  hP.revalidateLoop settings chain (hP.removeEach h _) _

end removal

lemma keptByRemoval_books : KeptByRemoval (Books : Mempool F → Prop) := fun _ txid h => h.removeEntry txid

omit [LinearOrder F] in
lemma keptByRemoval_within (pool : Mempool F) : KeptByRemoval fun pool' => pool'.Within pool :=
  fun pool' txid h => (pool'.removeEntry_within txid).trans h

omit [LinearOrder F] in
lemma keptByRemoval_absent (txid : Bytes) :
    KeptByRemoval fun pool : Mempool F => pool.transactions.get? txid = none :=
  fun pool txid' h => (pool.removeEntry_within txid').absent h

omit [LinearOrder F] in
lemma removeTransaction_absent (pool : Mempool F) (txid : Bytes) (desc : Bool) :
    (pool.removeTransaction txid desc).transactions.get? txid = none := by
  unfold removeTransaction
  split_ifs with hmem
  · exact (keptByRemoval_absent txid).removeEntries (pool.removeEntry_absent txid) _
  · exact (keptByRemoval_absent txid).removeEntries (pool.removeEntry_absent txid) _
  · simpa [KeyedRows.contains] using hmem

omit [LinearOrder F] in
lemma removeEach_absent (pool : Mempool F) {ids : List Bytes} {txid : Bytes} (h : txid ∈ ids) :
    (pool.removeEach ids).transactions.get? txid = none := by
  induction ids generalizing pool with
  | nil => cases h
  | cons txid' ids ih =>
    rcases List.mem_cons.1 h with rfl | h
    · exact (keptByRemoval_absent txid).departure.removeEach (pool.removeTransaction_absent txid true) ids
    · exact ih (pool.removeTransaction txid' true) h

/-! Acceptance. -/

section screen
variable {settings : MempoolSettings F} {chain : ChainView} {pool : Mempool F}

/-- What the checks before the eviction have established. -/
structure Screened (settings : MempoolSettings F) (chain : ChainView) (pool : Mempool F)
    (tx : Transaction) (c : Candidate F) : Prop where
  tx_eq : c.tx = tx
  txid_eq : c.txid = tx.txid settings.crypto.toHashlib
  fresh : pool.transactions.get? c.txid = none
  conflicts_eq : c.conflicts = pool.findConflictingTxids tx
  valid : pool.validateTransaction settings chain tx (fun outpoint =>
    outpoint ∈ pool.buildIgnoredSpentSet c.conflicts) = .ok ()
  parents_eq : pool.checkDependencies chain tx.vin = some c.parents
  ancestors_eq : c.ancestors = pool.collectAncestors c.parents
  ancestorCount : c.ancestors.length ≤ settings.limits.maxAncestors

lemma screen_ok {args : CallArgs F} {tx : Transaction} {c : Candidate F}
    (h : pool.screen settings chain args tx = .ok c) : Screened settings chain pool tx c := by
  unfold screen at h
  simp only [bind, Except.bind, pure, Except.pure, throw, throwThe, MonadExceptOf.throw] at h
  cases hvalid : pool.validateTransaction settings chain tx (fun outpoint =>
      outpoint ∈ pool.buildIgnoredSpentSet (pool.findConflictingTxids tx)) with
  | error reason =>
    simp only [hvalid] at h
    split_ifs at h
  | ok u =>
    cases hparents : pool.checkDependencies chain tx.vin with
    | none =>
      simp only [hvalid, hparents, Option.elim_none] at h
      split_ifs at h
    | some parents =>
      simp only [hvalid, hparents, Option.elim_some] at h
      split_ifs at h with hmem hreplace hstandard hfloor hcount hsize
      cases h
      refine ⟨rfl, rfl, ?_, rfl, hvalid, hparents, rfl, Nat.le_of_not_lt hcount⟩
      simpa [KeyedRows.contains] using hmem

omit [LinearOrder F] in
/-- Entries that are no conflicts spend other outpoints. -/
lemma mem_findConflictingTxids {tx : Transaction} {txid : Bytes} {entry : MempoolEntry F}
    (h : pool.transactions.get? txid = some entry) {outpoint : Outpoint}
    (hmem : outpoint ∈ outpointsOf tx) (hmem' : outpoint ∈ outpointsOf entry.tx) :
    txid ∈ pool.findConflictingTxids tx := by
  refine List.mem_map.2 ⟨(txid, entry), List.mem_filter.2 ⟨KeyedRows.mem_rows_of_get? h, ?_⟩, rfl⟩
  exact List.any_eq_true.2 ⟨outpoint, hmem, by simpa using hmem'⟩

omit [LinearOrder F] in
lemma subset_replacementSet (conflicts : List Bytes) {txid : Bytes} (h : txid ∈ conflicts) :
    txid ∈ pool.replacementSet conflicts := by
  have hfold (ids : List Bytes) {found : List Bytes} (hfound : txid ∈ found) :
      txid ∈ ids.foldl (fun found txid => addNew found (pool.getDescendants txid)) found := by
    induction ids generalizing found with
    | nil => exact hfound
    | cons id ids ih => exact ih (List.mem_append_left _ hfound)
  exact hfold conflicts h

omit [LinearOrder F] in
/-- No entry that is left when the conflicts are gone spends an input of the candidate. -/
lemma Screened.disjoint {tx : Transaction} {c : Candidate F} (h : Screened settings chain pool tx c)
    {roomy : Mempool F} (hroomy : roomy.Within pool) {txid : Bytes} {entry : MempoolEntry F}
    (hentry : (roomy.removeConflicts c).transactions.get? txid = some entry) {outpoint : Outpoint}
    (hmem : outpoint ∈ outpointsOf c.tx) : outpoint ∉ outpointsOf entry.tx := by
  intro hmem'
  have hwithin : (roomy.removeConflicts c).Within pool :=
    (keptByRemoval_within pool).departure.removeEach hroomy _
  obtain ⟨old, hold, hcore⟩ := hwithin txid entry hentry
  rw [(core_congr hcore).1] at hmem'
  rw [h.tx_eq] at hmem
  have hconflict : txid ∈ c.conflicts := by
    rw [h.conflicts_eq]
    exact mem_findConflictingTxids hold hmem hmem'
  rw [removeConflicts, removeEach_absent _ (subset_replacementSet _ hconflict)] at hentry
  cases hentry

end screen

section insertion
variable {settings : MempoolSettings F} {chain : ChainView} {pool : Mempool F} {c : Candidate F}

/-- The entry of an accepted candidate. -/
def Candidate.entry (chain : ChainView) (now : F) (c : Candidate F) : MempoolEntry F :=
  ⟨c.tx, c.txid, c.size, c.vsize, c.weight, c.fee, c.feeRate, now, chain.bestHeight, c.ancestors, []⟩

lemma insertEntry_transactions (now : F) : (pool.insertEntry chain now c).transactions =
    pool.transactions.put c.txid (c.entry chain now) := rfl

lemma insertEntry_get? (now : F) (txid : Bytes) :
    (pool.insertEntry chain now c).transactions.get? txid =
      if txid = c.txid then some (c.entry chain now) else pool.transactions.get? txid := by
  rw [insertEntry_transactions, KeyedRows.get?_put]

lemma Books.insertEntry (h : pool.Books) (now : F) (hfresh : pool.transactions.get? c.txid = none)
    (hdisjoint : ∀ txid entry, pool.transactions.get? txid = some entry → ∀ outpoint,
      outpoint ∈ outpointsOf c.tx → outpoint ∉ outpointsOf entry.tx) :
    (pool.insertEntry chain now c).Books := by
  have hkeys : (pool.insertEntry chain now c).txids = pool.txids ++ [c.txid] :=
    KeyedRows.keys_put_new _ hfresh
  have hold {txid : Bytes} {entry : MempoolEntry F} (hentry : pool.transactions.get? txid = some entry) :
      txid ≠ c.txid := by
    rintro rfl
    rw [hfresh] at hentry
    cases hentry
  have htotal (f : MempoolEntry F → ℤ) : (pool.insertEntry chain now c).transactions.total f =
      pool.transactions.total f + f (c.entry chain now) := KeyedRows.total_put_new hfresh f
  refine ⟨?_, ?_, ?_, ?_, ?_, ?_, ?_, ?_, ?_, ?_⟩
  · intro txid entry hentry
    rw [insertEntry_get?] at hentry
    split_ifs at hentry with heq
    · cases hentry
      exact heq.symm
    · exact h.ids txid entry hentry
  · rw [htotal, ← h.size]
    rfl
  · rw [htotal, ← h.vsize]
    rfl
  · rw [htotal, ← h.weight]
    rfl
  · rw [htotal, ← h.fee]
    rfl
  · intro outpoint
    have hspent : outpoint ∈ (pool.insertEntry chain now c).spentUtxos ↔
        outpoint ∈ pool.spentUtxos ∨ outpoint ∈ outpointsOf c.tx := by
      simp [Mempool.insertEntry]
    rw [hspent, h.spent]
    constructor
    · rintro (⟨txid, entry, hentry, hmem⟩ | hmem)
      · exact ⟨txid, entry, by rw [insertEntry_get?, if_neg (hold hentry), hentry], hmem⟩
      · exact ⟨c.txid, c.entry chain now, by rw [insertEntry_get?, if_pos rfl], hmem⟩
    · rintro ⟨txid, entry, hentry, hmem⟩
      rw [insertEntry_get?] at hentry
      split_ifs at hentry
      · cases hentry
        exact .inr hmem
      · exact .inl ⟨txid, entry, hentry, hmem⟩
  · intro txid txid' entry entry' outpoint hentry hentry' hmem hmem'
    rw [insertEntry_get?] at hentry hentry'
    split_ifs at hentry hentry' with heq heq' heq'
    · exact heq.trans heq'.symm
    · cases hentry
      exact (hdisjoint txid' entry' hentry' outpoint hmem hmem').elim
    · cases hentry'
      exact (hdisjoint txid entry hentry outpoint hmem' hmem).elim
    · exact h.distinct txid txid' entry entry' outpoint hentry hentry' hmem hmem'
  · rw [hkeys]
    exact (List.perm_insertionSort _ _).trans (h.byFee.append_right _)
  · exact List.pairwise_insertionSort (fun a b => (pool.insertEntry chain now c).feeRateOf b ≤
      (pool.insertEntry chain now c).feeRateOf a) _
  · rw [hkeys]
    exact (List.perm_insertionSort _ _).trans (h.byTime.append_right _)

omit [LinearOrder F] in
lemma addDescendant_eq (pool : Mempool F) (ancestor txid : Bytes) :
    pool.addDescendant ancestor txid = pool.relink (· = ancestor) fun entry =>
      { entry with descendants := addNew entry.descendants [txid] } := rfl

omit [LinearOrder F] in
lemma relinks_addNew (txid : Bytes) : Relinks fun entry : MempoolEntry F =>
    { entry with descendants := addNew entry.descendants [txid] } := fun _ => rfl

lemma Books.linkAncestors (h : pool.Books) (txid : Bytes) (ancestors : List Bytes) :
    (Mempool.linkAncestors settings txid ancestors pool).1.Books := by
  induction ancestors generalizing pool with
  | nil => exact h
  | cons ancestor rest ih =>
    have hlinked : (pool.addDescendant ancestor txid).Books := by
      rw [addDescendant_eq]
      exact h.relink (relinks_addNew txid) _
    simp only [Mempool.linkAncestors]
    cases (pool.addDescendant ancestor txid).transactions.get? ancestor with
    | none => exact ih h
    | some entry =>
      simp only
      split_ifs
      · exact keptByRemoval_books.removeTransaction hlinked txid false
      · exact keptByRemoval_books.removeTransaction hlinked txid false
      · exact ih hlinked

end insertion

section calls
variable (settings : MempoolSettings F) (chain : ChainView)

lemma Books.addTransaction {pool : Mempool F} (h : pool.Books) (args : CallArgs F) (tx : Transaction) :
    (pool.addTransaction settings chain args tx).1.Books := by
  unfold Mempool.addTransaction
  cases hscreen : pool.screen settings chain args tx with
  | error reason => exact h
  | ok c =>
    have hs := screen_ok hscreen
    have hroomy := keptByRemoval_books.departure.makeRoom settings h c
    have hwithin := (keptByRemoval_within pool).departure.makeRoom settings (.refl pool) c
    simp only
    split_ifs
    · have hcleared := keptByRemoval_books.departure.removeEach hroomy
        ((pool.makeRoom settings c).replacementSet c.conflicts)
      have habsent := ((keptByRemoval_within pool).departure.removeEach hwithin
        ((pool.makeRoom settings c).replacementSet c.conflicts)).absent hs.fresh
      refine (hcleared.insertEntry args.now habsent ?_).linkAncestors c.txid c.ancestors
      intro txid entry hentry outpoint hmem
      exact hs.disjoint hwithin hentry hmem
    · exact hroomy

/-- A condition on every addition that a package makes. -/
def PackageAll (C : Mempool F → CallArgs F → Transaction → Prop) (feeRate : F) :
    List (CallArgs F) → List Transaction → Mempool F → Prop
  | args :: rest, tx :: txs, pool =>
    C pool { args with packageMinFeeRate := some feeRate } tx ∧
      ∀ pool', pool.addTransaction settings chain { args with packageMinFeeRate := some feeRate } tx =
        (pool', none) → PackageAll C feeRate rest txs pool'
  | _, _, _ => True

lemma packageAll_true (feeRate : F) (txs : List Transaction) : ∀ argsList pool,
    PackageAll settings chain (fun _ _ _ => True) feeRate argsList txs pool := by
  induction txs with
  | nil =>
    intro argsList pool
    cases argsList <;> trivial
  | cons tx txs ih =>
    intro argsList pool
    cases argsList with
    | nil => trivial
    | cons args argsList => exact ⟨trivial, fun pool' _ => ih argsList pool'⟩

/-- A package is added one transaction after the other, and the ones that were added leave with
their descendants where a later one is rejected. -/
lemma KeptByDeparture.addPackageLoop {P : Mempool F → Prop} (hP : KeptByDeparture P)
    {C : Mempool F → CallArgs F → Transaction → Prop}
    (hadd : ∀ pool args tx, C pool args tx → P pool →
      P (pool.addTransaction settings chain args tx).1)
    {pool : Mempool F} (h : P pool) {feeRate : F} {argsList : List (CallArgs F)}
    {txs : List Transaction} (hC : PackageAll settings chain C feeRate argsList txs pool)
    (added : List Bytes) :
    P (Mempool.addPackageLoop settings chain feeRate argsList txs added pool).1 := by
  induction txs generalizing argsList added pool with
  | nil => cases argsList <;> exact h
  | cons tx txs ih =>
    cases argsList with
    | nil => exact h
    | cons args argsList =>
      obtain ⟨hfirst, hrest⟩ := hC
      have hnext := hadd pool { args with packageMinFeeRate := some feeRate } tx hfirst h
      rw [Mempool.addPackageLoop]
      rcases hres : pool.addTransaction settings chain
        { args with packageMinFeeRate := some feeRate } tx with ⟨pool', _ | reason⟩
      · rw [hres] at hnext
        exact ih hnext (hrest pool' hres) _
      · rw [hres] at hnext
        exact hP.removeEach hnext _

lemma KeptByRemoval.apply {P : Mempool F → Prop} (hP : KeptByRemoval P)
    (hadd : ∀ pool args tx, P pool → P (pool.addTransaction settings chain args tx).1)
    {pool : Mempool F} (h : P pool) (call : MempoolCall F) : P (call.apply settings chain pool) := by
  cases call with
  | addTransaction args tx => exact hadd pool args tx h
  | addPackage floor argsOf txs =>
    simp only [MempoolCall.apply, Mempool.addPackage]
    cases pool.planPackage settings chain floor txs with
    | error reason => exact h
    | ok plan =>
      exact hP.departure.addPackageLoop settings chain (fun pool args tx _ => hadd pool args tx) h
        (packageAll_true settings chain _ _ _ _) []
  | removeTransaction txid desc => exact hP.removeTransaction h txid desc
  | handleConnectedBlock block => exact hP.departure.handleConnectedBlock settings chain h block

end calls

/-- The pool after some calls, each with the chain as it is then. -/
def runCalls (settings : MempoolSettings F) (calls : List (ChainView × MempoolCall F)) : Mempool F :=
  calls.foldl (fun pool call => call.2.apply settings call.1 pool) Mempool.empty

/-- What holds of the empty pool and is kept by removals and additions holds after any calls. -/
lemma KeptByRemoval.runCalls {P : Mempool F → Prop} (hP : KeptByRemoval P) (h : P Mempool.empty)
    (settings : MempoolSettings F)
    (hadd : ∀ chain pool args tx, P pool → P (pool.addTransaction settings chain args tx).1)
    (calls : List (ChainView × MempoolCall F)) : P (runCalls settings calls) := by
  have hfold {pool : Mempool F} (h : P pool) :
      P (calls.foldl (fun pool call => call.2.apply settings call.1 pool) pool) := by
    induction calls generalizing pool with
    | nil => exact h
    | cons call calls ih => exact ih (hP.apply settings call.1 (hadd call.1) h call.2)
  exact hfold h

lemma Books.runCalls (settings : MempoolSettings F) (calls : List (ChainView × MempoolCall F)) :
    (runCalls settings calls).Books :=
  keptByRemoval_books.runCalls .empty settings
    (fun chain _ args tx h => h.addTransaction settings chain args tx) calls

/-- After any calls the totals are the sums over the entries, the spent outpoints are those of the
entries, no outpoint is spent twice, and both indexes list every entry once, the first in
descending order of the fee rates. -/
theorem books_runCalls (settings : MempoolSettings F) (calls : List (ChainView × MempoolCall F)) :
    (runCalls settings calls).Books ∧ (runCalls settings calls).txByFee.Nodup ∧
      (runCalls settings calls).txByTime.Nodup := by
  have hbooks := Books.runCalls settings calls
  refine ⟨hbooks, ?_, ?_⟩
  · exact hbooks.byFee.nodup_iff.2 (nodup_txids _)
  · exact hbooks.byTime.nodup_iff.2 (nodup_txids _)

end Mempool
end BerzCoin
