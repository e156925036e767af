import BerzCoin.MempoolLinks

/-! The limits of the mempool hold after any calls. The size of an entry with its ancestors is left
out: an ancestor that an eviction took while the entry was added may come back later. -/
namespace BerzCoin
namespace Mempool
variable {F : Type}

/-- The capacity of the pool and the limits on the links of an entry. -/
structure WithinLimits (limits : MempoolLimits) (pool : Mempool F) : Prop where
  count : pool.count ≤ limits.maxTransactions
  size : pool.totalSize ≤ limits.maxSize
  weight : pool.totalWeight ≤ limits.maxWeight
  ancestors : ∀ txid entry, pool.transactions.get? txid = some entry →
    entry.ancestors.length ≤ limits.maxAncestors
  descendants : ∀ txid entry, pool.transactions.get? txid = some entry →
    entry.descendants.length ≤ limits.maxDescendants
  packages : ∀ txid entry, pool.transactions.get? txid = some entry → entry.descendants ≠ [] →
    entry.vsize + sumVsize (pool.entriesOf entry.descendants) ≤ limits.maxDescendantSizeVbytes

lemma WithinLimits.empty (limits : MempoolLimits) : WithinLimits limits (Mempool.empty : Mempool F) where
  count := Nat.zero_le _
  size := Int.natCast_nonneg _
  weight := Int.natCast_nonneg _
  ancestors := by simp [Mempool.empty]
  descendants := by simp [Mempool.empty]
  packages := by simp [Mempool.empty]

/-! Fewer entries with fewer links. -/

lemma count_eq (pool : Mempool F) : pool.count = pool.txids.length := by
  simp [count, txids]

lemma Within.count_le {pool pool' : Mempool F} (h : pool.Within pool') : pool.count ≤ pool'.count := by
  have hsub : pool.txids ⊆ pool'.txids := by
    intro txid hmem
    rw [mem_txids] at hmem ⊢
    intro hnone
    exact hmem (h.absent hnone)
  rw [count_eq, count_eq]
  exact ((nodup_txids pool).subperm hsub).length_le

/-- A part of the ids in a part of the pool has no larger size. -/
lemma Within.sumVsize_le {pool pool' : Mempool F} (h : pool.Within pool') {ids ids' : List Bytes}
    (hids : ids.Sublist ids') :
    sumVsize (pool.entriesOf ids) ≤ sumVsize (pool'.entriesOf ids') := by
  have hcons (pool : Mempool F) (txid : Bytes) (ids : List Bytes) :
      sumVsize (pool.entriesOf (txid :: ids)) =
        ((pool.transactions.get? txid).map MempoolEntry.vsize).getD 0 + sumVsize (pool.entriesOf ids) := by
    cases hentry : pool.transactions.get? txid with
    | none => simp [entriesOf, hentry]
    | some entry => simp [entriesOf, hentry, sumVsize]
  induction hids with
  | slnil => exact Nat.le_refl _
  | cons txid _ ih =>
    rw [hcons]
    omega
  | cons_cons txid _ ih =>
    rw [hcons, hcons]
    have hfirst : ((pool.transactions.get? txid).map MempoolEntry.vsize).getD 0 ≤
        ((pool'.transactions.get? txid).map MempoolEntry.vsize).getD 0 := by
      cases hentry : pool.transactions.get? txid with
      | none => exact Nat.zero_le _
      | some entry =>
        obtain ⟨entry', hentry', hcore⟩ := h txid entry hentry
        rw [hentry']
        exact Nat.le_of_eq (core_congr hcore).2.2.2.1
    omega

lemma unlink_sublist (txid txid' : Bytes) (old entry : MempoolEntry F) :
    (unlink txid old txid' entry).ancestors.Sublist entry.ancestors ∧
      (unlink txid old txid' entry).descendants.Sublist entry.descendants := by
  simp only [unlink]
  split_ifs <;> simp [List.erase_sublist]

lemma keptByRemoval_withinLimits (limits : MempoolLimits) :
    KeptByRemoval (WithinLimits limits : Mempool F → Prop) := by
  intro pool txid h
  cases hold : pool.transactions.get? txid with
  | none =>
    unfold removeEntry
    rw [hold]
    exact h
  | some old =>
    have hwithin := pool.removeEntry_within txid
    have htotals : (pool.removeEntry txid).totalSize = pool.totalSize - old.size ∧
        (pool.removeEntry txid).totalWeight = pool.totalWeight - old.weight := by
      rw [removeEntry_eq hold]
      exact ⟨rfl, rfl⟩
    -- An entry that is left had at least these links before.
    have hbefore : ∀ txid' entry, (pool.removeEntry txid).transactions.get? txid' = some entry →
        ∃ entry', pool.transactions.get? txid' = some entry' ∧ entry.vsize = entry'.vsize ∧
          entry.ancestors.Sublist entry'.ancestors ∧ entry.descendants.Sublist entry'.descendants := by
      intro txid' entry hentry
      rw [removeEntry_get? hold] at hentry
      split_ifs at hentry
      obtain ⟨entry', hentry', rfl⟩ := Option.map_eq_some_iff.1 hentry
      exact ⟨entry', hentry', rfl, unlink_sublist txid txid' old entry'⟩
    refine ⟨hwithin.count_le.trans h.count, ?_, ?_, ?_, ?_, ?_⟩
    · have hsize := h.size
      omega
    · have hweight := h.weight
      omega
    · intro txid' entry hentry
      obtain ⟨entry', hentry', -, hanc, -⟩ := hbefore txid' entry hentry
      exact hanc.length_le.trans (h.ancestors txid' entry' hentry')
    · intro txid' entry hentry
      obtain ⟨entry', hentry', -, -, hdesc⟩ := hbefore txid' entry hentry
      exact hdesc.length_le.trans (h.descendants txid' entry' hentry')
    · intro txid' entry hentry hne
      obtain ⟨entry', hentry', hvsize, -, hdesc⟩ := hbefore txid' entry hentry
      have hne' : entry'.descendants ≠ [] := by
        rintro hnil
        exact hne (List.sublist_nil.1 (hnil ▸ hdesc))
      have hpackage := h.packages txid' entry' hentry' hne'
      have hsum := hwithin.sumVsize_le hdesc
      omega

lemma WithinLimits.congr {limits : MempoolLimits} {pool pool' : Mempool F}
    (h : WithinLimits limits pool) (hsame : pool'.SameContents pool) : WithinLimits limits pool' := by
  have hwithin : pool'.Within pool := by
    intro txid entry hentry
    rw [hsame.entries] at hentry
    exact ⟨entry, hentry, rfl⟩
  refine ⟨hwithin.count_le.trans h.count, hsame.size ▸ h.size, hsame.weight ▸ h.weight, ?_, ?_, ?_⟩
  · intro txid entry hentry
    exact h.ancestors txid entry (hsame.entries txid ▸ hentry)
  · intro txid entry hentry
    exact h.descendants txid entry (hsame.entries txid ▸ hentry)
  · intro txid entry hentry hne
    have hpackage := h.packages txid entry (hsame.entries txid ▸ hentry) hne
    have hsum := hwithin.sumVsize_le (List.Sublist.refl entry.descendants)
    omega

/-! A new entry. -/

section added
variable [LinearOrder F] {settings : MempoolSettings F} {chain : ChainView} {pool : Mempool F}
  {tx : Transaction} {c : Candidate F}

omit [LinearOrder F] in
lemma canAccept_bounds (h : pool.canAccept settings c.size c.weight = true) :
    pool.count + 1 ≤ settings.limits.maxTransactions ∧
      pool.totalSize + c.size ≤ settings.limits.maxSize ∧
      pool.totalWeight + c.weight ≤ settings.limits.maxWeight := by
  simp only [Mempool.canAccept, MempoolLimits.canAccept, Bool.and_eq_true, decide_eq_true_eq] at h
  exact ⟨h.2, h.1.1, h.1.2⟩

omit [LinearOrder F] in
/-- Room that a pool has is not lost by removals. -/
lemma keptByRemoval_canAccept (settings : MempoolSettings F) (size weight : ℕ) :
    KeptByRemoval fun pool : Mempool F => pool.canAccept settings size weight = true := by
  intro pool txid h
  cases hold : pool.transactions.get? txid with
  | none =>
    unfold removeEntry
    rw [hold]
    exact h
  | some old =>
    have hcount := (pool.removeEntry_within txid).count_le
    have htotals : (pool.removeEntry txid).totalSize = pool.totalSize - old.size ∧
        (pool.removeEntry txid).totalWeight = pool.totalWeight - old.weight := by
      rw [removeEntry_eq hold]
      exact ⟨rfl, rfl⟩
    simp only [Mempool.canAccept, MempoolLimits.canAccept, Bool.and_eq_true, decide_eq_true_eq] at h ⊢
    omega

lemma WithinLimits.insertEntry_linkTo (h : WithinLimits settings.limits pool) (hback : pool.Backed)
    (hfresh : pool.transactions.get? c.txid = none)
    (hroom : pool.canAccept settings c.size c.weight = true)
    (hancestors : c.ancestors.length ≤ settings.limits.maxAncestors) {now : F}
    (htakes : TakesCandidate settings chain pool now c) :
    WithinLimits settings.limits ((pool.insertEntry chain now c).linkTo c.txid c.ancestors) := by
  have hown : (pool.insertEntry chain now c).transactions.get? c.txid = some (c.entry chain now) := by
    rw [insertEntry_get?, if_pos rfl]
  have hcount : ((pool.insertEntry chain now c).linkTo c.txid c.ancestors).count = pool.count + 1 := by
    have hkeys : (pool.insertEntry chain now c).txids = pool.txids ++ [c.txid] :=
      KeyedRows.keys_put_new _ hfresh
    have hlinked : ((pool.insertEntry chain now c).linkTo c.txid c.ancestors).txids =
        (pool.insertEntry chain now c).txids := KeyedRows.keys_updateWhere ..
    rw [count_eq, count_eq, hlinked, hkeys, List.length_append, List.length_singleton]
  obtain ⟨hroomCount, hroomSize, hroomWeight⟩ := canAccept_bounds hroom
  -- The links of the entries without the new descendant.
  have hlinks : ∀ txid entry, (pool.insertEntry chain now c).transactions.get? txid = some entry →
      entry.ancestors.length ≤ settings.limits.maxAncestors ∧
        entry.descendants.length ≤ settings.limits.maxDescendants ∧
        c.txid ∉ entry.descendants ∧
        (entry.descendants ≠ [] → entry.vsize + sumVsize ((pool.insertEntry chain now c).entriesOf
          entry.descendants) ≤ settings.limits.maxDescendantSizeVbytes) := by
    intro txid entry hentry
    have hnot := insertEntry_fresh hfresh hback now txid entry hentry
    rw [insertEntry_get?] at hentry
    split_ifs at hentry with heq
    · cases hentry
      exact ⟨hancestors, Nat.zero_le _, hnot, fun hne => absurd rfl hne⟩
    · refine ⟨h.ancestors txid entry hentry, h.descendants txid entry hentry, hnot, fun hne => ?_⟩
      have hsame : (pool.insertEntry chain now c).entriesOf entry.descendants =
          pool.entriesOf entry.descendants := by
        refine List.filterMap_congr fun desc hdesc => ?_
        rw [insertEntry_get?, if_neg]
        rintro rfl
        exact hnot hdesc
      rw [hsame]
      exact h.packages txid entry hentry hne
  have hsum (ids : List Bytes) : sumVsize (((pool.insertEntry chain now c).linkTo c.txid
      c.ancestors).entriesOf ids) = sumVsize ((pool.insertEntry chain now c).entriesOf ids) := by
    rw [linkTo, (relinks_listDescendant c.txid).sumVsize]
  refine ⟨by rw [hcount]; exact hroomCount, hroomSize, hroomWeight, ?_, ?_, ?_⟩
  · intro txid entry hentry
    rw [linkTo_get?] at hentry
    split_ifs at hentry
    · obtain ⟨entry', hentry', rfl⟩ := Option.map_eq_some_iff.1 hentry
      exact (hlinks txid entry' hentry').1
    · exact (hlinks txid entry hentry).1
  · intro txid entry hentry
    rw [linkTo_get?] at hentry
    split_ifs at hentry with hanc
    · obtain ⟨entry', hentry', rfl⟩ := Option.map_eq_some_iff.1 hentry
      have htake := (htakes txid hanc entry' hentry').1
      simp only [listDescendant, addNew_of_not_mem (hlinks txid entry' hentry').2.2.1,
        List.length_append, List.length_singleton]
      exact htake
    · exact (hlinks txid entry hentry).2.1
  · intro txid entry hentry hne
    rw [hsum]
    rw [linkTo_get?] at hentry
    split_ifs at hentry with hanc
    · obtain ⟨entry', hentry', rfl⟩ := Option.map_eq_some_iff.1 hentry
      have htake := (htakes txid hanc entry' hentry').2
      have hnew := sumVsize_linkTo hown [] entry'.descendants
      rw [linkTo_nil] at hnew
      simp only [listDescendant, addNew_of_not_mem (hlinks txid entry' hentry').2.2.1, hnew]
      rw [← Nat.add_assoc]
      exact htake
    · exact (hlinks txid entry hentry).2.2.2 hne

lemma WithinLimits.addTransaction (h : WithinLimits settings.limits pool) (hbooks : pool.Books)
    (hback : pool.Backed) (args : CallArgs F) :
    WithinLimits settings.limits (pool.addTransaction settings chain args tx).1 := by
  have hkept := (keptByRemoval_withinLimits settings.limits : KeptByRemoval
    (WithinLimits settings.limits : Mempool F → Prop)).departure
  unfold Mempool.addTransaction
  cases hscreen : pool.screen settings chain args tx with
  | error reason => exact h
  | ok c =>
    have hs := screen_ok hscreen
    simp only
    split_ifs with hroom
    · have hcleared : WithinLimits settings.limits (pool.cleared settings c) := hkept.cleared h
      have hclearedRoom : (pool.cleared settings c).canAccept settings c.size c.weight = true :=
        (keptByRemoval_canAccept settings c.size c.weight).departure.removeEach hroom _
      rcases hs.admit_cases hbooks hback args.now with ⟨heq, htakes⟩ | ⟨reason, -, hsame, -⟩
      · change WithinLimits settings.limits
          ((pool.cleared settings c).admitCandidate settings chain args.now c).1
        rw [heq]
        exact hcleared.insertEntry_linkTo (keptByRemoval_backed.departure.cleared hback) hs.absent
          hclearedRoom hs.ancestorCount htakes
      · exact hcleared.congr hsame
    · exact hkept.makeRoom settings h c

end added

end Mempool
end BerzCoin
