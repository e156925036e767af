import BerzCoin.MempoolLineage

/-! Ancestor bookkeeping over whole runs. The parents of a transaction are looked up in the
`transactions` table first and among the entries second; evictions and replacements come after
the lookup. Where neither hides a parent or takes one away, every entry stays linked to exactly
what it spends. -/
namespace BerzCoin
namespace Mempool
open Relation
variable {F : Type} {settings : MempoolSettings F} {chain : ChainView} {pool : Mempool F}

/-! What validation and the lookup of parents establish. -/

lemma validateInputs_ok (tx : Transaction) (ignored : Outpoint → Bool) (vin : List TxIn) :
    ∀ (idx : ℕ) (seen : List Outpoint) (total : ℕ),
      pool.validateInputs settings chain tx ignored idx seen vin = .ok total →
      ∀ txin ∈ vin, pool.prevOut chain txin.outpoint ≠ none := by
  induction vin with
  | nil =>
    intro idx seen total _ txin hmem
    cases hmem
  | cons first vin ih =>
    intro idx seen total h txin hmem
    rw [validateInputs] at h
    cases hprev : pool.prevOut chain first.outpoint with
    | none =>
      simp only [hprev] at h
      split_ifs at h
    | some out =>
      simp only [hprev] at h
      cases hrest : pool.validateInputs settings chain tx ignored (idx + 1) (first.outpoint :: seen)
          vin with
      | error reason =>
        simp only [hrest] at h
        split_ifs at h
      | ok total' =>
        rcases List.mem_cons.1 hmem with rfl | hmem
        · simp [hprev]
        · exact ih (idx + 1) (first.outpoint :: seen) total' hrest txin hmem

/-- A valid transaction is not in the table, and each of its inputs spends an output that exists. -/
lemma validateTransaction_ok {tx : Transaction} {ignored : Outpoint → Bool}
    (h : pool.validateTransaction settings chain tx ignored = .ok ()) :
    chain.transactionExists (tx.txid settings.crypto.toHashlib) = false ∧
      ∀ txin ∈ tx.vin, pool.prevOut chain txin.outpoint ≠ none := by
  unfold validateTransaction at h
  simp only [bind, Except.bind, pure, Except.pure, throw, throwThe, MonadExceptOf.throw] at h
  cases hrules : isConsensusTxValidForHeight chain.params tx chain.nextHeight with
  | error reason =>
    simp only [hrules] at h
    split_ifs at h
  | ok u =>
    cases houtputs : validateOutputs chain.params.maxMoney 0 tx.vout with
    | error reason =>
      simp only [hrules, houtputs] at h
      split_ifs at h
    | ok u =>
      cases hinputs : pool.validateInputs settings chain tx ignored 0 [] tx.vin with
      | error reason =>
        simp only [hrules, houtputs, hinputs] at h
        split_ifs at h
      | ok total =>
        refine ⟨?_, validateInputs_ok tx ignored tx.vin 0 [] total hinputs⟩
        by_contra hexists
        simp only [hrules, houtputs, hinputs] at h
        split_ifs at h
        simp_all

/-- An output that is not of the chain is of an entry. -/
lemma prevOut_entry {txin : TxIn} (h : pool.prevOut chain txin.outpoint ≠ none)
    (hutxo : chain.getUtxo txin.outpoint = none) :
    ∃ parent, pool.transactions.get? txin.prevTxHash = some parent ∧
      txin.outpoint.2 < parent.tx.vout.length := by
  have hhash : txin.outpoint.1 = txin.prevTxHash := rfl
  unfold prevOut at h
  rw [hutxo, hhash] at h
  cases hparent : pool.transactions.get? txin.prevTxHash with
  | none => simp [hparent] at h
  | some parent =>
    refine ⟨parent, rfl, ?_⟩
    by_contra hlength
    simp [hparent, List.getElem?_eq_none (not_lt.1 hlength)] at h

/-- The body of the loop of `checkDependencies`. -/
def addParent (chain : ChainView) (pool : Mempool F) (parents : Option (List Bytes)) (txin : TxIn) :
    Option (List Bytes) :=
  parents.bind fun ids =>
    if chain.transactionExists txin.prevTxHash then some ids
    else if pool.transactions.contains txin.prevTxHash then some (addNew ids [txin.prevTxHash])
    else none

lemma addParent_none (vin : List TxIn) : vin.foldl (addParent chain pool) none = none := by
  induction vin with
  | nil => rfl
  | cons txin vin ih => exact ih

lemma addParent_some {ids ids' : List Bytes} {txin : TxIn}
    (h : addParent chain pool (some ids) txin = some ids') (parent : Bytes) :
    (parent ∈ ids' ↔ parent ∈ ids ∨
      (txin.prevTxHash = parent ∧ chain.transactionExists parent = false)) ∧
    (parent ∈ ids' → parent ∈ ids ∨ pool.transactions.get? parent ≠ none) := by
  simp only [addParent, Option.bind_some] at h
  split_ifs at h with hexists hentry
  · cases h
    refine ⟨?_, fun hmem => .inl hmem⟩
    constructor
    · exact .inl
    · rintro (hmem | ⟨rfl, hnot⟩)
      · exact hmem
      · rw [hexists] at hnot
        cases hnot
  · cases h
    have hentry' : pool.transactions.get? txin.prevTxHash ≠ none := by
      simpa [KeyedRows.contains, Option.isSome_iff_ne_none] using hentry
    simp only [mem_addNew, List.mem_singleton]
    constructor
    · refine or_congr_right ⟨?_, fun h => h.1.symm⟩
      rintro rfl
      exact ⟨rfl, by simpa using hexists⟩
    · rintro (hmem | rfl)
      · exact .inl hmem
      · exact .inr hentry'

lemma foldl_addParent (vin : List TxIn) : ∀ ids parents : List Bytes,
    vin.foldl (addParent chain pool) (some ids) = some parents → ∀ parent,
      (parent ∈ parents ↔ parent ∈ ids ∨
        ∃ txin ∈ vin, txin.prevTxHash = parent ∧ chain.transactionExists parent = false) ∧
      (parent ∈ parents → parent ∈ ids ∨ pool.transactions.get? parent ≠ none) := by
  induction vin with
  | nil =>
    intro ids parents h parent
    cases h
    exact ⟨by simp, fun hmem => .inl hmem⟩
  | cons txin vin ih =>
    intro ids parents h parent
    rw [List.foldl_cons] at h
    cases hstep : addParent chain pool (some ids) txin with
    | none =>
      rw [hstep, addParent_none] at h
      cases h
    | some ids' =>
      rw [hstep] at h
      obtain ⟨hmem, hentry⟩ := ih ids' parents h parent
      obtain ⟨hmem', hentry'⟩ := addParent_some hstep parent
      constructor
      · rw [hmem, hmem']
        simp only [List.mem_cons, exists_eq_or_imp, or_assoc]
      · intro hin
        rcases hentry hin with hin | hin
        · exact hentry' hin
        · exact .inr hin

/-- The parents are the ids that the inputs name and the table does not have; they are entries. -/
lemma checkDependencies_some {vin : List TxIn} {parents : List Bytes}
    (h : pool.checkDependencies chain vin = some parents) (parent : Bytes) :
    (parent ∈ parents ↔
      ∃ txin ∈ vin, txin.prevTxHash = parent ∧ chain.transactionExists parent = false) ∧
    (parent ∈ parents → pool.transactions.get? parent ≠ none) := by
  have hfold := foldl_addParent vin [] parents h parent
  simpa using hfold

/-! Where the inputs of entries come from. -/

/-- Every input of an entry spends an output of another entry, or has a property. -/
def Fed (Q : TxIn → Prop) (pool : Mempool F) : Prop :=
  ∀ txid entry, pool.transactions.get? txid = some entry → ∀ txin ∈ entry.tx.vin,
    pool.FromEntry txid txin ∨ Q txin

/-- The transaction that the input spends is in the table. -/
def InTable (chain : ChainView) (txin : TxIn) : Prop := chain.transactionExists txin.prevTxHash = true

variable {Q : TxIn → Prop}

lemma Fed.empty : Fed Q (Mempool.empty : Mempool F) := by
  intro txid entry h
  cases h

lemma FromEntry.prunes {pool' : Mempool F} (hprunes : pool'.Prunes pool) {txid : Bytes}
    {entry old : MempoolEntry F} (hentry : pool'.transactions.get? txid = some entry)
    (hold : pool.transactions.get? txid = some old) {txin : TxIn} (hmem : txin ∈ old.tx.vin)
    (h : pool.FromEntry txid txin) : pool'.FromEntry txid txin := by
  have hspends : pool.Spends txid txin.prevTxHash := ⟨old, hold, txin, hmem, rfl, h⟩
  have hpresent := hprunes.closed txid txin.prevTxHash (by simp [hentry]) hspends
  exact (hprunes.fromEntry hpresent).2 h

lemma Fed.prunes (h : Fed Q pool) {pool' : Mempool F} (hprunes : pool'.Prunes pool) : Fed Q pool' := by
  intro txid entry hentry txin hmem
  obtain ⟨old, hold, hcore⟩ := hprunes.within txid entry hentry
  rw [(core_congr hcore).1] at hmem
  exact (h txid old hold txin hmem).imp_left (FromEntry.prunes hprunes hentry hold hmem)

lemma Fed.congr (h : Fed Q pool) {pool' : Mempool F}
    (hsame : ∀ txid, pool'.transactions.get? txid = pool.transactions.get? txid) : Fed Q pool' := by
  unfold Fed FromEntry at h ⊢
  simpa only [hsame] using h

section admission
variable [LinearOrder F] {tx : Transaction} {c : Candidate F}

/-- What the bookkeeping of ancestors needs of an addition: no entry that the transaction spends
is in the table, and the eviction and the replacement leave its ancestors. -/
structure KeepsParents (settings : MempoolSettings F) (chain : ChainView) (pool : Mempool F)
    (c : Candidate F) : Prop where
  shown : ∀ txin ∈ c.tx.vin, pool.transactions.contains txin.prevTxHash = true →
    chain.transactionExists txin.prevTxHash = false
  kept : ∀ ancestor ∈ c.ancestors, (pool.cleared settings c).transactions.contains ancestor = true

/-- A candidate that joins a pool: the entries that it spends are its parents, and its ancestors
are what it reaches through them. -/
structure Joins (pool : Mempool F) (c : Candidate F) : Prop where
  absent : pool.transactions.get? c.txid = none
  unnamed : ∀ txid entry, pool.transactions.get? txid = some entry → ∀ txin ∈ entry.tx.vin,
    txin.prevTxHash ≠ c.txid
  spends : ∀ txin ∈ c.tx.vin, (∃ parent, pool.transactions.get? txin.prevTxHash = some parent ∧
    txin.outpoint.2 < parent.tx.vout.length) ↔ txin.prevTxHash ∈ c.parents
  named : ∀ parent ∈ c.parents, ∃ txin ∈ c.tx.vin, txin.prevTxHash = parent
  reaches : ∀ txid, txid ∈ c.ancestors ↔
    ∃ parent ∈ c.parents, txid = parent ∨ TransGen pool.Spends parent txid
  nodup : c.ancestors.Nodup

omit [LinearOrder F] in
lemma Joins.parent_present (h : pool.Joins c) {parent : Bytes} (hmem : parent ∈ c.parents) :
    pool.transactions.get? parent ≠ none := by
  obtain ⟨txin, htxin, rfl⟩ := h.named parent hmem
  obtain ⟨entry, hentry, -⟩ := (h.spends txin htxin).2 hmem
  simp [hentry]

omit [LinearOrder F] in
lemma Joins.ancestor_present (h : pool.Joins c) {ancestor : Bytes} (hmem : ancestor ∈ c.ancestors) :
    pool.transactions.get? ancestor ≠ none := by
  obtain ⟨parent, hparent, rfl | hpath⟩ := (h.reaches ancestor).1 hmem
  · exact h.parent_present hparent
  · exact (Lineage.transGen_ends Spends.present hpath).2

omit [LinearOrder F] in
lemma Joins.own_not_mem (h : pool.Joins c) : c.txid ∉ c.ancestors :=
  fun hmem => h.ancestor_present hmem h.absent

/-- The pool with the candidate. -/
def joined (chain : ChainView) (now : F) (pool : Mempool F) (c : Candidate F) : Mempool F :=
  (pool.insertEntry chain now c).linkTo c.txid c.ancestors

lemma Joins.joined_own (h : pool.Joins c) (now : F) :
    (pool.joined chain now c).transactions.get? c.txid = some (c.entry chain now) := by
  rw [joined, linkTo_get?, if_neg h.own_not_mem, insertEntry_get?, if_pos rfl]

lemma joined_other (now : F) {txid : Bytes} (hne : txid ≠ c.txid) :
    (pool.joined chain now c).transactions.get? txid = (pool.transactions.get? txid).map fun entry =>
      if txid ∈ c.ancestors then listDescendant c.txid entry else entry := by
  rw [joined, linkTo_get?, insertEntry_get?, if_neg hne]
  split_ifs
  · rfl
  · simp

lemma joined_fromEntry (now : F) {txid : Bytes} {txin : TxIn} (hne : txin.prevTxHash ≠ c.txid) :
    (pool.joined chain now c).FromEntry txid txin ↔ pool.FromEntry txid txin := by
  have htx (entry : MempoolEntry F) : (if txin.prevTxHash ∈ c.ancestors then
      listDescendant c.txid entry else entry).tx = entry.tx := by
    split_ifs <;> rfl
  unfold FromEntry
  rw [joined_other now hne]
  cases pool.transactions.get? txin.prevTxHash with
  | none => simp
  | some parent => simp [htx]

lemma Joins.joined_spends_other (h : pool.Joins c) (now : F) {a : Bytes} (hne : a ≠ c.txid)
    (b : Bytes) : (pool.joined chain now c).Spends a b ↔ pool.Spends a b := by
  have htx (entry : MempoolEntry F) : (if a ∈ c.ancestors then
      listDescendant c.txid entry else entry).tx = entry.tx := by
    split_ifs <;> rfl
  unfold Spends
  rw [joined_other now hne]
  cases hentry : pool.transactions.get? a with
  | none => simp
  | some entry =>
    simp only [Option.map_some, Option.some.injEq, exists_eq_left', htx]
    refine exists_congr fun txin => and_congr_right fun hmem => and_congr_right fun _ => ?_
    exact joined_fromEntry now (h.unnamed a entry hentry txin hmem)

lemma Joins.joined_spends_own (h : pool.Joins c) (now : F) (b : Bytes) :
    (pool.joined chain now c).Spends c.txid b ↔ b ∈ c.parents := by
  have hfrom {txin : TxIn} (hmem : txin ∈ c.tx.vin) :
      (pool.joined chain now c).FromEntry c.txid txin ↔ txin.prevTxHash ∈ c.parents := by
    by_cases hne : txin.prevTxHash = c.txid
    · have hnot : txin.prevTxHash ∉ c.parents := by
        rw [hne]
        exact fun hmem => h.parent_present hmem h.absent
      exact iff_of_false (fun hfrom => hfrom.1 hne) hnot
    · rw [joined_fromEntry now hne, ← h.spends txin hmem]
      exact and_iff_right hne
  constructor
  · rintro ⟨entry, hentry, txin, hmem, rfl, hspends⟩
    rw [h.joined_own] at hentry
    cases hentry
    exact (hfrom hmem).1 hspends
  · intro hmem
    obtain ⟨txin, htxin, rfl⟩ := h.named b hmem
    exact ⟨c.entry chain now, h.joined_own now, txin, htxin, rfl, (hfrom htxin).2 hmem⟩

lemma Joins.joined_spends_ne (h : pool.Joins c) (now : F) (a b : Bytes)
    (hspends : (pool.joined chain now c).Spends a b) : b ≠ c.txid := by
  rintro rfl
  by_cases hne : a = c.txid
  · rw [hne, h.joined_spends_own] at hspends
    exact h.parent_present hspends h.absent
  · rw [h.joined_spends_other now hne] at hspends
    exact (Spends.present a c.txid hspends).2 h.absent

/-- The new entry reaches its ancestors. -/
lemma Joins.joined_transGen_own (h : pool.Joins c) (now : F) (b : Bytes) :
    TransGen (pool.joined chain now c).Spends c.txid b ↔ b ∈ c.ancestors := by
  rw [Lineage.transGen_new (fun a b hne => h.joined_spends_other now hne b)
    (h.joined_spends_ne now), h.reaches]
  simp only [h.joined_spends_own]

/-- The others reach what they reached before. -/
lemma Joins.joined_transGen_other (h : pool.Joins c) (now : F) {a : Bytes} (hne : a ≠ c.txid)
    (b : Bytes) : TransGen (pool.joined chain now c).Spends a b ↔ TransGen pool.Spends a b := by
  refine Lineage.transGen_congr_on (T := fun a => a ≠ c.txid)
    (fun _ b hne => h.joined_spends_other now hne b) ?_ hne
  rintro a b - hspends rfl
  exact (Spends.present a c.txid hspends).2 h.absent

/-- The new form of an entry that was there before. -/
lemma joined_some (now : F) {txid : Bytes} {entry : MempoolEntry F} (hne : txid ≠ c.txid)
    (h : (pool.joined chain now c).transactions.get? txid = some entry) :
    ∃ old, pool.transactions.get? txid = some old ∧
      entry = if txid ∈ c.ancestors then listDescendant c.txid old else old := by
  rw [joined_other now hne] at h
  obtain ⟨old, hold, rfl⟩ := Option.map_eq_some_iff.1 h
  exact ⟨old, hold, rfl⟩

lemma Linked.joined (h : Linked settings pool) (hjoins : pool.Joins c) (now : F)
    (hcount : c.ancestors.length ≤ settings.limits.maxAncestors)
    (htakes : TakesCandidate settings chain pool now c) :
    Linked settings (pool.joined chain now c) := by
  have hdesc {txid : Bytes} {old : MempoolEntry F} (hold : pool.transactions.get? txid = some old) :
      c.txid ∉ old.descendants := h.mutual.backed.absent hjoins.absent txid old hold
  refine ⟨?_, ?_, ?_, ?_⟩
  · intro txid entry hentry other
    by_cases hne : txid = c.txid
    · subst hne
      rw [hjoins.joined_own] at hentry
      cases hentry
      rw [hjoins.joined_transGen_own]
      rfl
    · obtain ⟨old, hold, rfl⟩ := joined_some now hne hentry
      rw [hjoins.joined_transGen_other now hne, ← h.ancestors txid old hold]
      split_ifs <;> rfl
  · intro txid entry hentry other
    by_cases hne : txid = c.txid
    · subst hne
      rw [hjoins.joined_own] at hentry
      cases hentry
      refine iff_of_false (by simp [Candidate.entry]) ?_
      intro hpath
      have hends := Lineage.transGen_ends (P := fun _ => True) (fun a b hspends =>
        ⟨trivial, hjoins.joined_spends_ne now a b hspends⟩) hpath
      exact hends.2 rfl
    · obtain ⟨old, hold, rfl⟩ := joined_some now hne hentry
      by_cases hother : other = c.txid
      · subst hother
        rw [hjoins.joined_transGen_own]
        split_ifs with hmem
        · exact iff_of_true (mem_addNew.2 (.inr (by simp))) hmem
        · exact iff_of_false (hdesc hold) hmem
      · rw [hjoins.joined_transGen_other now hother, ← h.descendants txid old hold]
        split_ifs
        · simp [listDescendant, mem_addNew, hother]
        · rfl
  · intro txid entry hentry
    by_cases hne : txid = c.txid
    · subst hne
      rw [hjoins.joined_own] at hentry
      cases hentry
      exact ⟨hjoins.nodup, List.nodup_nil⟩
    · obtain ⟨old, hold, rfl⟩ := joined_some now hne hentry
      obtain ⟨hanc, hnodup⟩ := h.nodup txid old hold
      split_ifs
      · exact ⟨hanc, nodup_addNew hnodup (List.nodup_singleton _)⟩
      · exact ⟨hanc, hnodup⟩
  · intro txid entry hentry
    by_cases hne : txid = c.txid
    · subst hne
      rw [hjoins.joined_own] at hentry
      cases hentry
      exact ⟨hcount, Nat.zero_le _⟩
    · obtain ⟨old, hold, rfl⟩ := joined_some now hne hentry
      obtain ⟨hanc, hbound⟩ := h.bounds txid old hold
      split_ifs with hmem
      · refine ⟨hanc, ?_⟩
        have htake := (htakes txid hmem old (by rw [insertEntry_get?, if_neg hne, hold])).1
        have hlist : (listDescendant c.txid old).descendants = old.descendants ++ [c.txid] :=
          addNew_of_not_mem (hdesc hold)
        rw [hlist, List.length_append, List.length_singleton]
        exact htake
      · exact ⟨hanc, hbound⟩

/-- A candidate that keeps its parents joins the cleared pool. -/
lemma Screened.joins (h : Screened settings chain pool tx c) (hlinked : Linked settings pool)
    (hrooted : Fed (InTable chain) pool) (hkeeps : KeepsParents settings chain pool c) :
    (pool.cleared settings c).Joins c := by
  have hboth : Linked settings (pool.cleared settings c) ∧ (pool.cleared settings c).Prunes pool :=
    (keptByDeparture_linked settings pool).cleared ⟨hlinked, .refl pool⟩
  obtain ⟨hlinked', hprunes⟩ := hboth
  obtain ⟨hnew, hprev⟩ := validateTransaction_ok h.valid
  rw [← h.tx_eq] at hnew hprev
  have hdeps := checkDependencies_some h.parents_eq
  rw [← h.tx_eq] at hdeps
  have hcollect {txid : Bytes} : txid ∈ c.ancestors ↔
      ∃ parent ∈ c.parents, txid = parent ∨ TransGen pool.Spends parent txid := by
    rw [h.ancestors_eq]
    exact hlinked.mem_collectAncestors fun parent hmem => (hdeps parent).2 hmem
  have hkept {parent : Bytes} (hmem : parent ∈ c.parents) :
      (pool.cleared settings c).transactions.get? parent ≠ none := by
    have hcontains := hkeeps.kept parent (hcollect.2 ⟨parent, hmem, .inl rfl⟩)
    simpa [KeyedRows.contains, Option.isSome_iff_ne_none] using hcontains
  refine ⟨h.absent, ?_, ?_, ?_, ?_, ?_⟩
  · intro txid entry hentry txin hmem heq
    rcases hrooted.prunes hprunes txid entry hentry txin hmem with ⟨-, parent, hparent, -⟩ | hexists
    · rw [heq, h.absent] at hparent
      cases hparent
    · rw [InTable, heq, h.txid_eq, ← h.tx_eq, hnew] at hexists
      cases hexists
  · intro txin hmem
    constructor
    · rintro ⟨parent, hparent, -⟩
      obtain ⟨old, hold, -⟩ := hprunes.within _ parent hparent
      have hshown := hkeeps.shown txin hmem (by simp [KeyedRows.contains, hold])
      exact (hdeps _).1.2 ⟨txin, hmem, rfl, hshown⟩
    · intro hparent
      obtain ⟨-, -, -, hshown⟩ := (hdeps _).1.1 hparent
      have hutxo : chain.getUtxo txin.outpoint = none := by
        by_contra hutxo
        have hknown : chain.transactionExists txin.prevTxHash = true := chain.known txin.outpoint hutxo
        rw [hshown] at hknown
        cases hknown
      obtain ⟨old, hold, hlength⟩ := prevOut_entry (hprev txin hmem) hutxo
      obtain ⟨new, hnew'⟩ := Option.ne_none_iff_exists'.1 (hkept hparent)
      obtain ⟨old', hold', hcore⟩ := hprunes.within _ new hnew'
      rw [hold] at hold'
      cases hold'
      refine ⟨new, hnew', ?_⟩
      rwa [(core_congr hcore).1]
  · intro parent hmem
    obtain ⟨txin, htxin, heq, -⟩ := (hdeps parent).1.1 hmem
    exact ⟨txin, htxin, heq⟩
  · intro txid
    rw [hcollect]
    refine exists_congr fun parent => and_congr_right fun hmem => ?_
    rw [hprunes.transGen_iff (hkept hmem)]
  · rw [h.ancestors_eq]
    exact ancestorsLoop_nodup pool _ _ _ List.nodup_nil

lemma Fed.joined (h : Fed Q pool) (hjoins : pool.Joins c) (now : F)
    (hinputs : ∀ txin ∈ c.tx.vin, txin.prevTxHash ∈ c.parents ∨ Q txin) :
    Fed Q (pool.joined chain now c) := by
  intro txid entry hentry txin hmem
  by_cases hne : txid = c.txid
  · subst hne
    rw [hjoins.joined_own] at hentry
    cases hentry
    refine (hinputs txin hmem).imp_left ?_
    intro hparent
    have hother : txin.prevTxHash ≠ c.txid := by
      intro heq
      exact hjoins.parent_present hparent (heq ▸ hjoins.absent)
    exact (joined_fromEntry now hother).2 ⟨hother, (hjoins.spends txin hmem).2 hparent⟩
  · obtain ⟨old, hold, rfl⟩ := joined_some now hne hentry
    have hmem' : txin ∈ old.tx.vin := by
      split_ifs at hmem <;> exact hmem
    rw [joined_fromEntry now (hjoins.unnamed txid old hold txin hmem')]
    exact h txid old hold txin hmem'

/-! Runs. -/

/-- The entries stand under the ids of their transactions. -/
def Keyed (settings : MempoolSettings F) (pool : Mempool F) : Prop :=
  ∀ txid entry, pool.transactions.get? txid = some entry →
    entry.tx.txid settings.crypto.toHashlib = txid

omit [LinearOrder F] in
lemma Keyed.within (h : Keyed settings pool) {pool' : Mempool F} (hwithin : pool'.Within pool) :
    Keyed settings pool' := by
  intro txid entry hentry
  obtain ⟨old, hold, hcore⟩ := hwithin txid entry hentry
  rw [(core_congr hcore).1]
  exact h txid old hold

/-- The records agree with the entries, and the links with what the entries spend. -/
structure Sound (settings : MempoolSettings F) (chain : ChainView) (pool : Mempool F) : Prop where
  books : pool.Books
  keyed : Keyed settings pool
  linked : Linked settings pool
  rooted : Fed (InTable chain) pool

lemma Sound.empty : Sound settings chain (Mempool.empty : Mempool F) := by
  refine ⟨.empty, ?_, .empty, .empty⟩
  intro txid entry h
  cases h

lemma keptByDeparture_sound (settings : MempoolSettings F) (chain : ChainView) (Q : TxIn → Prop) :
    KeptByDeparture fun pool => Sound settings chain pool ∧ Fed Q pool := by
  rintro pool txid ⟨h, hfed⟩
  have hprunes := h.linked.removeTransaction_prunes txid
  exact ⟨⟨keptByRemoval_books.removeTransaction h.books txid true, h.keyed.within hprunes.within,
    h.linked.removeTransaction txid, h.rooted.prunes hprunes⟩, hfed.prunes hprunes⟩

/-- The condition under which an addition keeps the links: whenever the transaction gets as far as
its insertion, no entry that it spends is in the table, and its ancestors are left. -/
def AddKeepsParents (settings : MempoolSettings F) (chain : ChainView) (pool : Mempool F)
    (args : CallArgs F) (tx : Transaction) : Prop :=
  ∀ c, pool.screen settings chain args tx = .ok c →
    (pool.makeRoom settings c).canAccept settings c.size c.weight = true →
    TakesCandidate settings chain (pool.cleared settings c) args.now c →
    KeepsParents settings chain pool c

omit [LinearOrder F] in
/-- Inputs that the candidate does not take from its parents are in the table. -/
lemma Screened.inTable (h : Screened settings chain pool tx c) (txin : TxIn) (hmem : txin ∈ c.tx.vin) :
    txin.prevTxHash ∈ c.parents ∨ InTable chain txin := by
  by_cases hexists : chain.transactionExists txin.prevTxHash = true
  · exact .inr hexists
  · refine .inl (((checkDependencies_some h.parents_eq _).1).2 ⟨txin, h.tx_eq ▸ hmem, rfl, ?_⟩)
    simpa using hexists

lemma Sound.addTransaction (h : Sound settings chain pool) (hfed : Fed Q pool) {args : CallArgs F}
    (hkeeps : AddKeepsParents settings chain pool args tx)
    (hQ : ∀ c, Screened settings chain pool tx c → KeepsParents settings chain pool c →
      ∀ txin ∈ c.tx.vin, txin.prevTxHash ∈ c.parents ∨ Q txin) :
    Sound settings chain (pool.addTransaction settings chain args tx).1 ∧
      Fed Q (pool.addTransaction settings chain args tx).1 := by
  have hbooks := h.books.addTransaction settings chain args tx
  have hkept := keptByDeparture_sound settings chain Q
  unfold Mempool.addTransaction at hbooks ⊢
  cases hscreen : pool.screen settings chain args tx with
  | error reason => exact ⟨h, hfed⟩
  | ok c =>
    have hs := screen_ok hscreen
    obtain ⟨hcleared, hfed'⟩ : Sound settings chain (pool.cleared settings c) ∧
      Fed Q (pool.cleared settings c) := hkept.cleared ⟨h, hfed⟩
    simp only [hscreen] at hbooks ⊢
    split_ifs at hbooks ⊢ with hroom
    · rcases hs.admit_cases h.books h.linked.mutual.backed args.now with
        ⟨heq, htakes⟩ | ⟨reason, -, hsame, -⟩
      · have hkeeps' := hkeeps c hscreen hroom htakes
        have hjoins := hs.joins h.linked h.rooted hkeeps'
        have hresult :
            ((pool.makeRoom settings c).removeConflicts c).admitCandidate settings chain args.now c =
          ((pool.cleared settings c).joined chain args.now c, none) := heq
        rw [hresult] at hbooks ⊢
        refine ⟨⟨hbooks, ?_, hcleared.linked.joined hjoins args.now hs.ancestorCount htakes,
          hcleared.rooted.joined hjoins args.now hs.inTable⟩,
          hfed'.joined hjoins args.now (hQ c hs hkeeps')⟩
        intro txid entry hentry
        by_cases hne : txid = c.txid
        · subst hne
          rw [hjoins.joined_own] at hentry
          cases hentry
          exact (congrArg (·.txid settings.crypto.toHashlib) hs.tx_eq).trans hs.txid_eq.symm
        · obtain ⟨old, hold, rfl⟩ := joined_some args.now hne hentry
          have hkey := hcleared.keyed txid old hold
          split_ifs <;> exact hkey
      · refine ⟨⟨hbooks, ?_, hcleared.linked.congr hsame.entries, hcleared.rooted.congr hsame.entries⟩,
          hfed'.congr hsame.entries⟩
        intro txid entry hentry
        exact hcleared.keyed txid entry ((hsame.entries txid).symm.trans hentry)
    · exact hkept.makeRoom settings ⟨h, hfed⟩ c

end admission
end Mempool

section runs
variable {F : Type} [LinearOrder F]
open Mempool

/-- The condition on a call: every addition that it makes keeps its parents, and removals are with
descendants. -/
def MempoolCall.KeepsParents (settings : MempoolSettings F) (chain : ChainView) (pool : Mempool F) :
    MempoolCall F → Prop
  | .addTransaction args tx => AddKeepsParents settings chain pool args tx
  | .addPackage floor argsOf txs =>
    ∀ feeRate ordered, pool.planPackage settings chain floor txs = .ok (feeRate, ordered) →
      PackageAll settings chain (AddKeepsParents settings chain) feeRate
        ((List.range ordered.length).map argsOf) ordered pool
  | .removeTransaction _ includeDescendants => includeDescendants = true
  | .handleConnectedBlock _ => True

/-- The table of transactions only grows. -/
def ChainView.Gains (chain chain' : ChainView) : Prop :=
  ∀ txid, chain.transactionExists txid = true → chain'.transactionExists txid = true

/-- The states of the chain and the mempool that calls reach from an empty mempool. The node stores
blocks in between; where the unspent outputs change, the mempool is told of the block at once. -/
inductive PoolRun (settings : MempoolSettings F) : ChainView → Mempool F → Prop
  | start (chain : ChainView) : PoolRun settings chain Mempool.empty
  | store {chain chain' : ChainView} {pool : Mempool F} (run : PoolRun settings chain pool)
      (gains : chain.Gains chain') (same : chain'.getUtxo = chain.getUtxo) :
      PoolRun settings chain' pool
  | connect {chain chain' : ChainView} {pool : Mempool F} (run : PoolRun settings chain pool)
      (gains : chain.Gains chain') (block : Block) :
      PoolRun settings chain' (pool.handleConnectedBlock settings chain' block)
  | call {chain : ChainView} {pool : Mempool F} (run : PoolRun settings chain pool)
      (call : MempoolCall F) (keeps : call.KeepsParents settings chain pool) :
      PoolRun settings chain (call.apply settings chain pool)

variable {settings : MempoolSettings F} {chain : ChainView} {pool : Mempool F}

lemma Mempool.Sound.gains {chain' : ChainView} (h : Sound settings chain pool)
    (hgains : chain.Gains chain') : Sound settings chain' pool := by
  refine ⟨h.books, h.keyed, h.linked, ?_⟩
  intro txid entry hentry txin hmem
  exact (h.rooted txid entry hentry txin hmem).imp_right (hgains _)

/-- What removals with descendants keep, and additions that keep their parents, is kept by the
calls. -/
lemma MempoolCall.KeepsParents.apply {P : Mempool F → Prop} (hP : KeptByDeparture P)
    (hadd : ∀ pool args tx, AddKeepsParents settings chain pool args tx → P pool →
      P (pool.addTransaction settings chain args tx).1)
    {call : MempoolCall F} (hkeeps : call.KeepsParents settings chain pool) (h : P pool) :
    P (call.apply settings chain pool) := by
  cases call with
  | addTransaction args tx => exact hadd pool args tx hkeeps h
  | addPackage floor argsOf txs =>
    simp only [MempoolCall.apply, Mempool.addPackage]
    cases hplan : pool.planPackage settings chain floor txs with
    | error reason => exact h
    | ok plan => exact hP.addPackageLoop settings chain hadd h (hkeeps plan.1 plan.2 hplan) []
  | removeTransaction txid desc =>
    have hdesc : desc = true := hkeeps
    rw [hdesc]
    exact hP pool txid h
  | handleConnectedBlock block => exact hP.handleConnectedBlock settings chain h block

lemma PoolRun.sound (h : PoolRun settings chain pool) : Sound settings chain pool := by
  induction h with
  | start chain => exact .empty
  | store run gains same ih => exact ih.gains gains
  | @connect chain chain' pool run gains block ih =>
    have hsound := ih.gains gains
    exact ((keptByDeparture_sound settings chain' (InTable chain')).handleConnectedBlock settings
      chain' ⟨hsound, hsound.rooted⟩ block).1
  | @call chain pool run call keeps ih =>
    refine (keeps.apply (keptByDeparture_sound settings chain (InTable chain)) ?_ ⟨ih, ih.rooted⟩).1
    intro pool args tx hadd h
    exact h.1.addTransaction h.2 hadd fun c hs _ => hs.inTable

/-- In every run whose additions keep their parents, the ancestors of each entry are the transitive
closure of spending an output of another entry, the descendants are the converse, both are
entries, and their numbers are within the limits. -/
theorem linked_of_poolRun (h : PoolRun settings chain pool) :
    Linked settings pool ∧ ∀ txid entry, pool.transactions.get? txid = some entry →
      ∀ other ∈ entry.ancestors ++ entry.descendants, pool.transactions.contains other = true := by
  have hlinked := h.sound.linked
  refine ⟨hlinked, ?_⟩
  intro txid entry hentry other hmem
  rcases List.mem_append.1 hmem with hmem | hmem
  · obtain ⟨entry', hentry', -⟩ := hlinked.mutual.listed txid entry hentry other hmem
    simp [KeyedRows.contains, hentry']
  · obtain ⟨entry', hentry', -⟩ := (hlinked.mutual.backed txid entry hentry).2 other hmem
    simp [KeyedRows.contains, hentry']

end runs

namespace MempoolExample
open Mempool

/-- The mempool with the first transaction and its child. -/
def family : Mempool ℚ :=
  runCalls (settings 1000) [(chain, .addTransaction args first), (chain, .addTransaction args child)]

/-- The condition on an addition as a check of the candidate. -/
def keepsParents (pool : Mempool ℚ) (tx : Transaction) : Bool :=
  match pool.screen (settings 1000) chain args tx with
  | .error _ => true
  | .ok c =>
    (c.tx.vin.all fun txin => !pool.transactions.contains txin.prevTxHash ||
      !chain.transactionExists txin.prevTxHash) &&
    c.ancestors.all (pool.cleared (settings 1000) c).transactions.contains

lemma addKeepsParents_of_check {pool : Mempool ℚ} {tx : Transaction}
    (h : keepsParents pool tx = true) : AddKeepsParents (settings 1000) chain pool args tx := by
  intro c hscreen _ _
  simp only [keepsParents, hscreen, Bool.and_eq_true, List.all_eq_true] at h
  refine ⟨?_, h.2⟩
  intro txin hmem hcontains
  simpa [hcontains] using h.1 txin hmem

lemma family_run : PoolRun (settings 1000) chain family := by
  have hfirst : keepsParents Mempool.empty first = true := by decide +kernel
  have hchild : keepsParents (runCalls (settings 1000) [(chain, .addTransaction args first)]) child =
      true := by decide +kernel
  have hrun := PoolRun.call (PoolRun.start chain) (.addTransaction args first)
    (addKeepsParents_of_check hfirst)
  exact PoolRun.call hrun (.addTransaction args child) (addKeepsParents_of_check hchild)

end MempoolExample

theorem linked_of_poolRun_example :
    PoolRun (MempoolExample.settings 1000) MempoolExample.chain MempoolExample.family ∧
      MempoolExample.family.count = 2 ∧
      Mempool.Linked (MempoolExample.settings 1000) MempoolExample.family :=
  ⟨MempoolExample.family_run, by decide +kernel, (linked_of_poolRun MempoolExample.family_run).1⟩

/-- The second transaction replaces the first, whose output it spends: the entry is left with an
ancestor that is no entry. -/
theorem replacement_leaves_dead_ancestor :
    ¬ Mempool.Linked (MempoolExample.settings 1000) (Mempool.runCalls (MempoolExample.settings 1000)
      [(MempoolExample.chain, .addTransaction MempoolExample.args MempoolExample.first),
        (MempoolExample.chain, .addTransaction MempoolExample.args MempoolExample.second)]) := by
  intro h
  generalize hpool : Mempool.runCalls (MempoolExample.settings 1000) [(MempoolExample.chain,
    .addTransaction MempoolExample.args MempoolExample.first), (MempoolExample.chain,
    .addTransaction MempoolExample.args MempoolExample.second)] = pool at h
  have hlinks : ((pool.transactions.get? MempoolExample.secondId).map MempoolEntry.ancestors,
      (pool.transactions.get? MempoolExample.firstId).isSome) =
        (some [MempoolExample.firstId], false) := by
    rw [← hpool]
    decide +kernel
  simp only [Prod.mk.injEq, Option.map_eq_some_iff] at hlinks
  obtain ⟨⟨entry, hentry, hancestors⟩, hgone⟩ := hlinks
  obtain ⟨entry', hentry', -⟩ := h.mutual.listed MempoolExample.secondId entry hentry
    MempoolExample.firstId (by simp [hancestors])
  simp [hentry'] at hgone

end BerzCoin
