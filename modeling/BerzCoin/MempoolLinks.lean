import BerzCoin.MempoolBooks

/-! The links between the entries: what the loop over the ancestors of a new entry does, and that
every listed descendant is an entry that lists the ancestor in turn. -/
namespace BerzCoin
namespace Mempool
variable {F : Type}

lemma addNew_of_not_mem {ids : List Bytes} {txid : Bytes} (h : txid ∉ ids) :
    addNew ids [txid] = ids ++ [txid] := by
  simp [addNew, h]

lemma mem_addNew {ids new : List Bytes} {txid : Bytes} :
    txid ∈ addNew ids new ↔ txid ∈ ids ∨ txid ∈ new := by
  simp only [addNew, List.mem_append, List.mem_filter, decide_eq_true_eq]
  tauto

lemma nodup_addNew {ids new : List Bytes} (h : ids.Nodup) (h' : new.Nodup) :
    (addNew ids new).Nodup := by
  refine List.Nodup.append h (h'.filter _) ?_
  intro txid hmem hmem'
  have hnot := (List.mem_filter.1 hmem').2
  simp only [decide_eq_true_eq] at hnot
  exact hnot hmem

/-! Adding a descendant. -/

def listDescendant (txid : Bytes) (entry : MempoolEntry F) : MempoolEntry F :=
  { entry with descendants := addNew entry.descendants [txid] }

/-- The pool with an id among the descendants of some entries. -/
def linkTo (pool : Mempool F) (txid : Bytes) (ids : List Bytes) : Mempool F :=
  pool.relink (· ∈ ids) (listDescendant txid)

lemma linkTo_get? (pool : Mempool F) (txid : Bytes) (ids : List Bytes) (txid' : Bytes) :
    (pool.linkTo txid ids).transactions.get? txid' =
      if txid' ∈ ids then (pool.transactions.get? txid').map (listDescendant txid)
      else pool.transactions.get? txid' := by
  rw [linkTo, relink_get?]
  simp

lemma linkTo_nil (pool : Mempool F) (txid : Bytes) : pool.linkTo txid [] = pool := by
  have hrows : pool.transactions.updateWhere (· ∈ ([] : List Bytes)) (listDescendant txid) =
      pool.transactions := by
    apply KeyedRows.ext
    simp [KeyedRows.updateWhere]
  unfold linkTo relink
  rw [hrows]

lemma addDescendant_linkTo (pool : Mempool F) (txid : Bytes) {ids : List Bytes} {ancestor : Bytes}
    (h : ancestor ∉ ids) :
    (pool.linkTo txid ids).addDescendant ancestor txid = pool.linkTo txid (ids ++ [ancestor]) := by
  have hrows : (pool.transactions.updateWhere (· ∈ ids) (listDescendant txid)).update ancestor
      (listDescendant txid) =
        pool.transactions.updateWhere (· ∈ ids ++ [ancestor]) (listDescendant txid) := by
    apply KeyedRows.ext
    simp only [KeyedRows.update, KeyedRows.updateWhere, List.map_map]
    apply List.map_congr_left
    intro r _
    by_cases hr : r.1 = ancestor
    · simp [hr, h]
    · by_cases hmem : r.1 ∈ ids <;> simp [hr, hmem]
  unfold linkTo relink addDescendant
  exact congrArg (fun rows => { pool with transactions := rows }) hrows

lemma addDescendant_absent {pool : Mempool F} {ancestor : Bytes}
    (h : pool.transactions.get? ancestor = none) (txid : Bytes) :
    pool.addDescendant ancestor txid = pool := by
  have hrows : pool.transactions.update ancestor (listDescendant txid) = pool.transactions := by
    apply KeyedRows.ext
    simp only [KeyedRows.update, KeyedRows.updateWhere]
    conv_rhs => rw [← List.map_id pool.transactions.rows]
    apply List.map_congr_left
    intro r hr
    have hne : r.1 ≠ ancestor := by
      rintro rfl
      exact KeyedRows.get?_eq_none_iff.1 h (List.mem_map_of_mem hr)
    simp [hne]
  exact congrArg (fun rows => { pool with transactions := rows }) hrows

lemma relinks_listDescendant (txid : Bytes) : Relinks (listDescendant txid : _ → MempoolEntry F) :=
  fun _ => rfl

lemma sumVsize_cons (entry : MempoolEntry F) (entries : List (MempoolEntry F)) :
    sumVsize (entry :: entries) = entry.vsize + sumVsize entries := by
  simp [sumVsize]

lemma Relinks.sumVsize {g : MempoolEntry F → MempoolEntry F} (hg : Relinks g) (pool : Mempool F)
    (p : Bytes → Bool) (ids : List Bytes) :
    sumVsize ((pool.relink p g).entriesOf ids) = sumVsize (pool.entriesOf ids) := by
  induction ids with
  | nil => rfl
  | cons txid ids ih =>
    unfold entriesOf at ih ⊢
    rw [List.filterMap_cons, List.filterMap_cons, relink_get?]
    cases pool.transactions.get? txid with
    | none => simpa using ih
    | some entry =>
      obtain ⟨-, -, -, hvsize, -⟩ := core_congr (hg entry)
      by_cases hp : p txid = true
      · simp only [hp, if_true, Option.map_some, sumVsize_cons, ih, hvsize]
      · rw [if_neg hp]
        simp only [sumVsize_cons, ih]

/-! The loop over the ancestors. -/

/-- The entry takes one more descendant of a size. -/
def TakesDescendant (settings : MempoolSettings F) (pool : Mempool F) (vsize : ℕ) (ancestor : Bytes) :
    Prop :=
  ∀ entry, pool.transactions.get? ancestor = some entry →
    entry.descendants.length + 1 ≤ settings.limits.maxDescendants ∧
      entry.vsize + sumVsize (pool.entriesOf entry.descendants) + vsize ≤
        settings.limits.maxDescendantSizeVbytes

section link
variable (settings : MempoolSettings F) {pool : Mempool F} {txid : Bytes} {own : MempoolEntry F}

lemma sumVsize_linkTo (hown : pool.transactions.get? txid = some own) (ids ids' : List Bytes) :
    sumVsize ((pool.linkTo txid ids).entriesOf (ids' ++ [txid])) =
      sumVsize (pool.entriesOf ids') + own.vsize := by
  rw [linkTo, (relinks_listDescendant txid).sumVsize]
  simp [entriesOf, hown, sumVsize]

/-- Every ancestor takes the new entry, or it is removed again. -/
lemma linkAncestors_cases (hown : pool.transactions.get? txid = some own)
    (hnew : ∀ txid' entry, pool.transactions.get? txid' = some entry → txid ∉ entry.descendants)
    (rest : List Bytes) : ∀ done : List Bytes, (done ++ rest).Nodup →
      (linkAncestors settings txid rest (pool.linkTo txid done) =
          (pool.linkTo txid (done ++ rest), none) ∧
        ∀ ancestor ∈ rest, TakesDescendant settings pool own.vsize ancestor) ∨
      (∃ done' reason, done' ⊆ done ++ rest ∧
        linkAncestors settings txid rest (pool.linkTo txid done) =
          ((pool.linkTo txid done').removeTransaction txid false, some reason) ∧
        ∃ ancestor ∈ rest, ¬ TakesDescendant settings pool own.vsize ancestor) := by
  induction rest with
  | nil =>
    intro done _
    left
    simp [linkAncestors]
  | cons ancestor rest ih =>
    intro done hnodup
    have hlist : done ++ ancestor :: rest = (done ++ [ancestor]) ++ rest := by simp
    have hfresh : ancestor ∉ done := by
      intro hmem
      exact (List.nodup_append.1 hnodup).2.2 ancestor hmem ancestor (by simp) rfl
    have hlinked := addDescendant_linkTo pool txid hfresh
    have hrest := ih (done ++ [ancestor]) (hlist ▸ hnodup)
    have hget : (pool.linkTo txid (done ++ [ancestor])).transactions.get? ancestor =
        (pool.transactions.get? ancestor).map (listDescendant txid) := by
      rw [linkTo_get?, if_pos (by simp)]
    simp only [linkAncestors, hlinked, hget]
    rw [hlist]
    cases hentry : pool.transactions.get? ancestor with
    | none =>
      have hsame : pool.linkTo txid done = pool.linkTo txid (done ++ [ancestor]) := by
        rw [← hlinked, addDescendant_absent]
        rw [linkTo_get?, hentry]
        simp
      simp only [Option.map_none]
      rw [hsame]
      rcases hrest with ⟨heq, htakes⟩ | ⟨done', reason, hsub, heq, a, ha, hnot⟩
      · refine .inl ⟨heq, ?_⟩
        intro a ha entry ha'
        rcases List.mem_cons.1 ha with rfl | ha
        · rw [hentry] at ha'
          cases ha'
        · exact htakes a ha entry ha'
      · exact .inr ⟨done', reason, hsub, heq, a, List.mem_cons_of_mem _ ha, hnot⟩
    | some entry =>
      have hdesc : (listDescendant txid entry).descendants = entry.descendants ++ [txid] :=
        addNew_of_not_mem (hnew ancestor entry hentry)
      have hvsize : (listDescendant txid entry).vsize = entry.vsize := rfl
      simp only [Option.map_some, hdesc, hvsize, List.length_append, List.length_singleton,
        sumVsize_linkTo hown, ← Nat.add_assoc]
      split_ifs with hcount hsize
      · refine .inr ⟨done ++ [ancestor], _, by simp, rfl, ancestor, by simp, ?_⟩
        intro htakes
        exact absurd (htakes entry hentry).1 (by omega)
      · refine .inr ⟨done ++ [ancestor], _, by simp, rfl, ancestor, by simp, ?_⟩
        intro htakes
        exact absurd (htakes entry hentry).2 (by omega)
      · rcases hrest with ⟨heq, htakes⟩ | ⟨done', reason, hsub, heq, a, ha, hnot⟩
        · refine .inl ⟨heq, ?_⟩
          intro a ha entry' ha'
          rcases List.mem_cons.1 ha with rfl | ha
          · rw [hentry] at ha'
            cases ha'
            omega
          · exact htakes a ha entry' ha'
        · exact .inr ⟨done', reason, hsub, heq, a, List.mem_cons_of_mem _ ha, hnot⟩

end link

/-! Removal of one entry. -/

/-- An entry after the removal of another one. -/
def unlink (txid : Bytes) (old : MempoolEntry F) (txid' : Bytes) (entry : MempoolEntry F) :
    MempoolEntry F :=
  { entry with
    descendants := if txid' ∈ old.ancestors then entry.descendants.erase txid else entry.descendants
    ancestors := if txid' ∈ old.descendants then entry.ancestors.erase txid else entry.ancestors }

lemma removeEntry_get? {pool : Mempool F} {txid : Bytes} {old : MempoolEntry F}
    (hold : pool.transactions.get? txid = some old) (txid' : Bytes) :
    (pool.removeEntry txid).transactions.get? txid' =
      if txid' = txid then none
      else (pool.transactions.get? txid').map (unlink txid old txid') := by
  by_cases heq : txid' = txid
  · rw [if_pos heq, heq]
    exact removeEntry_absent _ _
  · have hwithout : (pool.withoutEntry old txid).transactions.get? txid' =
        pool.transactions.get? txid' := by
      rw [withoutEntry, KeyedRows.get?_delete, if_neg heq]
    rw [if_neg heq, removeEntry_eq hold, relink_get?, relink_get?, hwithout]
    cases pool.transactions.get? txid' with
    | none => simp
    | some entry =>
      by_cases hanc : txid' ∈ old.ancestors <;> by_cases hdesc : txid' ∈ old.descendants <;>
        simp [hanc, hdesc, unlink, eraseDescendant, eraseAncestor]

lemma removeTransaction_false {pool : Mempool F} {txid : Bytes} {old : MempoolEntry F}
    (hold : pool.transactions.get? txid = some old) :
    pool.removeTransaction txid false = pool.removeEntry txid := by
  simp [removeTransaction, KeyedRows.contains, hold, removeEntries, addNew]

/-- Taking a new entry out again restores the links of the others. -/
lemma removeEntry_linkTo_get? {pool : Mempool F} {txid : Bytes} {own : MempoolEntry F}
    (hown : pool.transactions.get? txid = some own) (hnone : own.descendants = [])
    (hnew : ∀ txid' entry, pool.transactions.get? txid' = some entry → txid ∉ entry.descendants)
    {ids : List Bytes} (hids : ids ⊆ own.ancestors) (txid' : Bytes) :
    ((pool.linkTo txid ids).removeEntry txid).transactions.get? txid' =
      if txid' = txid then none else pool.transactions.get? txid' := by
  obtain ⟨linked, hlinked, hanc, hdesc⟩ : ∃ linked, (pool.linkTo txid ids).transactions.get? txid =
      some linked ∧ linked.ancestors = own.ancestors ∧ linked.descendants ⊆ [txid] := by
    rw [linkTo_get?, hown]
    split_ifs
    · exact ⟨_, rfl, rfl, by simp [listDescendant, hnone, addNew]⟩
    · exact ⟨own, rfl, rfl, by simp [hnone]⟩
  rw [removeEntry_get? hlinked]
  split_ifs with heq
  · rfl
  · have hself : txid' ∉ linked.descendants := fun hmem => heq (by simpa using hdesc hmem)
    rw [linkTo_get?]
    cases hentry : pool.transactions.get? txid' with
    | none => simp
    | some entry =>
      have hnot := hnew txid' entry hentry
      by_cases hmem : txid' ∈ ids
      · have hanc' : txid' ∈ linked.ancestors := hanc ▸ hids hmem
        simp [hmem, unlink, hself, hanc', listDescendant, addNew_of_not_mem hnot,
          List.erase_append_right _ hnot]
      · simp [hmem, unlink, hself, List.erase_of_not_mem hnot]

/-! Descendants that are listed are entries, which list the ancestor. -/

def Backed (pool : Mempool F) : Prop :=
  ∀ txid entry, pool.transactions.get? txid = some entry → entry.descendants.Nodup ∧
    ∀ desc ∈ entry.descendants, ∃ entry', pool.transactions.get? desc = some entry' ∧
      txid ∈ entry'.ancestors

lemma Backed.empty : Backed (Mempool.empty : Mempool F) := by
  intro txid entry h
  cases h

lemma Backed.absent {pool : Mempool F} (h : pool.Backed) {txid : Bytes}
    (hnone : pool.transactions.get? txid = none) (txid' : Bytes) (entry : MempoolEntry F)
    (hentry : pool.transactions.get? txid' = some entry) : txid ∉ entry.descendants := by
  intro hmem
  obtain ⟨entry', hentry', -⟩ := (h txid' entry hentry).2 txid hmem
  rw [hnone] at hentry'
  cases hentry'

lemma keptByRemoval_backed : KeptByRemoval (Backed : Mempool F → Prop) := by
  intro pool txid h
  cases hold : pool.transactions.get? txid with
  | none =>
    unfold removeEntry
    rw [hold]
    exact h
  | some old =>
    intro txid' entry hentry
    rw [removeEntry_get? hold] at hentry
    split_ifs at hentry with heq
    obtain ⟨entry', hentry', rfl⟩ := Option.map_eq_some_iff.1 hentry
    obtain ⟨hnodup, hback⟩ := h txid' entry' hentry'
    have hsub : ∀ desc ∈ (unlink txid old txid' entry').descendants,
        desc ≠ txid ∧ desc ∈ entry'.descendants := by
      intro desc hdesc
      simp only [unlink] at hdesc
      split_ifs at hdesc with hanc
      · exact hnodup.mem_erase_iff.1 hdesc
      · refine ⟨?_, hdesc⟩
        rintro rfl
        obtain ⟨old', hold', hmem⟩ := hback desc hdesc
        rw [hold] at hold'
        cases hold'
        exact hanc hmem
    refine ⟨?_, ?_⟩
    · simp only [unlink]
      split_ifs
      · exact hnodup.erase txid
      · exact hnodup
    · intro desc hdesc
      obtain ⟨hne, hdesc⟩ := hsub desc hdesc
      obtain ⟨target, htarget, hmem⟩ := hback desc hdesc
      refine ⟨unlink txid old desc target, by rw [removeEntry_get? hold, if_neg hne, htarget]; rfl, ?_⟩
      simp only [unlink]
      split_ifs
      · exact (List.mem_erase_of_ne heq).2 hmem
      · exact hmem

lemma ancestorsLoop_nodup (pool : Mempool F) (fuel : ℕ) : ∀ queue found : List Bytes, found.Nodup →
    (pool.ancestorsLoop fuel queue found).Nodup := by
  induction fuel with
  | zero =>
    intro queue found h
    simpa [ancestorsLoop] using h
  | succ fuel ih =>
    intro queue found h
    cases queue with
    | nil => simpa [ancestorsLoop] using h
    | cons current queue =>
      rw [ancestorsLoop]
      split_ifs with hmem
      · exact ih queue found h
      · have hfound : (found ++ [current]).Nodup := by
          rw [← addNew_of_not_mem hmem]
          exact nodup_addNew h (List.nodup_singleton current)
        cases pool.transactions.get? current with
        | none => exact ih _ _ hfound
        | some entry => exact ih _ _ hfound

/-! Acceptance. -/

/-- Two pools with the same entries, spent outpoints and totals. -/
structure SameContents (pool pool' : Mempool F) : Prop where
  entries : ∀ txid, pool.transactions.get? txid = pool'.transactions.get? txid
  spent : pool.spentUtxos = pool'.spentUtxos
  size : pool.totalSize = pool'.totalSize
  vsize : pool.totalVsize = pool'.totalVsize
  weight : pool.totalWeight = pool'.totalWeight
  fee : pool.totalFee = pool'.totalFee

lemma SameContents.refl (pool : Mempool F) : pool.SameContents pool :=
  ⟨fun _ => rfl, rfl, rfl, rfl, rfl, rfl⟩

lemma SameContents.symm {pool pool' : Mempool F} (h : pool.SameContents pool') :
    pool'.SameContents pool :=
  ⟨fun txid => (h.entries txid).symm, h.spent.symm, h.size.symm, h.vsize.symm, h.weight.symm,
    h.fee.symm⟩

lemma SameContents.trans {pool pool' pool'' : Mempool F} (h : pool.SameContents pool')
    (h' : pool'.SameContents pool'') : pool.SameContents pool'' :=
  ⟨fun txid => (h.entries txid).trans (h'.entries txid), h.spent.trans h'.spent,
    h.size.trans h'.size, h.vsize.trans h'.vsize, h.weight.trans h'.weight, h.fee.trans h'.fee⟩

section admitCandidate
variable [LinearOrder F] {settings : MempoolSettings F} {chain : ChainView} {pool : Mempool F}
  {c : Candidate F}

lemma insertEntry_fresh (hfresh : pool.transactions.get? c.txid = none) (hback : pool.Backed)
    (now : F) (txid : Bytes) (entry : MempoolEntry F)
    (h : (pool.insertEntry chain now c).transactions.get? txid = some entry) :
    c.txid ∉ entry.descendants := by
  rw [insertEntry_get?] at h
  split_ifs at h with heq
  · cases h
    simp [Candidate.entry]
  · exact hback.absent hfresh txid entry h

/-- A new entry that is taken out again leaves nothing behind. -/
lemma removeTransaction_insertEntry (hfresh : pool.transactions.get? c.txid = none)
    (hback : pool.Backed) (hspent : ∀ outpoint ∈ outpointsOf c.tx, outpoint ∉ pool.spentUtxos)
    (now : F) {ids : List Bytes} (hids : ids ⊆ c.ancestors) :
    (((pool.insertEntry chain now c).linkTo c.txid ids).removeTransaction c.txid false).SameContents
      pool := by
  have hown : (pool.insertEntry chain now c).transactions.get? c.txid = some (c.entry chain now) := by
    rw [insertEntry_get?, if_pos rfl]
  obtain ⟨linked, hlinked, hcore⟩ : ∃ linked, ((pool.insertEntry chain now c).linkTo c.txid
      ids).transactions.get? c.txid = some linked ∧ linked.core = (c.entry chain now).core := by
    rw [linkTo_get?, hown]
    split_ifs
    · exact ⟨_, rfl, rfl⟩
    · exact ⟨_, rfl, rfl⟩
  obtain ⟨htx, -, hsize, hvsize, hweight, hfee, -⟩ := core_congr hcore
  rw [removeTransaction_false hlinked]
  refine ⟨?_, ?_, ?_, ?_, ?_, ?_⟩
  · intro txid
    rw [removeEntry_linkTo_get? hown rfl (insertEntry_fresh hfresh hback now) hids,
      insertEntry_get?]
    split_ifs with heq
    · rw [heq, hfresh]
    · rfl
  · rw [removeEntry_eq hlinked]
    change (pool.spentUtxos ∪ (outpointsOf c.tx).toFinset) \ (outpointsOf linked.tx).toFinset = _
    rw [htx]
    change (pool.spentUtxos ∪ (outpointsOf c.tx).toFinset) \ (outpointsOf c.tx).toFinset = _
    rw [Finset.union_sdiff_right]
    refine Finset.sdiff_eq_self_of_disjoint (Finset.disjoint_left.2 ?_)
    intro outpoint hmem hmem'
    exact hspent outpoint (List.mem_toFinset.1 hmem') hmem
  · rw [removeEntry_eq hlinked]
    change pool.totalSize + c.size - linked.size = _
    rw [hsize]
    exact add_sub_cancel_right _ _
  · rw [removeEntry_eq hlinked]
    change pool.totalVsize + c.vsize - linked.vsize = _
    rw [hvsize]
    exact add_sub_cancel_right _ _
  · rw [removeEntry_eq hlinked]
    change pool.totalWeight + c.weight - linked.weight = _
    rw [hweight]
    exact add_sub_cancel_right _ _
  · rw [removeEntry_eq hlinked]
    change pool.totalFee + c.fee - linked.fee = _
    rw [hfee]
    exact add_sub_cancel_right _ _

/-- The ancestors in the pool take the candidate. -/
def TakesCandidate (settings : MempoolSettings F) (chain : ChainView) (pool : Mempool F) (now : F)
    (c : Candidate F) : Prop :=
  ∀ ancestor ∈ c.ancestors,
    TakesDescendant settings (pool.insertEntry chain now c) c.vsize ancestor

lemma admit_cases (hfresh : pool.transactions.get? c.txid = none) (hback : pool.Backed)
    (hspent : ∀ outpoint ∈ outpointsOf c.tx, outpoint ∉ pool.spentUtxos)
    (hnodup : c.ancestors.Nodup) (now : F) :
    (pool.admitCandidate settings chain now c =
        ((pool.insertEntry chain now c).linkTo c.txid c.ancestors, none) ∧
      TakesCandidate settings chain pool now c) ∨
    (∃ reason, (pool.admitCandidate settings chain now c).2 = some reason ∧
      (pool.admitCandidate settings chain now c).1.SameContents pool ∧
      ¬ TakesCandidate settings chain pool now c) := by
  have hown : (pool.insertEntry chain now c).transactions.get? c.txid = some (c.entry chain now) := by
    rw [insertEntry_get?, if_pos rfl]
  rcases linkAncestors_cases settings hown (insertEntry_fresh hfresh hback now)
    c.ancestors [] (by simpa using hnodup) with
    ⟨heq, htakes⟩ | ⟨ids, reason, hids, heq, ancestor, hmem, hnot⟩
  · rw [linkTo_nil, List.nil_append] at heq
    exact .inl ⟨heq, htakes⟩
  · rw [linkTo_nil] at heq
    unfold admitCandidate
    rw [heq]
    refine .inr ⟨reason, rfl, removeTransaction_insertEntry hfresh hback hspent now hids, ?_⟩
    intro htakes
    exact hnot (htakes ancestor hmem)

omit [LinearOrder F] in
lemma Backed.congr {pool' : Mempool F} (h : pool.Backed)
    (hsame : ∀ txid, pool'.transactions.get? txid = pool.transactions.get? txid) : pool'.Backed := by
  intro txid entry hentry
  rw [hsame] at hentry
  obtain ⟨hnodup, hback⟩ := h txid entry hentry
  refine ⟨hnodup, ?_⟩
  intro desc hdesc
  obtain ⟨entry', hentry', hmem⟩ := hback desc hdesc
  exact ⟨entry', by rw [hsame, hentry'], hmem⟩

lemma Backed.insertEntry_linkTo (h : pool.Backed) (hfresh : pool.transactions.get? c.txid = none)
    (now : F) : ((pool.insertEntry chain now c).linkTo c.txid c.ancestors).Backed := by
  have hinserted : (pool.insertEntry chain now c).Backed := by
    intro txid entry hentry
    rw [insertEntry_get?] at hentry
    split_ifs at hentry with heq
    · cases hentry
      simp [Candidate.entry]
    · obtain ⟨hnodup, hback⟩ := h txid entry hentry
      refine ⟨hnodup, ?_⟩
      intro desc hdesc
      obtain ⟨entry', hentry', hmem⟩ := hback desc hdesc
      refine ⟨entry', ?_, hmem⟩
      rw [insertEntry_get?, if_neg, hentry']
      rintro rfl
      exact h.absent hfresh txid entry hentry hdesc
  have hown : (pool.insertEntry chain now c).transactions.get? c.txid = some (c.entry chain now) := by
    rw [insertEntry_get?, if_pos rfl]
  -- An entry and its image under the new links have the same ancestors.
  have himage {txid : Bytes} {entry : MempoolEntry F}
      (hentry : (pool.insertEntry chain now c).transactions.get? txid = some entry) :
      ∃ entry', ((pool.insertEntry chain now c).linkTo c.txid c.ancestors).transactions.get? txid =
        some entry' ∧ entry'.ancestors = entry.ancestors := by
    rw [linkTo_get?, hentry]
    split_ifs
    · exact ⟨_, rfl, rfl⟩
    · exact ⟨_, rfl, rfl⟩
  intro txid entry hentry
  rw [linkTo_get?] at hentry
  split_ifs at hentry with hanc
  · obtain ⟨old, hold, rfl⟩ := Option.map_eq_some_iff.1 hentry
    obtain ⟨hnodup, hback⟩ := hinserted txid old hold
    refine ⟨nodup_addNew hnodup (List.nodup_singleton c.txid), ?_⟩
    intro desc hdesc
    rcases mem_addNew.1 hdesc with hdesc | hdesc
    · obtain ⟨entry', hentry', hmem⟩ := hback desc hdesc
      obtain ⟨entry'', hentry'', hsame⟩ := himage hentry'
      exact ⟨entry'', hentry'', hsame ▸ hmem⟩
    · rw [List.mem_singleton.1 hdesc]
      obtain ⟨entry'', hentry'', hsame⟩ := himage hown
      exact ⟨entry'', hentry'', hsame ▸ hanc⟩
  · obtain ⟨hnodup, hback⟩ := hinserted txid entry hentry
    refine ⟨hnodup, ?_⟩
    intro desc hdesc
    obtain ⟨entry', hentry', hmem⟩ := hback desc hdesc
    obtain ⟨entry'', hentry'', hsame⟩ := himage hentry'
    exact ⟨entry'', hentry'', hsame ▸ hmem⟩

end admitCandidate

section calls
variable [LinearOrder F] {settings : MempoolSettings F} {chain : ChainView} {pool : Mempool F}
  {tx : Transaction} {c : Candidate F}

/-- The pool to which a candidate is added. -/
def cleared (settings : MempoolSettings F) (pool : Mempool F) (c : Candidate F) : Mempool F :=
  (pool.makeRoom settings c).removeConflicts c

lemma cleared_within : (pool.cleared settings c).Within pool :=
  (keptByRemoval_within pool).departure.removeEach
    ((keptByRemoval_within pool).departure.makeRoom settings (.refl pool) c) _

lemma KeptByDeparture.cleared {P : Mempool F → Prop} (hP : KeptByDeparture P) (h : P pool) :
    P (pool.cleared settings c) := hP.removeEach (hP.makeRoom settings h c) _

lemma Screened.absent (h : Screened settings chain pool tx c) :
    (pool.cleared settings c).transactions.get? c.txid = none := cleared_within.absent h.fresh

lemma Screened.unspent (h : Screened settings chain pool tx c) (hbooks : pool.Books) :
    ∀ outpoint ∈ outpointsOf c.tx, outpoint ∉ (pool.cleared settings c).spentUtxos := by
  intro outpoint hmem hspent
  have hcleared : (pool.cleared settings c).Books := keptByRemoval_books.departure.cleared hbooks
  obtain ⟨txid, entry, hentry, hmem'⟩ := (hcleared.spent outpoint).1 hspent
  exact h.disjoint ((keptByRemoval_within pool).departure.makeRoom settings (.refl pool) c) hentry
    hmem hmem'

/-- A candidate is added to the cleared pool with its links, or leaves that pool as it is. -/
lemma Screened.admit_cases (h : Screened settings chain pool tx c) (hbooks : pool.Books)
    (hback : pool.Backed) (now : F) :
    ((pool.cleared settings c).admitCandidate settings chain now c =
        (((pool.cleared settings c).insertEntry chain now c).linkTo c.txid c.ancestors, none) ∧
      TakesCandidate settings chain (pool.cleared settings c) now c) ∨
    (∃ reason, ((pool.cleared settings c).admitCandidate settings chain now c).2 = some reason ∧
      ((pool.cleared settings c).admitCandidate settings chain now c).1.SameContents
        (pool.cleared settings c) ∧
      ¬ TakesCandidate settings chain (pool.cleared settings c) now c) := by
  have hnodup : c.ancestors.Nodup := by
    rw [h.ancestors_eq]
    exact ancestorsLoop_nodup pool _ _ _ List.nodup_nil
  exact Mempool.admit_cases h.absent (keptByRemoval_backed.departure.cleared hback)
    (h.unspent hbooks) hnodup now

lemma Backed.addTransaction (hbooks : pool.Books) (h : pool.Backed) (args : CallArgs F) :
    (pool.addTransaction settings chain args tx).1.Backed := by
  unfold Mempool.addTransaction
  cases hscreen : pool.screen settings chain args tx with
  | error reason => exact h
  | ok c =>
    have hs := screen_ok hscreen
    simp only
    split_ifs
    · rcases hs.admit_cases hbooks h args.now with ⟨heq, -⟩ | ⟨reason, -, hsame, -⟩
      · change ((pool.cleared settings c).admitCandidate settings chain args.now c).1.Backed
        rw [heq]
        exact (keptByRemoval_backed.departure.cleared h).insertEntry_linkTo hs.absent args.now
      · exact (keptByRemoval_backed.departure.cleared h).congr hsame.entries
    · exact keptByRemoval_backed.departure.makeRoom settings h c

lemma runCalls_backed (settings : MempoolSettings F) (calls : List (ChainView × MempoolCall F)) :
    (runCalls settings calls).Books ∧ (runCalls settings calls).Backed := by
  have hkept : KeptByRemoval fun pool : Mempool F => pool.Books ∧ pool.Backed :=
    fun pool txid h => ⟨keptByRemoval_books pool txid h.1, keptByRemoval_backed pool txid h.2⟩
  refine hkept.runCalls ⟨.empty, .empty⟩ settings ?_ calls
  intro chain pool args tx h
  exact ⟨h.1.addTransaction settings chain args tx, h.2.addTransaction h.1 args⟩

end calls
end Mempool
end BerzCoin
