import BerzCoin.GraphSearch
import BerzCoin.MempoolPackages

/-! Replacement by fee: which entries may be replaced, what is taken out for a replacement, and that
the pool earns more with it. -/
namespace BerzCoin
open Relation

namespace Mempool
variable {F : Type}

/-! Which entries may be replaced. -/

def recordedParents (pool : Mempool F) (txid : Bytes) : List Bytes := (pool.unconfirmedParents.get? txid).getD []

/-- An entry that signals for itself. -/
def signals (pool : Mempool F) (txid : Bytes) : Bool :=
  (pool.transactions.get? txid).any fun entry => signalsOptInRbf entry.tx

/-- The second id is a recorded parent of the first one, which is an entry. -/
def ChildOf (pool : Mempool F) (txid parent : Bytes) : Prop :=
  pool.transactions.get? txid ≠ none ∧ parent ∈ pool.recordedParents txid

/-- The entry, or an entry that its recorded parents lead to, has an input that signals. -/
def Replaceable (pool : Mempool F) (txid : Bytes) : Prop :=
  ∃ ancestor entry, ReflTransGen pool.ChildOf txid ancestor ∧
    pool.transactions.get? ancestor = some entry ∧ ∃ txin ∈ entry.tx.vin, txin.sequence < 0xFFFFFFFE

lemma isTxidReplaceable_eq (pool : Mempool F) (fuel : ℕ) (seen : List Bytes) (txid : Bytes) :
    pool.isTxidReplaceable fuel seen txid =
      GraphSearch.search pool.transactions.contains pool.signals pool.recordedParents fuel seen txid := by
  induction fuel generalizing seen txid with
  | zero => rfl
  | succ fuel ih =>
    have hloop : (fun (r : Bool × List Bytes) parent =>
        if r.1 then r else pool.isTxidReplaceable fuel r.2 parent) =
          fun r parent => if r.1 then r else GraphSearch.search pool.transactions.contains pool.signals
            pool.recordedParents fuel r.2 parent := by
      funext r parent
      rw [ih]
    rw [isTxidReplaceable, GraphSearch.search, hloop]
    cases hentry : pool.transactions.get? txid with
    | none => simp [KeyedRows.contains, hentry]
    | some entry =>
      by_cases hseen : txid ∈ seen <;> simp [KeyedRows.contains, signals, recordedParents, hentry, hseen]

/-- The recursive search, whose branches share the ids seen, finds out exactly whether the entry or
one of the unconfirmed ancestors on record signals. -/
theorem isTxidReplaceable_iff (pool : Mempool F) (txid : Bytes) :
    (pool.isTxidReplaceable (pool.count + 1) [] txid).1 = true ↔ pool.Replaceable txid := by
  have hnodes (txid : Bytes) (h : pool.transactions.contains txid = true) : txid ∈ pool.txids := by
    rw [mem_txids]
    intro hnone
    simp [KeyedRows.contains, hnone] at h
  have hlength : pool.txids.length < pool.count + 1 := by simp [txids, count]
  have hstep : GraphSearch.Step pool.transactions.contains pool.recordedParents = pool.ChildOf := by
    funext a b
    simp [GraphSearch.Step, ChildOf, KeyedRows.contains, Option.isSome_iff_ne_none]
  rw [isTxidReplaceable_eq, GraphSearch.search_iff hnodes hlength, hstep]
  constructor
  · rintro ⟨ancestor, hpath, -, hsignals⟩
    obtain ⟨entry, hentry, hopt⟩ := (Option.any_eq_true _ _).1 hsignals
    obtain ⟨txin, hmem, hless⟩ := List.any_eq_true.1 hopt
    exact ⟨ancestor, entry, hpath, hentry, txin, hmem, by simpa using hless⟩
  · rintro ⟨ancestor, entry, hpath, hentry, txin, hmem, hless⟩
    refine ⟨ancestor, hpath, by simp [KeyedRows.contains, hentry], ?_⟩
    exact (Option.any_eq_true _ _).2 ⟨entry, hentry, List.any_eq_true.2 ⟨txin, hmem, by simpa using hless⟩⟩

/-! What is taken out. -/

def descendantsOf (pool : Mempool F) (txid : Bytes) : List Bytes :=
  ((pool.transactions.get? txid).map MempoolEntry.descendants).getD []

/-- The first id is an entry that lists the second one as a descendant. -/
def Lists (pool : Mempool F) (txid desc : Bytes) : Prop := desc ∈ pool.descendantsOf txid

lemma descendantsLoop_eq (pool : Mempool F) (fuel : ℕ) (queue found : List Bytes) :
    pool.descendantsLoop fuel queue found = GraphSearch.collect pool.descendantsOf fuel queue found := by
  induction fuel generalizing queue found with
  | zero => cases queue <;> rfl
  | succ fuel ih =>
    cases queue with
    | nil => rfl
    | cons txid queue =>
      rw [descendantsLoop, GraphSearch.collect, descendantsOf]
      cases hentry : pool.transactions.get? txid with
      | none => simp [ih]
      | some entry => simp [ih]

section descendants
variable {pool : Mempool F} (h : pool.Backed)
include h

lemma Backed.nodup_descendantsOf (txid : Bytes) : (pool.descendantsOf txid).Nodup := by
  unfold descendantsOf
  cases hentry : pool.transactions.get? txid with
  | none => exact List.nodup_nil
  | some entry => exact (h txid entry hentry).1

lemma Backed.nodup_getDescendants (txid : Bytes) : (pool.getDescendants txid).Nodup := by
  rw [getDescendants, descendantsLoop_eq]
  exact GraphSearch.nodup_collect h.nodup_descendantsOf _ _ _ List.nodup_nil

/-- `_get_descendants` finds whatever the lists of descendants lead to. -/
lemma Backed.mem_getDescendants {txid desc : Bytes} :
    desc ∈ pool.getDescendants txid ↔ TransGen pool.Lists txid desc := by
  have hnodes (txid : Bytes) : pool.descendantsOf txid ⊆
      pool.transactions.rows.flatMap fun row => row.2.descendants := by
    intro desc hdesc
    unfold descendantsOf at hdesc
    cases hentry : pool.transactions.get? txid with
    | none =>
      rw [hentry] at hdesc
      cases hdesc
    | some entry =>
      rw [hentry] at hdesc
      exact List.mem_flatMap.2 ⟨(txid, entry), KeyedRows.mem_rows_of_get? hentry, hdesc⟩
  have hfuel : 1 + (pool.transactions.rows.flatMap fun row => row.2.descendants).length ≤
      1 + pool.transactions.sum fun entry => entry.descendants.length := by
    simp [KeyedRows.sum, List.length_flatMap]
  rw [getDescendants, descendantsLoop_eq]
  exact GraphSearch.mem_collect_iff h.nodup_descendantsOf hnodes hfuel txid desc

lemma Backed.mem_replacementSet {conflicts : List Bytes} {txid : Bytes} :
    txid ∈ pool.replacementSet conflicts ↔
      ∃ conflict ∈ conflicts, ReflTransGen pool.Lists conflict txid := by
  have hfold (ids : List Bytes) (found : List Bytes) :
      txid ∈ ids.foldl (fun found txid => addNew found (pool.getDescendants txid)) found ↔
        txid ∈ found ∨ ∃ id ∈ ids, TransGen pool.Lists id txid := by
    induction ids generalizing found with
    | nil => simp
    | cons id ids ih =>
      rw [List.foldl_cons, ih, mem_addNew, h.mem_getDescendants]
      simp [or_assoc]
  rw [replacementSet, hfold]
  constructor
  · rintro (hmem | ⟨conflict, hmem, hpath⟩)
    · exact ⟨txid, hmem, .refl⟩
    · exact ⟨conflict, hmem, hpath.to_reflTransGen⟩
  · rintro ⟨conflict, hmem, hpath⟩
    rcases reflTransGen_iff_eq_or_transGen.1 hpath with rfl | hpath
    · exact .inl hmem
    · exact .inr ⟨conflict, hmem, hpath⟩

lemma Backed.nodup_replacementSet {conflicts : List Bytes} (hconflicts : conflicts.Nodup) :
    (pool.replacementSet conflicts).Nodup := by
  have hfold (ids : List Bytes) {found : List Bytes} (hfound : found.Nodup) :
      (ids.foldl (fun found txid => addNew found (pool.getDescendants txid)) found).Nodup := by
    induction ids generalizing found with
    | nil => exact hfound
    | cons id ids ih => exact ih (nodup_addNew hfound (h.nodup_getDescendants id))
  exact hfold conflicts hconflicts

/-- The removals of the replaced ids take out these and nothing else. -/
lemma Backed.removeConflicts_present (conflicts : List Bytes) (txid : Bytes) :
    (pool.removeEach (pool.replacementSet conflicts)).transactions.get? txid ≠ none ↔
      pool.transactions.get? txid ≠ none ∧ txid ∉ pool.replacementSet conflicts := by
  have hwithin := (keptByRemoval_within pool).departure.removeEach (.refl pool)
    (pool.replacementSet conflicts)
  constructor
  · intro hpresent
    refine ⟨fun hnone => hpresent (hwithin.absent hnone), fun hmem => hpresent ?_⟩
    exact removeEach_absent pool hmem
  · rintro ⟨hpresent, hnot⟩
    let ids := pool.txids.filter (· ∉ pool.replacementSet conflicts)
    have hids {id : Bytes} : id ∈ ids ↔ pool.transactions.get? id ≠ none ∧
        id ∉ pool.replacementSet conflicts := by
      simp only [ids, List.mem_filter, mem_txids, decide_eq_true_eq]
    -- The replaced ids have their descendants among them.
    have hapart : Apart ids pool := by
      intro id entry hentry hout desc hdesc hmem
      have hreplaced : id ∈ pool.replacementSet conflicts := by
        by_contra hkept
        exact hout (hids.2 ⟨by rw [hentry]; exact Option.some_ne_none _, hkept⟩)
      obtain ⟨conflict, hconflict, hpath⟩ := h.mem_replacementSet.1 hreplaced
      refine (hids.1 hmem).2 (h.mem_replacementSet.2 ⟨conflict, hconflict, hpath.tail ?_⟩)
      simpa [Lists, descendantsOf, hentry] using hdesc
    exact hapart.removeEach_holds (fun id hid => (hids.1 hid).1)
      (fun id hid hmem => (hids.1 hmem).2 hid) txid (hids.2 ⟨hpresent, hnot⟩)

end descendants

/-! The sums over the entries. -/

/-- The sum over the entries with some ids does not depend on their order, and ids without an entry
do not count. -/
lemma sum_entriesOf_congr (pool : Mempool F) (f : MempoolEntry F → ℤ) {ids ids' : List Bytes}
    (hnodup : ids.Nodup) (hnodup' : ids'.Nodup)
    (hsame : ∀ txid, pool.transactions.get? txid ≠ none → (txid ∈ ids ↔ txid ∈ ids')) :
    ((pool.entriesOf ids).map f).sum = ((pool.entriesOf ids').map f).sum := by
  have hpresent (ids : List Bytes) :
      pool.entriesOf ids = pool.entriesOf (ids.filter fun txid => (pool.transactions.get? txid).isSome) := by
    induction ids with
    | nil => rfl
    | cons txid ids ih =>
      unfold entriesOf at ih ⊢
      cases hentry : pool.transactions.get? txid with
      | none => simp [hentry, ih]
      | some entry => simp [hentry, ih]
  have hperm : (ids.filter fun txid => (pool.transactions.get? txid).isSome).Perm
      (ids'.filter fun txid => (pool.transactions.get? txid).isSome) := by
    rw [List.perm_ext_iff_of_nodup (hnodup.filter _) (hnodup'.filter _)]
    intro txid
    simp only [List.mem_filter, Option.isSome_iff_ne_none]
    constructor
    · exact fun hmem => ⟨(hsame txid hmem.2).1 hmem.1, hmem.2⟩
    · exact fun hmem => ⟨(hsame txid hmem.2).2 hmem.1, hmem.2⟩
  rw [hpresent ids, hpresent ids']
  exact ((hperm.filterMap _).map f).sum_eq

lemma total_eq_sum_entriesOf (pool : Mempool F) (f : MempoolEntry F → ℤ) :
    pool.transactions.total f = ((pool.entriesOf pool.txids).map f).sum := by
  have hentries : pool.entriesOf pool.txids = pool.transactions.rows.map Prod.snd := by
    rw [entriesOf, txids, List.filterMap_map, ← List.filterMap_eq_map]
    exact List.filterMap_congr fun row hrow => KeyedRows.get?_of_mem_rows hrow
  rw [hentries, KeyedRows.total, List.map_map]
  rfl

lemma sum_entriesOf_within {pool pool' : Mempool F} (h : pool.Within pool') {f : MempoolEntry F → ℤ}
    (hf : ∀ entry entry' : MempoolEntry F, entry.core = entry'.core → f entry = f entry') {ids : List Bytes}
    (hids : ∀ txid ∈ ids, pool.transactions.get? txid ≠ none) :
    ((pool.entriesOf ids).map f).sum = ((pool'.entriesOf ids).map f).sum := by
  induction ids with
  | nil => rfl
  | cons txid ids ih =>
    obtain ⟨entry, hentry⟩ := Option.ne_none_iff_exists'.1 (hids txid List.mem_cons_self)
    obtain ⟨entry', hentry', hcore⟩ := h txid entry hentry
    have hrest := ih fun id hid => hids id (List.mem_cons_of_mem _ hid)
    simp only [entriesOf, List.filterMap_cons, hentry, hentry', List.map_cons, List.sum_cons] at hrest ⊢
    rw [hf entry entry' hcore, hrest]

/-- The fees that the removals of the replaced ids take away. -/
lemma Backed.totalFee_removeConflicts [LinearOrder F] {pool : Mempool F} (hback : pool.Backed)
    (hbooks : pool.Books) {conflicts : List Bytes} (hconflicts : conflicts.Nodup) :
    (pool.removeEach (pool.replacementSet conflicts)).totalFee +
        ((pool.entriesOf (pool.replacementSet conflicts)).map MempoolEntry.fee).sum = pool.totalFee := by
  let replaced := pool.replacementSet conflicts
  let left := pool.removeEach replaced
  have hleft : left.Books := keptByRemoval_books.departure.removeEach hbooks replaced
  have hwithin : left.Within pool := (keptByRemoval_within pool).departure.removeEach (.refl pool) replaced
  have hkept : ((left.entriesOf left.txids).map MempoolEntry.fee).sum =
      ((pool.entriesOf (pool.txids.filter (· ∉ replaced))).map MempoolEntry.fee).sum := by
    rw [sum_entriesOf_within hwithin (fun _ _ hcore => (core_congr hcore).2.2.2.2.2.1)
      (fun txid hmem => mem_txids.1 hmem)]
    refine sum_entriesOf_congr pool _ (nodup_txids left) ((nodup_txids pool).filter _) ?_
    intro txid _
    simp only [mem_txids, List.mem_filter, decide_eq_true_eq]
    exact hback.removeConflicts_present conflicts txid
  have hgone : ((pool.entriesOf replaced).map MempoolEntry.fee).sum =
      ((pool.entriesOf (pool.txids.filter (· ∈ replaced))).map MempoolEntry.fee).sum := by
    refine sum_entriesOf_congr pool _ (hback.nodup_replacementSet hconflicts)
      ((nodup_txids pool).filter _) ?_
    intro txid hpresent
    simp [mem_txids, hpresent, replaced]
  have hsplit : ((pool.entriesOf (pool.txids.filter (· ∈ replaced) ++
      pool.txids.filter (· ∉ replaced))).map MempoolEntry.fee).sum =
        ((pool.entriesOf pool.txids).map MempoolEntry.fee).sum := by
    have hperm := List.filter_append_perm (fun txid => decide (txid ∈ replaced)) pool.txids
    simp only [← decide_not] at hperm
    exact ((hperm.filterMap _).map _).sum_eq
  rw [entriesOf, List.filterMap_append, List.map_append, List.sum_append] at hsplit
  change left.totalFee + ((pool.entriesOf replaced).map MempoolEntry.fee).sum = pool.totalFee
  rw [hleft.fee, hbooks.fee, total_eq_sum_entriesOf, total_eq_sum_entriesOf, hkept, hgone, ← hsplit]
  exact add_comm _ _

/-! A replacement. -/
section replacement
variable [LinearOrder F] {settings : MempoolSettings F} {chain : ChainView} {pool : Mempool F}
  {args : CallArgs F} {tx : Transaction} {c : Candidate F}

/-- What a replacement has to offer. -/
structure Outpays (settings : MempoolSettings F) (pool : Mempool F) (tx : Transaction) (fee : ℤ)
    (conflicts : List Bytes) : Prop where
  few : (pool.replacementSet conflicts).length ≤ 100
  replaceable : ∀ txid ∈ conflicts, pool.Replaceable txid
  fee : ((pool.entriesOf (pool.replacementSet conflicts)).map MempoolEntry.fee).sum +
    settings.policy.getMinFeeForVsize (virtualSizeFromWeight tx.weight) < fee

lemma canReplace_outpays {conflicts : List Bytes} {fee : ℤ} {feeRate : F}
    (hpresent : ∃ txid ∈ conflicts, pool.transactions.get? txid ≠ none)
    (h : pool.canReplace settings conflicts tx fee (virtualSizeFromWeight tx.weight) feeRate = true) :
    pool.Outpays settings tx fee conflicts := by
  have hsize : max 1 (virtualSizeFromWeight tx.weight) = virtualSizeFromWeight tx.weight := by
    simp [virtualSizeFromWeight]
  obtain ⟨txid, hmem, hne⟩ := hpresent
  have hentries : (pool.entriesOf (pool.replacementSet conflicts)).isEmpty = false := by
    obtain ⟨entry, hentry⟩ := Option.ne_none_iff_exists'.1 hne
    have hlisted : entry ∈ pool.entriesOf (pool.replacementSet conflicts) :=
      List.mem_filterMap.2 ⟨txid, subset_replacementSet conflicts hmem, hentry⟩
    rw [List.isEmpty_eq_false_iff]
    exact List.ne_nil_of_mem hlisted
  simp only [canReplace, hentries, hsize, Bool.false_eq_true, if_false] at h
  split_ifs at h with hmany hlarge hreplaceable hparents hfee hrate
  refine ⟨by omega, ?_, by omega⟩
  intro txid' hmem'
  rw [← isTxidReplaceable_iff]
  by_contra hnot
  refine hreplaceable (List.any_eq_true.2 ⟨txid', hmem', ?_⟩)
  simpa using hnot

lemma screen_outpays (h : pool.screen settings chain args tx = .ok c) :
    c.fee = pool.calculateFee chain tx ∧ c.size = tx.size ∧ c.weight = tx.weight ∧
      (c.conflicts ≠ [] → pool.Outpays settings tx c.fee c.conflicts) := by
  have hconflicts := (screen_ok h).conflicts_eq
  have hpresent (hne : c.conflicts ≠ []) :
      ∃ txid ∈ c.conflicts, pool.transactions.get? txid ≠ none := by
    obtain ⟨txid, hmem⟩ := List.exists_mem_of_ne_nil _ hne
    refine ⟨txid, hmem, ?_⟩
    rw [hconflicts, findConflictingTxids] at hmem
    obtain ⟨row, hrow, rfl⟩ := List.mem_map.1 hmem
    exact mem_txids.1 (List.mem_map_of_mem (List.mem_of_mem_filter hrow))
  unfold screen at h
  simp only [bind, Except.bind, pure, Except.pure, throw, throwThe, MonadExceptOf.throw] at h
  cases hvalid : pool.validateTransaction settings chain tx (fun outpoint =>
      outpoint ∈ pool.buildIgnoredSpentSet (pool.findConflictingTxids tx)) with
  | error reason =>
    simp only [hvalid] at h
    split_ifs at h
  | ok u =>
    cases hparents : pool.checkDependencies chain tx.vin with
    | none =>
      simp only [hvalid, hparents, Option.elim_none] at h
      split_ifs at h
    | some parents =>
      simp only [hvalid, hparents, Option.elim_some] at h
      split_ifs at h with hmem hreplace
      cases h
      have hcan (hne : pool.findConflictingTxids tx ≠ []) :
          pool.canReplace settings (pool.findConflictingTxids tx) tx (pool.calculateFee chain tx)
            (virtualSizeFromWeight tx.weight) (settings.rate (pool.calculateFee chain tx)
              (virtualSizeFromWeight tx.weight)) = true := by
        by_contra hnot
        exact hreplace ⟨hne, by simpa using hnot⟩
      exact ⟨rfl, rfl, rfl, fun hne => canReplace_outpays (hpresent hne) (hcan hne)⟩

/-- A transaction that conflicts with entries is accepted into a reached pool only if every one of
them, or an unconfirmed ancestor on record, signals. It then pays more than all that is taken out
and the relay fee together; where nothing has to be evicted, the pool takes out just the conflicts
with what their lists of descendants lead to, and so its fees grow by more than the relay fee. -/
theorem addTransaction_outpays (settings : MempoolSettings F)
    (calls : List (ChainView × MempoolCall F)) (chain : ChainView) (args : CallArgs F) (tx : Transaction)
    (pool' : Mempool F)
    (h : (runCalls settings calls).addTransaction settings chain args tx = (pool', none))
    (hconflicts : (runCalls settings calls).findConflictingTxids tx ≠ []) :
    (runCalls settings calls).Outpays settings tx ((runCalls settings calls).calculateFee chain tx)
        ((runCalls settings calls).findConflictingTxids tx) ∧
      ((runCalls settings calls).canAccept settings tx.size tx.weight = true →
        (∀ txid, pool'.transactions.get? txid ≠ none ↔
          txid = tx.txid settings.crypto.toHashlib ∨
            (runCalls settings calls).transactions.get? txid ≠ none ∧
              ∀ conflict ∈ (runCalls settings calls).findConflictingTxids tx,
                ¬ ReflTransGen (runCalls settings calls).Lists conflict txid) ∧
        (runCalls settings calls).totalFee +
          settings.policy.getMinFeeForVsize (virtualSizeFromWeight tx.weight) < pool'.totalFee) := by
  obtain ⟨hbooks, hback⟩ := runCalls_backed settings calls
  generalize runCalls settings calls = pool at h hconflicts hbooks hback ⊢
  obtain ⟨c, hscreen, hid, rfl⟩ := addTransaction_none hbooks hback h
  have hs := screen_ok hscreen
  obtain ⟨hfee, hsize, hweight, houtpays⟩ := screen_outpays hscreen
  have hbid := houtpays (hs.conflicts_eq ▸ hconflicts)
  rw [hs.conflicts_eq, hfee] at hbid
  refine ⟨hbid, fun hroom => ?_⟩
  have hroomy : pool.makeRoom settings c = pool := by
    rw [makeRoom, hsize, hweight, if_pos hroom]
  have hleft : pool.leftBy settings c = pool.removeEach (pool.replacementSet (pool.findConflictingTxids tx)) := by
    rw [leftBy, cleared, hroomy, hsize, hweight, if_pos hroom, removeConflicts, hs.conflicts_eq]
  rw [hleft]
  refine ⟨?_, ?_⟩
  · intro txid
    have hkeys : (((pool.removeEach (pool.replacementSet (pool.findConflictingTxids tx))).insertEntry chain
        args.now c).linkTo c.txid c.ancestors).transactions.get? txid ≠ none ↔
          txid = c.txid ∨ (pool.removeEach (pool.replacementSet
            (pool.findConflictingTxids tx))).transactions.get? txid ≠ none := by
      rw [linkTo_get?, insertEntry_get?]
      by_cases hown : txid = c.txid
      · simp only [hown, true_or, iff_true]
        split_ifs <;> simp
      · simp only [hown, if_false, false_or]
        split_ifs <;> simp
    rw [hkeys, hback.removeConflicts_present, hid, hback.mem_replacementSet]
    simp only [not_exists, not_and]
  · have hdistinct : (pool.findConflictingTxids tx).Nodup :=
      (nodup_txids pool).sublist ((List.filter_sublist ..).map _)
    have htotal := hback.totalFee_removeConflicts hbooks hdistinct
    have hless := hbid.fee
    change _ < (pool.removeEach (pool.replacementSet (pool.findConflictingTxids tx))).totalFee + c.fee
    rw [hfee]
    omega

end replacement

open MempoolExample in
/-- `replacement` spends the coin of `first`, which signals. -/
theorem addTransaction_outpays_first :
    single.Outpays packageSettings replacement (single.calculateFee chain replacement)
        (single.findConflictingTxids replacement) ∧
      single.totalFee +
          packageSettings.policy.getMinFeeForVsize (virtualSizeFromWeight replacement.weight) <
        (single.addTransaction packageSettings chain args replacement).1.totalFee := by
  have haccepted : (single.addTransaction packageSettings chain args replacement).2 = none := by
    decide +kernel
  obtain ⟨hbid, hroomy⟩ := addTransaction_outpays packageSettings [(chain, .addTransaction args first)]
    chain args replacement _ (Prod.ext rfl haccepted) (by decide +kernel)
  exact ⟨hbid, (hroomy (by decide +kernel)).2⟩

end Mempool
end BerzCoin
