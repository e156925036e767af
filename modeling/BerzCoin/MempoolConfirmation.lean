import BerzCoin.MempoolClosure
import BerzCoin.MempoolPackages

/-! What a connected block leaves in the mempool. The confirmed transactions are removed with their
descendants, and then every entry that is left is checked against the new chain. -/
namespace BerzCoin
namespace Mempool
open Relation
variable {F : Type} {settings : MempoolSettings F} {chain : ChainView} {pool pool' : Mempool F}
  {txid : Bytes} {entry : MempoolEntry F}

/-! The checks of an entry read of the pool only the outputs that it spends. -/

lemma Within.prevOut (h : pool.Within pool') {outpoint : Outpoint} {out : PrevOut}
    (hout : pool.prevOut chain outpoint = some out) : pool'.prevOut chain outpoint = some out := by
  unfold Mempool.prevOut at hout ⊢
  cases hutxo : chain.getUtxo outpoint with
  | some utxo =>
    rw [hutxo] at hout
    exact hout
  | none =>
    simp only [hutxo, Option.bind_eq_some_iff] at hout ⊢
    obtain ⟨parent, hparent, hvalue⟩ := hout
    obtain ⟨parent', hparent', hcore⟩ := h _ parent hparent
    exact ⟨parent', hparent', by rw [← (core_congr hcore).1]; exact hvalue⟩

/-- The pools give the inputs of a transaction the same outputs. -/
def SameInputs (chain : ChainView) (pool pool' : Mempool F) (tx : Transaction) : Prop :=
  ∀ txin ∈ tx.vin, pool.prevOut chain txin.outpoint = pool'.prevOut chain txin.outpoint

lemma Within.sameInputs (h : pool.Within pool') {tx : Transaction}
    (hall : ∀ txin ∈ tx.vin, pool.prevOut chain txin.outpoint ≠ none) :
    SameInputs chain pool pool' tx := by
  intro txin hmem
  obtain ⟨out, hout⟩ := Option.ne_none_iff_exists'.1 (hall txin hmem)
  rw [hout, h.prevOut hout]

lemma validateInputs_congr {tx : Transaction} {ignored : Outpoint → Bool} (vin : List TxIn)
    (hsame : ∀ txin ∈ vin, pool.prevOut chain txin.outpoint = pool'.prevOut chain txin.outpoint)
    (hignored : ∀ txin ∈ vin, ignored txin.outpoint = true) : ∀ (idx : ℕ) (seen : List Outpoint),
      pool.validateInputs settings chain tx ignored idx seen vin =
        pool'.validateInputs settings chain tx ignored idx seen vin := by
  induction vin with
  | nil =>
    intro idx seen
    rfl
  | cons txin vin ih =>
    intro idx seen
    have hrest := ih (fun t ht => hsame t (List.mem_cons_of_mem _ ht))
      (fun t ht => hignored t (List.mem_cons_of_mem _ ht)) (idx + 1) (txin.outpoint :: seen)
    simp only [validateInputs, hsame txin List.mem_cons_self, hignored txin List.mem_cons_self, hrest,
      Bool.not_true, Bool.false_and, Bool.false_eq_true, if_false]

/-- The check of `_validate_transaction` for an entry, whose own inputs do not count as spent. -/
def validates (settings : MempoolSettings F) (chain : ChainView) (pool : Mempool F)
    (tx : Transaction) : Bool :=
  (pool.validateTransaction settings chain tx fun outpoint => outpoint ∈ outpointsOf tx).isOk

lemma SameInputs.validates {tx : Transaction} (h : SameInputs chain pool pool' tx) :
    pool.validates settings chain tx = pool'.validates settings chain tx := by
  have hinputs := @validateInputs_congr F settings chain pool pool' tx
    (fun outpoint => outpoint ∈ outpointsOf tx) tx.vin h
    (fun txin hmem => by simpa [outpointsOf] using ⟨txin, hmem, rfl⟩) 0 []
  unfold Mempool.validates validateTransaction
  rw [hinputs]

lemma SameInputs.calculateFee {tx : Transaction} (h : SameInputs chain pool pool' tx) :
    pool.calculateFee chain tx = pool'.calculateFee chain tx := by
  have hmap : (tx.vin.map fun txin =>
      (((pool.prevOut chain txin.outpoint).map PrevOut.value).getD 0 : ℤ)) =
      tx.vin.map fun txin => (((pool'.prevOut chain txin.outpoint).map PrevOut.value).getD 0 : ℤ) :=
    List.map_congr_left fun txin hmem => by rw [h txin hmem]
  unfold Mempool.calculateFee
  rw [hmap]

lemma checkDependencies_isSome {vin : List TxIn}
    (h : ∀ txin ∈ vin, chain.transactionExists txin.prevTxHash = true ∨
      pool.transactions.get? txin.prevTxHash ≠ none) : (pool.checkDependencies chain vin).isSome := by
  have hfold (vin : List TxIn) (ids : List Bytes)
      (h : ∀ txin ∈ vin, chain.transactionExists txin.prevTxHash = true ∨
        pool.transactions.get? txin.prevTxHash ≠ none) :
      (vin.foldl (addParent chain pool) (some ids)).isSome := by
    induction vin generalizing ids with
    | nil => rfl
    | cons txin vin ih =>
      obtain ⟨ids', hids'⟩ : ∃ ids', addParent chain pool (some ids) txin = some ids' := by
        simp only [addParent, Option.bind_some]
        split_ifs with hexists hentry
        · exact ⟨_, rfl⟩
        · exact ⟨_, rfl⟩
        · rcases h txin List.mem_cons_self with hknown | hpresent
          · exact absurd hknown hexists
          · exact absurd (Option.isSome_iff_ne_none.2 hpresent) hentry
      rw [List.foldl_cons, hids']
      exact ih ids' fun t ht => h t (List.mem_cons_of_mem _ ht)
  exact hfold vin [] h

/-- An entry with the inputs that it has in another pool passes the checks that it passes there. -/
lemma revalidates_of_validates {tx : Transaction} (htx : entry.tx = tx)
    (hinputs : ∀ txin ∈ tx.vin, pool.prevOut chain txin.outpoint ≠ none)
    (hvalid : pool.validates settings chain tx = true) (hstandard : settings.policy.isStandard tx = true)
    (hfee : (settings.policy.getMinFeeForVsize (virtualSizeFromWeight tx.weight) : ℤ) ≤
      pool.calculateFee chain tx) : pool.revalidates settings chain entry = true := by
  have hparents : (pool.checkDependencies chain tx.vin).isSome := by
    refine checkDependencies_isSome ?_
    intro txin hmem
    by_cases hutxo : chain.getUtxo txin.outpoint = none
    · obtain ⟨parent, hparent, -⟩ := prevOut_entry (hinputs txin hmem) hutxo
      exact Or.inr (by simp [hparent])
    · exact Or.inl (chain.known txin.outpoint hutxo)
  unfold validates at hvalid
  unfold revalidates
  simp only [htx, hvalid, hparents, hstandard, hfee, decide_true, Bool.and_self]

/-! The removals. -/

/-- An entry stays when an entry leaves that it does not depend on. -/
lemma Linked.removeTransaction_present (h : Linked settings pool') (hprunes : pool'.Prunes pool)
    (hpresent : pool'.transactions.get? txid ≠ none) {gone : Bytes} (hne : txid ≠ gone)
    (hpath : ¬ TransGen pool.Spends txid gone) :
    (pool'.removeTransaction gone true).transactions.get? txid ≠ none := by
  cases hgone : pool'.transactions.get? gone with
  | none =>
    have hsame : pool'.removeTransaction gone true = pool' := by
      simp [Mempool.removeTransaction, KeyedRows.contains, hgone]
    rw [hsame]
    exact hpresent
  | some old =>
    have hstays : txid ∉ addNew [gone] old.descendants := by
      rw [h.mem_departing hgone, not_or]
      exact ⟨hne, fun hpath' => hpath ((hprunes.transGen_iff hpresent gone).1 hpath')⟩
    rw [h.removeTransaction_get? hgone, if_neg hstays]
    simpa using hpresent

lemma Linked.removeEach_present (h : Linked settings pool') (hprunes : pool'.Prunes pool)
    (hpresent : pool'.transactions.get? txid ≠ none) {ids : List Bytes}
    (hids : ∀ gone ∈ ids, txid ≠ gone ∧ ¬ TransGen pool.Spends txid gone) :
    (pool'.removeEach ids).transactions.get? txid ≠ none := by
  induction ids generalizing pool' with
  | nil => exact hpresent
  | cons gone ids ih =>
    obtain ⟨hne, hpath⟩ := hids gone List.mem_cons_self
    exact ih (h.removeTransaction gone) ((h.removeTransaction_prunes gone).trans hprunes)
      (h.removeTransaction_present hprunes hpresent hne hpath)
      fun gone' hmem => hids gone' (List.mem_cons_of_mem _ hmem)

lemma revalidateLoop_within (ids : List Bytes) (pool : Mempool F) :
    (revalidateLoop settings chain ids pool).Within pool :=
  (keptByRemoval_within pool).departure.revalidateLoop settings chain (.refl pool) ids

/-- An entry that the loop leaves passed the checks in a pool on the way. -/
lemma revalidateLoop_visited {ids : List Bytes} (hmem : txid ∈ ids)
    (hkept : (revalidateLoop settings chain ids pool).transactions.get? txid ≠ none) :
    ∃ (pool' : Mempool F) (entry : MempoolEntry F), pool'.Within pool ∧ pool'.transactions.get? txid = some entry ∧
      pool'.revalidates settings chain entry = true := by
  induction ids generalizing pool with
  | nil => cases hmem
  | cons current ids ih =>
    have hpresent : pool.transactions.get? txid ≠ none := fun hnone =>
      hkept ((revalidateLoop_within (current :: ids) pool).absent hnone)
    rw [revalidateLoop] at hkept
    rcases List.mem_cons.1 hmem with rfl | hmem
    · obtain ⟨entry, hentry⟩ := Option.ne_none_iff_exists'.1 hpresent
      rw [hentry] at hkept
      simp only at hkept
      split_ifs at hkept with hvalid
      · exact ⟨pool, entry, .refl pool, hentry, hvalid⟩
      · exact absurd ((revalidateLoop_within ids _).absent (pool.removeTransaction_absent txid true)) hkept
    · cases hcurrent : pool.transactions.get? current with
      | none =>
        rw [hcurrent] at hkept
        exact ih hmem hkept
      | some entry' =>
        rw [hcurrent] at hkept
        simp only at hkept
        split_ifs at hkept
        · exact ih hmem hkept
        · obtain ⟨pool', entry, hwithin, hfound⟩ := ih hmem hkept
          exact ⟨pool', entry, hwithin.trans ((keptByRemoval_within pool).removeTransaction (.refl pool)
            current true), hfound⟩

lemma validates_of_revalidates (h : pool.revalidates settings chain entry = true) :
    pool.validates settings chain entry.tx = true := by
  simp only [revalidates, Bool.and_eq_true] at h
  exact h.1.1.1

lemma validates_ok {tx : Transaction} (h : pool.validates settings chain tx = true) :
    chain.transactionExists (tx.txid settings.crypto.toHashlib) = false ∧
      ∀ txin ∈ tx.vin, pool.prevOut chain txin.outpoint ≠ none := by
  unfold validates at h
  cases hresult : pool.validateTransaction settings chain tx fun outpoint =>
      outpoint ∈ outpointsOf tx with
  | error reason => simp [hresult, Except.isOk, Except.toBool] at h
  | ok u => exact validateTransaction_ok hresult

/-- Whatever a connected block leaves was checked on the way. -/
lemma handleConnectedBlock_checked {block : Block}
    (hkept : (pool.handleConnectedBlock settings chain block).transactions.get? txid ≠ none) :
    ∃ (pool' : Mempool F) (entry : MempoolEntry F), pool'.Within pool ∧
      pool'.transactions.get? txid = some entry ∧ pool'.validates settings chain entry.tx = true := by
  have hcleared : (pool.removeEach (confirmedTxids settings block)).Within pool :=
    (keptByRemoval_within pool).departure.removeEach (.refl pool) _
  have hmem : txid ∈ (pool.removeEach (confirmedTxids settings block)).txids :=
    mem_txids.2 fun hnone => hkept ((revalidateLoop_within _ _).absent hnone)
  obtain ⟨pool', entry, hwithin, hfound, hvalid⟩ := revalidateLoop_visited hmem hkept
  exact ⟨pool', entry, hwithin.trans hcleared, hfound, validates_of_revalidates hvalid⟩

/-- What an entry needs to stay through the loop: it passes the checks as long as it has its inputs,
and an entry that it depends on leaves only where an input is lost. -/
lemma Linked.revalidateLoop_present {ids : List Bytes} (h : Linked settings pool')
    (hprunes : pool'.Prunes pool) (hpresent : pool'.transactions.get? txid ≠ none)
    (hpass : ∀ (pool₁ : Mempool F) (entry₁ : MempoolEntry F), pool₁.Within pool →
      (revalidateLoop settings chain ids pool').Within pool₁ →
      pool₁.transactions.get? txid = some entry₁ → pool₁.revalidates settings chain entry₁ = true)
    (hlost : ∀ gone, TransGen pool.Spends txid gone →
      (revalidateLoop settings chain ids pool').transactions.get? gone ≠ none) :
    (revalidateLoop settings chain ids pool').transactions.get? txid ≠ none := by
  induction ids generalizing pool' with
  | nil => exact hpresent
  | cons current ids ih =>
    rw [revalidateLoop] at hpass hlost ⊢
    cases hcurrent : pool'.transactions.get? current with
    | none =>
      rw [hcurrent] at hpass hlost
      exact ih h hprunes hpresent hpass hlost
    | some entry' =>
      rw [hcurrent] at hpass hlost
      simp only at hpass hlost ⊢
      split_ifs at hpass hlost ⊢ with hvalid
      · exact ih h hprunes hpresent hpass hlost
      · refine ih (h.removeTransaction current) ((h.removeTransaction_prunes current).trans hprunes)
          (h.removeTransaction_present hprunes hpresent ?_ ?_) hpass hlost
        · rintro rfl
          refine hvalid (hpass pool' entry' hprunes.within ?_ hcurrent)
          exact (revalidateLoop_within ids _).trans
            ((keptByRemoval_within pool').removeTransaction (.refl pool') txid true)
        · intro hpath
          exact hlost current hpath ((revalidateLoop_within ids _).absent
            (pool'.removeTransaction_absent current true))

/-- The pool after a connected block, for an entry that meets the policy and has its inputs on the
new chain or in entries that are left: it is left exactly when it is valid on the new chain and no
entry that it depends on is known to the chain. -/
lemma Linked.handleConnectedBlock_present (h : Linked settings pool) (hkeyed : Keyed settings pool)
    {block : Block} (hstored : ∀ tx ∈ block.transactions,
      chain.transactionExists (tx.txid settings.crypto.toHashlib) = true)
    (hentry : pool.transactions.get? txid = some entry)
    (hstandard : settings.policy.isStandard entry.tx = true)
    (hfee : (settings.policy.getMinFeeForVsize (virtualSizeFromWeight entry.tx.weight) : ℤ) ≤
      pool.calculateFee chain entry.tx)
    (hinputs : ∀ txin ∈ entry.tx.vin,
      (pool.handleConnectedBlock settings chain block).prevOut chain txin.outpoint ≠ none) :
    (pool.handleConnectedBlock settings chain block).transactions.get? txid ≠ none ↔
      pool.validates settings chain entry.tx = true ∧
        ∀ ancestor, TransGen pool.Spends txid ancestor → chain.transactionExists ancestor = false := by
  set cleared := pool.removeEach (confirmedTxids settings block) with hcleared
  set final := pool.handleConnectedBlock settings chain block with hfinal
  have hloop : final = revalidateLoop settings chain cleared.txids cleared := rfl
  obtain ⟨hclearedLinked, hclearedPrunes⟩ := (keptByDeparture_linked settings pool).removeEach
    ⟨h, .refl pool⟩ (confirmedTxids settings block)
  obtain ⟨-, hprunes⟩ := (keptByDeparture_linked settings pool).handleConnectedBlock settings chain
    ⟨h, .refl pool⟩ block
  constructor
  · intro hkept
    refine ⟨?_, ?_⟩
    · obtain ⟨pool', entry', hwithin, hfound, hvalid⟩ := handleConnectedBlock_checked hkept
      obtain ⟨entry'', hentry'', hcore⟩ := hwithin txid entry' hfound
      cases hentry.symm.trans hentry''
      rw [(core_congr hcore).1] at hvalid
      rwa [← (hwithin.sameInputs (validates_ok hvalid).2).validates]
    · intro ancestor hpath
      have hleft : final.transactions.get? ancestor ≠ none :=
        (Lineage.transGen_ends Spends.present ((hprunes.transGen_iff hkept ancestor).2 hpath)).2
      obtain ⟨pool', entry', hwithin, hfound, hvalid⟩ := handleConnectedBlock_checked hleft
      have hunknown := (validates_ok hvalid).1
      rwa [hkeyed.within hwithin ancestor entry' hfound] at hunknown
  · rintro ⟨hvalid, hunknown⟩
    have hown : chain.transactionExists txid = false := by
      have := (validates_ok hvalid).1
      rwa [hkeyed txid entry hentry] at this
    -- the entries that it depends on are left
    have hancestors : ∀ ancestor, TransGen pool.Spends txid ancestor →
        final.transactions.get? ancestor ≠ none := by
      intro ancestor hpath
      induction hpath with
      | single hspends =>
        have hnot := hunknown _ (TransGen.single hspends)
        obtain ⟨entry', hentry', txin, hmem, rfl, -⟩ := hspends
        cases hentry.symm.trans hentry'
        have hutxo : chain.getUtxo txin.outpoint = none := by
          by_contra hutxo
          have hknown : chain.transactionExists txin.prevTxHash = true :=
            chain.known txin.outpoint hutxo
          rw [hnot] at hknown
          cases hknown
        obtain ⟨parent, hparent, -⟩ := prevOut_entry (hinputs txin hmem) hutxo
        simp [hparent]
      | tail _ hspends ih => exact hprunes.closed _ _ ih hspends
    have hpresent : cleared.transactions.get? txid ≠ none := by
      refine h.removeEach_present (.refl pool) (by simp [hentry]) ?_
      intro gone hgone
      have hknown : chain.transactionExists gone = true := by
        obtain ⟨tx, htx, rfl⟩ := List.mem_map.1 (List.mem_dedup.1 hgone)
        exact hstored tx (List.mem_filter.1 htx).1
      refine ⟨?_, ?_⟩
      · rintro rfl
        rw [hown] at hknown
        cases hknown
      · intro hpath
        rw [hunknown gone hpath] at hknown
        cases hknown
    rw [hloop]
    refine hclearedLinked.revalidateLoop_present hclearedPrunes hpresent ?_ (hloop ▸ hancestors)
    intro pool₁ entry₁ hwithin hleft hfound
    obtain ⟨entry', hentry', hcore⟩ := hwithin txid entry₁ hfound
    cases hentry.symm.trans hentry'
    have hthere : ∀ txin ∈ entry.tx.vin, pool₁.prevOut chain txin.outpoint ≠ none := by
      intro txin hmem
      obtain ⟨out, hout⟩ := Option.ne_none_iff_exists'.1 (hinputs txin hmem)
      rw [hleft.prevOut hout]
      simp
    have hsame₁ : SameInputs chain pool₁ pool entry.tx := hwithin.sameInputs hthere
    refine revalidates_of_validates (core_congr hcore).1 hthere ?_ hstandard ?_
    · rw [hsame₁.validates]
      exact hvalid
    · rw [hsame₁.calculateFee]
      exact hfee

section runs
variable [LinearOrder F]

/-- A property of every entry's id and transaction. -/
def AllEntries (Q : Bytes → Transaction → Prop) (pool : Mempool F) : Prop :=
  ∀ txid entry, pool.transactions.get? txid = some entry → Q txid entry.tx

omit [LinearOrder F] in
lemma AllEntries.within {Q : Bytes → Transaction → Prop} (h : AllEntries Q pool) {pool' : Mempool F}
    (hwithin : pool'.Within pool) : AllEntries Q pool' := by
  intro txid entry hentry
  obtain ⟨old, hold, hcore⟩ := hwithin txid entry hentry
  rw [(core_congr hcore).1]
  exact h txid old hold

/-- An addition keeps a property of the entries that the new transaction has. -/
lemma AllEntries.addTransaction {Q : Bytes → Transaction → Prop} (hbooks : pool.Books)
    (hback : pool.Backed) (h : AllEntries Q pool) {args : CallArgs F} {tx : Transaction}
    (hnew : ∀ c, Screened settings chain pool tx c → Q c.txid tx) :
    AllEntries Q (pool.addTransaction settings chain args tx).1 := by
  rcases hadd : pool.addTransaction settings chain args tx with ⟨pool', _ | reason⟩
  · obtain ⟨c, hscreen, htxid, rfl⟩ := addTransaction_none hbooks hback hadd
    intro id entry hentry
    by_cases hown : id = c.txid
    · have htx : entry.tx = c.tx := by
        rw [linkTo_get?, insertEntry_get?, if_pos hown] at hentry
        split_ifs at hentry <;> cases hentry <;> rfl
      rw [htx, (screen_ok hscreen).tx_eq, hown]
      exact hnew c (screen_ok hscreen)
    · rcases admitted_get? hentry with ⟨heq, -⟩ | ⟨entry', hentry', hcore, -⟩
      · exact absurd heq hown
      · rw [(core_congr hcore).1]
        exact h.within (leftBy_within settings pool c) id entry' hentry'
  · rcases addTransaction_some hbooks hback hadd with ⟨rfl, -⟩ | ⟨c, -, hsame⟩
    · exact h
    · exact h.within ((Within.of_eq hsame).trans (leftBy_within settings pool c))

lemma Keyed.addTransaction (hbooks : pool.Books) (hback : pool.Backed) (h : Keyed settings pool)
    (args : CallArgs F) (tx : Transaction) :
    Keyed settings (pool.addTransaction settings chain args tx).1 :=
  AllEntries.addTransaction (Q := fun txid tx => tx.txid settings.crypto.toHashlib = txid) hbooks hback
    h fun _ hs => hs.txid_eq.symm

lemma runCalls_keyed (settings : MempoolSettings F) (calls : List (ChainView × MempoolCall F)) :
    Keyed settings (runCalls settings calls) := by
  have hkept : KeptByRemoval fun pool : Mempool F =>
      (pool.Books ∧ pool.Backed) ∧ Keyed settings pool :=
    fun pool txid h => ⟨⟨keptByRemoval_books pool txid h.1.1, keptByRemoval_backed pool txid h.1.2⟩,
      h.2.within (pool.removeEntry_within txid)⟩
  refine (hkept.runCalls ⟨⟨.empty, .empty⟩, fun _ _ h => by cases h⟩ settings ?_ calls).2
  intro chain pool args tx h
  exact ⟨⟨h.1.1.addTransaction settings chain args tx, h.1.2.addTransaction h.1.1 args⟩,
    h.2.addTransaction h.1.1 h.1.2 args tx⟩

/-- In a state that any calls reach and in which the links are those of spending, a connected block
leaves an entry that meets the policy and has its inputs, on the new chain or in an entry that is
left, exactly when it is valid on the new chain and none of the entries that it depends on is known
to the chain; so an entry whose parent was confirmed is not left. -/
theorem handleConnectedBlock_keeps_iff (settings : MempoolSettings F)
    (calls : List (ChainView × MempoolCall F)) (chain : ChainView) (block : Block) (txid : Bytes)
    (entry : MempoolEntry F) (hlinked : Linked settings (runCalls settings calls))
    (hstored : ∀ tx ∈ block.transactions,
      chain.transactionExists (tx.txid settings.crypto.toHashlib) = true)
    (hentry : (runCalls settings calls).transactions.get? txid = some entry)
    (hstandard : settings.policy.isStandard entry.tx = true)
    (hfee : (settings.policy.getMinFeeForVsize (virtualSizeFromWeight entry.tx.weight) : ℤ) ≤
      (runCalls settings calls).calculateFee chain entry.tx)
    (hinputs : ∀ txin ∈ entry.tx.vin, ((runCalls settings calls).handleConnectedBlock settings chain
      block).prevOut chain txin.outpoint ≠ none) :
    ((runCalls settings calls).handleConnectedBlock settings chain block).transactions.get? txid ≠
        none ↔
      (runCalls settings calls).validates settings chain entry.tx = true ∧
        ∀ ancestor, TransGen (runCalls settings calls).Spends txid ancestor →
          chain.transactionExists ancestor = false :=
  hlinked.handleConnectedBlock_present (runCalls_keyed settings calls) hstored hentry hstandard hfee
    hinputs

lemma addKeepsParents_empty (settings : MempoolSettings F) (chain : ChainView) (args : CallArgs F)
    (tx : Transaction) : AddKeepsParents settings chain Mempool.empty args tx := by
  intro c hscreen _ _
  have hs := screen_ok hscreen
  have hparents : c.parents = [] := by
    refine List.eq_nil_iff_forall_not_mem.2 fun parent hmem => ?_
    exact (checkDependencies_some hs.parents_eq parent).2 hmem rfl
  have hancestors : c.ancestors = [] := by
    rw [hs.ancestors_eq, hparents]
    rfl
  refine ⟨?_, by simp [hancestors]⟩
  intro txin _ hcontains
  cases hcontains

end runs

end Mempool

/-! A block with a coinbase alone, and one that confirms `first` as well. -/
namespace MempoolExample
open Mempool

def coinbase : Transaction :=
  { BlockExample.coinbaseWith [0x02, 0xc9, 0x00] 5000000000 payToScript with version := 2 }

def coinbaseNumber : ℕ := 0xec808a2d834bb0597d483e352ec342015d082b66a71a7b8c8b01faea60806508

def coinbaseId : Bytes := beBytes 32 coinbaseNumber

def blockSettings : MempoolSettings ℚ :=
  settingsWith 1000 [(coinbase.serialize false,
    0xe7133e6875f808f7e0cf4c9787b87c1ef468f8f50f497a5f87e02b0a5f8179f9, coinbaseNumber)]

def blockWith (txs : List Transaction) : Block :=
  ⟨⟨1, zeroHash, zeroHash, 0, 0, 0⟩, coinbase :: txs⟩

/-- The coin is still there. -/
def chainAfterCoinbase : ChainView where
  params := .mainnet
  getUtxo outpoint :=
    if outpoint = (coin, 0) then some ⟨⟨100000, coinValue_lt⟩, [0x51], 1, false, none⟩
    else if outpoint = (coinbaseId, 0) then some ⟨⟨5000000000, by decide⟩, payToScript, 201, true, none⟩
    else none
  transactionExists txid := txid = coin || txid = coinbaseId
  bestHeight := 201
  known := by
    intro outpoint h
    split_ifs at h with hcoin hbase
    · simp [hcoin]
    · simp [hbase]
    · exact absurd rfl h

/-- The coin is spent by `first`. -/
def chainAfterFirst : ChainView where
  params := .mainnet
  getUtxo outpoint :=
    if outpoint = (firstId, 0) then some ⟨⟨90000, by decide⟩, payToScript, 201, false, none⟩
    else if outpoint = (coinbaseId, 0) then some ⟨⟨5000000000, by decide⟩, payToScript, 201, true, none⟩
    else none
  transactionExists txid := txid = coin || txid = coinbaseId || txid = firstId
  bestHeight := 201
  known := by
    intro outpoint h
    split_ifs at h with hfirst hbase
    · simp [hfirst]
    · simp [hbase]
    · exact absurd rfl h

def singleCalls : List (ChainView × MempoolCall ℚ) := [(chain, .addTransaction args first)]

def familyCalls : List (ChainView × MempoolCall ℚ) :=
  [(chain, .addTransaction args first), (chain, .addTransaction args child)]

end MempoolExample

namespace Mempool
open MempoolExample

/-- `first` stays where the block holds its coinbase alone. -/
theorem handleConnectedBlock_keeps_iff_coinbase :
    ((runCalls blockSettings singleCalls).handleConnectedBlock blockSettings chainAfterCoinbase
        (blockWith [])).transactions.get? firstId ≠ none ∧
      (runCalls blockSettings singleCalls).validates blockSettings chainAfterCoinbase first = true := by
  have hlinked : Linked blockSettings (runCalls blockSettings singleCalls) :=
    (PoolRun.call (PoolRun.start chain) (.addTransaction args first)
      (addKeepsParents_empty blockSettings chain args first)).sound.linked
  have hfound : ((runCalls blockSettings singleCalls).transactions.get? firstId).map
      MempoolEntry.tx = some first := by decide +kernel
  obtain ⟨entry, hentry, htx⟩ := Option.map_eq_some_iff.1 hfound
  have hkept : ((runCalls blockSettings singleCalls).handleConnectedBlock blockSettings
      chainAfterCoinbase (blockWith [])).transactions.get? firstId ≠ none :=
    mem_txids.1 (by decide +kernel)
  have hiff := handleConnectedBlock_keeps_iff blockSettings singleCalls chainAfterCoinbase
    (blockWith []) firstId entry hlinked (by decide +kernel) hentry (by rw [htx]; decide +kernel)
    (by rw [htx]; decide +kernel) (by rw [htx]; decide +kernel)
  rw [htx] at hiff
  exact ⟨hkept, (hiff.1 hkept).1⟩

/-- The child of a confirmed transaction has its input on the chain, meets the policy and is
removed. -/
theorem child_of_confirmed_removed :
    childId ∈ (runCalls blockSettings familyCalls).txids ∧
      child.txid blockSettings.crypto.toHashlib = childId ∧
      childId ∉ (blockWith [first]).transactions.map (·.txid blockSettings.crypto.toHashlib) ∧
      (∀ tx ∈ (blockWith [first]).transactions, ∀ txin ∈ tx.vin, txin.outpoint ∉ outpointsOf child) ∧
      blockSettings.policy.isStandard child = true ∧
      (blockSettings.policy.getMinFeeForVsize (virtualSizeFromWeight child.weight) : ℤ) ≤
        (runCalls blockSettings familyCalls).calculateFee chainAfterFirst child ∧
      (∀ txin ∈ child.vin, chainAfterFirst.getUtxo txin.outpoint ≠ none) ∧
      (runCalls blockSettings familyCalls).validates blockSettings chainAfterFirst child = true ∧
      childId ∉ ((runCalls blockSettings familyCalls).handleConnectedBlock blockSettings chainAfterFirst
        (blockWith [first])).txids := by
  refine ⟨?_, ?_, ?_, ?_, ?_, ?_, ?_, ?_, ?_⟩ <;> decide +kernel

end Mempool
end BerzCoin
