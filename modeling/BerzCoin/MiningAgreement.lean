import BerzCoin.MiningTemplate
import BerzCoin.StorageBlockFiles

/-! The body of a block that the miner builds: its coinbase and the transactions that the mempool
chooses. The mempool and the block validator look at a transaction alike where it spends outputs
of the chain only. -/
namespace BerzCoin
open Script (Crypto asciiBytes)

/-- Every input spends an output of the chain. -/
def ChainView.Confirms (chain : ChainView) (tx : Transaction) : Prop :=
  ∀ txin ∈ tx.vin, chain.getUtxo txin.outpoint ≠ none

/-- The check of the block validator on a transaction for the next block. -/
def ChainView.validates (chain : ChainView) (C : Crypto) (tx : Transaction) : Bool :=
  BlockValidator.validateTransaction C chain.params chain.getUtxo tx chain.nextHeight false

lemma ChainView.nextHeight_cast {chain : ChainView} (h : 0 ≤ chain.bestHeight) :
    (chain.nextHeight : ℤ) = chain.bestHeight + 1 := Int.toNat_of_nonneg (by omega)

lemma Transaction.size_pos (tx : Transaction) : 0 < tx.size := by
  simp [Transaction.size, Transaction.serialize, Serializer.writeUint32]

namespace Mempool
variable {F : Type} {settings : MempoolSettings F} {chain : ChainView} {pool : Mempool F}

/-! What admission says of a transaction. -/
section admission
variable {tx : Transaction} {ignored : Outpoint → Bool}

lemma validateInputs_confirmed (hbest : 0 ≤ chain.bestHeight) (vin : List TxIn) :
    ∀ (idx : ℕ) (seen : List Outpoint) (total : ℕ),
      pool.validateInputs settings chain tx ignored idx seen vin = .ok total →
      (∀ txin ∈ vin, chain.getUtxo txin.outpoint ≠ none) →
      BlockValidator.validateInputs settings.crypto chain.params chain.getUtxo tx chain.nextHeight idx
          seen vin = true ∧
        total = BlockValidator.totalIn chain.getUtxo vin := by
  induction vin with
  | nil =>
    intro idx seen total h _
    cases h
    exact ⟨rfl, rfl⟩
  | cons txin vin ih =>
    intro idx seen total h hconfirmed
    obtain ⟨utxo, hutxo⟩ := Option.ne_none_iff_exists'.1 (hconfirmed txin List.mem_cons_self)
    have hprev : pool.prevOut chain txin.outpoint =
        some ⟨utxo.value.1, utxo.scriptPubkey, utxo.height, utxo.isCoinbase⟩ := by
      simp [prevOut, hutxo]
    rw [validateInputs, hprev] at h
    simp only at h
    split_ifs at h with hseen hmature hspent hscript
    cases hrest : pool.validateInputs settings chain tx ignored (idx + 1) (txin.outpoint :: seen) vin with
    | error reason =>
      rw [hrest] at h
      cases h
    | ok total' =>
      rw [hrest] at h
      cases h
      obtain ⟨hinputs, rfl⟩ := ih (idx + 1) (txin.outpoint :: seen) total' hrest
        fun txin' hmem => hconfirmed txin' (List.mem_cons_of_mem _ hmem)
      constructor
      · have hlimit : chain.params.limits.coinbaseMaturity = chain.params.coinbaseMaturity := rfl
        rw [BlockValidator.validateInputs, if_neg hseen, hutxo]
        simp only [ChainView.nextHeight_cast hbest, hlimit]
        rw [if_neg hmature, if_neg hscript, hinputs]
      · simp [BlockValidator.totalIn, hutxo]

/-- The outputs pass one by one, and their sum is within the limit. -/
lemma validateOutputs_ok {params : ConsensusParams} (vout : List TxOut) : ∀ total ≤ params.maxMoney,
    validateOutputs params.maxMoney total vout = .ok () →
      vout.all (BlockValidator.validateOutput params) = true ∧
        total + BlockValidator.totalOut vout ≤ params.maxMoney := by
  induction vout with
  | nil =>
    intro total hle _
    exact ⟨rfl, hle⟩
  | cons txout vout ih =>
    intro total hle h
    rw [validateOutputs] at h
    split_ifs at h with hzero hempty hmoney
    obtain ⟨hall, hsum⟩ := ih _ (not_lt.1 hmoney) h
    have hlimit : params.limits.maxMoney = params.maxMoney := rfl
    constructor
    · have hvalue : txout.value.toNat ≤ params.maxMoney := by omega
      rw [List.all_cons, hall, Bool.and_true]
      simp [BlockValidator.validateOutput, hzero, hempty, hlimit, hvalue]
    · have htotal : BlockValidator.totalOut (txout :: vout) =
          txout.value.toNat + BlockValidator.totalOut vout := rfl
      omega

/-- What a transaction needs on a chain to be mined: it is no coinbase, and the block validator
takes it as soon as it fits a block and has its inputs on the chain. -/
structure Fit (C : Crypto) (chain : ChainView) (tx : Transaction) : Prop where
  noCoinbase : tx.isCoinbase = false
  valid : 0 ≤ chain.bestHeight → tx.size ≤ chain.params.maxBlockSize → chain.Confirms tx →
    chain.validates C tx = true

lemma fit_of_validateTransaction
    (h : pool.validateTransaction settings chain tx ignored = .ok ()) : Fit settings.crypto chain tx := by
  unfold validateTransaction at h
  simp only [bind, Except.bind, pure, Except.pure, throw, throwThe, MonadExceptOf.throw] at h
  cases hrules : isConsensusTxValidForHeight chain.params tx chain.nextHeight with
  | error reason =>
    simp only [hrules] at h
    split_ifs at h
  | ok u =>
    cases houtputs : validateOutputs chain.params.maxMoney 0 tx.vout with
    | error reason =>
      simp only [hrules, houtputs] at h
      split_ifs at h
    | ok u =>
      cases hinputs : pool.validateInputs settings chain tx ignored 0 [] tx.vin with
      | error reason =>
        simp only [hrules, houtputs, hinputs] at h
        split_ifs at h
      | ok total =>
        simp only [hrules, houtputs, hinputs] at h
        split_ifs at h with hcoinbase hempty hexists htotal
        have hno : tx.isCoinbase = false := by simpa using hcoinbase
        refine ⟨hno, ?_⟩
        intro hbest hsize hconfirmed
        obtain ⟨hvin, rfl⟩ := validateInputs_confirmed hbest tx.vin 0 [] total hinputs hconfirmed
        obtain ⟨hvout, hsum⟩ := validateOutputs_ok tx.vout 0 (Nat.zero_le _) houtputs
        have hversion : ¬ (chain.params.isConsensusFeatureActive .HARDFORK_TX_V2 chain.nextHeight &&
            decide (tx.version < 2)) = true := by
          intro htrue
          simp [isConsensusTxValidForHeight, htrue] at hrules
        have hsize' : ¬ (tx.size = 0 ∨ chain.params.maxBlockSize < tx.size) := by
          have hpos := tx.size_pos
          omega
        have hmoney : ¬ chain.params.limits.maxMoney < BlockValidator.totalOut tx.vout := by
          have hlimit : chain.params.limits.maxMoney = chain.params.maxMoney := rfl
          omega
        rw [ChainView.validates, BlockValidator.validateTransaction, if_neg hversion, if_neg (by simp [hno]),
          if_neg hempty, if_neg hsize', if_neg (by simp [hvin]), if_neg (by simp [hvout]), if_neg hmoney,
          if_neg (by simpa using htotal)]

end admission

section run
variable [LinearOrder F]

/-- The states of the chain and the mempool that calls reach from an empty mempool. Where the tip
moves, the mempool is told of a connected block. -/
inductive FollowRun (settings : MempoolSettings F) : ChainView → Mempool F → Prop
  | start (chain : ChainView) : FollowRun settings chain Mempool.empty
  | store {chain chain' : ChainView} {pool : Mempool F} (run : FollowRun settings chain pool)
      (params : chain'.params = chain.params) (utxo : chain'.getUtxo = chain.getUtxo)
      (height : chain'.bestHeight = chain.bestHeight) : FollowRun settings chain' pool
  | connect {chain chain' : ChainView} {pool : Mempool F} (run : FollowRun settings chain pool)
      (block : Block) : FollowRun settings chain' (pool.handleConnectedBlock settings chain' block)
  | call {chain : ChainView} {pool : Mempool F} (run : FollowRun settings chain pool)
      (call : MempoolCall F) : FollowRun settings chain (call.apply settings chain pool)

/-- The records are right, and every entry is fit to be mined on the chain. -/
structure Ready (settings : MempoolSettings F) (chain : ChainView) (pool : Mempool F) : Prop where
  books : pool.Books
  backed : pool.Backed
  keyed : Keyed settings pool
  fit : AllEntries (fun _ tx => Fit settings.crypto chain tx) pool

lemma Ready.empty : Ready settings chain (Mempool.empty : Mempool F) := by
  refine ⟨.empty, .empty, ?_, ?_⟩
  · intro txid entry h
    cases h
  · intro txid entry h
    cases h

lemma keptByRemoval_ready (settings : MempoolSettings F) (chain : ChainView) :
    KeptByRemoval (Ready settings chain) := by
  intro pool txid h
  have hwithin := pool.removeEntry_within txid
  exact ⟨keptByRemoval_books pool txid h.books, keptByRemoval_backed pool txid h.backed,
    h.keyed.within hwithin, h.fit.within hwithin⟩

lemma Ready.addTransaction (h : Ready settings chain pool) (args : CallArgs F) (tx : Transaction) :
    Ready settings chain (pool.addTransaction settings chain args tx).1 := by
  refine ⟨h.books.addTransaction settings chain args tx, h.backed.addTransaction h.books args,
    h.keyed.addTransaction h.books h.backed args tx, h.fit.addTransaction h.books h.backed ?_⟩
  exact fun c hs => fit_of_validateTransaction hs.valid

omit [LinearOrder F] in
/-- A connected block leaves entries that are fit on the chain with the block. -/
lemma handleConnectedBlock_fit (chain : ChainView) (pool : Mempool F) (block : Block) :
    AllEntries (fun _ tx => Fit settings.crypto chain tx)
      (pool.handleConnectedBlock settings chain block) := by
  intro txid entry hentry
  obtain ⟨pool', checked, hwithin, hfound, hvalid⟩ := handleConnectedBlock_checked
    (by simp [hentry] : (pool.handleConnectedBlock settings chain block).transactions.get? txid ≠ none)
  have hleft : (pool.handleConnectedBlock settings chain block).Within pool :=
    (keptByRemoval_within pool).departure.handleConnectedBlock settings chain (.refl pool) block
  obtain ⟨old, hold, hcore⟩ := hleft txid entry hentry
  obtain ⟨old', hold', hcore'⟩ := hwithin txid checked hfound
  rw [hold] at hold'
  cases hold'
  rw [(core_congr hcore).1, ← (core_congr hcore').1]
  unfold validates at hvalid
  cases hresult : pool'.validateTransaction settings chain checked.tx fun outpoint =>
      outpoint ∈ outpointsOf checked.tx with
  | error reason => simp [hresult, Except.isOk, Except.toBool] at hvalid
  | ok u => exact fit_of_validateTransaction hresult

lemma FollowRun.ready (run : FollowRun settings chain pool) : Ready settings chain pool := by
  induction run with
  | start chain => exact .empty
  | @store chain chain' pool run params utxo height ih =>
    refine ⟨ih.books, ih.backed, ih.keyed, ?_⟩
    intro txid entry hentry
    have hfit := ih.fit txid entry hentry
    refine ⟨hfit.noCoinbase, ?_⟩
    have hvalid := hfit.valid
    simpa only [ChainView.Confirms, ChainView.validates, ChainView.nextHeight, params, utxo, height]
      using hvalid
  | @connect chain chain' pool run block ih =>
    have hkept : KeptByRemoval fun pool : Mempool F =>
        (pool.Books ∧ pool.Backed) ∧ Keyed settings pool := by
      intro pool txid h
      exact ⟨⟨keptByRemoval_books pool txid h.1.1, keptByRemoval_backed pool txid h.1.2⟩,
        h.2.within (pool.removeEntry_within txid)⟩
    obtain ⟨⟨hbooks, hbacked⟩, hkeyed⟩ := hkept.departure.handleConnectedBlock settings chain'
      ⟨⟨ih.books, ih.backed⟩, ih.keyed⟩ block
    exact ⟨hbooks, hbacked, hkeyed, handleConnectedBlock_fit chain' pool block⟩
  | @call chain pool run call ih =>
    exact (keptByRemoval_ready settings chain).apply settings chain
      (fun pool args tx h => h.addTransaction args tx) ih call

/-- The chosen transactions: fit, under different ids, and no two of them spend one output. -/
structure Choice (settings : MempoolSettings F) (chain : ChainView) (chosen : List Transaction) :
    Prop where
  fit : ∀ tx ∈ chosen, Fit settings.crypto chain tx
  nodup : (chosen.map (·.txid settings.crypto.toHashlib)).Nodup
  disjoint : chosen.Pairwise fun tx tx' => ∀ outpoint ∈ outpointsOf tx, outpoint ∉ outpointsOf tx'

lemma Ready.choice (h : Ready settings chain pool) {ids : List Bytes} (hnodup : ids.Nodup) :
    Choice settings chain ((pool.entriesOf ids).map MempoolEntry.tx) := by
  refine ⟨?_, ?_, ?_⟩
  · intro tx hmem
    obtain ⟨entry, hentry, rfl⟩ := List.mem_map.1 hmem
    obtain ⟨txid, -, hfound⟩ := List.mem_filterMap.1 hentry
    exact h.fit txid entry hfound
  · rw [List.map_map, List.Nodup, List.pairwise_map, entriesOf, List.pairwise_filterMap]
    refine hnodup.imp ?_
    intro txid txid' hne entry hentry entry' hentry' heq
    refine hne ?_
    rw [← h.keyed txid entry hentry, ← h.keyed txid' entry' hentry']
    exact heq
  · rw [List.pairwise_map, entriesOf, List.pairwise_filterMap]
    refine hnodup.imp ?_
    intro txid txid' hne entry hentry entry' hentry' outpoint hmem hmem'
    exact hne (h.books.distinct txid txid' entry entry' outpoint hentry hentry' hmem hmem')

end run
end Mempool

/-! What the block validator asks of the transactions after the coinbase. -/
namespace BlockValidator
section rest
variable {C : Crypto} {params : ConsensusParams} {getUtxo : Outpoint → Option UtxoRow} {height : ℕ}

lemma validateInputs_true {tx : Transaction} {vin : List TxIn} {idx : ℕ} {seen : List Outpoint}
    (h : validateInputs C params getUtxo tx height idx seen vin = true) :
    (∀ txin ∈ vin, txin.outpoint ∉ seen ∧ getUtxo txin.outpoint ≠ none) ∧
      (vin.map TxIn.outpoint).Nodup := by
  induction vin generalizing idx seen with
  | nil => exact ⟨by simp, List.nodup_nil⟩
  | cons txin vin ih =>
    rw [validateInputs] at h
    cases hutxo : getUtxo txin.outpoint with
    | none =>
      simp only [hutxo] at h
      split_ifs at h
    | some utxo =>
      simp only [hutxo] at h
      split_ifs at h with hseen hmature hscript
      obtain ⟨hvin, hnodup⟩ := ih h
      constructor
      · intro txin' hmem
        rcases List.mem_cons.1 hmem with rfl | hmem
        · exact ⟨hseen, by simp [hutxo]⟩
        · obtain ⟨hnot, hfound⟩ := hvin txin' hmem
          exact ⟨fun hin => hnot (List.mem_cons_of_mem _ hin), hfound⟩
      · rw [List.map_cons, List.nodup_cons]
        refine ⟨?_, hnodup⟩
        intro hmem
        obtain ⟨txin', hmem', heq⟩ := List.mem_map.1 hmem
        exact (hvin txin' hmem').1 (heq ▸ List.mem_cons_self)

/-- What a transaction that is no coinbase is known by once it is taken. -/
structure Taken (params : ConsensusParams) (getUtxo : Outpoint → Option UtxoRow) (tx : Transaction) :
    Prop where
  size : tx.size ≤ params.maxBlockSize
  found : ∀ txin ∈ tx.vin, getUtxo txin.outpoint ≠ none
  nodup : (tx.vin.map TxIn.outpoint).Nodup
  funded : totalOut tx.vout ≤ totalIn getUtxo tx.vin

lemma taken_of_validateTransaction {tx : Transaction}
    (h : validateTransaction C params getUtxo tx height false = true) : Taken params getUtxo tx := by
  unfold validateTransaction at h
  split_ifs at h with hversion hcoinbase hempty hsize hinputs hvout hmoney hfunds
  rw [not_or, not_lt] at hsize
  obtain ⟨hfound, hnodup⟩ := validateInputs_true (by simpa using hinputs)
  exact ⟨hsize.2, fun txin hmem => (hfound txin hmem).2, hnodup, by simpa using hfunds⟩

lemma recordSpent_ne_none {spent : List Outpoint} {vin : List TxIn}
    (hnodup : (vin.map TxIn.outpoint).Nodup) (hspent : ∀ txin ∈ vin, txin.outpoint ∉ spent) :
    recordSpent spent vin ≠ none := by
  induction vin generalizing spent with
  | nil => exact Option.some_ne_none _
  | cons txin vin ih =>
    obtain ⟨hfirst, hrest⟩ := List.nodup_cons.1 hnodup
    rw [recordSpent, if_neg (hspent txin List.mem_cons_self)]
    refine ih hrest ?_
    intro txin' hmem hin
    rcases List.mem_cons.1 hin with heq | hin
    · exact hfirst (heq ▸ List.mem_map_of_mem hmem)
    · exact hspent txin' (List.mem_cons_of_mem _ hmem) hin

/-- Transactions that are taken one by one are taken in turn where they spend different outputs. -/
lemma validateRest_of_each {txs : List Transaction} :
    ∀ spent : List Outpoint,
      (∀ tx ∈ txs, validateTransaction C params getUtxo tx height false = true) →
      txs.Pairwise (fun tx tx' => ∀ outpoint ∈ Mempool.outpointsOf tx,
        outpoint ∉ Mempool.outpointsOf tx') →
      (∀ tx ∈ txs, ∀ outpoint ∈ Mempool.outpointsOf tx, outpoint ∉ spent) →
      validateRest C params getUtxo height spent txs = true := by
  induction txs with
  | nil =>
    intro spent _ _ _
    rfl
  | cons tx txs ih =>
    intro spent heach hpairwise hspent
    obtain ⟨hfirst, hrest⟩ := List.pairwise_cons.1 hpairwise
    have htaken := taken_of_validateTransaction (heach tx List.mem_cons_self)
    obtain ⟨spent', hrecord⟩ := Option.ne_none_iff_exists'.1 (recordSpent_ne_none htaken.nodup
      fun txin hmem => hspent tx List.mem_cons_self _ (List.mem_map_of_mem hmem))
    obtain ⟨rfl, -⟩ := recordSpent_eq hrecord
    rw [validateRest, heach tx List.mem_cons_self, hrecord, Bool.true_and]
    refine ih _ (fun tx' hmem => heach tx' (List.mem_cons_of_mem _ hmem)) hrest ?_
    intro tx' hmem outpoint hout hin
    rcases List.mem_append.1 hin with hin | hin
    · exact hfirst tx' hmem outpoint (List.mem_reverse.1 hin) hout
    · exact hspent tx' (List.mem_cons_of_mem _ hmem) outpoint hout hin

lemma calculateFees_ne_none {txs : List Transaction} (h : ∀ tx ∈ txs, Taken params getUtxo tx) :
    calculateFees getUtxo txs ≠ none := by
  induction txs with
  | nil => exact Option.some_ne_none _
  | cons tx txs ih =>
    have htaken := h tx List.mem_cons_self
    obtain ⟨fees, hfees⟩ := Option.ne_none_iff_exists'.1
      (ih fun tx' hmem => h tx' (List.mem_cons_of_mem _ hmem))
    have hfound : ¬ (tx.vin.any fun txin => (getUtxo txin.outpoint).isNone) = true := by
      rw [List.any_eq_true]
      rintro ⟨txin, hmem, hnone⟩
      exact htaken.found txin hmem (Option.isNone_iff_eq_none.1 hnone)
    rw [calculateFees, txFee, if_neg hfound, if_neg (not_lt.2 htaken.funded), hfees]
    exact Option.some_ne_none _

end rest
end BlockValidator

namespace Mining

lemma transactionFee_eq (view : ChainView) (tx : Transaction) :
    transactionFee view tx =
      (BlockValidator.totalIn view.getUtxo tx.vin : ℤ) - BlockValidator.totalOut tx.vout := by
  have hin (vin : List TxIn) :
      (vin.map fun txin => ((view.getUtxo txin.outpoint).map fun row => (row.value.1 : ℤ)).getD 0).sum =
        (BlockValidator.totalIn view.getUtxo vin : ℤ) := by
    induction vin with
    | nil => rfl
    | cons txin vin ih =>
      rw [List.map_cons, List.sum_cons, ih]
      cases hutxo : view.getUtxo txin.outpoint <;> simp [BlockValidator.totalIn, hutxo]
  have hout (vout : List TxOut) :
      (vout.map fun txout => (txout.value.toNat : ℤ)).sum = (BlockValidator.totalOut vout : ℤ) := by
    induction vout with
    | nil => rfl
    | cons txout vout ih =>
      rw [List.map_cons, List.sum_cons, ih]
      simp [BlockValidator.totalOut]
  rw [transactionFee, hin, hout]

lemma sum_transactionFee (view : ChainView) (txs : List Transaction) :
    (txs.map (transactionFee view)).sum =
      ((txs.map fun tx => BlockValidator.totalIn view.getUtxo tx.vin).sum : ℤ) -
        ((txs.map fun tx => BlockValidator.totalOut tx.vout).sum : ℕ) := by
  induction txs with
  | nil => rfl
  | cons tx txs ih =>
    simp only [List.map_cons, List.sum_cons, ih, transactionFee_eq]
    push_cast
    ring

end Mining

namespace MiningNode
section body
variable (createScriptPubkey : String → Except PyError Bytes) (view : ChainView) (address : String)
  (extraNonce : ℕ)

def createCoinbase (height : ℕ) (value : ℤ) : Except PyError Transaction := do
  let heightPush := Mining.pushOf (BlockValidator.heightBytes height)
  let extraPush := Mining.pushOf (Mining.positiveBytes extraNonce)
  Mining.coinbase (Mining.coinbaseVersion view.params height)
    (heightPush ++ extraPush ++ asciiBytes "/BerzCoin/") value (← createScriptPubkey address)

/-- The subsidy and the fees that `_calculate_fees` finds. -/
def coinbaseValue (transactions : List Transaction) : ℤ :=
  getBlockSubsidy view.nextHeight view.params + (transactions.map (Mining.transactionFee view)).sum

def blockBody (transactions : List Transaction) : Except PyError (List Transaction) := do
  let coinbaseTx ← createCoinbase createScriptPubkey view address extraNonce view.nextHeight
    (coinbaseValue view transactions)
  return coinbaseTx :: transactions

end body

/-- `_select_transactions`. -/
def selectTransactions {F : Type} [LinearOrder F] (settings : MempoolSettings F) (order : SetOrder)
    (lowest : F) (view : ChainView) (pool : Mempool F) : Option (List Transaction) :=
  pool.getTransactionsForBlock settings view order lowest
    (view.params.maxBlockWeight - Mining.reservedWeight)

/-- The three checks of the block validator on the transactions of the next block. -/
def Accepts (C : Crypto) (view : ChainView) (body : List Transaction) : Prop :=
  ∀ header : BlockHeader,
    BlockValidator.validateTransactions C view.params view.getUtxo ⟨header, body⟩ view.nextHeight =
        true ∧
      BlockValidator.validateSubsidy view.params view.getUtxo ⟨header, body⟩ view.nextHeight =
        .ok true ∧
      BlockValidator.validateSigops view.params ⟨header, body⟩ = true

/-- What the chosen transactions and the coinbase need: no chosen transaction spends an output of
another one that waits, everything fits, and there is something to pay to a script. -/
structure Mineable (H : Hashlib) (view : ChainView) (script : Bytes) (coinbase : Transaction)
    (chosen : List Transaction) : Prop where
  confirmed : ∀ tx ∈ chosen, view.Confirms tx
  sized : ∀ tx ∈ coinbase :: chosen, tx.size ≤ view.params.maxBlockSize
  paid : 0 < coinbaseValue view chosen
  bounded : coinbaseValue view chosen ≤ view.params.maxMoney
  locked : script ≠ []
  fresh : coinbase.txid H ∉ chosen.map (·.txid H)
  sigops : ((coinbase :: chosen).map BlockValidator.countSigops).sum ≤ view.params.maxBlockSigops

/-- What is known of a coinbase that was built. -/
structure Built (params : ConsensusParams) (height : ℕ) (value : ℤ) (script : Bytes)
    (coinbase : Transaction) : Prop where
  isCoinbase : coinbase.isCoinbase = true
  version : ¬ (params.isConsensusFeatureActive .HARDFORK_TX_V2 height &&
    decide (coinbase.version < 2)) = true
  vin : coinbase.vin ≠ []
  vout : coinbase.vout = [⟨UInt64.ofNat value.toNat, script⟩]
  range : 0 ≤ value ∧ value < 2 ^ 64

section built
variable {createScriptPubkey : String → Except PyError Bytes} {view : ChainView} {address : String}
  {extraNonce height : ℕ} {value : ℤ} {coinbase : Transaction}

lemma built_of_createCoinbase
    (h : createCoinbase createScriptPubkey view address extraNonce height value = .ok coinbase) :
    ∃ script, createScriptPubkey address = .ok script ∧
      Built view.params height value script coinbase := by
  obtain ⟨script, hscript, h⟩ := except_bind_eq_ok h
  unfold Mining.coinbase at h
  split_ifs at h with hrange
  cases h
  refine ⟨script, hscript, rfl, ?_, List.cons_ne_nil _ _, rfl, hrange⟩
  cases hactive : view.params.isConsensusFeatureActive .HARDFORK_TX_V2 height with
  | false => simp
  | true =>
    simp only [Mining.coinbaseVersion, hactive, if_true, Bool.true_and]
    decide

variable {C : Crypto} {params : ConsensusParams} {getUtxo : Outpoint → Option UtxoRow} {script : Bytes}

lemma Built.totalOut_eq (h : Built params height value script coinbase) :
    (BlockValidator.totalOut coinbase.vout : ℤ) = value := by
  have hvalue : (UInt64.ofNat value.toNat).toNat = value.toNat := by
    rw [UInt64.toNat_ofNat']
    have hrange := h.range
    omega
  rw [h.vout]
  simp only [BlockValidator.totalOut, List.map_cons, List.map_nil, List.sum_cons, List.sum_nil, hvalue]
  have hrange := h.range
  omega

lemma Built.valid_iff (h : Built params height value script coinbase) :
    BlockValidator.validateTransaction C params getUtxo coinbase height true = true ↔
      coinbase.size ≤ params.maxBlockSize ∧ 0 < value ∧ value ≤ params.maxMoney ∧ script ≠ [] := by
  have hempty : ¬ (coinbase.vin = [] ∨ coinbase.vout = []) := by
    rw [h.vout]
    exact not_or.2 ⟨h.vin, List.cons_ne_nil _ _⟩
  have hlimit : params.limits.maxMoney = params.maxMoney := rfl
  have hpos := coinbase.size_pos
  have htotal := h.totalOut_eq
  have hvalue : (UInt64.ofNat value.toNat).toNat = value.toNat := by
    rw [UInt64.toNat_ofNat']
    have hrange := h.range
    omega
  have hzero : UInt64.ofNat value.toNat = 0 ↔ value = 0 := by
    rw [← UInt64.toNat_inj, hvalue]
    have hrange := h.range
    simp
    omega
  have houtput : coinbase.vout.all (BlockValidator.validateOutput params) = true ↔
      0 < value ∧ value ≤ params.maxMoney ∧ script ≠ [] := by
    have hrange := h.range
    rw [h.vout]
    simp only [BlockValidator.validateOutput, List.all_cons, List.all_nil, Bool.and_true, hvalue, hlimit,
      Bool.and_eq_true, decide_eq_true_eq, ne_eq, hzero, and_assoc]
    refine and_congr (by omega) (and_congr (by omega) Iff.rfl)
  rw [BlockValidator.validateTransaction, if_neg h.version, if_neg (by simp [h.isCoinbase]),
    if_neg hempty]
  constructor
  · intro htrue
    split_ifs at htrue with hsize _ hall hmoney
    exact ⟨by omega, houtput.1 (by simpa using hall)⟩
  · rintro ⟨hsize, hrest⟩
    have hbounded := hrest.2.1
    rw [if_neg (by omega), if_neg (by simp), if_neg (by simp [houtput.2 hrest]), if_neg (by omega),
      if_neg (by simp)]

end built

section agreement
variable {F : Type} [LinearOrder F] {settings : MempoolSettings F} {view : ChainView}
  {chosen : List Transaction} {script : Bytes} {coinbase : Transaction}

/-- A chosen transaction is taken exactly when it fits and spends outputs of the chain only. -/
lemma validates_iff (hbest : 0 ≤ view.bestHeight) {C : Crypto} {tx : Transaction}
    (hfit : Mempool.Fit C view tx) :
    view.validates C tx = true ↔ tx.size ≤ view.params.maxBlockSize ∧ view.Confirms tx := by
  constructor
  · intro htrue
    have htaken := BlockValidator.taken_of_validateTransaction htrue
    exact ⟨htaken.size, htaken.found⟩
  · exact fun h => hfit.valid hbest h.1 h.2

omit [LinearOrder F] in
lemma mineable_of_accepts (hbest : 0 ≤ view.bestHeight)
    (hchoice : Mempool.Choice settings view chosen)
    (hbuilt : Built view.params view.nextHeight (coinbaseValue view chosen) script coinbase)
    (h : Accepts settings.crypto view (coinbase :: chosen)) :
    Mineable settings.crypto.toHashlib view script coinbase chosen := by
  obtain ⟨htxs, -, hsigops⟩ := h ⟨1, zeroHash, zeroHash, 0, 0, 0⟩
  simp only [BlockValidator.validateTransactions, Bool.and_eq_true] at htxs
  obtain ⟨⟨⟨-, hcoinbase⟩, hrest⟩, hids⟩ := htxs
  obtain ⟨hsize, hpaid, hbounded, hlocked⟩ := hbuilt.valid_iff.1 hcoinbase
  have heach (tx : Transaction) (hmem : tx ∈ chosen) :=
    (validates_iff hbest (hchoice.fit tx hmem)).1 (BerzCoin.validateRest_each hrest tx hmem)
  refine ⟨fun tx hmem => (heach tx hmem).2, ?_, hpaid, hbounded, hlocked, ?_, ?_⟩
  · intro tx hmem
    rcases List.mem_cons.1 hmem with rfl | hmem
    · exact hsize
    · exact (heach tx hmem).1
  · exact (List.nodup_cons.1 (by simpa using hids)).1
  · simpa [BlockValidator.validateSigops] using hsigops

omit [LinearOrder F] in
lemma accepts_of_mineable (hbest : 0 ≤ view.bestHeight)
    (hchoice : Mempool.Choice settings view chosen)
    (hbuilt : Built view.params view.nextHeight (coinbaseValue view chosen) script coinbase)
    (h : Mineable settings.crypto.toHashlib view script coinbase chosen) :
    Accepts settings.crypto view (coinbase :: chosen) := by
  intro header
  have hcoinbase : BlockValidator.validateTransaction settings.crypto view.params view.getUtxo coinbase
      view.nextHeight true = true :=
    hbuilt.valid_iff.2 ⟨h.sized coinbase List.mem_cons_self, h.paid, h.bounded, h.locked⟩
  have heach : ∀ tx ∈ chosen, view.validates settings.crypto tx = true := fun tx hmem =>
    (validates_iff hbest (hchoice.fit tx hmem)).2
      ⟨h.sized tx (List.mem_cons_of_mem _ hmem), h.confirmed tx hmem⟩
  refine ⟨?_, ?_, ?_⟩
  · have hcount : (coinbase :: chosen).countP Transaction.isCoinbase = 1 := by
      have hnone : chosen.countP Transaction.isCoinbase = 0 := by
        rw [List.countP_eq_zero]
        intro tx hmem
        simp [(hchoice.fit tx hmem).noCoinbase]
      rw [List.countP_cons_of_pos hbuilt.isCoinbase, hnone]
    have hrest := BlockValidator.validateRest_of_each [] heach hchoice.disjoint (by simp)
    have hids : ((coinbase :: chosen).map (·.txid settings.crypto.toHashlib)).Nodup :=
      List.nodup_cons.2 ⟨h.fresh, hchoice.nodup⟩
    simp only [BlockValidator.validateTransactions, hcount, hcoinbase, hrest, hids]
    rfl
  · have htaken : ∀ tx ∈ chosen, BlockValidator.Taken view.params view.getUtxo tx := fun tx hmem =>
      BlockValidator.taken_of_validateTransaction (heach tx hmem)
    obtain ⟨fees, hfees⟩ := Option.ne_none_iff_exists'.1 (BlockValidator.calculateFees_ne_none htaken)
    have hsum := BerzCoin.calculateFees_eq hfees
    have hpays := hbuilt.totalOut_eq
    rw [coinbaseValue, Mining.sum_transactionFee] at hpays
    simp only [BlockValidator.validateSubsidy, hfees, Except.ok.injEq, decide_eq_true_eq]
    omega
  · simpa [BlockValidator.validateSigops] using h.sigops

/-- In every state that calls reach, the selection comes to an end, and the body that the miner
builds around it passes the checks of the block validator exactly when it is mineable. -/
theorem blockBody_accepted_iff (settings : MempoolSettings F) (order : SetOrder) (lowest : F)
    (createScriptPubkey : String → Except PyError Bytes) (address : String) (extraNonce : ℕ)
    {view : ChainView} {pool : Mempool F} (run : Mempool.FollowRun settings view pool)
    (hbest : 0 ≤ view.bestHeight) :
    ∃ chosen, selectTransactions settings order lowest view pool = some chosen ∧
      ((∃ body, blockBody createScriptPubkey view address extraNonce chosen = .ok body ∧
          Accepts settings.crypto view body) ↔
        ∃ script coinbase, createScriptPubkey address = .ok script ∧
          createCoinbase createScriptPubkey view address extraNonce view.nextHeight
            (coinbaseValue view chosen) = .ok coinbase ∧
          Mineable settings.crypto.toHashlib view script coinbase chosen) := by
  obtain ⟨ids, hselect, hnodup, -⟩ := pool.getTransactionsForBlock_picked settings view order lowest
    (view.params.maxBlockWeight - Mining.reservedWeight)
  have hchoice := run.ready.choice hnodup
  refine ⟨_, hselect, ?_⟩
  constructor
  · rintro ⟨body, hbody, haccepts⟩
    obtain ⟨coinbase, hcreate, hbody⟩ := except_bind_eq_ok hbody
    cases hbody
    obtain ⟨script, hscript, hbuilt⟩ := built_of_createCoinbase hcreate
    exact ⟨script, coinbase, hscript, hcreate, mineable_of_accepts hbest hchoice hbuilt haccepts⟩
  · rintro ⟨script, coinbase, hscript, hcreate, hmineable⟩
    obtain ⟨script', hscript', hbuilt⟩ := built_of_createCoinbase hcreate
    rw [hscript] at hscript'
    cases hscript'
    refine ⟨_, ?_, accepts_of_mineable hbest hchoice hbuilt hmineable⟩
    rw [blockBody, hcreate]
    rfl

end agreement
end MiningNode

/-! A mempool with one transaction that spends an output of the chain, and one with its child. -/
namespace MiningExample
open MempoolExample (chain first child firstId payToScript args)

/-- The coinbase over `first`, which pays a fee of 10000. -/
def coinbase : Transaction :=
  BlockExample.coinbaseWith ([0x01, 0xc9, 0x01, 0x00] ++ asciiBytes "/BerzCoin/") 798013044 payToScript

/-- Over `first` and `child`. -/
def familyCoinbase : Transaction := { coinbase with vout := [⟨797933044, payToScript⟩] }

def settings : MempoolSettings ℚ :=
  MempoolExample.settingsWith 1000 [(coinbase.serialize false,
    0xf71fdf656cd79328090f338c760d1a40c401e5c857ec0275435d30176528d8fa,
    0xa3ce32d2c28eb6028d6186e7db3d5365fb5cc2834658f7c87832a2b1eef1a98e)]

def createScriptPubkey (_ : String) : Except PyError Bytes := .ok payToScript

def single : Mempool ℚ := MempoolCall.apply settings chain Mempool.empty (.addTransaction args first)

def family : Mempool ℚ := MempoolCall.apply settings chain single (.addTransaction args child)

lemma single_run : Mempool.FollowRun settings chain single := (Mempool.FollowRun.start chain).call _

lemma family_run : Mempool.FollowRun settings chain family := single_run.call _

end MiningExample

namespace MiningNode
open MiningExample
open Node.TemplateExample (order)
open MempoolExample (chain first child payToScript)

lemma mineable_first :
    Mineable MiningExample.settings.crypto.toHashlib chain payToScript coinbase [first] where
  confirmed := by
    intro tx htx txin htxin
    simp only [List.mem_singleton] at htx
    subst htx
    simp only [first, List.mem_singleton] at htxin
    subst htxin
    decide +kernel
  sized := by decide +kernel
  paid := by decide +kernel
  bounded := by decide +kernel
  locked := List.cons_ne_nil _ _
  fresh := by decide +kernel
  sigops := by decide +kernel

/-- The body over `first` alone is accepted. -/
theorem blockBody_accepted_iff_first :
    ∃ chosen, selectTransactions MiningExample.settings order (-1) chain single = some chosen ∧
      ∃ body, blockBody createScriptPubkey chain "miner" 0 chosen = .ok body ∧
        Accepts MiningExample.settings.crypto chain body := by
  obtain ⟨chosen, hselect, haccepted⟩ := blockBody_accepted_iff MiningExample.settings order (-1)
    createScriptPubkey "miner" 0 single_run (by decide)
  have hfirst : selectTransactions MiningExample.settings order (-1) chain single = some [first] := by
    decide +kernel
  rw [hfirst] at hselect
  cases hselect
  exact ⟨_, hfirst, haccepted.2 ⟨payToScript, coinbase, rfl, by decide +kernel, mineable_first⟩⟩

/-- Both transactions of the family are chosen, and the child is refused with the block. -/
theorem waiting_parent_refused :
    Mempool.FollowRun MiningExample.settings chain family ∧
      selectTransactions MiningExample.settings order (-1) chain family = some [first, child] ∧
      ∃ body, blockBody createScriptPubkey chain "miner" 0 [first, child] = .ok body ∧
        ¬ Accepts MiningExample.settings.crypto chain body := by
  refine ⟨family_run, by decide +kernel, ?_⟩
  have hcreate : createCoinbase createScriptPubkey chain "miner" 0 chain.nextHeight
      (coinbaseValue chain [first, child]) = .ok familyCoinbase := by decide +kernel
  refine ⟨[familyCoinbase, first, child], ?_, ?_⟩
  · rw [blockBody, hcreate]
    rfl
  · intro haccepts
    have htxs := (haccepts ⟨1, zeroHash, zeroHash, 0, 0, 0⟩).1
    have hchild : chain.validates MiningExample.settings.crypto child = false := by decide +kernel
    simp only [BlockValidator.validateTransactions, Bool.and_eq_true] at htxs
    have heach := BerzCoin.validateRest_each htxs.1.2 child (by simp)
    rw [ChainView.validates, heach] at hchild
    cases hchild

end MiningNode
end BerzCoin
