import BerzCoin.ChainLedgerSupply
import BerzCoin.ChainTimelock
import BerzCoin.UndoTaken

/-! What the blocks of a chain spend and create. Each output is spent once, with the consent of its
script, and the UTXO table holds what was created and not spent. -/
namespace BerzCoin
open Script (Crypto)
open Database BlockValidator UndoLog

/-- The outputs that the transactions of a block spend. -/
def spentIn (txs : List Transaction) : List Outpoint :=
  txs.flatMap fun tx => if tx.isCoinbase then [] else tx.vin.map TxIn.outpoint

/-- The outputs that the blocks of a chain spend, each as often as it is spent. -/
def spends (chain : List Connected) : List Outpoint := chain.flatMap fun c => spentIn c.block.transactions

/-- The outpoint is that of an output that the block adds to the UTXO table. -/
def Creates (H : Hashlib) (block : Block) (key : Outpoint) : Prop :=
  ∃ tx ∈ block.transactions, ∃ txout, key.1 = tx.txid H ∧ tx.vout[key.2]? = some txout ∧
    txout.isOpReturn = false

/-- The row is that of an output of the block, which stands at the given height. -/
def MadeBy (H : Hashlib) (height : ℕ) (block : Block) (key : Outpoint) (row : UtxoRow) : Prop :=
  ∃ tx ∈ block.transactions, ∃ txout, key.1 = tx.txid H ∧ tx.vout[key.2]? = some txout ∧
    row.value.1 = txout.value.toNat ∧ row.scriptPubkey = txout.scriptPubkey ∧
    row.height = height ∧ row.isCoinbase = tx.isCoinbase

section rows
variable {H : Hashlib} {network : Network} {height i : ℕ} {txid : Bytes} {isCoinbase : Bool}

lemma takesFrom_keys (txid : Bytes) (i : ℕ) (vin : List TxIn) :
    (takesFrom txid i vin).map Prod.snd = vin.map TxIn.outpoint := by
  induction vin generalizing i with
  | nil => rfl
  | cons txin vin ih => rw [takesFrom, List.map_cons, List.map_cons, ih]

lemma mem_putsFrom_iff {vout : List TxOut} {p : Outpoint × UtxoRow} :
    p ∈ putsFrom H network height txid isCoinbase i vout ↔
      ∃ j txout, p.1 = (txid, i + j) ∧ vout[j]? = some txout ∧ txout.isOpReturn = false ∧
        outputRow H network height isCoinbase txout = .ok p.2 := by
  induction vout generalizing i with
  | nil => simp [putsFrom]
  | cons first vout ih =>
    have hrest : p ∈ putsFrom H network height txid isCoinbase (i + 1) vout ↔
        ∃ j txout, p.1 = (txid, i + (j + 1)) ∧ (first :: vout)[j + 1]? = some txout ∧
          txout.isOpReturn = false ∧ outputRow H network height isCoinbase txout = .ok p.2 := by
      rw [ih]
      simp only [Nat.add_assoc, Nat.add_comm 1, List.getElem?_cons_succ]
    have hsplit : (∃ j txout, p.1 = (txid, i + j) ∧ (first :: vout)[j]? = some txout ∧
        txout.isOpReturn = false ∧ outputRow H network height isCoinbase txout = .ok p.2) ↔
        (p.1 = (txid, i) ∧ first.isOpReturn = false ∧
          outputRow H network height isCoinbase first = .ok p.2) ∨
        p ∈ putsFrom H network height txid isCoinbase (i + 1) vout := by
      rw [hrest]
      constructor
      · rintro ⟨j, txout, hkey, hget, hop, hrow⟩
        cases j with
        | zero =>
          cases hget
          exact .inl ⟨hkey, hop, hrow⟩
        | succ j => exact .inr ⟨j, txout, hkey, hget, hop, hrow⟩
      · rintro (⟨hkey, hop, hrow⟩ | ⟨j, txout, hkey, hget, hop, hrow⟩)
        · exact ⟨0, first, hkey, rfl, hop, hrow⟩
        · exact ⟨j + 1, txout, hkey, hget, hop, hrow⟩
    rw [hsplit, putsFrom]
    split_ifs with hop
    · simp [hop]
    · cases hrow : outputRow H network height isCoinbase first with
      | error e => simp
      | ok row =>
        simp only [List.mem_cons]
        refine or_congr_left ?_
        constructor
        · rintro rfl
          exact ⟨rfl, by simpa using hop, rfl⟩
        · rintro ⟨hkey, -, hsame⟩
          cases hsame
          exact Prod.ext hkey rfl

lemma outputRow_fields {txout : TxOut} {row : UtxoRow}
    (h : outputRow H network height isCoinbase txout = .ok row) :
    row.value.1 = txout.value.toNat ∧ row.scriptPubkey = txout.scriptPubkey ∧ row.height = height ∧
      row.isCoinbase = isCoinbase := by
  have hvalue := outputRow_value h
  unfold outputRow at h
  cases haddr : extractAddress H network txout.scriptPubkey with
  | error e =>
    rw [haddr] at h
    cases h
  | ok address =>
    by_cases hfits : txout.value.toNat < 2 ^ 63
    · rw [haddr, bindInt, dif_pos hfits] at h
      cases h
      exact ⟨rfl, rfl, rfl, rfl⟩
    · rw [haddr, bindInt, dif_neg hfits] at h
      cases h

end rows

/-- What holds of a list and passes on to what is below its first element holds of every suffix. -/
lemma of_suffix {α : Type} (P : List α → Prop) (hbelow : ∀ a l, P (a :: l) → P l) {l l' : List α}
    (h : P l) (hsuffix : l' <:+ l) : P l' := by
  induction l with
  | nil =>
    obtain rfl := List.suffix_nil.1 hsuffix
    exact h
  | cons a l ih =>
    rcases List.suffix_cons_iff.1 hsuffix with rfl | hsuffix
    · exact h
    · exact ih (hbelow a l h) hsuffix

section chain
variable {H : Hashlib} {chain past : List Connected} {c : Connected}

/-- The update that the block at the top of a part of the chain makes. -/
lemma mem_updates_iff {u : Update Bytes Outpoint UndoId UtxoRow} :
    u ∈ updates H chain ↔ ∃ c past, (c :: past) <:+ chain ∧ u = ⟨c.block.header.hashHex H,
      c.block.transactions.map (txStep H c.network (past.length + 1))⟩ := by
  induction chain with
  | nil => simp [updates]
  | cons d below ih =>
    rw [updates, List.mem_cons, ih]
    constructor
    · rintro (rfl | ⟨c, past, hsuffix, rfl⟩)
      · exact ⟨d, below, List.suffix_rfl, rfl⟩
      · exact ⟨c, past, hsuffix.trans (List.suffix_cons ..), rfl⟩
    · rintro ⟨c, past, hsuffix, rfl⟩
      rcases List.suffix_cons_iff.1 hsuffix with heq | hsuffix
      · cases heq
        exact .inl rfl
      · exact .inr ⟨c, past, hsuffix, rfl⟩

lemma takenOf_block (H : Hashlib) (network : Network) (height : ℕ) (txs : List Transaction) :
    takenOf (txs.map (txStep H network height)) = spentIn txs := by
  rw [takenOf, spentIn, List.flatMap_map]
  refine List.flatMap_congr fun tx _ => ?_
  simp only [txStep]
  split_ifs
  · rfl
  · exact takesFrom_keys ..

lemma takenBy_updates (H : Hashlib) (chain : List Connected) : takenBy (updates H chain) = spends chain := by
  induction chain with
  | nil => rfl
  | cons c past ih =>
    rw [updates, takenBy, spends, List.flatMap_cons, List.flatMap_cons]
    exact congrArg₂ (· ++ ·) (takenOf_block ..) ih

lemma puts_block {network : Network} {height : ℕ} {block : Block} {key : Outpoint} {row : UtxoRow}
    (h : (key, row) ∈ putsOf (block.transactions.map (txStep H network height))) :
    MadeBy H height block key row := by
  obtain ⟨step, hstep, hput⟩ := List.mem_flatMap.1 h
  obtain ⟨tx, htx, rfl⟩ := List.mem_map.1 hstep
  obtain ⟨j, txout, hkey, hget, hop, hrow⟩ := mem_putsFrom_iff.1 hput
  obtain ⟨hvalue, hscript, hheight, hcoinbase⟩ := outputRow_fields hrow
  rw [Nat.zero_add] at hkey
  cases hkey
  exact ⟨tx, htx, txout, rfl, hget, hvalue, hscript, hheight, hcoinbase⟩

/-- A block whose outputs fit their columns puts a row at each outpoint that it creates. -/
lemma creates_iff {network : Network} {height : ℕ} {block : Block} {key : Outpoint}
    (hfits : ∀ tx ∈ block.transactions, ∀ txout ∈ tx.vout, txout.value.toNat < 2 ^ 63) :
    Creates H block key ↔
      ∃ p ∈ putsOf (block.transactions.map (txStep H network height)), p.1 = key := by
  constructor
  · rintro ⟨tx, htx, txout, hid, hget, hop⟩
    obtain ⟨row, hrow⟩ := outputRow_of_lt H network height
      (hfits tx htx txout (List.mem_of_getElem? hget)) tx.isCoinbase
    refine ⟨(key, row), List.mem_flatMap.2 ⟨_, List.mem_map_of_mem htx, ?_⟩, rfl⟩
    exact mem_putsFrom_iff.2 ⟨key.2, txout, by rw [← hid, Nat.zero_add], hget, hop, hrow⟩
  · rintro ⟨⟨key, row⟩, hp, rfl⟩
    obtain ⟨step, hstep, hput⟩ := List.mem_flatMap.1 hp
    obtain ⟨tx, htx, rfl⟩ := List.mem_map.1 hstep
    obtain ⟨j, txout, hkey, hget, hop, -⟩ := mem_putsFrom_iff.1 hput
    rw [Nat.zero_add] at hkey
    cases hkey
    exact ⟨tx, htx, txout, rfl, hget, hop⟩

end chain

section approved
variable {C : Crypto} {params : ConsensusParams} {root tip : Bytes} {network : Network}
variable {accepts : Store Outpoint UtxoRow → ℕ → Block → Prop} {base store : Store Outpoint UtxoRow}
variable {chain past : List Connected} {c : Connected}

lemma spentBy_eq (H : Hashlib) (txs : List Transaction) : spentBy (blockOps H txs) = spentIn txs := by
  induction txs with
  | nil => rfl
  | cons tx txs ih =>
    rw [blockOps, List.flatMap_cons, spentBy_append, spentBy_txOps]
    exact congrArg (_ ++ ·) ih

/-- The rules that are used of the check that a block goes through on a UTXO map. -/
def Validates (C : Crypto) (params : ConsensusParams)
    (accepts : Store Outpoint UtxoRow → ℕ → Block → Prop) : Prop :=
  ∀ store height block, accepts store height block →
    validateTransactions C params store block height = true

lemma Approved.below (h : Approved C.toHashlib accepts base chain) (hsuffix : past <:+ chain) :
    Approved C.toHashlib accepts base past :=
  of_suffix (Approved C.toHashlib accepts base) (fun _ _ h => h.1) h hsuffix

lemma Approved.founded (hrules : Validates C params accepts)
    (h : Approved C.toHashlib accepts base chain) : Founded base (updates C.toHashlib chain) := by
  induction chain with
  | nil => trivial
  | cons c past ih =>
    refine ⟨ih h.1, ?_⟩
    intro before hbefore k hk
    have htxs := hrules _ _ _ (h.2 before hbefore)
    rw [Update.taken, takenOf_block, ← spentBy_eq C.toHashlib] at hk
    exact (spentBy_validated htxs).2 k hk

lemma separate_below (h : Separate base (updates C.toHashlib chain)) (hsuffix : past <:+ chain) :
    Separate base (updates C.toHashlib past) :=
  of_suffix (fun chain => Separate base (updates C.toHashlib chain)) (fun _ _ h => Separate.below h) h
    hsuffix

/-- The map below a part of the chain. -/
lemma replay_below (h : replay base (updates C.toHashlib chain) = some store) (hsuffix : past <:+ chain) :
    ∃ before, replay base (updates C.toHashlib past) = some before := by
  refine of_suffix (fun chain => ∃ store, replay base (updates C.toHashlib chain) = some store) ?_
    ⟨store, h⟩ hsuffix
  rintro c past ⟨store, h⟩
  obtain ⟨before, hbefore, -⟩ := Option.bind_eq_some_iff.1 h
  exact ⟨before, hbefore⟩

lemma fits_of_approved (hmoney : params.maxMoney < 2 ^ 63) (hrules : Validates C params accepts)
    (h : Approved C.toHashlib accepts base chain)
    (hstore : replay base (updates C.toHashlib chain) = some store) (hc : (c :: past) <:+ chain) :
    ∀ tx ∈ c.block.transactions, ∀ txout ∈ tx.vout, txout.value.toNat < 2 ^ 63 := by
  intro tx htx txout hmem
  obtain ⟨before, hbefore⟩ := replay_below hstore ((List.suffix_cons ..).trans hc)
  have htxs := hrules _ _ _ ((h.below hc).2 before hbefore)
  obtain ⟨isCoinbase, hvalid⟩ := validateTransactions_each htxs tx htx
  exact ((validateTransaction_true hvalid).2 txout hmem).trans_lt hmoney

/-- The UTXO map of a chain: no output is spent twice, and the map has what was there or created, and
not spent. -/
lemma Approved.unspent (hmoney : params.maxMoney < 2 ^ 63) (hrules : Validates C params accepts)
    (h : Approved C.toHashlib accepts base chain) (hseparate : Separate base (updates C.toHashlib chain))
    (hstore : replay base (updates C.toHashlib chain) = some store) :
    (spends chain).Nodup ∧ ∀ key, store key ≠ none ↔
      key ∉ spends chain ∧ (base key ≠ none ∨ ∃ c ∈ chain, Creates C.toHashlib c.block key) := by
  have haccounts := hseparate.accounts (h.founded hrules) hstore
  rw [← takenBy_updates C.toHashlib]
  refine ⟨haccounts.nodup, ?_⟩
  intro key
  rw [haccounts.holds key]
  refine and_congr_right fun _ => or_congr_right ?_
  constructor
  · rintro ⟨u, hu, p, hp, rfl⟩
    obtain ⟨c, past, hc, rfl⟩ := mem_updates_iff.1 hu
    exact ⟨c, hc.subset (List.mem_cons_self ..),
      (creates_iff (fits_of_approved hmoney hrules h hstore hc)).2 ⟨p, hp, rfl⟩⟩
  · rintro ⟨c, hmem, hcreates⟩
    obtain ⟨above, past, rfl⟩ := List.append_of_mem hmem
    have hc : (c :: past) <:+ above ++ c :: past := List.suffix_append ..
    obtain ⟨p, hp, hkey⟩ : ∃ p ∈ putsOf (c.block.transactions.map
        (txStep C.toHashlib c.network (past.length + 1))), p.1 = key :=
      (creates_iff (fits_of_approved hmoney hrules h hstore hc)).1 hcreates
    exact ⟨_, mem_updates_iff.2 ⟨c, past, hc, rfl⟩, p, hp, hkey⟩

/-- Each input that the loop accepts finds a coin that has matured and whose script it satisfies. -/
lemma validateInputs_coin {getUtxo : Outpoint → Option UtxoRow} {tx : Transaction} {height : ℕ}
    {vin : List TxIn} {idx : ℕ} {seen : List Outpoint}
    (h : validateInputs C params getUtxo tx height idx seen vin = true) :
    ∀ i txin, vin[i]? = some txin → ∃ coin, getUtxo txin.outpoint = some coin ∧
      (coin.isCoinbase = true → (params.coinbaseMaturity : ℤ) ≤ height - coin.height) ∧
      Script.verifyInputScript C tx (idx + i) txin.scriptSig coin.scriptPubkey coin.value.1
        Script.ScriptFlags.STANDARD_VERIFY_FLAGS = true := by
  induction vin generalizing idx seen with
  | nil =>
    intro i txin hi
    simp at hi
  | cons first vin ih =>
    intro i txin hi
    have hscript := validateInputs_each h i txin
    rw [validateInputs] at h
    split_ifs at h with hseen
    cases hfirst : getUtxo first.outpoint with
    | none => simp [hfirst] at h
    | some coin =>
      simp only [hfirst] at h
      split_ifs at h with hyoung hfails
      cases i with
      | zero =>
        cases hi
        refine ⟨coin, hfirst, ?_, hscript coin rfl hfirst⟩
        intro hcoinbase
        rw [hcoinbase, Bool.true_and, decide_eq_true_eq, not_lt] at hyoung
        exact hyoung
      | succ i =>
        have hrest := ih h i txin (by simpa using hi)
        rwa [show idx + 1 + i = idx + (i + 1) by omega] at hrest

/-- What an input of a block spends: a row of the base or of an output below that no block in between
has spent. The row has matured, and the input satisfies its script. -/
structure Authorised (C : Crypto) (params : ConsensusParams) (base : Store Outpoint UtxoRow)
    (below : List Connected) (tx : Transaction) (i : ℕ) (txin : TxIn) (row : UtxoRow) : Prop where
  origin : base txin.outpoint = some row ∨
    ∃ c past, (c :: past) <:+ below ∧ MadeBy C.toHashlib (past.length + 1) c.block txin.outpoint row
  unspent : txin.outpoint ∉ spends below
  mature : row.isCoinbase = true → (params.coinbaseMaturity : ℤ) ≤ below.length + 1 - row.height
  script : Script.verifyInputScript C tx i txin.scriptSig row.scriptPubkey row.value.1
    Script.ScriptFlags.STANDARD_VERIFY_FLAGS = true

lemma Approved.authorised (hrules : Validates C params accepts)
    (h : Approved C.toHashlib accepts base chain) (hseparate : Separate base (updates C.toHashlib chain))
    (hstore : replay base (updates C.toHashlib chain) = some store) (hc : (c :: past) <:+ chain)
    {tx : Transaction} (htx : tx ∈ c.block.transactions) (hspend : tx.isCoinbase = false) {i : ℕ}
    {txin : TxIn} (hi : tx.vin[i]? = some txin) :
    ∃ row, Authorised C params base past tx i txin row := by
  have hpast : past <:+ chain := (List.suffix_cons ..).trans hc
  obtain ⟨before, hbefore⟩ := replay_below hstore hpast
  obtain ⟨isCoinbase, hvalid⟩ := validateTransactions_each (hrules _ _ _ ((h.below hc).2 before hbefore))
    tx htx
  obtain rfl := (isCoinbase_of_validateTransaction hvalid).symm.trans hspend
  obtain ⟨row, hrow, hmature, hscript⟩ := validateInputs_coin
    (validateInputs_of_validateTransaction hvalid) i txin hi
  have haccounts := (separate_below hseparate hpast).accounts ((h.below hpast).founded hrules) hbefore
  have hheld : before txin.outpoint ≠ none := by simp [hrow]
  refine ⟨row, ?_, ?_, ?_, ?_⟩
  · refine (haccounts.origin _ _ hrow).imp_right ?_
    rintro ⟨u, hu, hput⟩
    obtain ⟨d, lower, hd, rfl⟩ := mem_updates_iff.1 hu
    exact ⟨d, lower, hd, puts_block hput⟩
  · rw [← takenBy_updates C.toHashlib]
    exact ((haccounts.holds _).1 hheld).1
  · simpa using hmature
  · rwa [Nat.zero_add] at hscript

end approved
end BerzCoin
