import BerzCoin.ChainValidation
import BerzCoin.ValidationOps

/-! A validated block adds at most its subsidy to the UTXO set. A spent row may have been
replaced by the block itself before it is spent, so the sum is taken over the rows that the
rest of the block does not spend. -/
namespace BerzCoin
open Script (Crypto)
open Database BlockValidator

def utxoValue (row : UtxoRow) : ℕ := row.value.1

/-- The sum of the values in the UTXO table. -/
def Tables.supply (tables : Tables) : ℕ := tables.utxo.sum utxoValue

def UtxoOp.spent? : UtxoOp → Option Outpoint
  | .spend _ _ txin => some txin.outpoint
  | .add .. => none

def UtxoOp.added : UtxoOp → ℕ
  | .spend .. => 0
  | .add _ _ _ txout => txout.value.toNat

def spentBy (ops : List UtxoOp) : List Outpoint := ops.filterMap UtxoOp.spent?

def addedBy (ops : List UtxoOp) : ℕ := (ops.map UtxoOp.added).sum

/-- The value of the rows that `ops` does not spend. -/
def Tables.kept (tables : Tables) (ops : List UtxoOp) : ℕ :=
  (tables.utxo.deleteAll (spentBy ops)).sum utxoValue

section operations
variable {H : Hashlib} {network : Network} {blockHash : Bytes} {height : ℕ}

lemma outputRow_value {isCoinbase : Bool} {txout : TxOut} {row : UtxoRow}
    (h : outputRow H network height isCoinbase txout = .ok row) :
    utxoValue row = txout.value.toNat := by
  unfold outputRow at h
  cases haddr : extractAddress H network txout.scriptPubkey with
  | error e =>
    rw [haddr] at h
    cases h
  | ok address =>
    by_cases hfits : txout.value.toNat < 2 ^ 63
    · rw [haddr, bindInt, dif_pos hfits] at h
      cases h
      rfl
    · rw [haddr, bindInt, dif_neg hfits] at h
      cases h

lemma kept_add_le (tables : Tables) (key : Outpoint) (row : UtxoRow) (ops : List UtxoOp) :
    (tables.add key row).kept ops ≤ tables.kept ops + utxoValue row := by
  unfold Tables.kept Tables.add
  cases haddr : row.address with
  | none => exact KeyedRows.sum_deleteWhere_insertOrReplace_le ..
  | some address =>
    have hvalue (r : UtxoRow) : utxoValue { r with address := some address } = utxoValue r := rfl
    simp only [KeyedRows.deleteAll]
    rw [KeyedRows.deleteWhere_update, KeyedRows.sum_update _ _ _ _ hvalue]
    exact KeyedRows.sum_deleteWhere_insertOrReplace_le ..

lemma UtxoOp.kept_apply_le {op : UtxoOp} {tables tables' : Tables}
    (h : op.apply H network blockHash height tables = some tables') (ops : List UtxoOp) :
    tables'.kept ops ≤ tables.kept (op :: ops) + op.added := by
  cases op with
  | spend txid inIdx txin =>
    obtain ⟨row, -, rfl⟩ := Option.map_eq_some_iff.1 h
    have hspent : spentBy (.spend txid inIdx txin :: ops) = txin.outpoint :: spentBy ops := rfl
    have hkept : (tables.spend (blockHash, txid, inIdx) txin.outpoint row).kept ops =
        tables.kept (.spend txid inIdx txin :: ops) := by
      simp only [Tables.kept, Tables.spend, hspent, KeyedRows.deleteAll_delete]
    rw [hkept]
    exact Nat.le_add_right _ _
  | add txid isCoinbase i txout =>
    have hspent : tables.kept (.add txid isCoinbase i txout :: ops) = tables.kept ops := rfl
    rw [hspent]
    simp only [UtxoOp.apply] at h
    split at h
    · cases h
      exact Nat.le_add_right _ _
    · cases hrow : outputRow H network height isCoinbase txout with
      | error e => simp [hrow] at h
      | ok row =>
        simp only [hrow, Option.some.injEq] at h
        subst h
        have hle := kept_add_le tables (txid, i) row ops
        rwa [outputRow_value hrow] at hle

lemma supply_applyOps_le {ops : List UtxoOp} {tables tables' : Tables}
    (h : applyOps H network blockHash height ops tables = (tables', true)) :
    tables'.supply ≤ tables.kept ops + addedBy ops := by
  induction ops generalizing tables with
  | nil =>
    cases h
    have hsum := KeyedRows.sum_deleteAll tables'.utxo utxoValue List.nodup_nil
    exact hsum.ge
  | cons op ops ih =>
    rw [applyOps] at h
    cases happ : op.apply H network blockHash height tables with
    | none => simp [happ] at h
    | some tables1 =>
      simp only [happ] at h
      have hrest := ih h
      have hop := op.kept_apply_le happ ops
      have hadded : addedBy (op :: ops) = op.added + addedBy ops := rfl
      omega

end operations

section block
variable (H : Hashlib)

def inputsOf (txs : List Transaction) : List Outpoint :=
  txs.flatMap fun tx => tx.vin.map TxIn.outpoint

lemma spentBy_append (ops ops' : List UtxoOp) : spentBy (ops ++ ops') = spentBy ops ++ spentBy ops' :=
  List.filterMap_append

lemma addedBy_append (ops ops' : List UtxoOp) : addedBy (ops ++ ops') = addedBy ops + addedBy ops' := by
  simp [addedBy]

lemma spentBy_spendOps (txid : Bytes) (i : ℕ) (vin : List TxIn) :
    spentBy (spendOps txid i vin) = vin.map TxIn.outpoint ∧ addedBy (spendOps txid i vin) = 0 := by
  induction vin generalizing i with
  | nil => exact ⟨rfl, rfl⟩
  | cons txin vin ih =>
    obtain ⟨hspent, hadded⟩ := ih (i + 1)
    refine ⟨congrArg (txin.outpoint :: ·) hspent, ?_⟩
    simpa [spendOps, addedBy, UtxoOp.added] using hadded

lemma spentBy_addOps (txid : Bytes) (isCoinbase : Bool) (i : ℕ) (vout : List TxOut) :
    spentBy (addOps txid isCoinbase i vout) = [] ∧
      addedBy (addOps txid isCoinbase i vout) ≤ totalOut vout := by
  induction vout generalizing i with
  | nil => exact ⟨rfl, Nat.le_refl _⟩
  | cons txout vout ih =>
    obtain ⟨hspent, hadded⟩ := ih (i + 1)
    have htotal : totalOut (txout :: vout) = txout.value.toNat + totalOut vout := rfl
    by_cases hret : txout.isOpReturn = true
    · simp only [addOps, hret, if_true]
      exact ⟨hspent, by omega⟩
    · simp only [addOps, hret]
      refine ⟨hspent, ?_⟩
      have hcons : addedBy (.add txid isCoinbase i txout :: addOps txid isCoinbase (i + 1) vout) =
          txout.value.toNat + addedBy (addOps txid isCoinbase (i + 1) vout) := rfl
      simp only [Bool.false_eq_true, if_false, hcons]
      omega

lemma addedBy_txOps_le (tx : Transaction) : addedBy (txOps H tx) ≤ totalOut tx.vout := by
  have hspend := (spentBy_spendOps (tx.txid H) 0 tx.vin).2
  have hadd := (spentBy_addOps (tx.txid H) tx.isCoinbase 0 tx.vout).2
  rw [txOps, addedBy_append]
  split_ifs
  · exact (Nat.zero_add _).trans_le hadd
  · omega

lemma spentBy_txOps (tx : Transaction) :
    spentBy (txOps H tx) = if tx.isCoinbase then [] else tx.vin.map TxIn.outpoint := by
  have hspend := (spentBy_spendOps (tx.txid H) 0 tx.vin).1
  have hadd := (spentBy_addOps (tx.txid H) tx.isCoinbase 0 tx.vout).1
  rw [txOps, spentBy_append, hadd, List.append_nil]
  split_ifs
  · rfl
  · exact hspend

lemma addedBy_blockOps_le (txs : List Transaction) :
    addedBy (blockOps H txs) ≤ (txs.map fun tx => totalOut tx.vout).sum := by
  induction txs with
  | nil => exact Nat.le_refl _
  | cons tx txs ih =>
    have htx := addedBy_txOps_le H tx
    rw [blockOps, List.flatMap_cons, addedBy_append, List.map_cons, List.sum_cons]
    exact Nat.add_le_add htx ih

lemma spentBy_blockOps {txs : List Transaction} (h : ∀ tx ∈ txs, tx.isCoinbase = false) :
    spentBy (blockOps H txs) = inputsOf txs := by
  induction txs with
  | nil => rfl
  | cons tx txs ih =>
    have htx := h tx (List.mem_cons_self ..)
    have hrest := ih fun tx' htx' => h tx' (List.mem_cons_of_mem _ htx')
    rw [blockOps, List.flatMap_cons, spentBy_append, spentBy_txOps, htx]
    exact congrArg (tx.vin.map TxIn.outpoint ++ ·) hrest

end block

section validation
variable {C : Crypto} {params : ConsensusParams} {getUtxo : Outpoint → Option UtxoRow} {height : ℕ}

lemma recordSpent_eq {spent spent' : List Outpoint} {vin : List TxIn}
    (h : recordSpent spent vin = some spent') :
    spent' = (vin.map TxIn.outpoint).reverse ++ spent ∧ (spent.Nodup → spent'.Nodup) := by
  induction vin generalizing spent with
  | nil =>
    cases h
    exact ⟨rfl, id⟩
  | cons txin vin ih =>
    rw [recordSpent] at h
    split_ifs at h with hmem
    obtain ⟨heq, hnodup⟩ := ih h
    refine ⟨by simp [heq], ?_⟩
    intro hspent
    exact hnodup (List.nodup_cons.2 ⟨hmem, hspent⟩)

lemma validateTransaction_isCoinbase {tx : Transaction} {isCoinbase : Bool}
    (h : validateTransaction C params getUtxo tx height isCoinbase = true) :
    tx.isCoinbase = isCoinbase := by
  unfold validateTransaction at h
  by_contra hne
  simp [hne] at h

/-- The inputs of a validated block are distinct, also across its transactions. -/
lemma validateRest_true {spent : List Outpoint} {txs : List Transaction}
    (h : validateRest C params getUtxo height spent txs = true) :
    (∀ tx ∈ txs, tx.isCoinbase = false) ∧
      (spent.Nodup → ((inputsOf txs).reverse ++ spent).Nodup) := by
  induction txs generalizing spent with
  | nil => exact ⟨fun tx htx => (List.not_mem_nil htx).elim, id⟩
  | cons tx txs ih =>
    rw [validateRest, Bool.and_eq_true] at h
    obtain ⟨htx, hrest⟩ := h
    cases hrec : recordSpent spent tx.vin with
    | none => simp [hrec] at hrest
    | some spent' =>
      simp only [hrec] at hrest
      obtain ⟨hcb, hnodup⟩ := ih hrest
      obtain ⟨rfl, hspent'⟩ := recordSpent_eq hrec
      refine ⟨?_, ?_⟩
      · intro tx' htx'
        rcases List.mem_cons.1 htx' with rfl | htx'
        · exact validateTransaction_isCoinbase htx
        · exact hcb tx' htx'
      · intro hspent
        have hall := hnodup (hspent' hspent)
        rwa [inputsOf, List.flatMap_cons, List.reverse_append, List.append_assoc]

lemma calculateFees_eq {txs : List Transaction} {fees : ℕ} (h : calculateFees getUtxo txs = some fees) :
    (txs.map fun tx => totalOut tx.vout).sum + fees =
      (txs.map fun tx => totalIn getUtxo tx.vin).sum := by
  induction txs generalizing fees with
  | nil =>
    cases h
    rfl
  | cons tx txs ih =>
    rw [calculateFees] at h
    cases hfee : txFee getUtxo tx with
    | none => simp [hfee] at h
    | some fee =>
      cases hfees : calculateFees getUtxo txs with
      | none => simp [hfee, hfees] at h
      | some rest =>
        simp only [hfee, hfees, Option.some.injEq] at h
        have hrest := ih hfees
        have htx : totalOut tx.vout + fee = totalIn getUtxo tx.vin := by
          unfold txFee at hfee
          split_ifs at hfee with hmissing hlt
          cases hfee
          omega
        simp only [List.map_cons, List.sum_cons]
        omega

end validation

lemma totalIn_eq (tables : Tables) (txs : List Transaction) :
    (txs.map fun tx => totalIn tables.utxo.get? tx.vin).sum =
      ((inputsOf txs).map (tables.utxo.columnAt utxoValue)).sum := by
  induction txs with
  | nil => rfl
  | cons tx txs ih =>
    rw [inputsOf, List.flatMap_cons, List.map_append, List.sum_append, List.map_cons, List.sum_cons,
      ih, List.map_map]
    rfl

section step
variable {C : Crypto} {params : ConsensusParams} {network : Network} {blockHash : Bytes}

/-- What the two checks on a block leave of the UTXO set when the block is applied. -/
lemma supply_validated_le {block : Block} {height height' : ℕ} {tables tables' : Tables}
    (hvalid : validateTransactions C params tables.utxo.get? block height = true)
    (hsubsidy : validateSubsidy params tables.utxo.get? block height = .ok true)
    (happ : applyOps C.toHashlib network blockHash height' (blockOps C.toHashlib block.transactions)
      tables = (tables', true)) :
    tables'.supply ≤ tables.supply + getBlockSubsidy height params := by
  cases htxs : block.transactions with
  | nil => simp [validateTransactions, htxs] at hvalid
  | cons coinbase rest =>
    simp only [validateTransactions, htxs, Bool.and_eq_true] at hvalid
    obtain ⟨⟨⟨-, hcoinbase⟩, hrest⟩, -⟩ := hvalid
    obtain ⟨hothers, hnodup⟩ := validateRest_true hrest
    simp only [validateSubsidy, htxs] at hsubsidy
    cases hfees : calculateFees tables.utxo.get? rest with
    | none => simp [hfees] at hsubsidy
    | some fees =>
      simp only [hfees, Except.ok.injEq, decide_eq_true_eq] at hsubsidy
      rw [htxs] at happ
      have hspent : spentBy (blockOps C.toHashlib (coinbase :: rest)) = inputsOf rest := by
        rw [blockOps, List.flatMap_cons, spentBy_append, spentBy_txOps,
          validateTransaction_isCoinbase hcoinbase]
        exact spentBy_blockOps C.toHashlib hothers
      have hdistinct : (inputsOf rest).Nodup := by
        have hall := hnodup List.nodup_nil
        rwa [List.append_nil, List.nodup_reverse] at hall
      have hrun := supply_applyOps_le happ
      have hadded := addedBy_blockOps_le C.toHashlib (coinbase :: rest)
      have hin := totalIn_eq tables rest
      have hfee := calculateFees_eq hfees
      have hsplit := KeyedRows.sum_deleteAll tables.utxo utxoValue hdistinct
      rw [Tables.kept, hspent] at hrun
      simp only [List.map_cons, List.sum_cons] at hadded
      unfold Tables.supply at hrun ⊢
      omega

lemma supply_connect_le {block : Block} {height : ℕ} {s s' : Session Tables BlockIndex}
    (hvalid : validateTransactions C params s.conn.current.utxo.get? block height = true)
    (hsubsidy : validateSubsidy params s.conn.current.utxo.get? block height = .ok true)
    (h : connect C.toHashlib network block s = .ok true s') :
    s'.conn.current.supply ≤ s.conn.current.supply + getBlockSubsidy height params := by
  obtain ⟨height', tables', -, happ, hutxo⟩ := connect_applyOps h
  have hle := @supply_validated_le _ _ _ _ _ _ _
      (withoutUndo (block.header.hashHex C.toHashlib) s.conn.current) _ hvalid hsubsidy happ
  have hsupply : s'.conn.current.supply = tables'.supply := by
    rw [Tables.supply, Tables.supply, hutxo]
  rw [hsupply]
  exact hle

end step

/-- A run from an empty UTXO table: at consecutive heights a block passes the two checks and is
then connected. In between the UTXO table does not change. The run stands before height `n`. -/
inductive ValidatedRun (C : Crypto) (params : ConsensusParams) (network : Network) :
    ℕ → Session Tables BlockIndex → Prop
  | start (n : ℕ) (s : Session Tables BlockIndex) :
      s.conn.current.utxo = KeyedRows.empty → ValidatedRun C params network n s
  | other {n : ℕ} {s s' : Session Tables BlockIndex} :
      ValidatedRun C params network n s → s'.conn.current.utxo = s.conn.current.utxo →
      ValidatedRun C params network n s'
  | block {n : ℕ} {s s' : Session Tables BlockIndex} (block : Block) :
      ValidatedRun C params network n s →
      validateTransactions C params s.conn.current.utxo.get? block n = true →
      validateSubsidy params s.conn.current.utxo.get? block n = .ok true →
      connect C.toHashlib network block s = .ok true s' →
      ValidatedRun C params network (n + 1) s'

lemma ValidatedRun.supply_le {C : Crypto} {params : ConsensusParams} {network : Network} {n : ℕ}
    {s : Session Tables BlockIndex} (h : ValidatedRun C params network n s) :
    s.conn.current.supply ≤ subsidySum params n := by
  induction h with
  | start n s hempty =>
    rw [Tables.supply, hempty]
    exact Nat.zero_le _
  | other _ hutxo ih =>
    rw [Tables.supply, hutxo]
    exact ih
  | @block n s s' block _ hvalid hsubsidy hconn ih =>
    have hstep := supply_connect_le hvalid hsubsidy hconn
    have hsum : subsidySum params (n + 1) = subsidySum params n + getBlockSubsidy n params :=
      Finset.sum_range_succ ..
    omega

/-- After the block at height `h` the UTXO table holds at most the subsidies of the heights up
to `h`, on the shipped networks at most `max_money`. -/
theorem supply_bounded (C : Crypto) (params : ConsensusParams) (network : Network) (h : ℕ)
    (s : Session Tables BlockIndex) (hrun : ValidatedRun C params network (h + 1) s) :
    s.conn.current.supply ≤ subsidySum params (h + 1) ∧
      (Shipped params → s.conn.current.supply ≤ params.maxMoney) := by
  refine ⟨hrun.supply_le, ?_⟩
  intro hshipped
  exact hrun.supply_le.trans (subsidySum_le_maxMoney hshipped _)

/-! The genesis block, and a block with a transaction that spends its coinbase, pays a fee and has
an `OP_RETURN` output. -/
namespace SupplyExample
open BlockExample (coinbaseWith blockOn coinbase0Id genesis genesisHash hashlib)

/-- Takes the fee. -/
def coinbase1 : Transaction := coinbaseWith [0x01, 0x01] 53 [0x51]

def spending : Transaction :=
  { version := 1
    vin := [⟨beBytes 32 coinbase0Id, 0, [], 0xffffffff, []⟩]
    vout := [⟨40, [0x51]⟩, ⟨7, [0x6a]⟩]
    locktime := 0 }

def block1 : Block :=
  blockOn genesisHash 0x7c2c25b041676ae7ea51ac5d901568e1b89e02787e8b51b3758a548bd6f8f5dd 1001 1
    [coinbase1, spending]

def crypto : Crypto := .ofHashlib <| hashlib.withDigests [
  (coinbase1.serialize false,
    0x2bb51452340524380610ee79f59e038c0eeeb87023cdc4f9e73791e038d2fe6d,
    0xd97821edabadc9b6c410c29fcd79f9362a0da8247b35530ecbd9c0a4dfe70c69),
  (spending.serialize false,
    0x92171558c06ebcf4644d3479372f618dea75305a3b5f4410731dafa0ac9dcea7,
    0x306ec71fe4d4ec68cfab056d4cd7e8bb4e2e7af5a0b00217dc992dabbc12f5a9),
  (block1.header.serialize,
    0x3e96777d733b14a0190cf23b998313272a10754e9cc79ac3aa616ea251356a4f,
    0x771a3b42fd9889f9bf9ed3eac0a70d768e9808f486a68079d6529c2e962238cc)]

def params : ConsensusParams := { ConsensusParams.regtest with coinbaseMaturity := 1 }

def entryOf (block : Block) (height : ℕ) : BlockIndexEntry :=
  ⟨height, block.header.hashHex crypto.toHashlib, block.header, 2 * (height + 1),
    {.HEADER, .BLOCK, .VALID}⟩

def session : Session Tables BlockIndex where
  conn := ⟨Tables.empty, none⟩
  memory := { BlockIndex.empty with
    index := (KeyedRows.empty.put (entryOf genesis 0).blockHash (entryOf genesis 0)).put
      (entryOf block1 1).blockHash (entryOf block1 1) }

def after0 : Session Tables BlockIndex :=
  (connect crypto.toHashlib .regtest genesis).final session

def after1 : Session Tables BlockIndex :=
  (connect crypto.toHashlib .regtest block1).final after0

end SupplyExample

open SupplyExample BlockExample in
theorem supply_bounded_example :
    after1.conn.current.supply = 93 ∧ after1.conn.current.supply ≤ subsidySum params 2 ∧
      after1.conn.current.supply ≤ params.maxMoney := by
  have hrun0 : ValidatedRun crypto params .regtest 1 after0 :=
    .block genesis (.start 0 session rfl) (by decide +kernel) (by decide +kernel)
      (Db.eq_ok_of_returns (by decide +kernel))
  have hrun1 : ValidatedRun crypto params .regtest 2 after1 :=
    .block block1 hrun0 (by decide +kernel) (by decide +kernel)
      (Db.eq_ok_of_returns (by decide +kernel))
  have hshipped : Shipped params := ⟨ConsensusParams.regtest, by simp, 1, [], rfl⟩
  obtain ⟨hsum, hmax⟩ := supply_bounded crypto params .regtest 1 after1 hrun1
  exact ⟨by decide +kernel, hsum, hmax hshipped⟩

end BerzCoin
