import BerzCoin.ChainSupply

/-! Which outputs of an accepted block replace a row of the UTXO table. Transactions of one
block have distinct ids, but nothing compares them with the rows of earlier blocks. -/
namespace BerzCoin
open Script (Crypto)
open Database BlockValidator

def UtxoOp.created? : UtxoOp → Option Outpoint
  | .spend .. => none
  | .add txid _ i _ => some (txid, i)

def createdBy (ops : List UtxoOp) : List Outpoint := ops.filterMap UtxoOp.created?

/-- The number of rows of the UTXO table. -/
def Tables.utxoCount (tables : Tables) : ℕ := tables.utxo.rows.length

section operations
variable (H : Hashlib) (network : Network) (blockHash : Bytes) (height : ℕ)

/-- Every outpoint that the operations write is absent when it is written. -/
def WritesFresh (tables : Tables) (ops : List UtxoOp) : Prop :=
  ∀ earlier op later key mid, ops = earlier ++ op :: later → op.created? = some key →
    applyOps H network blockHash height earlier tables = (mid, true) → mid.utxo.get? key = none

end operations

/-- A created outpoint that the table already holds is spent by an earlier operation. -/
def SpentFirst (utxo : KeyedRows Outpoint UtxoRow) (ops : List UtxoOp) : Prop :=
  ∀ earlier op later key, ops = earlier ++ op :: later → op.created? = some key →
    utxo.get? key ≠ none → key ∈ spentBy earlier

section operations
variable {H : Hashlib} {network : Network} {blockHash : Bytes} {height : ℕ}

/-- Away from the created outpoints, only spending changes what is present. -/
lemma get?_applyOps {ops : List UtxoOp} {tables tables' : Tables}
    (h : applyOps H network blockHash height ops tables = (tables', true)) {key : Outpoint}
    (hkey : key ∉ createdBy ops) :
    tables'.utxo.get? key = none ↔ tables.utxo.get? key = none ∨ key ∈ spentBy ops := by
  induction ops generalizing tables with
  | nil =>
    cases h
    simp [spentBy]
  | cons op ops ih =>
    rw [applyOps] at h
    cases happ : op.apply H network blockHash height tables with
    | none => simp [happ] at h
    | some mid =>
      simp only [happ] at h
      cases op with
      | spend txid inIdx txin =>
        obtain ⟨row, -, rfl⟩ := Option.map_eq_some_iff.1 happ
        have hspent : spentBy (.spend txid inIdx txin :: ops) = txin.outpoint :: spentBy ops := rfl
        rw [ih h hkey, hspent]
        simp only [Tables.spend, KeyedRows.get?_delete, List.mem_cons]
        by_cases hk : key = txin.outpoint <;> simp [hk]
      | add txid isCoinbase i txout =>
        have hcreated : createdBy (.add txid isCoinbase i txout :: ops) =
            (txid, i) :: createdBy ops := rfl
        rw [hcreated, List.mem_cons, not_or] at hkey
        have hspent : spentBy (.add txid isCoinbase i txout :: ops) = spentBy ops := rfl
        rw [ih h hkey.2, hspent]
        simp only [UtxoOp.apply] at happ
        split at happ
        · cases happ
          rfl
        · split at happ
          · cases happ
            rw [Tables.get?_add, if_neg hkey.1]
          · cases happ

lemma applyOps_prefix {ops ops' : List UtxoOp} {tables tables' : Tables}
    (h : applyOps H network blockHash height (ops ++ ops') tables = (tables', true)) :
    ∃ mid, applyOps H network blockHash height ops tables = (mid, true) := by
  induction ops generalizing tables with
  | nil => exact ⟨tables, rfl⟩
  | cons op ops ih =>
    rw [List.cons_append, applyOps] at h
    rw [applyOps]
    cases happ : op.apply H network blockHash height tables with
    | none => simp [happ] at h
    | some mid =>
      simp only [happ] at h ⊢
      exact ih h

/-- With distinct created outpoints, a write can only meet a row that was there before. -/
lemma writesFresh_iff {ops : List UtxoOp} {tables tables' : Tables}
    (h : applyOps H network blockHash height ops tables = (tables', true))
    (hnodup : (createdBy ops).Nodup) :
    WritesFresh H network blockHash height tables ops ↔ SpentFirst tables.utxo ops := by
  have hgone {earlier later : List UtxoOp} {op : UtxoOp} {key : Outpoint}
      (hops : ops = earlier ++ op :: later) (hkey : op.created? = some key) :
      key ∉ createdBy earlier := by
    intro hmem
    rw [hops, createdBy, List.filterMap_append, List.filterMap_cons_some hkey,
      List.nodup_append] at hnodup
    exact hnodup.2.2 key hmem key (List.mem_cons_self ..) rfl
  constructor
  · intro hfresh earlier op later key hops hkey hpresent
    obtain ⟨mid, hmid⟩ : ∃ mid, applyOps H network blockHash height earlier tables = (mid, true) := by
      rw [hops] at h
      exact applyOps_prefix h
    have hnone := hfresh earlier op later key mid hops hkey hmid
    rw [get?_applyOps hmid (hgone hops hkey)] at hnone
    exact hnone.resolve_left hpresent
  · intro hspent earlier op later key mid hops hkey hmid
    rw [get?_applyOps hmid (hgone hops hkey)]
    by_cases hpresent : tables.utxo.get? key = none
    · exact .inl hpresent
    · exact .inr (hspent earlier op later key hops hkey hpresent)

lemma utxoCount_spend {tables : Tables} {undoKey : UndoKey} {prev : Outpoint} {row : UtxoRow}
    (h : tables.utxo.get? prev = some row) :
    (tables.spend undoKey prev row).utxoCount + 1 = tables.utxoCount :=
  KeyedRows.length_delete h

lemma utxoCount_add {tables : Tables} {key : Outpoint} {row : UtxoRow}
    (h : tables.utxo.get? key = none) :
    (tables.add key row).utxoCount = tables.utxoCount + 1 := by
  have hdelete : tables.utxo.delete key = tables.utxo := by
    refine KeyedRows.deleteWhere_eq_self ?_
    intro k hk
    have hkey : k = key := by simpa using hk
    rwa [hkey]
  have hinsert (row : UtxoRow) :
      (tables.utxo.insertOrReplace key row).rows.length = tables.utxo.rows.length + 1 := by
    simp [KeyedRows.insertOrReplace, hdelete]
  unfold Tables.utxoCount Tables.add
  cases row.address with
  | none => exact hinsert row
  | some address => simp [KeyedRows.update, KeyedRows.updateWhere, hinsert]

/-- One operation that overwrites nothing moves the number of rows by one. -/
lemma UtxoOp.utxoCount_apply {op : UtxoOp} {tables tables' : Tables}
    (h : op.apply H network blockHash height tables = some tables')
    (hret : ∀ txid isCoinbase i txout, op = .add txid isCoinbase i txout → txout.isOpReturn = false)
    (hfresh : ∀ key, op.created? = some key → tables.utxo.get? key = none) :
    tables'.utxoCount + (spentBy [op]).length = tables.utxoCount + (createdBy [op]).length := by
  cases op with
  | spend txid inIdx txin =>
    obtain ⟨row, hrow, rfl⟩ := Option.map_eq_some_iff.1 h
    exact utxoCount_spend hrow
  | add txid isCoinbase i txout =>
    have hnone := hfresh (txid, i) rfl
    simp only [UtxoOp.apply, hret txid isCoinbase i txout rfl, Bool.false_eq_true, if_false] at h
    cases hrow : outputRow H network height isCoinbase txout with
    | error e => simp [hrow] at h
    | ok row =>
      simp only [hrow, Option.some.injEq] at h
      subst h
      exact utxoCount_add hnone

lemma utxoCount_applyOps {ops : List UtxoOp} {tables tables' : Tables}
    (h : applyOps H network blockHash height ops tables = (tables', true))
    (hret : ∀ txid isCoinbase i txout, .add txid isCoinbase i txout ∈ ops → txout.isOpReturn = false)
    (hfresh : WritesFresh H network blockHash height tables ops) :
    tables'.utxoCount + (spentBy ops).length = tables.utxoCount + (createdBy ops).length := by
  induction ops generalizing tables with
  | nil =>
    cases h
    rfl
  | cons op ops ih =>
    rw [applyOps] at h
    cases happ : op.apply H network blockHash height tables with
    | none => simp [happ] at h
    | some mid =>
      simp only [happ] at h
      have hstep := op.utxoCount_apply happ
        (fun txid isCoinbase i txout hop => hret txid isCoinbase i txout (by simp [hop]))
        (fun key hkey => hfresh [] op ops key tables rfl hkey rfl)
      have hrest : WritesFresh H network blockHash height mid ops := by
        intro earlier op' later key mid' hops hkey hmid
        refine hfresh (op :: earlier) op' later key mid' (by rw [hops]; rfl) hkey ?_
        rw [applyOps, happ]
        exact hmid
      have hrun := ih h (fun txid isCoinbase i txout hop =>
        hret txid isCoinbase i txout (List.mem_cons_of_mem _ hop)) hrest
      have hspent : spentBy (op :: ops) = spentBy [op] ++ spentBy ops := spentBy_append [op] ops
      have hcreated : createdBy (op :: ops) = createdBy [op] ++ createdBy ops :=
        List.filterMap_append (l := [op])
      rw [hspent, hcreated, List.length_append, List.length_append]
      omega

end operations

section block
variable (H : Hashlib)

/-- The inputs that a block spends: those of all transactions but the coinbase. -/
def inputsSpent (txs : List Transaction) : ℕ := (txs.tail.map fun tx => tx.vin.length).sum

/-- The outputs that a block creates: those that are no `OP_RETURN`. -/
def outputsCreated (txs : List Transaction) : ℕ :=
  (txs.map fun tx => tx.vout.countP fun txout => !txout.isOpReturn).sum

lemma createdBy_spendOps (txid : Bytes) (inIdx : ℕ) (vin : List TxIn) :
    createdBy (spendOps txid inIdx vin) = [] := by
  induction vin generalizing inIdx with
  | nil => rfl
  | cons txin vin ih => exact ih (inIdx + 1)

lemma createdBy_addOps (txid : Bytes) (isCoinbase : Bool) (i : ℕ) (vout : List TxOut) :
    (∀ key ∈ createdBy (addOps txid isCoinbase i vout), key.1 = txid ∧ i ≤ key.2) ∧
      (createdBy (addOps txid isCoinbase i vout)).Nodup ∧
      (createdBy (addOps txid isCoinbase i vout)).length =
        vout.countP fun txout => !txout.isOpReturn := by
  induction vout generalizing i with
  | nil => simp [addOps, createdBy]
  | cons txout vout ih =>
    obtain ⟨hkeys, hnodup, hlength⟩ := ih (i + 1)
    by_cases hret : txout.isOpReturn = true
    · simp only [addOps, hret, if_true]
      refine ⟨?_, hnodup, by simpa [List.countP_cons, hret] using hlength⟩
      intro key hkey
      obtain ⟨hid, hle⟩ := hkeys key hkey
      exact ⟨hid, by omega⟩
    · have hops : createdBy (addOps txid isCoinbase i (txout :: vout)) =
          (txid, i) :: createdBy (addOps txid isCoinbase (i + 1) vout) := by
        simp only [addOps, hret]
        rfl
      rw [hops]
      refine ⟨?_, ?_, ?_⟩
      · intro key hkey
        rcases List.mem_cons.1 hkey with rfl | hkey
        · exact ⟨rfl, Nat.le_refl i⟩
        · obtain ⟨hid, hle⟩ := hkeys key hkey
          exact ⟨hid, by omega⟩
      · refine List.nodup_cons.2 ⟨?_, hnodup⟩
        intro hmem
        have := (hkeys _ hmem).2
        simp only at this
        omega
      · simp [hret, hlength]

lemma createdBy_txOps (tx : Transaction) :
    createdBy (txOps H tx) = createdBy (addOps (tx.txid H) tx.isCoinbase 0 tx.vout) := by
  rw [txOps, createdBy, List.filterMap_append]
  split_ifs
  · rfl
  · have hspend := createdBy_spendOps (tx.txid H) 0 tx.vin
    rw [createdBy] at hspend
    rw [hspend]
    rfl

lemma createdBy_blockOps_length (txs : List Transaction) :
    (createdBy (blockOps H txs)).length = outputsCreated txs := by
  induction txs with
  | nil => rfl
  | cons tx txs ih =>
    have htx := (createdBy_addOps (tx.txid H) tx.isCoinbase 0 tx.vout).2.2
    have happ : createdBy (blockOps H (tx :: txs)) =
        createdBy (txOps H tx) ++ createdBy (blockOps H txs) := by
      rw [blockOps, List.flatMap_cons, createdBy, List.filterMap_append]
      rfl
    rw [happ, List.length_append, createdBy_txOps, htx, ih]
    rfl

/-- Distinct ids make distinct outpoints. -/
lemma createdBy_blockOps_nodup {txs : List Transaction} (h : (txs.map (·.txid H)).Nodup) :
    (createdBy (blockOps H txs)).Nodup := by
  have hall : createdBy (blockOps H txs) = txs.flatMap fun tx => createdBy (txOps H tx) := by
    rw [createdBy, blockOps, List.filterMap_flatMap]
    rfl
  rw [hall, List.nodup_flatMap]
  refine ⟨?_, ?_⟩
  · intro tx _
    rw [createdBy_txOps]
    exact (createdBy_addOps ..).2.1
  · refine (List.pairwise_map.1 h).imp ?_
    intro tx tx' hne key hkey hkey'
    simp only [createdBy_txOps] at hkey hkey'
    have htx := ((createdBy_addOps ..).1 key hkey).1
    have htx' := ((createdBy_addOps ..).1 key hkey').1
    exact hne (htx.symm.trans htx')

lemma spentBy_blockOps_length {coinbase : Transaction} {rest : List Transaction}
    (hcb : coinbase.isCoinbase = true) (hrest : ∀ tx ∈ rest, tx.isCoinbase = false) :
    (spentBy (blockOps H (coinbase :: rest))).length = inputsSpent (coinbase :: rest) := by
  rw [blockOps, List.flatMap_cons, spentBy_append, spentBy_txOps, if_pos hcb]
  have hothers := spentBy_blockOps H hrest
  rw [blockOps] at hothers
  rw [hothers, inputsSpent, inputsOf, List.nil_append, List.length_flatMap]
  simp

end block

section accepted
variable {C : Crypto} {params : ConsensusParams} {getUtxo : Outpoint → Option UtxoRow} {height : ℕ}

/-- What the rules on transactions say about the operations of a block. -/
lemma validateTransactions_ops {block : Block}
    (h : validateTransactions C params getUtxo block height = true) :
    (createdBy (blockOps C.toHashlib block.transactions)).Nodup ∧
      (spentBy (blockOps C.toHashlib block.transactions)).length = inputsSpent block.transactions := by
  cases htxs : block.transactions with
  | nil => simp [validateTransactions, htxs] at h
  | cons coinbase rest =>
    simp only [validateTransactions, htxs, Bool.and_eq_true, decide_eq_true_eq] at h
    obtain ⟨⟨⟨-, hcoinbase⟩, hrest⟩, hids⟩ := h
    refine ⟨createdBy_blockOps_nodup C.toHashlib hids, ?_⟩
    exact spentBy_blockOps_length C.toHashlib (validateTransaction_isCoinbase hcoinbase)
      (validateRest_true hrest).1

end accepted

/-- An accepted block that is connected overwrites no row, and changes the number of rows by
its outputs and inputs, exactly when it spends before it writes each of its outpoints that the
table already holds. -/
theorem connect_overwrites_nothing_iff (C : Crypto) (params : ConsensusParams) (network : Network)
    (now height : ℕ) (block : Block) (s s' : Session Tables BlockIndex)
    (hvalid : validateBlock C params s.conn.current.utxo.get? s.memory now block height = .ok true)
    (hconn : connect C.toHashlib network block s = .ok true s') :
    ((∀ height', s.memory.getHeight (block.header.hashHex C.toHashlib) = some height' →
        WritesFresh C.toHashlib network (block.header.hashHex C.toHashlib) height'
          (withoutUndo (block.header.hashHex C.toHashlib) s.conn.current)
          (blockOps C.toHashlib block.transactions)) ∧
      s'.conn.current.utxoCount + inputsSpent block.transactions =
        s.conn.current.utxoCount + outputsCreated block.transactions) ↔
    SpentFirst s.conn.current.utxo (blockOps C.toHashlib block.transactions) := by
  obtain ⟨hnodup, hspent⟩ := validateTransactions_ops (validateBlock_true hvalid).1
  obtain ⟨height', tables', hheight, happ, hutxo⟩ := connect_applyOps hconn
  have hiff := writesFresh_iff happ hnodup
  constructor
  · rintro ⟨hfresh, -⟩
    exact hiff.1 (hfresh height' hheight)
  · intro hfirst
    have hfresh := hiff.2 hfirst
    refine ⟨?_, ?_⟩
    · intro height'' hheight''
      rw [hheight, Option.some.injEq] at hheight''
      rwa [← hheight'']
    · have hcount := utxoCount_applyOps happ (fun txid isCoinbase i txout hop => by
        obtain ⟨tx, -, hof⟩ := mem_blockOps hop
        exact hof.2.2) hfresh
      rw [hspent, createdBy_blockOps_length] at hcount
      rw [Tables.utxoCount, hutxo]
      exact hcount

/-! Three mined blocks below the height of the coinbase rule; the coinbases of the last two are
the same transaction. -/
namespace OverwriteExample
open BlockExample

/-- The coinbase of `blockA` once more. -/
def block2 : Block := blockOn blockAHash coinbase1Id 1002 1 [coinbase 1]

def crypto : Crypto := .ofHashlib <| hashlib.withDigests [
  (block2.header.serialize,
    0xfa5e024a45c4adbf066c6684f3d5fb8789516524fa94c0c0724cac51582329f6,
    0x7384c42e318d0e862ce08477987fc94c13c79cd246c769ab0bdb1fd92b587732)]

def entryOf (block : Block) (height : ℕ) : BlockIndexEntry :=
  ⟨height, block.header.hashHex crypto.toHashlib, block.header, height + 1,
    {.HEADER, .BLOCK, .VALID, .MAIN_CHAIN}⟩

def session : Session Tables BlockIndex where
  conn := ⟨Tables.empty, none⟩
  memory :=
    { index := ((KeyedRows.empty.put (entryOf genesis 0).blockHash (entryOf genesis 0)).put
        (entryOf blockA 1).blockHash (entryOf blockA 1)).put
        (entryOf block2 2).blockHash (entryOf block2 2)
      heightIndex := BlockIndex.chainMap [entryOf genesis 0]
      bestHeight := 0
      bestHash := some (entryOf genesis 0).blockHash }

def after1 : Session Tables BlockIndex :=
  (connect crypto.toHashlib .mainnet blockA).final session

def after2 : Session Tables BlockIndex :=
  (connect crypto.toHashlib .mainnet block2).final after1

def block2Hash : Bytes := block2.header.hashHex crypto.toHashlib

end OverwriteExample

open OverwriteExample BlockExample in
theorem connect_overwrites_nothing_iff_example :
    session.conn.current.utxoCount = 0 ∧ after1.conn.current.utxoCount = 1 ∧
      SpentFirst session.conn.current.utxo (blockOps crypto.toHashlib blockA.transactions) := by
  refine ⟨by decide +kernel, by decide +kernel, ?_⟩
  have hiff := connect_overwrites_nothing_iff crypto .mainnet .mainnet 2000 1 blockA session after1
    (by decide +kernel) (Db.eq_ok_of_returns (by decide +kernel))
  refine hiff.1 ⟨?_, by decide +kernel⟩
  intro height' _ earlier op later key mid hops hkey hmid
  have hone : blockOps crypto.toHashlib blockA.transactions =
      [.add ((coinbase 1).txid crypto.toHashlib) true 0 ⟨50, [0x51]⟩] := by decide +kernel
  rw [hone] at hops
  cases earlier with
  | nil =>
    cases hmid
    rfl
  | cons op' earlier =>
    have hlength := congrArg List.length hops
    simp only [List.length_cons, List.length_nil, List.cons_append, List.length_append] at hlength
    omega

open OverwriteExample BlockExample in
theorem connect_overwrites_live_coin :
    validateBlock crypto .mainnet after1.conn.current.utxo.get? after1.memory 2000 block2 2 = .ok true ∧
      connect crypto.toHashlib .mainnet block2 after1 = .ok true after2 ∧
      ¬ WritesFresh crypto.toHashlib .mainnet block2Hash 2 (withoutUndo block2Hash after1.conn.current)
        (blockOps crypto.toHashlib block2.transactions) ∧
      after2.conn.current.utxoCount + inputsSpent block2.transactions ≠
        after1.conn.current.utxoCount + outputsCreated block2.transactions := by
  refine ⟨by decide +kernel, Db.eq_ok_of_returns (by decide +kernel), ?_, by decide +kernel⟩
  intro hfresh
  have hone : blockOps crypto.toHashlib block2.transactions =
      [.add ((coinbase 1).txid crypto.toHashlib) true 0 ⟨50, [0x51]⟩] := by decide +kernel
  have hnone := hfresh [] _ [] _ _ hone rfl rfl
  exact absurd hnone (by decide +kernel)

end BerzCoin
