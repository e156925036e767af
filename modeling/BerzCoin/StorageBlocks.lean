import BerzCoin.ChainBlockIndex

/-! The rows that `BlocksStore.write_block` and `HeaderChain.add_header` write. -/
namespace BerzCoin
open Database

/-- `INSERT` into a table, which refuses a key that is taken. -/
def uniqueInsert {K V : Type} [DecidableEq K] (column : String) (rows : KeyedRows K V) (key : K)
    (row : V) : Except PyError (KeyedRows K V) :=
  match rows.insert? key row with
  | some rows' => .ok rows'
  | none => .error (.storageError ("Query failed: UNIQUE constraint failed: " ++ column))

namespace BlocksStore
variable {ι : Type} (H : Hashlib)

def insertBlock (block : Block) (height processedAt : ℕ) : Statement Tables Unit :=
  .change fun tables => { tables with
    blocks := tables.blocks.insertOrReplace (block.header.hashHex H)
      { height, header := block.header, txCount := block.transactions.length
        size := (block.serialize true).length, weight := block.weight, isValid := true
        processedAt } }

def insertHeader (header : BlockHeader) (height chainwork : ℕ) (statusFlags : Finset BlockStatus) :
    Statement Tables Unit :=
  .change fun tables => { tables with
    blockHeaders := tables.blockHeaders.insertOrReplace (header.hashHex H)
      { height, header, chainwork := some chainwork, isValid := true, statusFlags } }

def insertTransaction (blockHash : Bytes) (height index : ℕ) (tx : Transaction) :
    Statement Tables Unit where
  isDml := true
  run tables := do
    let rows ← uniqueInsert "transactions.txid" tables.transactions (tx.txid H)
      { blockHash, height, index, version := tx.version, locktime := tx.locktime, size := tx.size
        weight := tx.weight, isCoinbase := tx.isCoinbase }
    return ({ tables with transactions := rows }, ())

def insertInput (txid : Bytes) (j : ℕ) (txin : TxIn) : Statement Tables Unit where
  isDml := true
  run tables := do
    let rows ← uniqueInsert "inputs.txid, inputs.index" tables.inputs (txid, j)
      { prevTxid := txin.prevTxHash, prevIndex := txin.prevTxIndex.toNat
        scriptSig := txin.scriptSig, sequence := txin.sequence
        witness := Witness.serialize txin.witness }
    return ({ tables with inputs := rows }, ())

def insertOutput (txid : Bytes) (j : ℕ) (txout : TxOut) : Statement Tables Unit where
  isDml := true
  run tables := do
    let value ← bindInt txout.value.toNat
    let rows ← uniqueInsert "outputs.txid, outputs.index" tables.outputs (txid, j)
      { value, scriptPubkey := txout.scriptPubkey, spent := false, spentByTxid := none
        spentByIndex := none }
    return ({ tables with outputs := rows }, ())

def writeInputs (txid : Bytes) : ℕ → List TxIn → Db Tables ι Unit
  | _, [] => return ()
  | j, txin :: vin => do
      execute (insertInput txid j txin)
      writeInputs txid (j + 1) vin

def writeOutputs (txid : Bytes) : ℕ → List TxOut → Db Tables ι Unit
  | _, [] => return ()
  | j, txout :: vout => do
      execute (insertOutput txid j txout)
      writeOutputs txid (j + 1) vout

def writeTransactions (blockHash : Bytes) (height : ℕ) : ℕ → List Transaction → Db Tables ι Unit
  | _, [] => return ()
  | i, tx :: txs => do
      execute (insertTransaction H blockHash height i tx)
      writeInputs (tx.txid H) 0 tx.vin
      writeOutputs (tx.txid H) 0 tx.vout
      writeTransactions blockHash height (i + 1) txs

/-- The block of `with db.transaction()` in `write_block`. -/
def writeBody (block : Block) (height processedAt : ℕ) : Db Tables ι Unit := do
  execute (insertBlock H block height processedAt)
  execute (insertHeader H block.header height 0 {.HEADER, .BLOCK, .VALID})
  writeTransactions H (block.header.hashHex H) height 0 block.transactions

def writeBlock (block : Block) (height processedAt : ℕ) : Db Tables ι Unit :=
  transaction (writeBody H block height processedAt)

end BlocksStore

/-- `HeaderChain.add_header`, a statement outside of any block. -/
def HeaderChain.addHeader {ι : Type} (H : Hashlib) (header : BlockHeader) (height chainwork : ℕ) :
    Db Tables ι Unit :=
  execute (BlocksStore.insertHeader H header height chainwork {.HEADER, .VALID})

/-- What `on_block` does with a block before it connects it. -/
def storeBlock (H : Hashlib) (block : Block) (height chainwork processedAt : ℕ) : ChainDb Unit := do
  BlocksStore.writeBlock H block height processedAt
  BlockIndex.addBlock H block height chainwork false
  HeaderChain.addHeader H block.header height chainwork

section written
variable {ι : Type} (H : Hashlib)

/-- What writing the rows of a block cannot touch. -/
structure OnlyInserts (d d' : Tables × ι) : Prop where
  utxo : d'.1.utxo = d.1.utxo
  blockUndo : d'.1.blockUndo = d.1.blockUndo
  transactions : ∀ txid, d'.1.transactions.get? txid = none → d.1.transactions.get? txid = none
  memory : d'.2 = d.2

lemma OnlyInserts.refl (d : Tables × ι) : OnlyInserts d d := ⟨rfl, rfl, fun _ h => h, rfl⟩

lemma OnlyInserts.trans {d d' d'' : Tables × ι} (h : OnlyInserts d d') (h' : OnlyInserts d' d'') :
    OnlyInserts d d'' :=
  ⟨h'.utxo.trans h.utxo, h'.blockUndo.trans h.blockUndo,
    fun txid ht => h.transactions txid (h'.transactions txid ht), h'.memory.trans h.memory⟩

lemma uniqueInsert_ok {K V : Type} [DecidableEq K] {column : String} {rows rows' : KeyedRows K V}
    {key : K} {row : V} (h : uniqueInsert column rows key row = .ok rows') :
    rows.get? key = none ∧ ∀ k, rows'.get? k = if k = key then some row else rows.get? k := by
  unfold uniqueInsert KeyedRows.insert? at h
  split_ifs at h with hkey
  cases h
  exact ⟨hkey, fun k => KeyedRows.get?_insertNew ..⟩

namespace BlocksStore

lemma writeInputs_client (txid : Bytes) (j : ℕ) (vin : List TxIn) :
    Client (writeInputs txid j vin : Db Tables ι Unit) := by
  induction vin generalizing j with
  | nil => exact .ret _
  | cons txin vin ih => exact .bind (.execute _) fun _ => ih _

lemma writeOutputs_client (txid : Bytes) (j : ℕ) (vout : List TxOut) :
    Client (writeOutputs txid j vout : Db Tables ι Unit) := by
  induction vout generalizing j with
  | nil => exact .ret _
  | cons txout vout ih => exact .bind (.execute _) fun _ => ih _

lemma writeTransactions_client (blockHash : Bytes) (height i : ℕ) (txs : List Transaction) :
    Client (writeTransactions H blockHash height i txs : Db Tables ι Unit) := by
  induction txs generalizing i with
  | nil => exact .ret _
  | cons tx txs ih =>
    exact .bind (.execute _) fun _ => .bind (writeInputs_client ..) fun _ =>
      .bind (writeOutputs_client ..) fun _ => ih _

lemma writeBody_client (block : Block) (height processedAt : ℕ) :
    Client (writeBody H block height processedAt : Db Tables ι Unit) :=
  .bind (.execute _) fun _ => .bind (.execute _) fun _ => writeTransactions_client ..

lemma writeInputs_preserves {P : ι → Prop} (txid : Bytes) (j : ℕ) (vin : List TxIn) :
    Preserves P (writeInputs txid j vin : Db Tables ι Unit) := by
  induction vin generalizing j with
  | nil => exact .ret _
  | cons txin vin ih => exact .bind (.execute _) fun _ => ih _

lemma writeOutputs_preserves {P : ι → Prop} (txid : Bytes) (j : ℕ) (vout : List TxOut) :
    Preserves P (writeOutputs txid j vout : Db Tables ι Unit) := by
  induction vout generalizing j with
  | nil => exact .ret _
  | cons txout vout ih => exact .bind (.execute _) fun _ => ih _

lemma writeTransactions_preserves {P : ι → Prop} (blockHash : Bytes) (height i : ℕ)
    (txs : List Transaction) :
    Preserves P (writeTransactions H blockHash height i txs : Db Tables ι Unit) := by
  induction txs generalizing i with
  | nil => exact .ret _
  | cons tx txs ih =>
    exact .bind (.execute _) fun _ => .bind (writeInputs_preserves _ _ _) fun _ =>
      .bind (writeOutputs_preserves _ _ _) fun _ => ih _

/-- Writing rows does not reach the memory of the process. -/
lemma writeBody_preserves {P : ι → Prop} (block : Block) (height processedAt : ℕ) :
    Preserves P (writeBody H block height processedAt : Db Tables ι Unit) :=
  .bind (.execute _) fun _ => .bind (.execute _) fun _ =>
    writeTransactions_preserves H _ _ _ _

variable {H} {d d' : Tables × ι}

lemma writeInputs_ok {txid : Bytes} {j : ℕ} {vin : List TxIn}
    (h : inside (writeInputs txid j vin) d = .ok () d') : OnlyInserts d d' := by
  induction vin generalizing j d with
  | nil =>
    cases h
    exact .refl _
  | cons txin vin ih =>
    obtain ⟨_, d1, hfirst, hrest⟩ :=
      (inside_bind_ok (.execute _) fun _ => writeInputs_client ..).1 h
    obtain ⟨hrun, hmem⟩ := inside_execute_ok.1 hfirst
    obtain ⟨rows, -, hrun⟩ := except_bind_eq_ok hrun
    obtain ⟨tables1, m1⟩ := d1
    cases hrun
    have hinsert : OnlyInserts d ({ d.1 with inputs := rows }, m1) :=
      ⟨rfl, rfl, fun _ ht => ht, hmem⟩
    exact hinsert.trans (ih hrest)

lemma writeOutputs_ok {txid : Bytes} {j : ℕ} {vout : List TxOut}
    (h : inside (writeOutputs txid j vout) d = .ok () d') :
    OnlyInserts d d' ∧ ∀ txout ∈ vout, txout.value.toNat < 2 ^ 63 := by
  induction vout generalizing j d with
  | nil =>
    cases h
    exact ⟨.refl _, fun _ hmem => (List.not_mem_nil hmem).elim⟩
  | cons txout vout ih =>
    obtain ⟨_, d1, hfirst, hrest⟩ :=
      (inside_bind_ok (.execute _) fun _ => writeOutputs_client ..).1 h
    obtain ⟨hrun, hmem⟩ := inside_execute_ok.1 hfirst
    obtain ⟨value, hvalue, hrun⟩ := except_bind_eq_ok hrun
    obtain ⟨rows, -, hrun⟩ := except_bind_eq_ok hrun
    obtain ⟨tables1, m1⟩ := d1
    cases hrun
    obtain ⟨hinserts, hvalues⟩ := ih hrest
    have hinsert : OnlyInserts d ({ d.1 with outputs := rows }, m1) :=
      ⟨rfl, rfl, fun _ ht => ht, hmem⟩
    refine ⟨hinsert.trans hinserts, ?_⟩
    intro txout' hmem'
    rcases List.mem_cons.1 hmem' with rfl | hmem'
    · by_contra hbig
      rw [bindInt, dif_neg hbig] at hvalue
      cases hvalue
    · exact hvalues txout' hmem'

/-- The first transaction gets a row that was not there, and only rows are added until the others
are written. -/
lemma writeTransactions_cons_ok {blockHash : Bytes} {height i : ℕ} {tx : Transaction}
    {txs : List Transaction}
    (h : inside (writeTransactions H blockHash height i (tx :: txs)) d = .ok () d') :
    d.1.transactions.get? (tx.txid H) = none ∧ (∀ txout ∈ tx.vout, txout.value.toNat < 2 ^ 63) ∧
      ∃ d₁, OnlyInserts d d₁ ∧ d₁.1.transactions.get? (tx.txid H) ≠ none ∧
        inside (writeTransactions H blockHash height (i + 1) txs) d₁ = .ok () d' := by
  obtain ⟨_, d1, hfirst, h⟩ := (inside_bind_ok (.execute _) fun _ =>
    .bind (writeInputs_client ..) fun _ => .bind (writeOutputs_client ..) fun _ =>
      writeTransactions_client ..).1 h
  obtain ⟨_, d2, hin, h⟩ := (inside_bind_ok (writeInputs_client ..) fun _ =>
    .bind (writeOutputs_client ..) fun _ => writeTransactions_client ..).1 h
  obtain ⟨_, d3, hout, hrest⟩ := (inside_bind_ok (writeOutputs_client ..) fun _ =>
    writeTransactions_client ..).1 h
  obtain ⟨hrun, hmem⟩ := inside_execute_ok.1 hfirst
  obtain ⟨rows, hrows, hrun⟩ := except_bind_eq_ok hrun
  obtain ⟨hfresh, hget⟩ := uniqueInsert_ok hrows
  obtain ⟨tables1, m1⟩ := d1
  cases hrun
  have hinsert : OnlyInserts d ({ d.1 with transactions := rows }, m1) := by
    refine ⟨rfl, rfl, ?_, hmem⟩
    intro txid hnone
    simp only [hget] at hnone
    split_ifs at hnone
    exact hnone
  obtain ⟨houtputs, hvalues⟩ := writeOutputs_ok hout
  have hafter := (writeInputs_ok hin).trans houtputs
  refine ⟨hfresh, hvalues, d3, hinsert.trans hafter, ?_, hrest⟩
  intro hnone
  have hgone := hafter.transactions _ hnone
  simp [hget] at hgone

/-- A block that was written has new transactions, and values that fit their column. -/
lemma writeTransactions_ok {blockHash : Bytes} {height i : ℕ} {txs : List Transaction}
    (h : inside (writeTransactions H blockHash height i txs) d = .ok () d') :
    OnlyInserts d d' ∧ ∀ tx ∈ txs, d.1.transactions.get? (tx.txid H) = none ∧
      ∀ txout ∈ tx.vout, txout.value.toNat < 2 ^ 63 := by
  induction txs generalizing i d with
  | nil =>
    cases h
    exact ⟨.refl _, fun _ hmem => (List.not_mem_nil hmem).elim⟩
  | cons tx txs ih =>
    obtain ⟨hfresh, hvalues, d₁, hbefore, -, hrest⟩ := writeTransactions_cons_ok h
    obtain ⟨hafter, hothers⟩ := ih hrest
    refine ⟨hbefore.trans hafter, ?_⟩
    intro tx' hmem'
    rcases List.mem_cons.1 hmem' with rfl | hmem'
    · exact ⟨hfresh, hvalues⟩
    · obtain ⟨hnone, hvalues'⟩ := hothers tx' hmem'
      exact ⟨hbefore.transactions _ hnone, hvalues'⟩

lemma writeBody_ok {block : Block} {height processedAt : ℕ}
    (h : inside (writeBody H block height processedAt) d = .ok () d') :
    OnlyInserts d d' ∧ ∀ tx ∈ block.transactions, d.1.transactions.get? (tx.txid H) = none ∧
      ∀ txout ∈ tx.vout, txout.value.toNat < 2 ^ 63 := by
  obtain ⟨_, d1, hblock, h⟩ := (inside_bind_ok (.execute _) fun _ => .bind (.execute _) fun _ =>
    writeTransactions_client ..).1 h
  obtain ⟨_, d2, hheader, h⟩ := (inside_bind_ok (.execute _) fun _ =>
    writeTransactions_client ..).1 h
  obtain ⟨hrun1, hmem1⟩ := inside_execute_ok.1 hblock
  obtain ⟨hrun2, hmem2⟩ := inside_execute_ok.1 hheader
  obtain ⟨tables2, m2⟩ := d2
  obtain ⟨tables1, m1⟩ := d1
  cases hrun1
  cases hrun2
  cases hmem1
  cases hmem2
  obtain ⟨hinserts, hfresh⟩ := writeTransactions_ok h
  exact ⟨⟨hinserts.utxo, hinserts.blockUndo, hinserts.transactions, hinserts.memory⟩, hfresh⟩

end BlocksStore
end written

/-- Inputs and outputs belong to transactions that have a row. -/
def Tables.Owned (tables : Tables) : Prop :=
  ∀ txid, tables.transactions.get? txid = none → ∀ j,
    tables.inputs.get? (txid, j) = none ∧ tables.outputs.get? (txid, j) = none

section complete
variable {ι : Type} {H : Hashlib} {d : Tables × ι}

lemma uniqueInsert_of_fresh {K V : Type} [DecidableEq K] (column : String) {rows : KeyedRows K V}
    {key : K} (row : V) (h : rows.get? key = none) :
    ∃ rows', uniqueInsert column rows key row = .ok rows' ∧
      ∀ k, rows'.get? k = if k = key then some row else rows.get? k := by
  refine ⟨rows.insertNew key row h, ?_, fun k => KeyedRows.get?_insertNew ..⟩
  simp [uniqueInsert, KeyedRows.insert?, h]

namespace BlocksStore

lemma writeInputs_run {txid : Bytes} {j : ℕ} {vin : List TxIn}
    (hfresh : ∀ k, j ≤ k → d.1.inputs.get? (txid, k) = none) :
    ∃ rows, inside (writeInputs txid j vin) d = .ok () ({ d.1 with inputs := rows }, d.2) ∧
      ∀ key, key.1 ≠ txid → rows.get? key = d.1.inputs.get? key := by
  induction vin generalizing j d with
  | nil => exact ⟨d.1.inputs, rfl, fun key _ => rfl⟩
  | cons txin vin ih =>
    obtain ⟨rows, hrows, hget⟩ := uniqueInsert_of_fresh "inputs.txid, inputs.index"
      (⟨txin.prevTxHash, txin.prevTxIndex.toNat, txin.scriptSig, txin.sequence,
        Witness.serialize txin.witness⟩ : InputRow) (hfresh j (Nat.le_refl j))
    obtain ⟨rows', hrest, hother⟩ := ih (d := ({ d.1 with inputs := rows }, d.2)) (j := j + 1) (by
      intro k hk
      have hne : k ≠ j := by omega
      simp only [hget, Prod.mk.injEq, hne, and_false, if_false]
      exact hfresh k (by omega))
    refine ⟨rows', ?_, ?_⟩
    · refine (inside_bind_ok (.execute _) fun _ => writeInputs_client ..).2 ⟨(), _, ?_, hrest⟩
      refine inside_execute_ok.2 ⟨?_, rfl⟩
      simp only [insertInput, hrows]
      rfl
    · intro key hkey
      rw [hother key hkey, hget, if_neg]
      rintro rfl
      exact hkey rfl

lemma writeOutputs_run {txid : Bytes} {j : ℕ} {vout : List TxOut}
    (hfresh : ∀ k, j ≤ k → d.1.outputs.get? (txid, k) = none)
    (hvalues : ∀ txout ∈ vout, txout.value.toNat < 2 ^ 63) :
    ∃ rows, inside (writeOutputs txid j vout) d = .ok () ({ d.1 with outputs := rows }, d.2) ∧
      ∀ key, key.1 ≠ txid → rows.get? key = d.1.outputs.get? key := by
  induction vout generalizing j d with
  | nil => exact ⟨d.1.outputs, rfl, fun key _ => rfl⟩
  | cons txout vout ih =>
    have hvalue := hvalues txout (List.mem_cons_self ..)
    obtain ⟨rows, hrows, hget⟩ := uniqueInsert_of_fresh "outputs.txid, outputs.index"
      (⟨⟨txout.value.toNat, hvalue⟩, txout.scriptPubkey, false, none, none⟩ : OutputRow)
      (hfresh j (Nat.le_refl j))
    obtain ⟨rows', hrest, hother⟩ := ih (d := ({ d.1 with outputs := rows }, d.2)) (j := j + 1)
      (by
        intro k hk
        have hne : k ≠ j := by omega
        simp only [hget, Prod.mk.injEq, hne, and_false, if_false]
        exact hfresh k (by omega))
      (fun txout' hmem => hvalues txout' (List.mem_cons_of_mem _ hmem))
    refine ⟨rows', ?_, ?_⟩
    · refine (inside_bind_ok (.execute _) fun _ => writeOutputs_client ..).2 ⟨(), _, ?_, hrest⟩
      refine inside_execute_ok.2 ⟨?_, rfl⟩
      simp only [insertOutput, bindInt, dif_pos hvalue]
      change ((uniqueInsert _ _ _ _).bind _) = _
      rw [hrows]
      rfl
    · intro key hkey
      rw [hother key hkey, hget, if_neg]
      rintro rfl
      exact hkey rfl

/-- Rows of new and distinct transactions are all written. -/
lemma writeTransactions_run {blockHash : Bytes} {height i : ℕ} {txs : List Transaction}
    (hids : (txs.map (·.txid H)).Nodup)
    (hfresh : ∀ tx ∈ txs, d.1.transactions.get? (tx.txid H) = none) (howned : d.1.Owned)
    (hvalues : ∀ tx ∈ txs, ∀ txout ∈ tx.vout, txout.value.toNat < 2 ^ 63) :
    ∃ d', inside (writeTransactions H blockHash height i txs) d = .ok () d' ∧ d'.2 = d.2 ∧
      d'.1.blocks = d.1.blocks ∧ d'.1.Owned ∧
      ∀ txid, d'.1.transactions.get? txid = none ↔
        d.1.transactions.get? txid = none ∧ txid ∉ txs.map (·.txid H) := by
  induction txs generalizing i d with
  | nil => exact ⟨d, rfl, rfl, rfl, howned, by simp⟩
  | cons tx txs ih =>
    obtain ⟨htx, hids⟩ := List.nodup_cons.1 hids
    have hnone := hfresh tx (List.mem_cons_self ..)
    obtain ⟨rows, hrows, hget⟩ := uniqueInsert_of_fresh "transactions.txid"
      (⟨blockHash, height, i, tx.version, tx.locktime, tx.size, tx.weight, tx.isCoinbase⟩ :
        TransactionRow) hnone
    obtain ⟨inputs, hin, hinOther⟩ := @writeInputs_run _ ({ d.1 with transactions := rows }, d.2)
        (tx.txid H) 0 tx.vin fun k _ => (howned _ hnone k).1
    obtain ⟨outputs, hout, houtOther⟩ := @writeOutputs_run _
        ({ d.1 with transactions := rows, inputs := inputs }, d.2) (tx.txid H) 0 tx.vout
        (fun k _ => (howned _ hnone k).2) (hvalues tx (List.mem_cons_self ..))
    have hrest := ih (i := i + 1)
      (d := ({ d.1 with transactions := rows, inputs := inputs, outputs := outputs }, d.2)) hids
      (by
        intro tx' hmem
        have hne : tx'.txid H ≠ tx.txid H := fun h => htx (List.mem_map.2 ⟨tx', hmem, h⟩)
        simp only [hget, hne, if_false]
        exact hfresh tx' (List.mem_cons_of_mem _ hmem))
      (by
        intro txid hgone j
        simp only [hget] at hgone
        split_ifs at hgone with hid
        have hown := howned txid hgone j
        simp only [hinOther (txid, j) hid, houtOther (txid, j) hid]
        exact hown)
      (fun tx' hmem => hvalues tx' (List.mem_cons_of_mem _ hmem))
    obtain ⟨d', hrun, hmem, hblocks, howned', hiff⟩ := hrest
    refine ⟨d', ?_, hmem, hblocks, howned', ?_⟩
    · refine (inside_bind_ok (.execute _) fun _ => .bind (writeInputs_client ..) fun _ =>
        .bind (writeOutputs_client ..) fun _ => writeTransactions_client ..).2 ⟨(), _, ?_,
        (inside_bind_ok (writeInputs_client ..) fun _ => .bind (writeOutputs_client ..) fun _ =>
          writeTransactions_client ..).2 ⟨(), _, hin, (inside_bind_ok (writeOutputs_client ..) fun _ =>
            writeTransactions_client ..).2 ⟨(), _, hout, hrun⟩⟩⟩
      refine inside_execute_ok.2 ⟨?_, rfl⟩
      simp only [insertTransaction, hrows]
      rfl
    · intro txid
      rw [hiff]
      simp only [hget, List.map_cons, List.mem_cons]
      by_cases hid : txid = tx.txid H <;> simp [hid]

lemma writeBody_run {block : Block} {height processedAt : ℕ}
    (hids : (block.transactions.map (·.txid H)).Nodup)
    (hfresh : ∀ tx ∈ block.transactions, d.1.transactions.get? (tx.txid H) = none)
    (howned : d.1.Owned)
    (hvalues : ∀ tx ∈ block.transactions, ∀ txout ∈ tx.vout, txout.value.toNat < 2 ^ 63) :
    ∃ d', inside (writeBody H block height processedAt) d = .ok () d' ∧ d'.2 = d.2 ∧
      d'.1.Owned ∧ (∀ txid, d'.1.transactions.get? txid = none ↔
        d.1.transactions.get? txid = none ∧ txid ∉ block.transactions.map (·.txid H)) ∧
      (∃ row, d'.1.blocks.get? (block.header.hashHex H) = some row ∧
        row.size = (block.serialize true).length) ∧
      ∀ blockHash, blockHash ≠ block.header.hashHex H →
        d'.1.blocks.get? blockHash = d.1.blocks.get? blockHash := by
  let blocks := d.1.blocks.insertOrReplace (block.header.hashHex H)
    { height, header := block.header, txCount := block.transactions.length
      size := (block.serialize true).length, weight := block.weight, isValid := true, processedAt }
  let headers := d.1.blockHeaders.insertOrReplace (block.header.hashHex H)
    { height, header := block.header, chainwork := some 0, isValid := true
      statusFlags := {.HEADER, .BLOCK, .VALID} }
  have hbody : inside (execute (insertBlock H block height processedAt)) d =
      .ok () ({ d.1 with blocks := blocks }, d.2) := inside_execute_ok.2 ⟨rfl, rfl⟩
  have hstep : inside (execute (insertHeader H block.header height 0 {.HEADER, .BLOCK, .VALID}))
      ({ d.1 with blocks := blocks }, d.2) =
      .ok () ({ d.1 with blocks := blocks, blockHeaders := headers }, d.2) :=
    inside_execute_ok.2 ⟨rfl, rfl⟩
  obtain ⟨d', hrun, hmem, hblocks, howned', hiff⟩ := @writeTransactions_run _ H
      ({ d.1 with blocks := blocks, blockHeaders := headers }, d.2) (block.header.hashHex H) height
      0 _ hids hfresh howned hvalues
  refine ⟨d', ?_, hmem, howned', hiff, ?_, ?_⟩
  · exact (inside_bind_ok (.execute _) fun _ => .bind (.execute _) fun _ =>
      writeTransactions_client ..).2 ⟨(), _, hbody, (inside_bind_ok (.execute _) fun _ =>
        writeTransactions_client ..).2 ⟨(), _, hstep, hrun⟩⟩
  · rw [hblocks]
    exact ⟨_, by simp only [blocks, KeyedRows.get?_insertOrReplace, if_true]; rfl, rfl⟩
  · intro blockHash hne
    rw [hblocks]
    simp only [blocks, KeyedRows.get?_insertOrReplace, hne, if_false]

end BlocksStore
end complete
end BerzCoin
