import BerzCoin.ValidationConnect

/-! The effect of connecting and disconnecting on the tables, statement by statement. -/
namespace BerzCoin
open Database UTXOStore

namespace Tables

/-- What spending one input does to the tables. -/
def spend (tables : Tables) (undoKey : UndoKey) (prev : Outpoint) (row : UtxoRow) : Tables :=
  { tables with
    utxo := tables.utxo.delete prev
    blockUndo := tables.blockUndo.insertOrReplace undoKey (undoRow prev row)
    outputs := tables.outputs.update prev fun r =>
      { r with spent := true, spentByTxid := some undoKey.2.1, spentByIndex := some undoKey.2.2 } }

/-- What adding one output does to the tables. -/
def add (tables : Tables) (key : Outpoint) (row : UtxoRow) : Tables :=
  { tables with
    utxo := match row.address with
      | none => tables.utxo.insertOrReplace key row
      | some address =>
        (tables.utxo.insertOrReplace key { row with address := none }).update key fun r =>
          { r with address := some address } }

/-- What restoring one input does to the tables. -/
def restore (tables : Tables) (prev : Outpoint) (row : UndoRow) : Tables :=
  { tables with
    utxo := (tables.utxo.insertOrReplace prev
      ⟨row.value, row.scriptPubkey, row.height, row.isCoinbase, none⟩).update prev fun r =>
        { r with address := row.address }
    outputs := tables.outputs.update prev fun r =>
      { r with spent := false, spentByTxid := none, spentByIndex := none } }

/-- What removing one output does to the tables. -/
def remove (tables : Tables) (key : Outpoint) : Tables :=
  { tables with
    utxo := tables.utxo.delete key
    outputs := tables.outputs.update key fun r =>
      { r with spent := false, spentByTxid := none, spentByIndex := none } }

lemma get?_add (tables : Tables) (key key' : Outpoint) (row : UtxoRow) :
    (tables.add key row).utxo.get? key' = if key' = key then some row else tables.utxo.get? key' := by
  obtain ⟨value, scriptPubkey, height, isCoinbase, address⟩ := row
  cases address <;> by_cases hk : key' = key <;> simp [add, hk]

end Tables

section effects
variable (H : Hashlib) (network : Network) (blockHash : Bytes) (height : ℕ)
variable {s : Session Tables BlockIndex}

lemma deleteUtxo_apply (hs : s.conn.inTransaction = true) (key : Outpoint) :
    (execute (deleteUtxo key) : ChainDb ℕ) s =
      .ok (if s.conn.current.utxo.contains key then 1 else 0)
        (put s { s.conn.current with utxo := s.conn.current.utxo.delete key } s.memory) := by
  simp only [execute_of_open _ hs, deleteUtxo, put]

lemma insertUtxo_apply (hs : s.conn.inTransaction = true) (key : Outpoint) (value : ℕ)
    (scriptPubkey : Bytes) (height : ℕ) (isCoinbase : Bool) :
    (execute (insertUtxo key value scriptPubkey height isCoinbase) : ChainDb Unit) s =
      match bindInt value with
      | .error e => .error e s
      | .ok value => .ok () (put s { s.conn.current with
          utxo := s.conn.current.utxo.insertOrReplace key
            ⟨value, scriptPubkey, height, isCoinbase, none⟩ } s.memory) := by
  simp only [execute_of_open _ hs, insertUtxo, put]
  cases bindInt value <;> rfl

lemma spendInput_apply (hs : s.conn.inTransaction = true) (txid : Bytes) (inIdx : ℕ) (txin : TxIn) :
    match s.conn.current.utxo.get? txin.outpoint with
    | none => ∃ e, spendInput blockHash txid inIdx txin s = .error e s
    | some row => spendInput blockHash txid inIdx txin s =
        .ok () (put s (s.conn.current.spend (blockHash, txid, inIdx) txin.outpoint row) s.memory) := by
  cases hrow : s.conn.current.utxo.get? txin.outpoint with
  | none =>
    simp only [spendInput, Db.bind_apply, getUtxo, query_apply, hrow]
    exact ⟨_, rfl⟩
  | some row =>
    have hcontains : s.conn.current.utxo.contains txin.outpoint = true := by
      simp [KeyedRows.contains, hrow]
    have hput (data : Tables) (m : BlockIndex) : (put s data m).conn.inTransaction = true := by
      simpa using hs
    simp only [spendInput, Db.bind_apply, getUtxo, query_apply, hrow, insertUndo, change_apply hs,
      spendUtxo, deleteUtxo_apply (hput _ _), put_current, put_put, put_memory, hcontains, if_true,
      Nat.zero_lt_one, markSpent, change_apply (hput _ _)]
    rfl

/-- The row that `addOutput` stores, if the value fits its column. -/
def outputRow (isCoinbase : Bool) (txout : TxOut) : Except PyError UtxoRow := do
  let address ← extractAddress H network txout.scriptPubkey
  let value ← bindInt txout.value.toNat
  return ⟨value, txout.scriptPubkey, height, isCoinbase, address⟩

lemma addOutput_apply (hs : s.conn.inTransaction = true) (txid : Bytes) (isCoinbase : Bool) (i : ℕ)
    (txout : TxOut) :
    addOutput H network height txid isCoinbase i txout s =
      if txout.isOpReturn then .ok () s
      else
        match outputRow H network height isCoinbase txout with
        | .error e => .error e s
        | .ok row => .ok () (put s (s.conn.current.add (txid, i) row) s.memory) := by
  have hput (data : Tables) (m : BlockIndex) : (put s data m).conn.inTransaction = true := by
    simpa using hs
  unfold addOutput outputRow
  by_cases hret : txout.isOpReturn = true
  · simp only [hret, if_true, Db.pure_apply]
  · simp only [hret, Bool.false_eq_true, if_false, Db.bind_apply]
    cases extractAddress H network txout.scriptPubkey with
    | error e => rfl
    | ok address =>
      simp only [liftExcept, Db.pure_apply, addUtxo, insertUtxo_apply hs]
      cases bindInt txout.value.toNat with
      | error e => rfl
      | ok value =>
        cases address with
        | none => rfl
        | some address =>
          simp only [setAddress, change_apply (hput _ _), put_current, put_put, put_memory]
          rfl

lemma restoreInput_apply (hs : s.conn.inTransaction = true) (txid : Bytes) (inIdx : ℕ)
    (txin : TxIn) :
    match s.conn.current.blockUndo.get? (blockHash, txid, inIdx) with
    | none => ∃ e, restoreInput blockHash txid inIdx txin s = .error e s
    | some row => restoreInput blockHash txid inIdx txin s =
        .ok () (put s (s.conn.current.restore txin.outpoint row) s.memory) := by
  have hput (data : Tables) (m : BlockIndex) : (put s data m).conn.inTransaction = true := by
    simpa using hs
  cases hrow : s.conn.current.blockUndo.get? (blockHash, txid, inIdx) with
  | none =>
    simp only [restoreInput, Db.bind_apply, query_apply, hrow]
    exact ⟨_, rfl⟩
  | some row =>
    simp only [restoreInput, Db.bind_apply, query_apply, hrow, addUtxo, insertUtxo_apply hs,
      bindInt_val, setAddress, change_apply (hput _ _), clearSpent, put_current, put_put, put_memory]
    rfl

lemma removeOutput_apply (hs : s.conn.inTransaction = true) (txid : Bytes) (i : ℕ) :
    (do let _ ← removeUtxo txid i; execute (clearSpent (txid, i)) : ChainDb Unit) s =
      .ok () (put s (s.conn.current.remove (txid, i)) s.memory) := by
  have hput (data : Tables) (m : BlockIndex) : (put s data m).conn.inTransaction = true := by
    simpa using hs
  simp only [Db.bind_apply, removeUtxo, deleteUtxo_apply hs, Db.pure_apply, clearSpent,
    change_apply (hput _ _), put_current, put_put, put_memory]
  rfl

end effects

/-- What writing a status back does to the tables. -/
def Tables.persist (tables : Tables) (entry : BlockIndexEntry) : Tables :=
  { tables with
    blockHeaders := tables.blockHeaders.update entry.blockHash fun row =>
      { row with isValid := !entry.isInvalid, statusFlags := entry.status } }

/-- `mark_main_chain` on the tables and the index. -/
def markMain (blockHash : Bytes) (isMain : Bool) (d : Tables × BlockIndex) : Tables × BlockIndex :=
  match d.2.getBlock blockHash with
  | none => d
  | some entry =>
    (d.1.persist (if isMain then BlockIndex.markedMain entry else BlockIndex.markedSide entry),
      d.2.withMainChain entry blockHash isMain)

lemma read_apply {α : Type} (f : BlockIndex → α) (s : Session Tables BlockIndex) :
    BlockIndex.read f s = .ok (f s.memory) s := by
  rw [BlockIndex.read, onMemory_apply, put_self]

lemma markMainChain_inside (blockHash : Bytes) (isMain : Bool) (d : Tables × BlockIndex) :
    inside (BlockIndex.markMainChain blockHash isMain) d = .ok () (markMain blockHash isMain d) := by
  have hopen : (openSession d).conn.inTransaction = true := rfl
  have hput (data : Tables) (m : BlockIndex) :
      (put (openSession d) data m).conn.inTransaction = true := by simpa using hopen
  have hmem : (openSession d).memory = d.2 := rfl
  simp only [inside, BlockIndex.markMainChain, Db.bind_apply, read_apply, hmem, markMain]
  cases d.2.getBlock blockHash with
  | none => rfl
  | some entry =>
    simp only [BlockIndex.modify, Db.bind_apply, onMemory_apply, BlockIndex.persistStatus,
      BlockIndex.persistStatement, change_apply (hput _ _), put_current, put_put, put_memory,
      Db.project, put_data]
    rfl

lemma markMain_utxo (blockHash : Bytes) (isMain : Bool) (d : Tables × BlockIndex) :
    (markMain blockHash isMain d).1.utxo = d.1.utxo ∧
      (markMain blockHash isMain d).1.blockUndo = d.1.blockUndo ∧
      (markMain blockHash isMain d).1.outputs = d.1.outputs := by
  unfold markMain
  cases d.2.getBlock blockHash <;> exact ⟨rfl, rfl, rfl⟩

lemma markMain_getHeight (blockHash : Bytes) (isMain : Bool) (d : Tables × BlockIndex)
    (hash : Bytes) : (markMain blockHash isMain d).2.getHeight hash = d.2.getHeight hash := by
  unfold markMain
  cases d.2.getBlock blockHash with
  | none => rfl
  | some entry =>
    cases isMain <;>
      by_cases hh : hash = blockHash <;>
        simp [BlockIndex.getHeight, BlockIndex.getBlock, BlockIndex.withMainChain, hh,
          Function.comp_def, BlockIndex.markedMain, BlockIndex.markedSide,
          BlockIndexEntry.setStatus, BlockIndexEntry.clearStatus]

lemma finishConnect_inside (H : Hashlib) (blockHash : Bytes) (txs : List Transaction)
    (d : Tables × BlockIndex) :
    inside (finishConnect H blockHash txs) d =
      match txs with
      | [] => .error (.indexError "list index out of range") (markMain blockHash true d)
      | first :: _ =>
        .ok () ({ (markMain blockHash true d).1 with
          outputs := (markMain blockHash true d).1.outputs.updateWhere
            (fun key => key.1 = first.txid H && (markMain blockHash true d).1.utxo.contains key)
            fun row => { row with spent := false, spentByTxid := none } },
          (markMain blockHash true d).2) := by
  cases txs with
  | nil =>
    rw [finishConnect, inside_bind (markMainChain_client ..) fun _ => .raise _,
      markMainChain_inside]
    rfl
  | cons first txs =>
    rw [finishConnect, inside_bind (markMainChain_client ..) fun _ => .execute _,
      markMainChain_inside]
    simp only [inside_execute, unmarkFirst, Statement.change]

lemma finishDisconnect_inside (blockHash : Bytes) (d : Tables × BlockIndex) :
    inside (finishDisconnect blockHash) d =
      .ok () ({ (markMain blockHash false d).1 with
        blockUndo := (markMain blockHash false d).1.blockUndo.deleteWhere
          fun key => key.1 = blockHash }, (markMain blockHash false d).2) := by
  rw [finishDisconnect, inside_bind (markMainChain_client ..) fun _ => .execute _,
    markMainChain_inside]
  simp only [inside_execute, deleteUndo, Statement.change]

lemma trueUnlessRaised_ok_true {σ ι : Type} {x : Db σ ι Unit} {s s' : Session σ ι} :
    trueUnlessRaised x s = .ok true s' ↔ x s = .ok () s' := by
  simp only [trueUnlessRaised, Db.tryCatch_apply, Db.bind_apply]
  cases x s with
  | ok u t => simp [Db.pure_apply]
  | error e t => simp [Db.pure_apply]

lemma connect_ok_true {H : Hashlib} {network : Network} {block : Block}
    {s s' : Session Tables BlockIndex} :
    connect H network block s = .ok true s' ↔
      ∃ height, s.memory.getHeight (block.header.hashHex H) = some height ∧
        transaction (connectBody H network (block.header.hashHex H) height block) s = .ok () s' := by
  simp only [connect, Db.bind_apply, read_apply]
  cases s.memory.getHeight (block.header.hashHex H) with
  | none => simp [Db.pure_apply]
  | some height => simp [trueUnlessRaised_ok_true]

lemma disconnect_ok_true {H : Hashlib} {block : Block} {s s' : Session Tables BlockIndex} :
    disconnect H block s = .ok true s' ↔
      (s.memory.getHeight (block.header.hashHex H)).isSome = true ∧
        transaction (disconnectBody H (block.header.hashHex H) block) s = .ok () s' := by
  simp only [disconnect, Db.bind_apply, read_apply]
  cases s.memory.getHeight (block.header.hashHex H) with
  | none => simp [Db.pure_apply]
  | some height => simp [trueUnlessRaised_ok_true]

/-- Whether an action returned this value. -/
def Db.returns {σ ι α : Type} [DecidableEq α] (x : Db σ ι α) (a : α) (s : Session σ ι) : Bool :=
  match x s with
  | .ok b _ => b = a
  | .error _ _ => false

lemma Db.eq_ok_of_returns {σ ι α : Type} [DecidableEq α] {x : Db σ ι α} {a : α} {s : Session σ ι}
    (h : x.returns a s = true) : x s = .ok a (x.final s) := by
  unfold Db.returns at h
  unfold Db.final
  cases hx : x s with
  | error e s' => simp [hx] at h
  | ok b s' =>
    have hb : b = a := by simpa [hx] using h
    rw [hb]

end BerzCoin
