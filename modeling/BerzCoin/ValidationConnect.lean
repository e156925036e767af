import BerzCoin.ChainBlockIndex

/-! Connecting a block to the UTXO set and disconnecting it again. -/
namespace BerzCoin
open Database UTXOStore

def TxIn.outpoint (txin : TxIn) : Outpoint := (txin.prevTxHash, txin.prevTxIndex.toNat)

/-- An exception of a pure computation. -/
def liftExcept {σ ι α : Type} : Except PyError α → Db σ ι α
  | .ok a => pure a
  | .error e => throw e

/-- `except Exception: return False` around code that otherwise returns `True`. -/
def trueUnlessRaised {σ ι : Type} (x : Db σ ι Unit) : Db σ ι Bool :=
  tryCatch (do x; return true) fun _ => return false

def deleteUndo (blockHash : Bytes) : Statement Tables Unit :=
  .change fun tables => { tables with
    blockUndo := tables.blockUndo.deleteWhere fun key => key.1 = blockHash }

def insertUndo (key : UndoKey) (row : UndoRow) : Statement Tables Unit :=
  .change fun tables => { tables with blockUndo := tables.blockUndo.insertOrReplace key row }

def undoRow (prev : Outpoint) (spent : UtxoRow) : UndoRow :=
  { prevTxid := prev.1, prevIndex := prev.2, value := spent.value,
    scriptPubkey := spent.scriptPubkey, address := spent.address, height := spent.height,
    isCoinbase := spent.isCoinbase }

section connect
variable (H : Hashlib) (network : Network) (blockHash : Bytes) (height : ℕ)

def spendInput (txid : Bytes) (inIdx : ℕ) (txin : TxIn) : ChainDb Unit := do
  let (prevTxid, prevIndex) := txin.outpoint
  match ← getUtxo prevTxid prevIndex with
  | none =>
    throw (.runtimeError ("Missing UTXO for undo capture " ++ hex prevTxid ++ ":" ++
      toString prevIndex))
  | some spentUtxo =>
    execute (insertUndo (blockHash, txid, inIdx) (undoRow txin.outpoint spentUtxo))
    let success ← spendUtxo prevTxid prevIndex txid inIdx
    if !success then
      throw (.runtimeError ("Failed to spend UTXO " ++ hex prevTxid ++ ":" ++ toString prevIndex))

def spendInputs (txid : Bytes) : ℕ → List TxIn → ChainDb Unit
  | _, [] => return ()
  | inIdx, txin :: vin => do
      spendInput blockHash txid inIdx txin
      spendInputs txid (inIdx + 1) vin

def addOutput (txid : Bytes) (isCoinbase : Bool) (i : ℕ) (txout : TxOut) : ChainDb Unit := do
  if txout.isOpReturn then return ()
  let address ← liftExcept (extractAddress H network txout.scriptPubkey)
  addUtxo txid i txout.value.toNat txout.scriptPubkey height isCoinbase
  match address with
  | some address => execute (setAddress (txid, i) (some address))
  | none => return ()

def addOutputs (txid : Bytes) (isCoinbase : Bool) : ℕ → List TxOut → ChainDb Unit
  | _, [] => return ()
  | i, txout :: vout => do
      addOutput H network height txid isCoinbase i txout
      addOutputs txid isCoinbase (i + 1) vout

def connectTx (tx : Transaction) : ChainDb Unit := do
  if !tx.isCoinbase then spendInputs blockHash (tx.txid H) 0 tx.vin
  addOutputs H network height (tx.txid H) tx.isCoinbase 0 tx.vout

def connectTxs : List Transaction → ChainDb Unit
  | [] => return ()
  | tx :: txs => do
      connectTx H network blockHash height tx
      connectTxs txs

/-- The outputs of the first transaction that are in the UTXO set. -/
def unmarkFirst (txid : Bytes) : Statement Tables Unit :=
  .change fun tables => { tables with
    outputs := tables.outputs.updateWhere (fun key => key.1 = txid && tables.utxo.contains key)
      fun row => { row with spent := false, spentByTxid := none } }

/-- The statements of `connect` after the loop over the transactions. -/
def finishConnect (transactions : List Transaction) : ChainDb Unit := do
  BlockIndex.markMainChain blockHash true
  match transactions with
  | [] => throw (.indexError "list index out of range")
  | first :: _ => execute (unmarkFirst (first.txid H))

/-- The block of `with db.transaction()` in `connect`. -/
def connectBody (block : Block) : ChainDb Unit := do
  execute (deleteUndo blockHash)
  connectTxs H network blockHash height block.transactions
  finishConnect H blockHash block.transactions

end connect

/-- `ConnectBlock.connect`. -/
def connect (H : Hashlib) (network : Network) (block : Block) : ChainDb Bool := do
  let blockHash := block.header.hashHex H
  match ← BlockIndex.read (·.getHeight blockHash) with
  | none => return false
  | some height => trueUnlessRaised (transaction (connectBody H network blockHash height block))

/-- `UPDATE outputs SET spent = 0, spent_by_txid = NULL, spent_by_index = NULL`. -/
def clearSpent (key : Outpoint) : Statement Tables Unit :=
  .change fun tables => { tables with
    outputs := tables.outputs.update key fun row =>
      { row with spent := false, spentByTxid := none, spentByIndex := none } }

section disconnect
variable (H : Hashlib) (blockHash : Bytes)

def restoreInput (txid : Bytes) (inIdx : ℕ) (txin : TxIn) : ChainDb Unit := do
  match ← execute (.query fun tables => tables.blockUndo.get? (blockHash, txid, inIdx)) with
  | none =>
    throw (.runtimeError ("Missing undo data while disconnecting " ++ hex txid ++ "[" ++
      toString inIdx ++ "]"))
  | some original =>
    addUtxo txin.outpoint.1 txin.outpoint.2 original.value.1 original.scriptPubkey original.height
      original.isCoinbase
    execute (setAddress txin.outpoint original.address)
    execute (clearSpent txin.outpoint)

def restoreInputs (txid : Bytes) : ℕ → List TxIn → ChainDb Unit
  | _, [] => return ()
  | inIdx, txin :: vin => do
      restoreInput blockHash txid inIdx txin
      restoreInputs txid (inIdx + 1) vin

/-- `for i in range(len(tx.vout))`, from `i` for `n` outputs. -/
def removeOutputs (txid : Bytes) : ℕ → ℕ → ChainDb Unit
  | _, 0 => return ()
  | i, n + 1 => do
      let _ ← removeUtxo txid i
      execute (clearSpent (txid, i))
      removeOutputs txid (i + 1) n

def disconnectTx (tx : Transaction) : ChainDb Unit := do
  if !tx.isCoinbase then restoreInputs blockHash (tx.txid H) 0 tx.vin
  removeOutputs (tx.txid H) 0 tx.vout.length

def disconnectTxs : List Transaction → ChainDb Unit
  | [] => return ()
  | tx :: txs => do
      disconnectTx H blockHash tx
      disconnectTxs txs

/-- The statements of `disconnect` after the loop over the transactions. -/
def finishDisconnect : ChainDb Unit := do
  BlockIndex.markMainChain blockHash false
  execute (deleteUndo blockHash)

/-- The block of `with db.transaction()` in `disconnect`. -/
def disconnectBody (block : Block) : ChainDb Unit := do
  disconnectTxs H blockHash block.transactions.reverse
  finishDisconnect blockHash

end disconnect

/-- `DisconnectBlock.disconnect`. -/
def disconnect (H : Hashlib) (block : Block) : ChainDb Bool := do
  let blockHash := block.header.hashHex H
  match ← BlockIndex.read (·.getHeight blockHash) with
  | none => return false
  | some _ => trueUnlessRaised (transaction (disconnectBody H blockHash block))

/-! All of this is code that leaves transactions to `transaction`. -/

section client
variable {σ ι α : Type}

lemma liftExcept_client (x : Except PyError α) : Client (liftExcept x : Db σ ι α) := by
  cases x with
  | ok a => exact .ret a
  | error e => exact .raise e

lemma trueUnlessRaised_client {x : Db σ ι Unit} (hx : Client x) : Client (trueUnlessRaised x) :=
  .handle (.bind hx fun _ => .ret _) fun _ => .ret _

lemma addUtxo_client (txid : Bytes) (index value : ℕ) (scriptPubkey : Bytes) (height : ℕ)
    (isCoinbase : Bool) :
    Client (addUtxo txid index value scriptPubkey height isCoinbase : Db Tables ι Unit) :=
  .execute _

lemma spendUtxo_client (txid : Bytes) (index : ℕ) (by' : Bytes) (byIndex : ℕ) :
    Client (spendUtxo txid index by' byIndex : Db Tables ι Bool) := by
  refine .bind (.execute _) fun rowcount => ?_
  split
  · exact .bind (.execute _) fun _ => .ret _
  · exact .ret _

lemma removeUtxo_client (txid : Bytes) (index : ℕ) :
    Client (removeUtxo txid index : Db Tables ι Bool) := .bind (.execute _) fun _ => .ret _

lemma markMainChain_client (blockHash : Bytes) (isMain : Bool) :
    Client (BlockIndex.markMainChain blockHash isMain) := by
  refine .bind (.memory _) fun entry => ?_
  cases entry with
  | none => exact .ret _
  | some entry => exact .bind (.memory _) fun _ => .execute _

variable (H : Hashlib) (network : Network) (blockHash : Bytes) (height : ℕ)

lemma spendInput_client (txid : Bytes) (inIdx : ℕ) (txin : TxIn) :
    Client (spendInput blockHash txid inIdx txin) := by
  refine .bind (.execute _) fun row => ?_
  cases row with
  | none => exact .raise _
  | some row =>
    refine .bind (.execute _) fun _ => .bind (spendUtxo_client _ _ _ _) fun success => ?_
    split
    · exact .raise _
    · exact .ret _

lemma spendInputs_client (txid : Bytes) (inIdx : ℕ) (vin : List TxIn) :
    Client (spendInputs blockHash txid inIdx vin) := by
  induction vin generalizing inIdx with
  | nil => exact .ret _
  | cons txin vin ih => exact .bind (spendInput_client blockHash txid inIdx txin) fun _ => ih _

lemma addOutput_client (txid : Bytes) (isCoinbase : Bool) (i : ℕ) (txout : TxOut) :
    Client (addOutput H network height txid isCoinbase i txout) := by
  unfold addOutput
  split
  · exact .ret _
  · refine .bind (liftExcept_client _) fun address => .bind (addUtxo_client _ _ _ _ _ _) fun _ => ?_
    cases address with
    | none => exact .ret _
    | some address => exact .execute _

lemma addOutputs_client (txid : Bytes) (isCoinbase : Bool) (i : ℕ) (vout : List TxOut) :
    Client (addOutputs H network height txid isCoinbase i vout) := by
  induction vout generalizing i with
  | nil => exact .ret _
  | cons txout vout ih => exact .bind (addOutput_client H network height txid _ i txout) fun _ => ih _

lemma connectTx_client (tx : Transaction) : Client (connectTx H network blockHash height tx) := by
  unfold connectTx
  split
  · exact .bind (spendInputs_client _ _ _ _) fun _ => addOutputs_client H network height _ _ _ _
  · exact addOutputs_client H network height _ _ _ _

lemma connectTxs_client (txs : List Transaction) :
    Client (connectTxs H network blockHash height txs) := by
  induction txs with
  | nil => exact .ret _
  | cons tx txs ih => exact .bind (connectTx_client H network blockHash height tx) fun _ => ih

lemma finishConnect_client (txs : List Transaction) : Client (finishConnect H blockHash txs) := by
  refine .bind (markMainChain_client _ _) fun _ => ?_
  split
  · exact .raise _
  · exact .execute _

lemma connectBody_client (block : Block) : Client (connectBody H network blockHash height block) :=
  .bind (.execute _) fun _ => .bind (connectTxs_client H network blockHash height _) fun _ =>
    finishConnect_client H blockHash _

lemma connect_client (block : Block) : Client (connect H network block) := by
  refine .bind (.memory _) fun height => ?_
  cases height with
  | none => exact .ret _
  | some height => exact trueUnlessRaised_client (.transaction (connectBody_client H network _ _ _))

lemma restoreInput_client (txid : Bytes) (inIdx : ℕ) (txin : TxIn) :
    Client (restoreInput blockHash txid inIdx txin) := by
  refine .bind (.execute _) fun row => ?_
  cases row with
  | none => exact .raise _
  | some row =>
    exact .bind (addUtxo_client _ _ _ _ _ _) fun _ => .bind (.execute _) fun _ => .execute _

lemma restoreInputs_client (txid : Bytes) (inIdx : ℕ) (vin : List TxIn) :
    Client (restoreInputs blockHash txid inIdx vin) := by
  induction vin generalizing inIdx with
  | nil => exact .ret _
  | cons txin vin ih => exact .bind (restoreInput_client blockHash txid inIdx txin) fun _ => ih _

lemma removeOutputs_client (txid : Bytes) (i n : ℕ) : Client (removeOutputs txid i n) := by
  induction n generalizing i with
  | zero => exact .ret _
  | succ n ih =>
    exact .bind (removeUtxo_client _ _) fun _ => .bind (.execute _) fun _ => ih _

lemma disconnectTx_client (tx : Transaction) : Client (disconnectTx H blockHash tx) := by
  unfold disconnectTx
  split
  · exact .bind (restoreInputs_client _ _ _ _) fun _ => removeOutputs_client _ _ _
  · exact removeOutputs_client _ _ _

lemma disconnectTxs_client (txs : List Transaction) : Client (disconnectTxs H blockHash txs) := by
  induction txs with
  | nil => exact .ret _
  | cons tx txs ih => exact .bind (disconnectTx_client H blockHash tx) fun _ => ih

lemma finishDisconnect_client : Client (finishDisconnect blockHash) :=
  .bind (markMainChain_client _ _) fun _ => .execute _

lemma disconnectBody_client (block : Block) : Client (disconnectBody H blockHash block) :=
  .bind (disconnectTxs_client H blockHash _) fun _ => finishDisconnect_client blockHash

lemma disconnect_client (block : Block) : Client (disconnect H block) := by
  refine .bind (.memory _) fun height => ?_
  cases height with
  | none => exact .ret _
  | some height => exact trueUnlessRaised_client (.transaction (disconnectBody_client H _ _))

end client
end BerzCoin
