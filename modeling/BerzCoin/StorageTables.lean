import BerzCoin.CryptoAddress
import BerzCoin.StorageInside

/-! The rows of the database and the statements of `UTXOStore`. Hashes and transaction ids
are the bytes whose hexadecimal text the source stores. -/
namespace BerzCoin

inductive BlockStatus
  | HEADER
  | BLOCK
  | VALID
  | MAIN_CHAIN
  | ORPHAN
  | SIDE_CHAIN
  | INVALID
  | DISCONNECTED
  | FAILED_VALIDATION
  deriving DecidableEq, Repr

/-- Integers that a column can hold. -/
abbrev SqlInt := { n : ℕ // n < 2 ^ 63 }

/-- Binding a parameter: larger integers are refused. -/
def bindInt (n : ℕ) : Except PyError SqlInt :=
  if h : n < 2 ^ 63 then .ok ⟨n, h⟩
  else .error (.overflowError "Python int too large to convert to SQLite INTEGER")

@[simp] lemma bindInt_val (n : SqlInt) : bindInt n.1 = .ok n := by
  simp only [bindInt, n.2, dif_pos]

abbrev Outpoint := Bytes × ℕ

instance : LawfulBEq Outpoint := inferInstance

structure UtxoRow where
  value : SqlInt
  scriptPubkey : Bytes
  height : ℕ
  isCoinbase : Bool
  address : Option Text
  deriving DecidableEq, Repr

/-- The key of an undo row is the block, the spending transaction and its input. -/
abbrev UndoKey := Bytes × Bytes × ℕ

structure UndoRow where
  prevTxid : Bytes
  prevIndex : ℕ
  value : SqlInt
  scriptPubkey : Bytes
  address : Option Text
  height : ℕ
  isCoinbase : Bool
  deriving DecidableEq, Repr

structure OutputRow where
  value : SqlInt
  scriptPubkey : Bytes
  spent : Bool
  spentByTxid : Option Bytes
  spentByIndex : Option ℕ
  deriving DecidableEq, Repr

/-- `chainwork` is `none` for a text that is not a natural number. -/
structure HeaderRow where
  height : ℕ
  header : BlockHeader
  chainwork : Option ℕ
  isValid : Bool
  statusFlags : Finset BlockStatus
  deriving DecidableEq

structure BlockRow where
  height : ℕ
  header : BlockHeader
  txCount : ℕ
  size : ℕ
  weight : ℕ
  isValid : Bool
  processedAt : ℕ
  deriving DecidableEq, Repr

structure TransactionRow where
  blockHash : Bytes
  height : ℕ
  index : ℕ
  version : UInt32
  locktime : UInt32
  size : ℕ
  weight : ℕ
  isCoinbase : Bool
  deriving DecidableEq, Repr

structure InputRow where
  prevTxid : Bytes
  prevIndex : ℕ
  scriptSig : Bytes
  sequence : UInt32
  witness : Bytes
  deriving DecidableEq, Repr

structure Tables where
  utxo : KeyedRows Outpoint UtxoRow
  blockUndo : KeyedRows UndoKey UndoRow
  outputs : KeyedRows Outpoint OutputRow
  blockHeaders : KeyedRows Bytes HeaderRow
  blocks : KeyedRows Bytes BlockRow
  transactions : KeyedRows Bytes TransactionRow
  inputs : KeyedRows (Bytes × ℕ) InputRow
  deriving DecidableEq

def Tables.empty : Tables :=
  ⟨.empty, .empty, .empty, .empty, .empty, .empty, .empty⟩

namespace UTXOStore
open Database
variable {ι : Type}

def insertUtxo (key : Outpoint) (value : ℕ) (scriptPubkey : Bytes) (height : ℕ)
    (isCoinbase : Bool) : Statement Tables Unit where
  isDml := true
  run tables := do
    let value ← bindInt value
    return ({ tables with
      utxo := tables.utxo.insertOrReplace key ⟨value, scriptPubkey, height, isCoinbase, none⟩ }, ())

def addUtxo (txid : Bytes) (index value : ℕ) (scriptPubkey : Bytes) (height : ℕ)
    (isCoinbase : Bool) : Db Tables ι Unit :=
  execute (insertUtxo (txid, index) value scriptPubkey height isCoinbase)

/-- `DELETE FROM utxo WHERE outpoint = ?`, with its row count. -/
def deleteUtxo (key : Outpoint) : Statement Tables ℕ where
  isDml := true
  run tables := .ok ({ tables with utxo := tables.utxo.delete key },
    if tables.utxo.contains key then 1 else 0)

def markSpent (key : Outpoint) (spentByTxid : Bytes) (spentByIndex : ℕ) : Statement Tables Unit :=
  .change fun tables => { tables with
    outputs := tables.outputs.update key fun row =>
      { row with spent := true, spentByTxid := some spentByTxid, spentByIndex := some spentByIndex } }

def spendUtxo (txid : Bytes) (index : ℕ) (spentByTxid : Bytes) (spentByIndex : ℕ) :
    Db Tables ι Bool := do
  let rowcount ← execute (deleteUtxo (txid, index))
  if 0 < rowcount then
    execute (markSpent (txid, index) spentByTxid spentByIndex)
    return true
  else return false

def removeUtxo (txid : Bytes) (index : ℕ) : Db Tables ι Bool := do
  let rowcount ← execute (deleteUtxo (txid, index))
  return 0 < rowcount

def getUtxo (txid : Bytes) (index : ℕ) : Db Tables ι (Option UtxoRow) :=
  execute (.query fun tables => tables.utxo.get? (txid, index))

/-- `UPDATE utxo SET address = ? WHERE txid = ? AND "index" = ?`. -/
def setAddress (key : Outpoint) (address : Option Text) : Statement Tables Unit :=
  .change fun tables => { tables with
    utxo := tables.utxo.update key fun row => { row with address := address } }

end UTXOStore
end BerzCoin
