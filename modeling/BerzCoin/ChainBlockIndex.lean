import BerzCoin.StorageTables

/-! The block index: a dictionary of entries, the height index of the main chain and the
best tip. Status changes are written through to `block_headers`. -/
namespace BerzCoin
open Database

structure BlockIndexEntry where
  height : ℕ
  blockHash : Bytes
  header : BlockHeader
  chainwork : ℕ
  status : Finset BlockStatus
  deriving DecidableEq

namespace BlockIndexEntry

def hasStatus (entry : BlockIndexEntry) (flag : BlockStatus) : Bool := flag ∈ entry.status

def setStatus (entry : BlockIndexEntry) (flag : BlockStatus) : BlockIndexEntry :=
  { entry with status := insert flag entry.status }

def clearStatus (entry : BlockIndexEntry) (flag : BlockStatus) : BlockIndexEntry :=
  { entry with status := entry.status.erase flag }

def isMainChain (entry : BlockIndexEntry) : Bool := entry.hasStatus .MAIN_CHAIN

def isInvalid (entry : BlockIndexEntry) : Bool :=
  entry.hasStatus .INVALID || entry.hasStatus .FAILED_VALIDATION

end BlockIndexEntry

structure BlockIndex where
  index : KeyedRows Bytes BlockIndexEntry
  heightIndex : ℕ → Option Bytes
  bestHeight : ℤ
  bestHash : Option Bytes

namespace BlockIndex

def empty : BlockIndex := ⟨.empty, fun _ => none, -1, none⟩

def getBlock (b : BlockIndex) (blockHash : Bytes) : Option BlockIndexEntry := b.index.get? blockHash

def getBlockByHeight (b : BlockIndex) (height : ℕ) : Option BlockIndexEntry :=
  (b.heightIndex height).bind b.getBlock

def getHeight (b : BlockIndex) (blockHash : Bytes) : Option ℕ :=
  (b.getBlock blockHash).map BlockIndexEntry.height

def getBestChainwork (b : BlockIndex) : ℕ :=
  ((b.bestHash.bind b.getBlock).map BlockIndexEntry.chainwork).getD 0

/-- The entries met on the way from a block to the root, at most `fuel` of them. -/
def pathFrom (b : BlockIndex) : ℕ → Bytes → List BlockIndexEntry
  | 0, _ => []
  | fuel + 1, blockHash =>
    match b.getBlock blockHash with
    | none => []
    | some entry => entry :: b.pathFrom fuel entry.header.prevBlockHash

/-- The `while current is not None` loops: an entry is met once, so the size of the index
bounds them. -/
def branch (b : BlockIndex) (blockHash : Bytes) : List BlockIndexEntry :=
  b.pathFrom b.index.rows.length blockHash

def isBranchInvalid (b : BlockIndex) (blockHash : Bytes) : Bool :=
  (b.branch blockHash).any BlockIndexEntry.isInvalid

/-- `chain_map` of `_rebuild_main_chain_height_index`. -/
def chainMap (path : List BlockIndexEntry) : ℕ → Option Bytes :=
  path.foldl (fun chain entry => Function.update chain entry.height (some entry.blockHash))
    fun _ => none

def rebuildStatus (path : List BlockIndexEntry) (entry : BlockIndexEntry) : BlockIndexEntry :=
  if entry.blockHash ∈ path.map BlockIndexEntry.blockHash then
    (entry.setStatus .MAIN_CHAIN).clearStatus .SIDE_CHAIN
  else (entry.clearStatus .MAIN_CHAIN).setStatus .SIDE_CHAIN

def markedMain (entry : BlockIndexEntry) : BlockIndexEntry :=
  ((entry.setStatus .MAIN_CHAIN).clearStatus .SIDE_CHAIN).clearStatus .DISCONNECTED

def markedSide (entry : BlockIndexEntry) : BlockIndexEntry :=
  ((entry.clearStatus .MAIN_CHAIN).setStatus .SIDE_CHAIN).setStatus .DISCONNECTED

/-- The change of the index in `mark_main_chain` for a known block. -/
def withMainChain (b : BlockIndex) (entry : BlockIndexEntry) (blockHash : Bytes) (isMain : Bool) :
    BlockIndex :=
  if isMain then
    { b with
      index := b.index.update blockHash markedMain
      heightIndex := Function.update b.heightIndex entry.height (some blockHash) }
  else
    { b with
      index := b.index.update blockHash markedSide
      heightIndex :=
        if b.heightIndex entry.height = some blockHash then
          Function.update b.heightIndex entry.height none
        else b.heightIndex }

/-- The change of the index in `set_best_chain_tip` for an accepted tip. -/
def withBestChainTip (b : BlockIndex) (tip : BlockIndexEntry) (blockHash : Bytes) : BlockIndex :=
  let path := b.branch blockHash
  { index := b.index.mapValues (rebuildStatus path)
    heightIndex := chainMap path
    bestHeight := tip.height
    bestHash := some tip.blockHash }

end BlockIndex

abbrev ChainDb (α : Type) := Db Tables BlockIndex α

namespace BlockIndex

def read {α : Type} (f : BlockIndex → α) : ChainDb α := onMemory fun b => (f b, b)

def modify (f : BlockIndex → BlockIndex) : ChainDb Unit := onMemory fun b => ((), f b)

/-- `UPDATE block_headers SET is_valid = ?, status_flags = ? WHERE hash = ?`. -/
def persistStatement (entry : BlockIndexEntry) : Statement Tables Unit :=
  .change fun tables => { tables with
    blockHeaders := tables.blockHeaders.update entry.blockHash fun row =>
      { row with isValid := !entry.isInvalid, statusFlags := entry.status } }

def persistStatus (entry : BlockIndexEntry) : ChainDb Unit := execute (persistStatement entry)

def markMainChain (blockHash : Bytes) (isMain : Bool) : ChainDb Unit := do
  match ← read (·.getBlock blockHash) with
  | none => return ()
  | some entry =>
    modify (·.withMainChain entry blockHash isMain)
    persistStatus (if isMain then markedMain entry else markedSide entry)

/-- Every entry is written back, whether or not its status changed. -/
def persistAll : List (Bytes × BlockIndexEntry) → ChainDb Unit
  | [] => return ()
  | (_, entry) :: rest => do
      persistStatus entry
      persistAll rest

def setBestChainTip (blockHash : Bytes) : ChainDb Unit := do
  match ← read (·.getBlock blockHash) with
  | none => return ()
  | some tip =>
    if tip.isInvalid || (← read (·.isBranchInvalid blockHash)) then return ()
    modify (·.withBestChainTip tip blockHash)
    persistAll (← read (·.index.rows))

/-- The entry of `add_block` before the best tip is looked at. -/
def newEntry (b : BlockIndex) (blockHash : Bytes) (header : BlockHeader) (height chainwork : ℕ) :
    BlockIndexEntry :=
  let entry : BlockIndexEntry := ⟨height, blockHash, header, chainwork, {.HEADER, .BLOCK, .VALID}⟩
  match b.getBlock header.prevBlockHash with
  | none => if 0 < height then (entry.setStatus .ORPHAN).setStatus .SIDE_CHAIN else entry
  | some parent =>
    if parent.isInvalid then (entry.setStatus .INVALID).setStatus .FAILED_VALIDATION else entry

def addBlock (H : Hashlib) (block : Block) (height chainwork : ℕ) (updateBest : Bool) :
    ChainDb Unit := do
  let blockHash := block.header.hashHex H
  let entry ← read (·.newEntry blockHash block.header height chainwork)
  modify fun b => { b with index := b.index.put blockHash entry }
  if updateBest && !entry.isInvalid && decide ((← read getBestChainwork) < chainwork) then
    setBestChainTip blockHash
  else
    match ← read (·.bestHash) with
    | none => return ()
    | some best =>
      if blockHash = best then return ()
      modify fun b => { b with index := b.index.update blockHash (·.setStatus .SIDE_CHAIN) }

/-- What `add_block` without `update_best` does to the index. -/
def withBlock (b : BlockIndex) (blockHash : Bytes) (header : BlockHeader) (height chainwork : ℕ) :
    BlockIndex :=
  let index := b.index.put blockHash (b.newEntry blockHash header height chainwork)
  if b.bestHash = none ∨ b.bestHash = some blockHash then { b with index }
  else { b with index := index.update blockHash (·.setStatus .SIDE_CHAIN) }

end BlockIndex
end BerzCoin
