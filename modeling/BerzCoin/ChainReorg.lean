import BerzCoin.ValidationConnect

/-! `ReorgManager`: switching the active chain, and the dry run of it under a savepoint. -/
namespace BerzCoin
open Database

namespace BlockIndex

/-- The entries that `current = get_block(current.header.prev_block_hash.hex())` walks through
from an entry on. -/
def ancestors (b : BlockIndex) (entry : BlockIndexEntry) : List BlockIndexEntry :=
  entry :: b.branch entry.header.prevBlockHash

/-- `while block.height > height: block = parent`. -/
def climb (b : BlockIndex) (entry : BlockIndexEntry) (height : ℕ) : Option BlockIndexEntry :=
  (b.ancestors entry).find? (·.height ≤ height)

def findCommonAncestor (b : BlockIndex) (block1 block2 : BlockIndexEntry) :
    Option BlockIndexEntry := do
  let block1 ← b.climb block1 block2.height
  let block2 ← b.climb block2 block1.height
  let pair ← ((b.ancestors block1).zip (b.ancestors block2)).find? fun p =>
    p.1.blockHash = p.2.blockHash
  return pair.1

/-- `while current and current.height > fork_point.height`. -/
def pathAbove (b : BlockIndex) (fork entry : BlockIndexEntry) : List BlockIndexEntry :=
  (b.ancestors entry).takeWhile (fork.height < ·.height)

def snapshotStatuses (b : BlockIndex) (hashes : List Bytes) :
    List (Bytes × Option (Finset BlockStatus)) :=
  hashes.map fun blockHash => (blockHash, (b.getBlock blockHash).map BlockIndexEntry.status)

def restoreStatus (b : BlockIndex) : Bytes × Option (Finset BlockStatus) → BlockIndex
  | (_, none) => b
  | (blockHash, some status) => { b with index := b.index.update blockHash fun e => { e with status } }

/-- The flags in memory; the rows of `block_headers` are not written. -/
def restoreStatuses (b : BlockIndex) (snapshot : List (Bytes × Option (Finset BlockStatus))) :
    BlockIndex :=
  snapshot.foldl restoreStatus b

end BlockIndex

/-- `get_block_func` and `validate_connect_block`. They read the database and the index. -/
structure ReorgCallbacks where
  getBlock : Bytes → Tables × BlockIndex → Except PyError (Option Block)
  validate : Option (Block → ℕ → Tables × BlockIndex → Except PyError Bool)

namespace ReorgManager

def checkDisconnectPath : Option BlockIndexEntry → List BlockIndexEntry → Except PyError Unit
  | _, [] => .ok ()
  | none, entry :: rest => checkDisconnectPath (some entry) rest
  | some child, entry :: rest =>
    if entry.blockHash ≠ child.header.prevBlockHash then
      .error (.runtimeError "Disconnect path invariant failed")
    else checkDisconnectPath (some entry) rest

def checkConnectPath : Bytes → List BlockIndexEntry → Except PyError Unit
  | _, [] => .ok ()
  | expectedParent, entry :: rest =>
    if entry.header.prevBlockHash ≠ expectedParent then
      .error (.runtimeError "Connect path invariant failed")
    else checkConnectPath entry.blockHash rest

def validateReorgPaths (fork : BlockIndexEntry)
    (disconnectEntries connectEntries : List BlockIndexEntry) : Except PyError Unit := do
  checkDisconnectPath none disconnectEntries
  checkConnectPath fork.blockHash connectEntries

/-- A callback reads what the connection and the index hold at the time of the call. -/
def consult {α : Type} (f : Tables × BlockIndex → Except PyError α) : ChainDb α := do
  let b ← BlockIndex.read id
  let tables ← execute (.query id)
  liftExcept (f (tables, b))

/-- The validation callback, if there is one. -/
def validated (calls : ReorgCallbacks) (block : Block) (height : ℕ) : ChainDb Bool :=
  match calls.validate with
  | none => return true
  | some validate => consult (validate block height)

section reorganize
variable (H : Hashlib) (calls : ReorgCallbacks)

/-- The manager builds its `ConnectBlock` without a network, so with the default one. -/
def connectBlock (block : Block) : ChainDb Bool := connect H .mainnet block

def disconnectStep (entry : BlockIndexEntry) : ChainDb Block := do
  match ← consult (calls.getBlock entry.blockHash) with
  | none => throw (.runtimeError ("Failed to get block " ++ hex entry.blockHash))
  | some block =>
    if !(← disconnect H block) then
      throw (.runtimeError ("Failed to disconnect block " ++ toString entry.height))
    BlockIndex.markMainChain entry.blockHash false
    return block

def connectStep (entry : BlockIndexEntry) : ChainDb Block := do
  match ← consult (calls.getBlock entry.blockHash) with
  | none => throw (.runtimeError ("Failed to get block " ++ hex entry.blockHash))
  | some block =>
    if !(← validated calls block entry.height) then
      throw (.runtimeError ("Stateful validation failed for reorg block " ++ toString entry.height))
    if !(← connectBlock H block) then
      throw (.runtimeError ("Failed to connect block " ++ toString entry.height))
    BlockIndex.markMainChain entry.blockHash true
    return block

def runSteps (step : BlockIndexEntry → ChainDb Block) : List BlockIndexEntry → ChainDb (List Block)
  | [] => return []
  | entry :: entries => do
      let block ← step entry
      let blocks ← runSteps step entries
      return block :: blocks

def assertPostReorgInvariants (b : BlockIndex)
    (disconnectEntries connectEntries : List BlockIndexEntry) : Except PyError Unit :=
  if disconnectEntries.any fun e => ((b.getBlock e.blockHash).map (·.isMainChain)).getD false then
    .error (.runtimeError "Disconnected block still marked main-chain")
  else if connectEntries.any fun e =>
      ((b.getBlock e.blockHash).map fun current => !current.isMainChain).getD false then
    .error (.runtimeError "Connected block not marked main-chain")
  else .ok ()

/-- The block of `with self._transaction()`. -/
def reorganizeBody (disconnectEntries connectEntries : List BlockIndexEntry) (newBest : Bytes) :
    ChainDb (List Block × List Block) := do
  let disconnected ← runSteps (disconnectStep H calls) disconnectEntries
  let connected ← runSteps (connectStep H calls) connectEntries
  liftExcept (assertPostReorgInvariants (← BlockIndex.read id) disconnectEntries connectEntries)
  BlockIndex.setBestChainTip newBest
  return (disconnected, connected)

/-- The outer `except Exception`. -/
def rollBack (snapshot : List (Bytes × Option (Finset BlockStatus))) (oldBest : Bytes) :
    ChainDb (Bool × List Block × List Block) := do
  tryCatch (do BlockIndex.modify (·.restoreStatuses snapshot); BlockIndex.setBestChainTip oldBest)
    fun _ => return ()
  return (false, [], [])

def reorganize (maxReorgDepth : ℕ) (newBest oldBest : BlockIndexEntry) :
    ChainDb (Bool × List Block × List Block) := do
  let b ← BlockIndex.read id
  match b.findCommonAncestor newBest oldBest with
  | none => return (false, [], [])
  | some fork =>
    if maxReorgDepth < oldBest.height - fork.height then return (false, [], [])
    let disconnectEntries := b.pathAbove fork oldBest
    let connectEntries := (b.pathAbove fork newBest).reverse
    match validateReorgPaths fork disconnectEntries connectEntries with
    -- The snapshot is still empty when the paths are refused.
    | .error _ => rollBack [] oldBest.blockHash
    | .ok () =>
      let snapshot := b.snapshotStatuses ((disconnectEntries ++ connectEntries).map (·.blockHash))
      tryCatch (do
          let (disconnected, connected) ←
            transaction (reorganizeBody H calls disconnectEntries connectEntries newBest.blockHash)
          return (true, disconnected, connected))
        fun _ => rollBack snapshot oldBest.blockHash

/-- `False` where the block is missing or does not disconnect. -/
def preflightDisconnect : List BlockIndexEntry → ChainDb Bool
  | [] => return true
  | entry :: entries => do
      match ← consult (calls.getBlock entry.blockHash) with
      | none => return false
      | some block =>
        if !(← disconnect H block) then return false
        BlockIndex.markMainChain entry.blockHash false
        preflightDisconnect entries

def preflightConnect : List BlockIndexEntry → ChainDb Bool
  | [] => return true
  | entry :: entries => do
      match ← consult (calls.getBlock entry.blockHash) with
      | none => return false
      | some block =>
        if !(← validated calls block entry.height) then return false
        if !(← connectBlock H block) then return false
        BlockIndex.markMainChain entry.blockHash true
        preflightConnect entries

def preflight (disconnectEntries connectEntries : List BlockIndexEntry) : ChainDb Bool := do
  if !(← preflightDisconnect H calls disconnectEntries) then return false
  preflightConnect H calls connectEntries

/-- `try: ... finally: ...`, where the cleaning up runs after any outcome. -/
def andFinally {α : Type} (x : ChainDb α) (cleanup : ChainDb Unit) : ChainDb α := fun s =>
  match x s with
  | .ok a s' =>
    match cleanup s' with
    | .ok () s'' => .ok a s''
    | .error e s'' => .error e s''
  | .error e s' =>
    match cleanup s' with
    | .ok () s'' => .error e s''
    | .error e' s'' => .error e' s''

/-- A statement on the connection itself; `none` is a savepoint that is not there. -/
def onConnection (name : String) (f : SqlConnection Tables → Option (SqlConnection Tables)) :
    ChainDb Unit := fun s =>
  match f s.conn with
  | some c => .ok () { s with conn := c }
  | none => .error (.storageError ("no such savepoint: " ++ name)) s

def savepointName : String := "reorg_preflight"

/-- The `finally` of `can_reorganize`. -/
def leavePreflight (snapshot : List (Bytes × Option (Finset BlockStatus)))
    (originalBest : Option Bytes) : ChainDb Unit :=
  andFinally (onConnection savepointName (·.rollbackTo savepointName)) do
    onConnection savepointName (·.release savepointName)
    BlockIndex.modify (·.restoreStatuses snapshot)
    match originalBest with
    | none => return ()
    | some best => BlockIndex.setBestChainTip best

/-- `can_reorganize` on a live connection. -/
def canReorganize (maxReorgDepth : ℕ) (newBest oldBest : BlockIndexEntry) : ChainDb Bool := do
  let b ← BlockIndex.read id
  match b.findCommonAncestor newBest oldBest with
  | none => return false
  | some fork =>
    if maxReorgDepth < oldBest.height - fork.height then return false
    let disconnectEntries := b.pathAbove fork oldBest
    let connectEntries := (b.pathAbove fork newBest).reverse
    match validateReorgPaths fork disconnectEntries connectEntries with
    | .error _ => return false
    | .ok () =>
      let snapshot := b.snapshotStatuses ((disconnectEntries ++ connectEntries).map (·.blockHash))
      onConnection savepointName fun c => some (c.savepoint savepointName)
      andFinally (preflight H calls disconnectEntries connectEntries)
        (leavePreflight snapshot b.bestHash)

end reorganize
end ReorgManager
end BerzCoin
