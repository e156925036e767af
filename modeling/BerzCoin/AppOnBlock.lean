import BerzCoin.ChainReorgDryRun
import BerzCoin.ConsensusRules
import BerzCoin.P2pOrphanage
import BerzCoin.StorageBlockFiles

/-! `on_block`: the pipeline for incoming blocks. The node holds the database with the block index,
the block files, the best tip as `ChainState` remembers it, and the orphans. The mempool, the
indexers and the wallet are told of new blocks and do not act back. -/
namespace BerzCoin
open Script (Crypto)
open Database

/-- An entry is an object of the index: who holds one sees its flags as they are now. -/
def BlockIndex.current (b : BlockIndex) (entry : BlockIndexEntry) : BlockIndexEntry :=
  (b.getBlock entry.blockHash).getD entry

structure Node where
  session : Session Tables BlockIndex
  files : BlockFiles
  bestHash : Option Bytes
  bestHeight : ℤ
  bestChainwork : ℕ
  orphanage : Orphanage

structure NodeConfig where
  crypto : Crypto
  params : ConsensusParams
  maxReorgDepth : ℕ := 144
  setOrder : SetOrder := .listed

/-- The last component of the result of `on_block`; it is `None` for a block that extends or moves
the active chain. -/
inductive BlockReason
  | known | orphan | stateful_validation_failed | consensus_rule_invalid | connect_failed
  | stored_fork | reorg_missing_index_entry | reorg_preflight_failed | reorg_failed
  deriving DecidableEq, Repr

structure BlockReply where
  accepted : Bool
  reason : Option BlockReason
  deriving DecidableEq, Repr

abbrev NodeM (α : Type) := EStateM PyError Node α

/-- `validate_block_stateful`: what it reads are the tables and the index. -/
abbrev StatefulValidation := Block → ℕ → Tables × BlockIndex → Except PyError Bool

namespace Node

def onChain {α : Type} (x : ChainDb α) : NodeM α := fun node =>
  match x node.session with
  | .ok a session => .ok a { node with session }
  | .error e session => .error e { node with session }

/-- The block files share the connection of the database. -/
def onFiles {α : Type} (x : FileDb α) : NodeM α := fun node =>
  match x ⟨node.session.conn, node.files⟩ with
  | .ok a s => .ok a { node with session := ⟨s.conn, node.session.memory⟩, files := s.memory }
  | .error e s => .error e { node with session := ⟨s.conn, node.session.memory⟩, files := s.memory }

section pipeline
variable (cfg : NodeConfig)

/-- `chainstate.validate_block_stateful` at a time. -/
def validateBlockStateful (clock : ℚ) : StatefulValidation := fun block height d =>
  BlockValidator.validateBlock cfg.crypto cfg.params d.1.utxo.get? d.2 ⌊clock⌋₊ block height

/-- `chainstate.get_block`. A block that is read for a reorganisation is not put into the cache
again. -/
def getBlock (files : BlockFiles) (blockHash : Bytes) (d : Tables × BlockIndex) :
    Except PyError (Option Block) :=
  match d.2.getBlock blockHash with
  | none => .ok none
  | some entry =>
    .ok (files.lookup cfg.crypto.toHashlib (d.1.blocks.get? entry.blockHash) entry.blockHash)

/-- `_lookup_output_value`. -/
def lookupOutputValue (tables : Tables) (outpoint : Outpoint) : Option ℕ :=
  (tables.outputs.get? outpoint).map fun row => row.value.1

/-- `chainstate.set_best_block`. -/
def setBestBlock (blockHash : Bytes) (height chainwork : ℕ) : NodeM Unit := do
  modify fun node => { node with bestHash := some blockHash, bestHeight := height, bestChainwork := chainwork }
  onChain (BlockIndex.setBestChainTip blockHash)

/-- `_connect_as_new_tip`. -/
def connectAsNewTip (block : Block) (height chainworkTotal : ℕ) : NodeM Bool := do
  if !(← onChain (connect cfg.crypto.toHashlib cfg.params.network block)) then return false
  setBestBlock (block.header.hashHex cfg.crypto.toHashlib) height chainworkTotal
  return true

variable (validate : StatefulValidation)

/-- The heavier side branch. -/
def tryReorganize (bestHash : Option Bytes) (blockHash : Bytes) : NodeM BlockReply := do
  let b ← onChain (BlockIndex.read id)
  match bestHash.bind b.getBlock, b.getBlock blockHash with
  | some currentBest, some candidateBest =>
    let files := (← get).files
    let calls : ReorgCallbacks := ⟨getBlock cfg files, some validate⟩
    if !(← onChain (ReorgManager.canReorganize cfg.crypto.toHashlib calls cfg.maxReorgDepth
        candidateBest currentBest)) then
      return ⟨false, some .reorg_preflight_failed⟩
    let b ← onChain (BlockIndex.read id)
    let (ok, _, _) ← onChain (ReorgManager.reorganize cfg.crypto.toHashlib calls cfg.maxReorgDepth
      (b.current candidateBest) (b.current currentBest))
    if !ok then return ⟨false, some .reorg_failed⟩
    setBestBlock candidateBest.blockHash candidateBest.height candidateBest.chainwork
    return ⟨true, none⟩
  | _, _ => return ⟨false, some .reorg_missing_index_entry⟩

/-- The check before a block is stored: against the UTXO set where it extends the best tip, else
only the rules that do not need it. -/
def checkBlock (clock : ℚ) (extendsTip : Bool) (block : Block) (height : ℕ) :
    NodeM (Option BlockReason) := do
  if extendsTip then
    if ← onChain (ReorgManager.consult (validate block height)) then return none
    return some .stateful_validation_failed
  let tables ← onChain (execute (.query id))
  match ConsensusRules.validateBlock cfg.crypto.toHashlib cfg.params (lookupOutputValue tables)
      ⌊clock⌋₊ block height with
  | .ok () => return none
  | .error _ => return some .consensus_rule_invalid

/-- What is written before the effects of a block are applied. -/
def storeBlock (clock : ℚ) (block : Block) (height chainworkTotal : ℕ) : NodeM Unit := do
  onFiles (BlockFiles.writeBlock cfg.crypto.toHashlib block height ⌊clock⌋₊)
  onChain (BlockIndex.addBlock cfg.crypto.toHashlib block height chainworkTotal false)
  onChain (HeaderChain.addHeader cfg.crypto.toHashlib block.header height chainworkTotal)

/-- A block whose parent is in the index. -/
def acceptChild (clock : ℚ) (block : Block) (parent : BlockIndexEntry) : NodeM BlockReply := do
  let blockHash := block.header.hashHex cfg.crypto.toHashlib
  let prevHash := block.header.prevBlockHash
  let height := parent.height + 1
  let _ ← onFiles (BlockFiles.readBlockByHash cfg.crypto.toHashlib parent.blockHash)
  let bestHash := (← get).bestHash
  let extendsTip : Bool := bestHash = some prevHash
  if let some reason ← checkBlock cfg validate clock extendsTip block height then
    return ⟨false, some reason⟩
  let chainworkTotal := parent.chainwork +
    ChainWork.calculateBlockWork cfg.params block.header.bits
  storeBlock cfg clock block height chainworkTotal
  if extendsTip then
    if ← connectAsNewTip cfg block height chainworkTotal then return ⟨true, none⟩
    return ⟨false, some .connect_failed⟩
  if chainworkTotal ≤ (← get).bestChainwork then return ⟨true, some .stored_fork⟩
  tryReorganize cfg validate bestHash blockHash

/-- `on_block` without the orphans that wait for the block. -/
def acceptBlock (clock : ℚ) (block : Block) (sourcePeer : Option String) : NodeM BlockReply := do
  let b ← onChain (BlockIndex.read id)
  if (b.getBlock (block.header.hashHex cfg.crypto.toHashlib)).isSome then return ⟨true, some .known⟩
  modify fun node => { node with orphanage := node.orphanage.cleanupExpired clock }
  match b.getBlock block.header.prevBlockHash with
  | none =>
    modify fun node => { node with
      orphanage := node.orphanage.addOrphan cfg.crypto.toHashlib clock block sourcePeer }
    return ⟨false, some .orphan⟩
  | some parent => acceptChild cfg validate clock block parent

/-- The loop over the children in one round of `_process_orphan_children`; the hash of the last
child that was accepted, if any. -/
def processChildren (clock : ℚ) (onBlock : Block → NodeM BlockReply) :
    List Block → Option Bytes → NodeM (Option Bytes)
  | [], progress => return progress
  | child :: children, progress => do
      let childHash := child.header.hashHex cfg.crypto.toHashlib
      modify fun node => { node with orphanage := node.orphanage.removeOrphan childHash }
      let reply ← onBlock child
      if reply.accepted then processChildren clock onBlock children (some childHash)
      else do
        if reply.reason = some .orphan then
          modify fun node => { node with
            orphanage := node.orphanage.addOrphan cfg.crypto.toHashlib clock child none }
        processChildren clock onBlock children progress

/-- `_process_orphan_children`; each round takes at least one orphan out. -/
def processOrphanChildren (clock : ℚ) (onBlock : Block → NodeM BlockReply) :
    ℕ → Bytes → NodeM Unit
  | 0, _ => return ()
  | rounds + 1, parentHash => do
      match (← get).orphanage.getChildren cfg.setOrder parentHash with
      | [] => return ()
      | children =>
        match ← processChildren cfg clock onBlock children none with
        | none => return ()
        | some childHash => processOrphanChildren clock onBlock rounds childHash

/-- `on_block` with at most `depth` calls of itself inside each other. -/
def onBlockWithin (clock : ℚ) : ℕ → Block → Option String → NodeM BlockReply
  | 0, block, sourcePeer => acceptBlock cfg validate clock block sourcePeer
  | depth + 1, block, sourcePeer => do
      let reply ← acceptBlock cfg validate clock block sourcePeer
      if reply = ⟨true, none⟩ then
        processOrphanChildren cfg clock (fun child => onBlockWithin clock depth child none)
          ((← get).orphanage.orphans.rows.length + 1) (block.header.hashHex cfg.crypto.toHashlib)
      return reply

end pipeline

/-- `on_block`. Every call inside another one is for an orphan that was taken out before. -/
def onBlock (cfg : NodeConfig) (clock : ℚ) (block : Block) (sourcePeer : Option String) :
    NodeM BlockReply := do
  onBlockWithin cfg (validateBlockStateful cfg clock) clock
    ((← get).orphanage.orphans.rows.length + 1) block sourcePeer

end Node
end BerzCoin
