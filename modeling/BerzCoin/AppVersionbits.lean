import BerzCoin.AppStored
import BerzCoin.ConsensusVersionbits
import BerzCoin.P2pSync

/-! The node with what its `ChainState` remembers beside it: the caches of the header chain and the
deployments. `set_best_block` moves the deployments on by one update at the new tip, and so does
`get_mining_block_version` at the tip as it stands. Nothing that `on_block` decides depends on them:
the deployments of the rules on transactions have names of their own. -/
namespace BerzCoin
open Database BlockIndex
open VersionBitsTracker (windowSize updateState updateAt statesAfter)

/-- The headers of the main chain, as the height index gives them. -/
def Node.activeChain (node : Node) : List BlockHeader :=
  (List.range (node.bestHeight + 1).toNat).filterMap fun height =>
    (node.session.memory.getBlockByHeight height).map BlockIndexEntry.header

structure TrackedNode where
  node : Node
  headerCache : KeyedRows ℕ BlockHeader
  heightCache : KeyedRows Bytes ℕ
  deployments : List VersionBitsDeployment

abbrev TrackedM (α : Type) := EStateM PyError TrackedNode α

namespace TrackedNode
variable (t : TrackedNode)

def headerChain : CachedHeaders := ⟨t.node.session.conn.current.blockHeaders, t.headerCache, t.heightCache⟩

def withCaches (caches : CachedHeaders) : TrackedNode :=
  { t with headerCache := caches.headerCache, heightCache := caches.heightCache }

/-- `chainstate.get_header`. -/
def getHeader (height : ℕ) : Option BlockHeader × TrackedNode :=
  match t.node.session.memory.getBlockByHeight height with
  | none => (none, t)
  | some entry =>
    let (header, caches) := t.headerChain.getHeaderByHash entry.blockHash
    (header, t.withCaches caches)

/-- The versions of the headers that are found at the heights. -/
def versionsAt : List ℕ → TrackedNode → List ℕ × TrackedNode
  | [], t => ([], t)
  | height :: heights, t =>
    match t.getHeader height with
    | (none, t) => versionsAt heights t
    | (some header, t) =>
      let (versions, t) := versionsAt heights t
      (header.version.toNat :: versions, t)

/-- `_get_recent_header_versions`. -/
def getRecentHeaderVersions (count : ℕ) : List ℕ × TrackedNode :=
  if count = 0 ∨ t.node.bestHeight < 0 then ([], t)
  else
    let bestHeight := t.node.bestHeight.toNat
    let start := bestHeight + 1 - count
    versionsAt (List.range' start (bestHeight + 1 - start)) t

def refreshVersionbitsState : TrackedNode :=
  if t.node.bestHeight < 0 then t
  else
    match t.getHeader t.node.bestHeight.toNat with
    | (none, t) => t
    | (some tipHeader, t) =>
      let (versions, t) := t.getRecentHeaderVersions windowSize
      { t with
        deployments := updateState t.deployments t.node.bestHeight.toNat tipHeader.timestamp.toNat
          versions }

def getMiningBlockVersion (baseVersion : ℕ) : ℕ × TrackedNode :=
  let t := t.refreshVersionbitsState
  (VersionBitsTracker.getBlockVersion t.deployments baseVersion, t)

/-- `initialize` in a fresh process, after the block index was loaded. -/
def initialized (cfg : NodeConfig) (node : Node) : TrackedNode :=
  refreshVersionbitsState
    { node
      headerCache := KeyedRows.empty
      heightCache := KeyedRows.empty
      deployments := getDeploymentDefinitions cfg.params.network }

/-- What header synchronisation uses of the node. -/
def syncChain (H : Hashlib) : SyncChain where
  blockIndex := t.node.session.memory
  bestHeight := t.node.bestHeight
  headerChain := t.headerChain
  readBlockByHash blockHash :=
    t.node.files.lookup H (t.node.session.conn.current.blocks.get? blockHash) blockHash

/-- The rows and the caches of a header chain that was worked on. -/
def withHeaderChain (headers : CachedHeaders) : TrackedNode :=
  let conn := t.node.session.conn.openImplicitly
  { t.withCaches headers with
    node := { t.node with session := { t.node.session with
      conn := conn.write { conn.current with blockHeaders := headers.rows } } } }

def processHeaders (cfg : NodeConfig) (now : ℕ) (headers : List Bytes) : TrackedNode :=
  t.withHeaderChain
    (BlockSync.processHeaders cfg.crypto.toHashlib cfg.params now (t.syncChain cfg.crypto.toHashlib)
      headers).1.headerChain

/-- The caches after `add_header`. -/
def cacheHeader (blockHash : Bytes) (header : BlockHeader) (height : ℕ) : TrackedNode :=
  { t with
    headerCache := t.headerCache.put height header
    heightCache := t.heightCache.put blockHash height }

def onNode {α : Type} (x : NodeM α) : TrackedM α := fun t =>
  match x t.node with
  | .ok a node => .ok a { t with node }
  | .error e node => .error e { t with node }

def final {α : Type} (x : TrackedM α) (t : TrackedNode) : TrackedNode :=
  match x t with
  | .ok _ t' => t'
  | .error _ t' => t'

section pipeline
variable (cfg : NodeConfig) (validate : StatefulValidation)

/-- A block whose parent is in the index. The last thing that a new best tip does is the update of
the deployments. -/
def acceptChild (clock : ℚ) (block : Block) (parent : BlockIndexEntry) : TrackedM BlockReply := do
  let blockHash := block.header.hashHex cfg.crypto.toHashlib
  let height := parent.height + 1
  let _ ← onNode (Node.onFiles (BlockFiles.readBlockByHash cfg.crypto.toHashlib parent.blockHash))
  let bestHash := (← get).node.bestHash
  let extendsTip : Bool := bestHash = some block.header.prevBlockHash
  match ← onNode (Node.checkBlock cfg validate clock extendsTip block height) with
  | some reason => return ⟨false, some reason⟩
  | none =>
    let chainworkTotal := parent.chainwork +
      ChainWork.calculateBlockWork cfg.params block.header.bits
    onNode (Node.storeBlock cfg clock block height chainworkTotal)
    modify fun t => t.cacheHeader blockHash block.header height
    let reply ← onNode (Node.settle cfg validate bestHash extendsTip block height chainworkTotal)
    if reply = ⟨true, none⟩ then modify refreshVersionbitsState
    return reply

end pipeline

/-! Runs. -/

inductive Step
  | orphans (o : Orphanage)
  | accept (clock : ℚ) (block : Block) (parent : BlockIndexEntry)
  | sync (now : ℕ) (headers : List Bytes)
  | mining (baseVersion : ℕ)

namespace Step
variable (cfg : NodeConfig) (aboveRoot : Bytes) (t : TrackedNode)

def apply : Step → TrackedNode
  | .orphans o => { t with node := { t.node with orphanage := o } }
  | .accept clock block parent =>
    t.final (acceptChild cfg (Node.validateBlockStateful cfg clock) clock block parent)
  | .sync now headers => t.processHeaders cfg now headers
  | .mining baseVersion => (t.getMiningBlockVersion baseVersion).2

/-- A block is taken up when it is new and its parent is known. -/
def Possible : Step → Prop
  | .orphans o => Node.OrphansAll (fun block => block.header.hashHex cfg.crypto.toHashlib ≠ aboveRoot) o
  | .accept _ block parent =>
    block.header.hashHex cfg.crypto.toHashlib ≠ aboveRoot ∧
      t.node.session.memory.getBlock block.header.prevBlockHash = some parent ∧
      t.node.session.memory.getBlock (block.header.hashHex cfg.crypto.toHashlib) = none
  | .sync _ _ => True
  | .mining _ => True

end Step

/-- The states of a process between taking up one block and the next, also inside one call of
`on_block`. -/
inductive Run (cfg : NodeConfig) (aboveRoot : Bytes) (allowed : TrackedNode → Step → Prop)
    (start : TrackedNode) : TrackedNode → Prop
  | start : Run cfg aboveRoot allowed start start
  | step {t : TrackedNode} (s : Step) : Run cfg aboveRoot allowed start t →
      s.Possible cfg aboveRoot t → allowed t s → Run cfg aboveRoot allowed start (s.apply cfg t)

end TrackedNode
end BerzCoin
