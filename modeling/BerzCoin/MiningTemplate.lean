import BerzCoin.AppReconcile
import BerzCoin.MempoolTemplate
import BerzCoin.MiningBits

/-! Block templates: those of `BlockAssembler` and of the RPC handlers, and the block that is built
from the latter. -/
namespace BerzCoin
open Script (asciiBytes)

/-- What templates read of `ChainState`; `view` is what the mempool reads of it. -/
structure MiningChain where
  view : ChainView
  bestHash : Option Bytes
  getHeader : ℕ → Option BlockHeader
  getBlock : Bytes → Option Block
  getBlockByHeight : ℕ → Option Block
  getMiningBlockVersion : ℕ → ℕ

/-- A header whose integers need not fit their fields. -/
structure HeaderFields where
  version : ℕ
  prevBlockHash : Bytes
  merkleRoot : Bytes
  timestamp : ℕ
  bits : ℕ
  nonce : ℕ
  deriving DecidableEq, Repr

/-- The header that `serialize` writes. -/
def HeaderFields.pack (fields : HeaderFields) : Except PyError BlockHeader :=
  if fields.version < 2 ^ 32 ∧ fields.timestamp < 2 ^ 32 ∧ fields.bits < 2 ^ 32 ∧
      fields.nonce < 2 ^ 32 then
    .ok
      { version := UInt32.ofNat fields.version
        prevBlockHash := fields.prevBlockHash
        merkleRoot := fields.merkleRoot
        timestamp := UInt32.ofNat fields.timestamp
        bits := UInt32.ofNat fields.bits
        nonce := UInt32.ofNat fields.nonce }
  else .error (.structError "argument out of range")

lemma HeaderFields.prevBlockHash_of_pack {fields : HeaderFields} {header : BlockHeader}
    (h : fields.pack = .ok header) : header.prevBlockHash = fields.prevBlockHash := by
  unfold HeaderFields.pack at h
  split_ifs at h
  cases h
  rfl

/-- An exception of the RPC handlers, or one of Python's. -/
inductive RpcFailure
  | rpcError (code : ℤ) (message : String)
  | python (e : PyError)
  deriving DecidableEq, Repr

def liftPython {α : Type} (x : Except PyError α) : Except RpcFailure α := x.mapError .python

namespace Mining

def reservedWeight : ℕ := 4000

/-- `max(1, bit_length bytes)`, little-endian. -/
def positiveBytes (n : ℕ) : Bytes := leBytes (max 1 ((Nat.size n + 7) / 8)) n

/-- A push of the bytes, for fewer than 256 of them. -/
def pushOf (data : Bytes) : Bytes := UInt8.ofNat data.length :: data

/-- The coinbase with its value; a value out of the range of its field is refused by the encoding,
which the transaction id needs. -/
def coinbase (version : UInt32) (script : Bytes) (value : ℤ) (scriptPubkey : Bytes) :
    Except PyError Transaction :=
  if 0 ≤ value ∧ value < 2 ^ 64 then
    .ok
      { version
        vin := [⟨zeroHash, 0xffffffff, script, 0xffffffff, []⟩]
        vout := [⟨UInt64.ofNat value.toNat, scriptPubkey⟩]
        locktime := 0 }
  else .error (.structError "argument out of range")

/-- `_get_transaction_fee`, from the UTXO table of the chain. -/
def transactionFee (view : ChainView) (tx : Transaction) : ℤ :=
  ((tx.vin.map fun txin => ((view.getUtxo txin.outpoint).map fun row => (row.value.1 : ℤ)).getD 0)).sum -
    (tx.vout.map fun txout => (txout.value.toNat : ℤ)).sum

def coinbaseVersion (params : ConsensusParams) (height : ℕ) : UInt32 :=
  if params.isConsensusFeatureActive .HARDFORK_TX_V2 height then 2 else 1

/-- The timestamps of the last eleven blocks, sorted. -/
def lastTimes (chain : MiningChain) (bestHeight : ℕ) : List ℕ :=
  let start := bestHeight - 10
  ((List.range' start (bestHeight + 1 - start)).filterMap fun h =>
    (chain.getBlockByHeight h).map fun block => block.header.timestamp.toNat).insertionSort (· ≤ ·)

/-- `_median_time_past`; `now` is `int(time.time())`. -/
def medianTimePast (chain : MiningChain) (now bestHeight : ℕ) : ℕ :=
  let times := lastTimes chain bestHeight
  if times = [] then now else times.getD (times.length / 2) 0

end Mining

/-- An element of the list `transactions` of a template. -/
structure TemplateTransaction where
  data : Bytes
  txid : Bytes
  fee : ℤ
  weight : ℕ
  deriving DecidableEq, Repr

/-- The result of `create_block_template`; hex renderings and constants are left out. -/
structure BlockTemplate where
  version : ℕ
  previousblockhash : Bytes
  height : ℕ
  transactions : List TemplateTransaction
  coinbasevalue : ℤ
  coinbaseTx : Bytes
  curtime : ℕ
  bits : ℕ
  sigoplimit : ℕ
  sizelimit : ℕ
  weightlimit : ℕ
  header : BlockHeader
  merkleroot : Bytes
  deriving DecidableEq, Repr

/-- The result of `get_block_template`, alike. -/
structure RpcTemplate where
  version : ℕ
  previousblockhash : Bytes
  merkleroot : Bytes
  transactions : List TemplateTransaction
  coinbasetxn : Bytes
  coinbasevalue : ℤ
  curtime : ℕ
  bits : ℕ
  weightlimit : ℕ
  height : ℕ
  deriving DecidableEq, Repr

section templates
variable {F : Type} [LinearOrder F] (H : Hashlib) (settings : MempoolSettings F) (order : SetOrder)
  (lowest : F) (createScriptPubkey : String → Except PyError Bytes) (chain : MiningChain)
  (pool : Mempool F) (now : ℕ)

namespace BlockAssembler

def tipHeader : Option BlockHeader :=
  if chain.view.bestHeight < 0 then none else chain.getHeader chain.view.bestHeight.toNat

def createCoinbase (height : ℕ) (value : ℤ) (address : String) : Except PyError Transaction := do
  let script := Mining.pushOf (Mining.positiveBytes height) ++ asciiBytes "/BerzCoin/"
  Mining.coinbase (Mining.coinbaseVersion chain.view.params height) script value
    (← createScriptPubkey address)

/-- `self._mempool_fee(tx) or self._get_transaction_fee(tx)`. -/
def serializeTransaction (tx : Transaction) : TemplateTransaction where
  data := tx.serialize true
  txid := tx.txid H
  fee :=
    match (pool.transactions.get? (tx.txid H)).map MempoolEntry.fee with
    | some fee => if fee ≠ 0 then fee else Mining.transactionFee chain.view tx
    | none => Mining.transactionFee chain.view tx
  weight := tx.weight

def calculateTimestamp (bestHeight : ℕ) (prevHeader : BlockHeader) : ℕ :=
  let timestamp := max now (Mining.medianTimePast chain now bestHeight + 1)
  if timestamp ≤ prevHeader.timestamp.toNat then prevHeader.timestamp.toNat + 1 else timestamp

/-- The template around the selected transactions. -/
def assemble (tipHash : Bytes) (tipHeader : BlockHeader) (rewardAddr : String)
    (transactions : List Transaction) : Except PyError BlockTemplate :=
  if rewardAddr = "" then .error (.valueError "No coinbase address provided") else do
  let params := chain.view.params
  let bestHeight := chain.view.bestHeight.toNat
  let height := bestHeight + 1
  let coinbaseValue := getBlockSubsidy height params +
    (transactions.map (Mining.transactionFee chain.view)).sum
  let coinbaseTx ← createCoinbase createScriptPubkey chain height coinbaseValue rewardAddr
  let merkleRootHash :=
    (merkleRoot H ((coinbaseTx :: transactions).map (·.txid H))).getD zeroHash
  let bits := getNextBits params chain.getHeader bestHeight
  let timestamp := calculateTimestamp chain now bestHeight tipHeader
  let version := chain.getMiningBlockVersion 0x20000000
  let fields : HeaderFields := ⟨version, tipHeader.hash H, merkleRootHash, timestamp, bits, 0⟩
  let header ← fields.pack
  return {
    version
    previousblockhash := tipHash
    height
    transactions := transactions.map (serializeTransaction H chain pool)
    coinbasevalue := coinbaseValue
    coinbaseTx := coinbaseTx.serialize true
    curtime := timestamp
    bits
    sigoplimit := params.maxBlockSigops
    sizelimit := params.maxBlockSize
    weightlimit := params.maxBlockWeight
    header
    merkleroot := merkleRootHash }

/-- `create_block_template`; `none` where the selection runs out of fuel. -/
def createBlockTemplate (address coinbaseAddress : String) : Option (Except PyError BlockTemplate) :=
  match tipHeader chain, chain.bestHash with
  | some header, some tipHash =>
    (pool.getTransactionsForBlock settings chain.view order lowest
      (chain.view.params.maxBlockWeight - Mining.reservedWeight)).map
        (assemble H createScriptPubkey chain pool now tipHash header
          (if address = "" then coinbaseAddress else address))
  | _, _ => some (.error (.valueError "No chain tip found"))

end BlockAssembler

namespace MiningHandlers

/-- `tx_builder.create_coinbase`. -/
def createCoinbase (height : ℕ) (reward : ℤ) (address : String) : Except PyError Transaction := do
  let script := Mining.pushOf (BlockValidator.heightBytes height) ++ asciiBytes "/BerzCoin/"
  Mining.coinbase 1 script reward (← createScriptPubkey address)

def entryFee (tx : Transaction) : ℤ :=
  ((pool.transactions.get? (tx.txid H)).map MempoolEntry.fee).getD 0

def assemble (bestHash : Bytes) (bestHeader : BlockHeader) (miningAddress : String)
    (transactions : List Transaction) : Except RpcFailure RpcTemplate := do
  let params := chain.view.params
  let bestHeight := chain.view.bestHeight.toNat
  let height := bestHeight + 1
  let coinbaseValue := getBlockSubsidy height params + (transactions.map (entryFee H pool)).sum
  let coinbaseTx ← liftPython (createCoinbase createScriptPubkey height coinbaseValue miningAddress)
  let merkleRootHash :=
    (merkleRoot H ((coinbaseTx :: transactions).map (·.txid H))).getD zeroHash
  return {
    version := 0x20000000
    previousblockhash := bestHash
    merkleroot := merkleRootHash
    transactions := transactions.map fun tx =>
      ⟨tx.serialize true, tx.txid H, entryFee H pool tx, tx.weight⟩
    coinbasetxn := coinbaseTx.serialize true
    coinbasevalue := coinbaseValue
    curtime := Mining.medianTimePast chain now bestHeight + 1
    bits := nextBits params chain.getHeader bestHeight bestHeader
    weightlimit := params.maxBlockWeight
    height }

/-- `get_block_template`; `none` where the selection runs out of fuel. -/
def getBlockTemplate (miningAddress : Option String) : Option (Except RpcFailure RpcTemplate) :=
  match chain.bestHash, BlockAssembler.tipHeader chain with
  | some bestHash, some bestHeader =>
    (pool.getTransactionsForBlock settings chain.view order lowest
      (chain.view.params.maxBlockWeight - Mining.reservedWeight)).map
        (assemble H createScriptPubkey chain pool now bestHash bestHeader
          (miningAddress.getD "1111111111111111111114oLvT2"))
  | _, _ => some (.error (.rpcError (-32000) "No chain tip"))

/-- The header and the transactions of a template. -/
def buildFromTemplate (template : RpcTemplate) : Except PyError (HeaderFields × List Transaction) := do
  let (coinbase, _) ← Transaction.deserialize template.coinbasetxn 0
  let txs ← template.transactions.mapM fun ent => (Transaction.deserialize ent.data 0).map Prod.fst
  let prevHashBytes :=
    match chain.getBlock template.previousblockhash with
    | some prevBlk => prevBlk.header.hash H
    | none => template.previousblockhash.reverse
  return (⟨template.version, prevHashBytes, template.merkleroot, template.curtime, template.bits, 0⟩,
    coinbase :: txs)

/-- `_create_block_from_template`: value and type errors are logged, others go on. -/
def createBlockFromTemplate (template : RpcTemplate) :
    Except PyError (Option (HeaderFields × List Transaction)) :=
  if template.coinbasetxn = [] then .ok none
  else
    match buildFromTemplate H chain template with
    | .ok block => .ok (some block)
    | .error (.valueError _) => .ok none
    | .error (.typeError _) => .ok none
    | .error e => .error e

end MiningHandlers
end templates

/-! The parent of a block that is made from a template. -/
section parent
variable {F : Type} [LinearOrder F] {H : Hashlib} {settings : MempoolSettings F} {order : SetOrder}
  {lowest : F} {createScriptPubkey : String → Except PyError Bytes} {chain : MiningChain}
  {pool : Mempool F} {now : ℕ}

omit [LinearOrder F] in
lemma BlockAssembler.prevBlockHash_of_assemble {tipHash : Bytes} {tipHeader : BlockHeader}
    {rewardAddr : String} {transactions : List Transaction} {template : BlockTemplate}
    (h : assemble H createScriptPubkey chain pool now tipHash tipHeader rewardAddr transactions =
      .ok template) : template.header.prevBlockHash = tipHeader.hash H := by
  unfold assemble at h
  split_ifs at h
  obtain ⟨coinbaseTx, -, h⟩ := except_bind_eq_ok h
  obtain ⟨header, hpack, h⟩ := except_bind_eq_ok h
  cases h
  exact HeaderFields.prevBlockHash_of_pack hpack

lemma BlockAssembler.prevBlockHash_of_createBlockTemplate {address coinbaseAddress : String}
    {template : BlockTemplate}
    (h : createBlockTemplate H settings order lowest createScriptPubkey chain pool now address
      coinbaseAddress = some (.ok template)) :
    ∃ header, tipHeader chain = some header ∧ template.header.prevBlockHash = header.hash H := by
  unfold createBlockTemplate at h
  split at h
  · rename_i header tipHash hheader _
    obtain ⟨transactions, -, hassemble⟩ := Option.map_eq_some_iff.1 h
    exact ⟨header, hheader, prevBlockHash_of_assemble hassemble⟩
  · cases h

lemma MiningHandlers.previousblockhash_of_getBlockTemplate {miningAddress : Option String}
    {template : RpcTemplate}
    (h : getBlockTemplate H settings order lowest createScriptPubkey chain pool now miningAddress =
      some (.ok template)) : chain.bestHash = some template.previousblockhash := by
  unfold getBlockTemplate at h
  split at h
  · rename_i bestHash bestHeader hhash _
    obtain ⟨transactions, -, hassemble⟩ := Option.map_eq_some_iff.1 h
    unfold assemble at hassemble
    obtain ⟨coinbaseTx, -, hassemble⟩ := except_bind_eq_ok hassemble
    cases hassemble
    exact hhash
  · cases h

/-- Whether the parent is in the block store or not, the bytes of its key are turned around. -/
lemma MiningHandlers.prevBlockHash_of_createBlockFromTemplate {template : RpcTemplate}
    {fields : HeaderFields} {transactions : List Transaction}
    (hstore : ∀ block, chain.getBlock template.previousblockhash = some block →
      block.header.hashHex H = template.previousblockhash)
    (h : createBlockFromTemplate H chain template = .ok (some (fields, transactions))) :
    fields.prevBlockHash = template.previousblockhash.reverse := by
  unfold createBlockFromTemplate at h
  split_ifs at h
  · cases h
  split at h
  · rename_i built hbuilt
    cases h
    unfold buildFromTemplate at hbuilt
    obtain ⟨coinbase, -, hbuilt⟩ := except_bind_eq_ok hbuilt
    obtain ⟨txs, -, hbuilt⟩ := except_bind_eq_ok hbuilt
    cases hbuilt
    simp only
    split
    · rename_i block hblock
      rw [← hstore block hblock, BlockHeader.hashHex, List.reverse_reverse]
    · rfl
  all_goals cases h

end parent

namespace Node

/-- Every result of an action has the property. -/
def Returns {α : Type} (P : α → Prop) (x : NodeM α) : Prop :=
  ∀ node a node', x node = .ok a node' → P a

namespace Returns
variable {α β : Type} {P : β → Prop} {R : α → Prop}

lemma ret {b : β} (h : P b) : Returns P (pure b : NodeM β) := by
  intro node a node' heq
  cases heq
  exact h

lemma any (x : NodeM α) : Returns (fun _ => True) x := fun _ _ _ _ => trivial

lemma bind {x : NodeM α} {f : α → NodeM β} (hx : Returns R x) (hf : ∀ a, R a → Returns P (f a)) :
    Returns P (x >>= f) := by
  intro node b node' h
  rw [bind_apply] at h
  cases hxs : x node with
  | error e node₁ => simp [hxs] at h
  | ok a node₁ =>
    rw [hxs] at h
    exact hf a (hx node a node₁ hxs) node₁ b node' h

lemma after (x : NodeM α) {f : α → NodeM β} (hf : ∀ a, Returns P (f a)) : Returns P (x >>= f) :=
  (any x).bind fun a _ => hf a

end Returns

section orphan
variable (cfg : NodeConfig) (validate : StatefulValidation)

/-- The reply is not that the parent is missing. -/
def HasParent (reply : BlockReply) : Prop := reply.reason ≠ some .orphan

lemma returns_tryReorganize (bestHash : Option Bytes) (blockHash : Bytes) :
    Returns HasParent (tryReorganize cfg validate bestHash blockHash) := by
  unfold tryReorganize
  apply Returns.after
  intro b
  split
  · apply Returns.after
    intro node
    apply Returns.after
    intro can
    split
    · exact .ret (by simp [HasParent])
    · apply Returns.after
      intro b'
      apply Returns.after
      intro result
      obtain ⟨ok, disconnected, connected⟩ := result
      dsimp only
      split
      · exact .ret (by simp [HasParent])
      · exact .after _ fun _ => .ret (by simp [HasParent])
  · exact .ret (by simp [HasParent])

lemma returns_settle (bestHash : Option Bytes) (extendsTip : Bool) (block : Block)
    (height chainworkTotal : ℕ) :
    Returns HasParent (settle cfg validate bestHash extendsTip block height chainworkTotal) := by
  unfold settle
  split
  · apply Returns.after
    intro connected
    split
    · exact .ret (by simp [HasParent])
    · exact .ret (by simp [HasParent])
  · apply Returns.after
    intro node
    split
    · exact .ret (by simp [HasParent])
    · exact returns_tryReorganize cfg validate bestHash _

lemma returns_checkBlock (clock : ℚ) (extendsTip : Bool) (block : Block) (height : ℕ) :
    Returns (fun reason => reason ≠ some .orphan)
      (checkBlock cfg validate clock extendsTip block height) := by
  unfold checkBlock
  split
  · apply Returns.after
    intro valid
    split
    · exact .ret (by simp)
    · exact .ret (by simp)
  · apply Returns.after
    intro tables
    split
    · exact .ret (by simp)
    · exact .ret (by simp)

lemma returns_acceptChild (clock : ℚ) (block : Block) (parent : BlockIndexEntry) :
    Returns HasParent (acceptChild cfg validate clock block parent) := by
  rw [acceptChild_eq]
  apply Returns.after
  intro read
  apply Returns.after
  intro node
  refine Returns.bind (returns_checkBlock cfg validate clock _ block _) ?_
  intro reason hreason
  cases reason with
  | some reason => exact .ret hreason
  | none => exact .after _ fun _ => returns_settle cfg validate _ _ block _ _

variable {cfg validate}

lemma acceptBlock_hasParent {clock : ℚ} {block : Block} {sourcePeer : Option String}
    {node node' : Node} {reply : BlockReply} {parent : BlockIndexEntry}
    (hparent : node.session.memory.getBlock block.header.prevBlockHash = some parent)
    (h : acceptBlock cfg validate clock block sourcePeer node = .ok reply node') :
    HasParent reply := by
  simp only [acceptBlock, bind_apply, read_apply, id] at h
  split_ifs at h
  · cases h
    simp [HasParent]
  · simp only [bind_apply, modify_apply, hparent] at h
    exact returns_acceptChild cfg validate clock block parent _ _ _ h

/-- A block whose parent is in the index is never taken for an orphan. -/
lemma onBlock_hasParent {clock : ℚ} {block : Block} {sourcePeer : Option String}
    {node node' : Node} {reply : BlockReply} {parent : BlockIndexEntry}
    (hparent : node.session.memory.getBlock block.header.prevBlockHash = some parent)
    (h : onBlock cfg clock block sourcePeer node = .ok reply node') : HasParent reply := by
  simp only [onBlock, bind_apply, get_apply, onBlockWithin] at h
  cases haccept : acceptBlock cfg (validateBlockStateful cfg clock) clock block sourcePeer node with
  | error e node₁ => simp [haccept] at h
  | ok first node₁ =>
    have hfirst := acceptBlock_hasParent hparent haccept
    simp only [haccept] at h
    split_ifs at h
    · simp only [bind_apply, get_apply] at h
      split at h
      · cases h
        exact hfirst
      · cases h
    · cases h
      exact hfirst

end orphan

/-- The chain of a node; `getHeader` goes through the caches of the header chain. -/
def miningChain (cfg : NodeConfig) (node : Node) (view : ChainView)
    (getHeader : ℕ → Option BlockHeader) (getMiningBlockVersion : ℕ → ℕ) : MiningChain where
  view
  bestHash := node.bestHash
  getHeader
  getBlock blockHash := (node.session.memory.getBlock blockHash).bind fun entry =>
    node.files.lookup cfg.crypto.toHashlib (node.session.conn.current.blocks.get? entry.blockHash)
      entry.blockHash
  getBlockByHeight height := (node.session.memory.getBlockByHeight height).bind fun entry =>
    node.files.lookup cfg.crypto.toHashlib (node.session.conn.current.blocks.get? entry.blockHash)
      entry.blockHash
  getMiningBlockVersion

/-- The parent hash of a header is the key of the tip, and `on_block` finds the parent. -/
structure ExtendsTip (cfg : NodeConfig) (node : Node) (tipHash prevBlockHash : Bytes) : Prop where
  key : prevBlockHash = tipHash
  parent : ∀ clock block sourcePeer reply node', block.header.prevBlockHash = prevBlockHash →
    onBlock cfg clock block sourcePeer node = .ok reply node' → HasParent reply

lemma extendsTip_iff {cfg : NodeConfig} {node : Node} {tipHash prevBlockHash : Bytes}
    {entry : BlockIndexEntry} (hindexed : node.session.memory.getBlock tipHash = some entry) :
    ExtendsTip cfg node tipHash prevBlockHash ↔ prevBlockHash = tipHash := by
  constructor
  · intro h
    exact h.key
  · intro heq
    refine ⟨heq, ?_⟩
    intro clock block sourcePeer reply node' hprev h
    rw [← heq, ← hprev] at hindexed
    exact onBlock_hasParent hindexed h

section templates
variable {F : Type} [LinearOrder F]

/-- The templates extend the tip exactly where its hash reads the same in both byte orders and the
header at its height is its own. -/
theorem templates_extend_tip_iff (cfg : NodeConfig) (node : Node) (view : ChainView)
    (getHeader : ℕ → Option BlockHeader) (versionOf : ℕ → ℕ) (tipHash : Bytes)
    (entry : BlockIndexEntry) (hbest : node.bestHash = some tipHash)
    (hindexed : node.session.memory.getBlock tipHash = some entry)
    (hstored : ∀ block, (node.miningChain cfg view getHeader versionOf).getBlock tipHash = some block →
      block.header.hashHex cfg.crypto.toHashlib = tipHash)
    (settings : MempoolSettings F) (order : SetOrder) (lowest : F)
    (createScriptPubkey : String → Except PyError Bytes) (pool : Mempool F) (now : ℕ)
    (address coinbaseAddress : String) (miningAddress : Option String)
    (assembled : BlockTemplate) (template : RpcTemplate) (fields : HeaderFields)
    (transactions : List Transaction)
    (hassembled : BlockAssembler.createBlockTemplate cfg.crypto.toHashlib settings order lowest
      createScriptPubkey (node.miningChain cfg view getHeader versionOf) pool now address
      coinbaseAddress = some (.ok assembled))
    (htemplate : MiningHandlers.getBlockTemplate cfg.crypto.toHashlib settings order lowest
      createScriptPubkey (node.miningChain cfg view getHeader versionOf) pool now miningAddress =
      some (.ok template))
    (hbuilt : MiningHandlers.createBlockFromTemplate cfg.crypto.toHashlib
      (node.miningChain cfg view getHeader versionOf) template = .ok (some (fields, transactions))) :
    (ExtendsTip cfg node tipHash assembled.header.prevBlockHash ∧
        ExtendsTip cfg node tipHash fields.prevBlockHash) ↔
      tipHash.reverse = tipHash ∧ ∃ header,
        BlockAssembler.tipHeader (node.miningChain cfg view getHeader versionOf) = some header ∧
          header.hashHex cfg.crypto.toHashlib = tipHash := by
  have hprevious : template.previousblockhash = tipHash := by
    have hhash := MiningHandlers.previousblockhash_of_getBlockTemplate htemplate
    exact Option.some.inj (hhash.symm.trans hbest)
  obtain ⟨header, hheader, hfirst⟩ :=
    BlockAssembler.prevBlockHash_of_createBlockTemplate hassembled
  have hsecond : fields.prevBlockHash = tipHash.reverse := by
    rw [MiningHandlers.prevBlockHash_of_createBlockFromTemplate (by rwa [hprevious]) hbuilt,
      hprevious]
  rw [extendsTip_iff hindexed, extendsTip_iff hindexed, hfirst, hsecond]
  constructor
  · intro h
    refine ⟨h.2, header, hheader, ?_⟩
    rw [BlockHeader.hashHex, h.1, h.2]
  · intro h
    obtain ⟨hpalindrome, header', hheader', hhash⟩ := h
    cases hheader.symm.trans hheader'
    refine ⟨?_, hpalindrome⟩
    rw [← hpalindrome, ← hhash, BlockHeader.hashHex, List.reverse_reverse]

end templates

/-! Templates on top of a genesis block. -/
namespace TemplateExample
open ReorgExample (genesis genesisEntry start)
open Script (Crypto)

/-- Not reversed, as the templates take it. -/
def genesisDigest : ℕ := 0x0af21a9ff5c16c72faf97b202b9f7476bdb302636472a4970d9bff6681fd2600

def merkleRootHash : ℕ := 0xf472ccf6fa7ce6e05dbd3da66f739dfa44dc150243c91b2dfc7683800d2a8c3a

def coinbase : Transaction :=
  BlockExample.coinbaseWith (0x01 :: 0x01 :: asciiBytes "/BerzCoin/") 798003044
    MempoolExample.payToScript

def headerAt (timestamp : UInt32) : BlockHeader :=
  { version := 0x20000000
    prevBlockHash := beBytes 32 genesisDigest
    merkleRoot := beBytes 32 merkleRootHash
    timestamp
    bits := 0x207fffff
    nonce := 0 }

def crypto : Crypto :=
  { ReorgExample.crypto with
    toHashlib := ReorgExample.crypto.toHashlib.withDigests [
      (coinbase.serialize false,
        0x30d7a3d668ac7886cd7ae34e9e8230b29971befdd9269a4880ee9a3b4fdb664b, merkleRootHash),
      ((headerAt 2000).serialize,
        0x6018e33bb58230bee6bf4966f9961605db286c6c5636a70191de4521f076de98,
        0x13f98eeeda63e9306bb2a4d1f0223160b7ca6e8d51d2764726a42dfaa0afb701),
      ((headerAt 1001).serialize,
        0x80894df684d5e58108435907c2dbc3563da88625a358bbde3667f26a5c667057,
        0x1d8f96087025c367e3867a30b27891f16359163bbb89f760599c5b13c15cb582)] }

def config : NodeConfig := { crypto, params := ConsensusParams.regtest }

def node : Node :=
  { start with files := (BlockFiles.init (fun _ => none) 100).updateCache genesisEntry.blockHash genesis }

def view : ChainView := chainView config node node.knownTxids (by decide +kernel)

def getHeader (height : ℕ) : Option BlockHeader := if height = 0 then some genesis.header else none

def chain : MiningChain := node.miningChain config view getHeader id

def settings : MempoolSettings ℚ := { MempoolExample.settings 1000 with crypto }

def order : SetOrder := .listed

def createScriptPubkey (_ : String) : Except PyError Bytes := .ok MempoolExample.payToScript

def pool : Mempool ℚ := Mempool.empty

def assembled : BlockTemplate :=
  { version := 0x20000000
    previousblockhash := genesisEntry.blockHash
    height := 1
    transactions := []
    coinbasevalue := 798003044
    coinbaseTx := coinbase.serialize true
    curtime := 2000
    bits := 0x207fffff
    sigoplimit := 20000
    sizelimit := 1000000
    weightlimit := 4000000
    header := headerAt 2000
    merkleroot := beBytes 32 merkleRootHash }

def template : RpcTemplate :=
  { version := 0x20000000
    previousblockhash := genesisEntry.blockHash
    merkleroot := beBytes 32 merkleRootHash
    transactions := []
    coinbasetxn := coinbase.serialize true
    coinbasevalue := 798003044
    curtime := 1001
    bits := 0x207fffff
    weightlimit := 4000000
    height := 1 }

def fields : HeaderFields :=
  ⟨0x20000000, beBytes 32 genesisDigest, beBytes 32 merkleRootHash, 1001, 0x207fffff, 0⟩

lemma assembled_eq : BlockAssembler.createBlockTemplate crypto.toHashlib settings order (-1)
    createScriptPubkey chain pool 2000 "miner" "" = some (.ok assembled) := by
  decide +kernel

lemma template_eq : MiningHandlers.getBlockTemplate crypto.toHashlib settings order (-1)
    createScriptPubkey chain pool 2000 (some "miner") = some (.ok template) := by
  decide +kernel

lemma built_eq : MiningHandlers.createBlockFromTemplate crypto.toHashlib chain template =
    .ok (some (fields, [coinbase])) := by
  decide +kernel

lemma indexed : node.session.memory.getBlock genesisEntry.blockHash = some genesisEntry := by
  decide +kernel

lemma stored : chain.getBlock genesisEntry.blockHash = some genesis := by
  decide +kernel

lemma genesis_hashHex : genesis.header.hashHex crypto.toHashlib = genesisEntry.blockHash := by
  decide +kernel

lemma getBlock_hashHex (block : Block) (h : chain.getBlock genesisEntry.blockHash = some block) :
    block.header.hashHex crypto.toHashlib = genesisEntry.blockHash := by
  rw [stored] at h
  cases h
  exact genesis_hashHex

/-- The reason with which a block is refused. -/
def reasonOf (block : Block) : Option BlockReason :=
  match onBlock config 2000 block none node with
  | .ok reply _ => reply.reason
  | .error _ _ => none

end TemplateExample

open TemplateExample ReorgExample in
theorem templates_extend_tip_iff_genesis :
    (ExtendsTip TemplateExample.config node genesisEntry.blockHash assembled.header.prevBlockHash ∧
        ExtendsTip TemplateExample.config node genesisEntry.blockHash fields.prevBlockHash) ↔
      genesisEntry.blockHash.reverse = genesisEntry.blockHash ∧ ∃ header,
        BlockAssembler.tipHeader TemplateExample.chain = some header ∧
          header.hashHex TemplateExample.crypto.toHashlib = genesisEntry.blockHash :=
  templates_extend_tip_iff TemplateExample.config node view getHeader id genesisEntry.blockHash
    genesisEntry rfl indexed getBlock_hashHex TemplateExample.settings order (-1) createScriptPubkey
    pool 2000 "miner" "" (some "miner") assembled template fields [TemplateExample.coinbase]
    assembled_eq template_eq built_eq

open TemplateExample ReorgExample in
/-- On top of a genesis block with a stored body both templates make orphans. -/
theorem templates_make_orphans :
    TemplateExample.chain.getBlock genesisEntry.blockHash = some genesis ∧
      node.bestHash = some (genesis.header.hashHex TemplateExample.crypto.toHashlib) ∧
      BlockAssembler.createBlockTemplate TemplateExample.crypto.toHashlib TemplateExample.settings
        order (-1) createScriptPubkey TemplateExample.chain pool 2000 "miner" "" =
        some (.ok assembled) ∧
      MiningHandlers.getBlockTemplate TemplateExample.crypto.toHashlib TemplateExample.settings order
        (-1) createScriptPubkey TemplateExample.chain pool 2000 (some "miner") =
        some (.ok template) ∧
      MiningHandlers.createBlockFromTemplate TemplateExample.crypto.toHashlib TemplateExample.chain
        template = .ok (some (fields, [TemplateExample.coinbase])) ∧
      assembled.header.prevBlockHash ≠ genesisEntry.blockHash ∧
      fields.pack = .ok (headerAt 1001) ∧ fields.prevBlockHash ≠ genesisEntry.blockHash ∧
      reasonOf ⟨assembled.header, [TemplateExample.coinbase]⟩ = some .orphan ∧
      reasonOf ⟨headerAt 1001, [TemplateExample.coinbase]⟩ = some .orphan := by
  refine ⟨stored, ?_, assembled_eq, template_eq, built_eq, ?_⟩
  · rw [genesis_hashHex]
    rfl
  · decide +kernel

end Node
end BerzCoin
