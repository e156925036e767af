import BerzCoin.AppOnBlock
import BerzCoin.ChainReorgContext
import BerzCoin.ValidationAtomic

/-! Reasoning about `on_block`: what each part of the pipeline does to the block index. -/
namespace BerzCoin
open Database BlockIndex

namespace Node
variable {α β : Type}

/-- The node after an action, also when it raises. -/
def final (x : NodeM α) (node : Node) : Node :=
  match x node with
  | .ok _ node' => node'
  | .error _ node' => node'

section equations
variable (node : Node)

lemma bind_apply (x : NodeM α) (f : α → NodeM β) :
    (x >>= f) node = match x node with
      | .ok a node' => f a node'
      | .error e node' => .error e node' := by
  simp only [bind, EStateM.bind]
  cases x node <;> rfl

lemma pure_apply (a : α) : (pure a : NodeM α) node = .ok a node := rfl

lemma get_apply : (get : NodeM Node) node = .ok node node := rfl

lemma modify_apply (f : Node → Node) : (modify f : NodeM PUnit) node = .ok ⟨⟩ (f node) := rfl

end equations

/-- An invariant that an action keeps, also when it raises. -/
def Keeps (I : Node → Prop) (x : NodeM α) : Prop := ∀ node, I node → I (final x node)

namespace Keeps
variable {I : Node → Prop} {x : NodeM α}

lemma ret (a : α) : Keeps I (pure a : NodeM α) := fun _ h => h

lemma look : Keeps I (get : NodeM Node) := fun _ h => h

lemma change {f : Node → Node} (hf : ∀ node, I node → I (f node)) :
    Keeps I (modify f : NodeM PUnit) := hf

lemma bind {f : α → NodeM β} (hx : Keeps I x) (hf : ∀ a, Keeps I (f a)) : Keeps I (x >>= f) := by
  intro node h
  have h1 := hx node h
  simp only [final, bind_apply] at h1 ⊢
  cases hxs : x node with
  | ok a node' =>
    rw [hxs] at h1
    exact hf a node' h1
  | error e node' =>
    rw [hxs] at h1
    exact h1

end Keeps

section parts
variable (cfg : NodeConfig) (validate : StatefulValidation)

/-- What `on_block` does with a block after it was stored. -/
def settle (bestHash : Option Bytes) (extendsTip : Bool) (block : Block) (height chainworkTotal : ℕ) :
    NodeM BlockReply := do
  if extendsTip then
    if ← connectAsNewTip cfg block height chainworkTotal then return ⟨true, none⟩
    return ⟨false, some .connect_failed⟩
  if chainworkTotal ≤ (← get).bestChainwork then return ⟨true, some .stored_fork⟩
  tryReorganize cfg validate bestHash (block.header.hashHex cfg.crypto.toHashlib)

lemma acceptChild_eq (clock : ℚ) (block : Block) (parent : BlockIndexEntry) :
    acceptChild cfg validate clock block parent = (do
      let _ ← onFiles (BlockFiles.readBlockByHash cfg.crypto.toHashlib parent.blockHash)
      let node ← get
      let extendsTip : Bool := node.bestHash = some block.header.prevBlockHash
      match ← checkBlock cfg validate clock extendsTip block (parent.height + 1) with
      | some reason => return ⟨false, some reason⟩
      | none =>
        let chainworkTotal := parent.chainwork +
          ChainWork.calculateBlockWork cfg.params block.header.bits
        storeBlock cfg clock block (parent.height + 1) chainworkTotal
        settle cfg validate node.bestHash extendsTip block (parent.height + 1) chainworkTotal) := by
  unfold acceptChild settle
  refine bind_congr fun _ => bind_congr fun node => bind_congr fun reason => ?_
  cases reason <;> rfl

end parts

/-! The block index after a part of the pipeline. -/
section shape
variable {cfg : NodeConfig} {validate : StatefulValidation} {P : BlockIndex → Prop}

lemma final_onChain (x : ChainDb α) (node : Node) :
    final (onChain x) node = { node with session := x.final node.session } := by
  unfold final onChain Db.final
  cases x node.session <;> rfl

lemma Keeps.chain {x : ChainDb α} (hx : Preserves P x) :
    Keeps (fun node => P node.session.memory) (onChain x) := by
  intro node h
  rw [final_onChain]
  exact hx node.session h

/-- A property that depends on the shape of the index only. -/
def OfShape (P : BlockIndex → Prop) : Prop := ∀ b b', SameShape b b' → P b → P b'

namespace OfShape
variable (hP : OfShape P)
include hP

lemma setBestChainTip (k : Bytes) : Preserves P (BlockIndex.setBestChainTip k) := by
  intro s h
  obtain ⟨s', hs', hmem, -⟩ := setBestChainTip_apply k s
  rw [Db.final, hs', hmem]
  exact hP _ _ (sameShape_tipped _ k) h

lemma connect (H : Hashlib) (network : Network) (block : Block) :
    Preserves P (BerzCoin.connect H network block) :=
  connect_preserves fun b h => hP _ _ (sameShape_marked b _ true) h

lemma canReorganize (H : Hashlib) (calls : ReorgCallbacks) (depth : ℕ)
    (newBest oldBest : BlockIndexEntry) :
    Preserves P (ReorgManager.canReorganize H calls depth newBest oldBest) := by
  intro s h
  rcases @ReorgManager.canReorganize_memory H calls s depth newBest
      oldBest with hmem | ⟨b, hshape, hmem⟩
  · rw [hmem]
    exact h
  · rw [hmem]
    cases s.memory.bestHash with
    | none => exact hP _ _ hshape h
    | some best => exact hP _ _ (hshape.trans (sameShape_tipped b best)) h

lemma reorganize (H : Hashlib) (calls : ReorgCallbacks) (depth : ℕ)
    (newBest oldBest : BlockIndexEntry) :
    Preserves P (ReorgManager.reorganize H calls depth newBest oldBest) := by
  intro s h
  obtain ⟨ok, xs, ys, s', hs', hmem⟩ := @ReorgManager.reorganize_memory H calls s depth newBest
      oldBest
  rw [Db.final, hs']
  rcases hmem with ⟨-, hmem⟩ | ⟨b, hshape, hmem⟩
  · rw [hmem]
    exact h
  · rw [hmem]
    exact hP _ _ (hshape.trans (sameShape_tipped b _)) h

lemma setBestBlock (blockHash : Bytes) (height chainwork : ℕ) :
    Keeps (fun node => P node.session.memory) (Node.setBestBlock blockHash height chainwork) :=
  .bind (.change fun _ h => h) fun _ => .chain (hP.setBestChainTip blockHash)

lemma tryReorganize (bestHash : Option Bytes) (blockHash : Bytes) :
    Keeps (fun node => P node.session.memory)
      (Node.tryReorganize cfg validate bestHash blockHash) := by
  refine .bind (.chain (read_preserves _)) fun b => ?_
  split
  · refine .bind .look fun node => .bind (.chain (hP.canReorganize _ _ _ _ _)) fun ok => ?_
    split
    · exact .ret _
    · refine .bind (.chain (read_preserves _)) fun b' => .bind (.chain (hP.reorganize _ _ _ _ _)) fun r => ?_
      obtain ⟨ok, xs, ys⟩ := r
      simp only
      split
      · exact .ret _
      · exact .bind (hP.setBestBlock _ _ _) fun _ => .ret _
  · exact .ret _

/-- After a block was stored the entries change in their flags only. -/
lemma settle (bestHash : Option Bytes) (extendsTip : Bool) (block : Block)
    (height chainworkTotal : ℕ) :
    Keeps (fun node => P node.session.memory)
      (Node.settle cfg validate bestHash extendsTip block height chainworkTotal) := by
  unfold Node.settle
  split
  · refine .bind (.bind (.chain (hP.connect _ _ _)) fun ok => ?_) fun ok => ?_
    · split
      · exact .ret _
      · exact .bind (hP.setBestBlock _ _ _) fun _ => .ret _
    · split <;> exact .ret _
  · refine .bind .look fun node => ?_
    split
    · exact .ret _
    · exact hP.tryReorganize _ _

end OfShape
end shape

/-! Reading the database and the index. -/
section reading
variable {cfg : NodeConfig} {validate : StatefulValidation} (node : Node)

lemma read_apply (f : BlockIndex → α) :
    onChain (BlockIndex.read f) node = .ok (f node.session.memory) node := by
  simp only [onChain, BerzCoin.read_apply]

lemma consult_apply (f : Tables × BlockIndex → Except PyError α) :
    onChain (ReorgManager.consult f) node = match f node.session.data with
      | .ok a => .ok a node
      | .error e => .error e node := by
  simp only [onChain, ReorgManager.consult_apply]
  cases f node.session.data <;> rfl

/-- The outcome of the checks before a block is stored. -/
def refusal (cfg : NodeConfig) (validate : StatefulValidation) (clock : ℚ) (extendsTip : Bool)
    (block : Block) (height : ℕ) (d : Tables × BlockIndex) : Except PyError (Option BlockReason) :=
  if extendsTip then
    match validate block height d with
    | .ok true => .ok none
    | .ok false => .ok (some .stateful_validation_failed)
    | .error e => .error e
  else
    match ConsensusRules.validateBlock cfg.crypto.toHashlib cfg.params (lookupOutputValue d.1)
      ⌊clock⌋₊ block height with
    | .ok () => .ok none
    | .error _ => .ok (some .consensus_rule_invalid)

/-- The checks change nothing. -/
lemma checkBlock_apply (clock : ℚ) (extendsTip : Bool) (block : Block) (height : ℕ) :
    checkBlock cfg validate clock extendsTip block height node =
      match refusal cfg validate clock extendsTip block height node.session.data with
      | .ok reason => .ok reason node
      | .error e => .error e node := by
  unfold checkBlock refusal
  split_ifs with htip
  · rw [bind_apply, consult_apply]
    cases validate block height node.session.data with
    | error e => rfl
    | ok ok => cases ok <;> rfl
  · have hquery : onChain (execute (.query id)) node = .ok node.session.conn.current node := by
      simp only [onChain, query_apply, id]
    rw [bind_apply, hquery]
    simp only [Session.data]
    cases ConsensusRules.validateBlock cfg.crypto.toHashlib cfg.params
      (lookupOutputValue node.session.conn.current) ⌊clock⌋₊ block height <;> rfl

end reading

/-! Storing a block. -/
section store
variable {cfg : NodeConfig}

/-- The parts of the node that storing a block does not touch. -/
structure SameBooks (node node' : Node) : Prop where
  bestHash : node'.bestHash = node.bestHash
  bestHeight : node'.bestHeight = node.bestHeight
  bestChainwork : node'.bestChainwork = node.bestChainwork
  orphanage : node'.orphanage = node.orphanage

/-- A cached block stands under its own hash. -/
def CacheSound (H : Hashlib) (m : BlockFiles) : Prop :=
  ∀ k block, m.blockCache.get? k = some block → block.header.hashHex H = k

lemma cacheSound_init (H : Hashlib) (legacyFiles : ℕ → Option Bytes) (cacheSize : ℕ) :
    CacheSound H (BlockFiles.init legacyFiles cacheSize) := by
  intro k block hcached
  cases hcached

lemma CacheSound.updateCache {H : Hashlib} {m : BlockFiles} (hm : CacheSound H m) {k : Bytes}
    {block : Block} (hk : block.header.hashHex H = k) : CacheSound H (m.updateCache k block) := by
  intro k' block' h
  by_cases hkk : k' = k
  · have hput := BlockFiles.shrink_get? h
    rw [KeyedRows.get?_put, if_pos hkk] at hput
    cases hput
    rw [hkk, hk]
  · exact hm k' block' (BlockFiles.updateCache_other hkk h)

lemma load_hash {H : Hashlib} {m : BlockFiles} {row : Option BlockRow} {k : Bytes} {block : Block}
    (h : m.load H row k = some block) : block.header.hashHex H = k := by
  obtain ⟨data, -, h⟩ := Option.bind_eq_some_iff.1 h
  unfold BlockFiles.decode at h
  split_ifs at h
  split at h
  · cases h
  · split_ifs at h with hhash
    cases h
    exact hhash

lemma lookup_hash {H : Hashlib} {m : BlockFiles} (hm : CacheSound H m) {row : Option BlockRow}
    {k : Bytes} {block : Block} (h : m.lookup H row k = some block) :
    block.header.hashHex H = k := by
  unfold BlockFiles.lookup at h
  cases hcache : m.blockCache.get? k with
  | none =>
    rw [hcache] at h
    exact load_hash h
  | some block' =>
    rw [hcache] at h
    cases h
    exact hm k block hcache

/-- Reading a block changes at most the cache. -/
lemma readBlock_apply (k : Bytes) (node : Node) :
    ∃ found files, onFiles (BlockFiles.readBlockByHash cfg.crypto.toHashlib k) node =
        .ok found { node with files } ∧
      (CacheSound cfg.crypto.toHashlib node.files → CacheSound cfg.crypto.toHashlib files) := by
  obtain ⟨m, hread, hm⟩ := BlockFiles.readBlockByHash_apply cfg.crypto.toHashlib k
    ⟨node.session.conn, node.files⟩
  refine ⟨node.files.lookup cfg.crypto.toHashlib (node.session.conn.current.blocks.get? k) k, m, ?_, ?_⟩
  · unfold onFiles
    rw [hread]
  intro hsound
  rcases hm with rfl | ⟨block, rfl, hload⟩
  · exact hsound
  · exact hsound.updateCache (load_hash hload)

lemma writeBlock_files (block : Block) (height processedAt : ℕ) (s : Session Tables BlockFiles) :
    ∀ H, CacheSound H s.memory →
      CacheSound H ((BlockFiles.writeBlock H block height processedAt).final s).memory := by
  intro H hsound
  have hkeep : Preserves (fun m => m = (BlockFiles.filed H block s).memory)
      (BlocksStore.writeBlock H block height processedAt) :=
    .transaction (BlocksStore.writeBody_preserves H block height processedAt)
  have hmem := hkeep (BlockFiles.filed H block s) rfl
  have hfiled : CacheSound H (BlockFiles.filed H block s).memory := hsound
  unfold Db.final at hmem ⊢
  rw [BlockFiles.writeBlock_apply]
  cases hrows : BlocksStore.writeBlock H block height processedAt (BlockFiles.filed H block s) with
  | ok u s1 =>
    rw [hrows] at hmem
    simp only at hmem ⊢
    rw [hmem]
    exact hfiled.updateCache rfl
  | error e s1 =>
    rw [hrows] at hmem
    simp only at hmem ⊢
    rw [hmem]
    exact hfiled

/-- A block is stored whole, or its rows are refused and the index is as it was. -/
lemma storeBlock_cases (clock : ℚ) (block : Block) (height chainworkTotal : ℕ) (node : Node) :
    ∃ node', SameBooks node node' ∧
      (CacheSound cfg.crypto.toHashlib node.files → CacheSound cfg.crypto.toHashlib node'.files) ∧
      ((∃ e, storeBlock cfg clock block height chainworkTotal node = .error e node' ∧
          node'.session.memory = node.session.memory) ∨
        storeBlock cfg clock block height chainworkTotal node = .ok () node' ∧
          node'.session.memory = node.session.memory.withBlock
            (block.header.hashHex cfg.crypto.toHashlib) block.header height chainworkTotal) := by
  have hfiles := writeBlock_files block height ⌊clock⌋₊ ⟨node.session.conn, node.files⟩
    cfg.crypto.toHashlib
  unfold Db.final at hfiles
  simp only [storeBlock, bind_apply]
  cases hwrite : BlockFiles.writeBlock cfg.crypto.toHashlib block height ⌊clock⌋₊
      ⟨node.session.conn, node.files⟩ with
  | error e s =>
    rw [hwrite] at hfiles
    refine ⟨{ node with session := ⟨s.conn, node.session.memory⟩, files := s.memory },
      ⟨rfl, rfl, rfl, rfl⟩, hfiles, .inl ⟨e, ?_, rfl⟩⟩
    simp only [onFiles, hwrite]
  | ok u s =>
    rw [hwrite] at hfiles
    simp only [onFiles, hwrite, onChain, addBlock_apply]
    obtain ⟨s', hs', -, -, hmem⟩ := change_opens (Database.put (⟨s.conn, node.session.memory⟩ :
      Session Tables BlockIndex) s.conn.current (node.session.memory.withBlock
        (block.header.hashHex cfg.crypto.toHashlib) block.header height chainworkTotal))
      fun tables : Tables => { tables with
        blockHeaders := tables.blockHeaders.insertOrReplace (block.header.hashHex cfg.crypto.toHashlib)
          ⟨height, block.header, some chainworkTotal, true, {.HEADER, .VALID}⟩ }
    refine ⟨{ node with session := s', files := s.memory }, ⟨rfl, rfl, rfl, rfl⟩, hfiles, .inr ⟨?_, hmem⟩⟩
    simp only [HeaderChain.addHeader, BlocksStore.insertHeader, hs']

/-- A block with a known parent: it is refused, or stored and then settled. -/
lemma acceptChild_apply (clock : ℚ) (block : Block) (parent : BlockIndexEntry) (node : Node) :
    ∃ found files, onFiles (BlockFiles.readBlockByHash cfg.crypto.toHashlib parent.blockHash) node =
        .ok found { node with files } ∧
      (CacheSound cfg.crypto.toHashlib node.files → CacheSound cfg.crypto.toHashlib files) ∧
      ∀ validate, acceptChild cfg validate clock block parent node =
        match refusal cfg validate clock (decide (node.bestHash = some block.header.prevBlockHash))
          block (parent.height + 1) node.session.data with
        | .error e => .error e { node with files }
        | .ok (some reason) => .ok ⟨false, some reason⟩ { node with files }
        | .ok none =>
          (do
            storeBlock cfg clock block (parent.height + 1)
              (parent.chainwork + ChainWork.calculateBlockWork cfg.params block.header.bits)
            settle cfg validate node.bestHash
              (decide (node.bestHash = some block.header.prevBlockHash)) block (parent.height + 1)
              (parent.chainwork + ChainWork.calculateBlockWork cfg.params block.header.bits))
            { node with files } := by
  obtain ⟨found, files, hread, hsound⟩ := @readBlock_apply cfg parent.blockHash node
  refine ⟨found, files, hread, hsound, ?_⟩
  intro validate
  rw [acceptChild_eq, bind_apply, hread]
  simp only
  rw [bind_apply, get_apply]
  simp only
  rw [bind_apply, checkBlock_apply]
  cases refusal cfg validate clock (decide (node.bestHash = some block.header.prevBlockHash)) block
      (parent.height + 1) node.session.data with
  | error e => rfl
  | ok reason => cases reason <;> rfl

end store

/-- The action ends with the given value. -/
def returns [DecidableEq α] (x : NodeM α) (a : α) (node : Node) : Bool :=
  match x node with
  | .ok b _ => b = a
  | .error _ _ => false

lemma eq_ok_of_returns [DecidableEq α] {x : NodeM α} {a : α} {node : Node}
    (h : returns x a node = true) : x node = .ok a (final x node) := by
  unfold returns at h
  unfold final
  cases hx : x node with
  | ok b node' =>
    simp only [hx, decide_eq_true_eq] at h
    rw [h]
  | error e node' => simp [hx] at h

/-! A node that has only its genesis block, and blocks on two branches over it. The time of
`blockB` is not above the one of the genesis block. -/
namespace NodeExample
open Script (Crypto)
open BlockExample (coinbase blockOn coinbase2Id coinbase3Id genesisHash hashlib)
export BlockExample (genesis blockA)

def blockB : Block := blockOn genesisHash coinbase2Id 1000 0 [coinbase 2]

def blockB2 : Block :=
  blockOn 0xcaef5716c23acf4bd19f883ca9a80e25e91c4aaf271b4c7b042bb9e8c3efa715 coinbase3Id 1002 0
    [coinbase 3]

def crypto : Crypto := .ofHashlib <| hashlib.withDigests [
  (blockB.header.serialize,
    0x58d2a8c9dfd14d0db77da57a6f572e1c95bf231bc1a71f9b010f82cf652d2eea,
    0x15a7efc3e8b92b047b4c1b27af4a1ce9250ea8a93c889fd14bcf3ac21657efca),
  (blockB2.header.serialize,
    0x3d5fc6e443c0b41ee8edcf10a86831c660342412539a715ab31aa79daa09a040,
    0x5f70ecb756ba94bebc310f6acd923406e9db10f35c746b42e8e85f3cbf87b6ea)]

def config : NodeConfig := { crypto, params := ConsensusParams.regtest }

def genesisEntry : BlockIndexEntry :=
  ⟨0, genesis.header.hashHex crypto.toHashlib, genesis.header, 0, {.HEADER, .BLOCK, .VALID, .MAIN_CHAIN}⟩

def start : Node where
  session :=
    { conn := ⟨Tables.empty, none⟩
      memory :=
        { index := KeyedRows.empty.put genesisEntry.blockHash genesisEntry
          heightIndex := BlockIndex.chainMap [genesisEntry]
          bestHeight := 0
          bestHash := some genesisEntry.blockHash } }
  files := .init (fun _ => none) 100
  bestHash := some genesisEntry.blockHash
  bestHeight := 0
  bestChainwork := 0
  orphanage := {}

end NodeExample

end Node
end BerzCoin
