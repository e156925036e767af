import BerzCoin.AppStored
import BerzCoin.MempoolReconcile

/-! The mempool after a reorganisation. Whether a transaction of a disconnected block is added again
depends on the table `transactions`, which has the transactions of all stored blocks. -/
namespace BerzCoin
open Mempool

/-- The chain as the mempool reads it from the node. -/
structure ChainView.Reads (chain : ChainView) (cfg : NodeConfig) (node : Node) : Prop where
  params : chain.params = cfg.params
  utxo : chain.getUtxo = node.session.conn.current.utxo.get?
  transactions : ∀ txid, chain.transactionExists txid = true ↔
    node.session.conn.current.transactions.get? txid ≠ none
  height : chain.bestHeight = node.bestHeight

namespace Node

def knownTxids (node : Node) : List Bytes := node.session.conn.current.transactions.rows.map Prod.fst

/-- The view with a list of ids for the table `transactions`, which has those of all coins. -/
def chainView (cfg : NodeConfig) (node : Node) (txids : List Bytes)
    (h : ∀ row ∈ node.session.conn.current.utxo.rows, row.1.1 ∈ txids) : ChainView where
  params := cfg.params
  getUtxo := node.session.conn.current.utxo.get?
  transactionExists txid := txid ∈ txids
  bestHeight := node.bestHeight
  known := by
    intro outpoint hrow
    obtain ⟨row, hrow⟩ := Option.ne_none_iff_exists'.1 hrow
    simpa using h _ (KeyedRows.mem_rows_of_get? hrow)

lemma chainView_reads (cfg : NodeConfig) (node : Node)
    (h : ∀ row ∈ node.session.conn.current.utxo.rows, row.1.1 ∈ node.knownTxids) :
    (chainView cfg node node.knownTxids h).Reads cfg node where
  params := rfl
  utxo := rfl
  transactions txid := by
    rw [ne_eq, KeyedRows.get?_eq_none_iff, not_not]
    exact decide_eq_true_iff
  height := rfl

section reconcile
variable {F : Type} [LinearOrder F]

/-- In every run of `on_block`, whenever it switches to another branch, no transaction of a block
that was ever stored is in the mempool after the reconciliation, whatever the mempool held before;
the disconnected blocks are among the stored ones. -/
theorem reorganization_readds_none (cfg : NodeConfig) (root aboveRoot : Bytes) (start : Node)
    (hstart : Started cfg.crypto.toHashlib root aboveRoot start) (blocks : List Block)
    (node node' : Node)
    (hrun : Reached cfg aboveRoot start blocks node) (clock : ℚ) (block : Block)
    (hne : block.header.hashHex cfg.crypto.toHashlib ≠ aboveRoot) (disconnected connected : List Block)
    (hre : Reorganized cfg clock block node node' disconnected connected)
    (settings : MempoolSettings F) (calls : List (ChainView × MempoolCall F)) (chain : ChainView)
    (hchain : chain.Reads cfg node') (argsOf : ℕ → CallArgs F) :
    (∀ b ∈ disconnected, ∃ stored ∈ block :: blocks,
        stored.header.hashHex cfg.crypto.toHashlib = b.header.hashHex cfg.crypto.toHashlib) ∧
      ∀ stored ∈ block :: blocks, ∀ tx ∈ stored.transactions,
        tx.txid cfg.crypto.toHashlib ∉ ((runCalls settings calls).reconcileAfterReorg settings chain
          argsOf disconnected connected).1.txids := by
  obtain ⟨hconsistent, hknown, hstored⟩ := hrun.spec hstart
  obtain ⟨hconnected, hrows, hdisconnected⟩ := Reorganized.spec hconsistent hne hknown hstored hre
  refine ⟨hdisconnected, ?_⟩
  intro stored hmem tx htx hpool
  have hunknown : Unknown chain ((runCalls settings calls).reconcileAfterReorg settings chain
      argsOf disconnected connected).1 :=
    (ordered_runCalls settings calls).reconcileAfterReorg_unknown argsOf disconnected hconnected
  have hexists : chain.transactionExists (tx.txid cfg.crypto.toHashlib) = true :=
    (hchain.transactions _).2 (hrows stored hmem tx htx)
  rw [hunknown _ (mem_txids.1 hpool)] at hexists
  cases hexists

end reconcile

/-! A coin that `first` spends in `blockA`, and a longer branch without it. -/
namespace ReorgExample
open Script (Crypto)
open MempoolExample (first firstId coin coinValue_lt)
open BlockExample (coinbase coinbase1Id blockOn genesisHash)
export BlockExample (genesis blockB blockB2)

def blockA : Block :=
  blockOn genesisHash 0xc4a724292d7ad0f4987dca420650c7030fe3cff703ee0e83164f4d4dd42f9c8c 1001 1
    [coinbase 1, first]

def crypto : Crypto :=
  { MempoolExample.crypto with
    toHashlib := MempoolExample.crypto.toHashlib.withDigests (BlockExample.digests ++ [
      (beBytes 32 coinbase1Id ++ firstId,
        0x28c8a30b868a4c89ac7aa58ff367e9fe62cc6b808383f91ec17a731c6d6a5ee2,
        0xc4a724292d7ad0f4987dca420650c7030fe3cff703ee0e83164f4d4dd42f9c8c),
      (blockA.header.serialize,
        0x3d3b1fdef49d7848ec324137d974a15d949ad97655189256c029dc4cb065515e,
        0x2b6a198db03b15ff37e90259cca8d2b6dfc62327486ce970a91d6547b56686d7),
      -- the addresses of the script on mainnet and on the other networks
      (0x05 :: beBytes 20 0xda1745e9b549bd0bfa1a569971c77eba30cd5a4b,
        0xe5b5b4fba496a23fdd8091f179f81961d6d2f5b4045e5f370352b40dd1211712,
        0x11a9421214322679101200b57d349256de0671f41ace85043b6bcd984d074521),
      (0xc4 :: beBytes 20 0xda1745e9b549bd0bfa1a569971c77eba30cd5a4b,
        0x971695081c93781e4dada65d9c58c5b5bb50983c1d5b41518741dd2124d98b5e,
        0x9f6bc59961c8c0adf6d7b34d9b054098c9619e54ce908dd7240a5c4a74251a55)]) }

def config : NodeConfig := { crypto, params := ConsensusParams.regtest }

def genesisEntry : BlockIndexEntry :=
  ⟨0, genesis.header.hashHex crypto.toHashlib, genesis.header, 0, {.HEADER, .BLOCK, .VALID, .MAIN_CHAIN}⟩

/-- The tables with the coin that `first` spends. -/
def tables : Tables :=
  { Tables.empty with
    utxo := KeyedRows.empty.put (coin, 0) ⟨⟨100000, coinValue_lt⟩, [0x51], 0, false, none⟩
    transactions := KeyedRows.empty.put coin ⟨genesisEntry.blockHash, 0, 1, 1, 0, 60, 240, false⟩ }

def start : Node where
  session :=
    { conn := ⟨tables, none⟩
      memory :=
        { index := KeyedRows.empty.put genesisEntry.blockHash genesisEntry
          heightIndex := BlockIndex.chainMap [genesisEntry]
          bestHeight := 0
          bestHash := some genesisEntry.blockHash } }
  files := .init (fun _ => none) 100
  bestHash := some genesisEntry.blockHash
  bestHeight := 0
  bestChainwork := 0
  orphanage := {}

/-- `blockA` is the tip and `blockB` is stored beside it. -/
def withA : Node :=
  final (acceptChild config (validateBlockStateful config 2000) 2000 blockA genesisEntry) start

def forked : Node :=
  final (acceptChild config (validateBlockStateful config 2000) 2000 blockB genesisEntry) withA

def entryB : BlockIndexEntry :=
  (forked.session.memory.getBlock (blockB.header.hashHex crypto.toHashlib)).getD genesisEntry

/-- The parts of the call that switches to the branch of `blockB2`. -/
def afterRead : Node :=
  final (onFiles (BlockFiles.readBlockByHash crypto.toHashlib entryB.blockHash)) forked

def stored : Node :=
  final (storeBlock config 2000 blockB2 (entryB.height + 1)
    (entryB.chainwork + ChainWork.calculateBlockWork config.params blockB2.header.bits)) afterRead

def switched : Node :=
  final (reorganizeTo config (validateBlockStateful config 2000) forked.bestHash
    (blockB2.header.hashHex crypto.toHashlib)) stored

lemma started : Started crypto.toHashlib genesisEntry.blockHash zeroHash start where
  index := ⟨genesisEntry, by decide +kernel, rfl, rfl, by decide +kernel, by decide +kernel⟩
  ne := by decide +kernel
  heightIndex := by decide +kernel
  indexBest := rfl
  best := rfl
  cache := cacheSound_init _ _ _
  orphans := rfl

lemma reached : Reached config zeroHash start [blockB, blockA] forked :=
  .stored 2000 blockB genesisEntry (.stored 2000 blockA genesisEntry .start (by decide +kernel)
    (by decide +kernel) (by decide +kernel) (by decide +kernel)) (by decide +kernel)
    (by decide +kernel) (by decide +kernel) (by decide +kernel)

lemma reorganized : Reorganized config 2000 blockB2 forked switched [blockA] [blockB, blockB2] := by
  obtain ⟨found, files, hread, -⟩ := @readBlock_apply config entryB.blockHash forked
  have hafter : afterRead = { forked with files } := by
    have hread' : onFiles (BlockFiles.readBlockByHash crypto.toHashlib entryB.blockHash) forked =
      .ok found { forked with files } := hread
    rw [afterRead, final, hread']
  refine ⟨by decide +kernel, by decide +kernel, entryB, found, files, stored, ?_, hread, ?_, ?_⟩
  · decide +kernel
  · rw [← hafter]
    exact eq_ok_of_returns (by decide +kernel)
  · exact eq_ok_of_returns (by decide +kernel)

/-- The chain after the switch, as it is and without the row of `first`. -/
def chain : ChainView :=
  chainView config switched switched.knownTxids (by decide +kernel)

def chainWithoutFirst : ChainView :=
  chainView config switched (switched.knownTxids.filter (· ≠ firstId)) (by decide +kernel)

def settings : MempoolSettings ℚ := { MempoolExample.settings 1000 with crypto }

def report : Mempool ℚ × ReorgReport :=
  (runCalls settings []).reconcileAfterReorg settings chain (fun _ => MempoolExample.args) [blockA]
    [blockB, blockB2]

end ReorgExample

open ReorgExample in
/-- `first`, of the disconnected `blockA`, is not in the mempool. -/
theorem reorganization_readds_none_first : MempoolExample.firstId ∉ report.1.txids := by
  have hnone := (reorganization_readds_none config genesisEntry.blockHash zeroHash start started
    [blockB, blockA] forked switched reached 2000 blockB2 (by decide +kernel) [blockA]
    [blockB, blockB2] reorganized settings [] chain (chainView_reads ..) fun _ => MempoolExample.args).2
    blockA (by simp) MempoolExample.first (by simp [blockA, BlockExample.blockOn])
  have hid : MempoolExample.first.txid config.crypto.toHashlib = MempoolExample.firstId := by
    decide +kernel
  rwa [hid] at hnone

open ReorgExample in
/-- `first` is in no block of the new chain, its coin is unspent there and it is standard, and
`add_transaction` accepts it into the empty pool where the table has no row for it; yet it is dropped
as a transaction that is already in the chain. -/
theorem disconnected_transaction_lost :
    Reorganized config 2000 blockB2 forked switched [blockA] [blockB, blockB2] ∧
      chain.Reads config switched ∧
      MempoolExample.first ∈ readdCandidates [blockA] ∧
      MempoolExample.firstId ∉ ([genesis, blockB, blockB2].flatMap Block.transactions).map
        (·.txid crypto.toHashlib) ∧
      (∀ txin ∈ MempoolExample.first.vin, chain.getUtxo txin.outpoint ≠ none) ∧
      settings.policy.isStandard MempoolExample.first = true ∧
      ((Mempool.empty : Mempool ℚ).addTransaction settings chainWithoutFirst MempoolExample.args
        MempoolExample.first).2 = none ∧
      report.2.readded = 0 ∧ report.2.dropped.get? .already_in_chain = some 1 ∧
      MempoolExample.firstId ∉ report.1.txids := by
  refine ⟨reorganized, chainView_reads .., ?_⟩
  decide +kernel

end Node
end BerzCoin
