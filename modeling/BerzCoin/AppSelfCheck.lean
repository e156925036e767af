import BerzCoin.AppGenesisStart

/-! `verify_active_chain_utxo_state`: the blocks of the active chain are replayed from height zero,
and what comes out is compared with the UTXO set. -/
namespace BerzCoin
open Database BlockIndex

/-- An output as the replay keeps it. -/
structure ReplayedUtxo where
  value : ℕ
  scriptPubkey : Bytes
  height : ℕ
  isCoinbase : Bool
  deriving DecidableEq, Repr

inductive UtxoMismatch
  | missingMainChainBlock (height : ℕ)
  | missingSpentOutpoint (key : Outpoint) (height : ℕ)
  | missingUtxoInDb (key : Outpoint)
  | unexpectedUtxoInDb (key : Outpoint)
  | utxoFieldMismatch (key : Outpoint)
  deriving DecidableEq, Repr

def outpointText (key : Outpoint) : String := hex key.1 ++ ":" ++ toString key.2

/-- The texts that the report lists. -/
def UtxoMismatch.text : UtxoMismatch → String
  | missingMainChainBlock height => "missing_main_chain_block_at_height:" ++ toString height
  | missingSpentOutpoint key height =>
    "missing_spent_outpoint:" ++ outpointText key ++ ":height:" ++ toString height
  | missingUtxoInDb key => "missing_utxo_in_db:" ++ outpointText key
  | unexpectedUtxoInDb key => "unexpected_utxo_in_db:" ++ outpointText key
  | utxoFieldMismatch key => "utxo_field_mismatch:" ++ outpointText key

structure UtxoReport where
  ok : Bool
  bestHeight : ℤ
  mismatches : List UtxoMismatch
  deriving DecidableEq, Repr

structure Replay where
  expected : KeyedRows Outpoint ReplayedUtxo
  mismatches : List UtxoMismatch

namespace Replay

/-- A replay that is left early ends with its mismatches. -/
abbrev Step (α : Type) : Type := Except (List UtxoMismatch) α

def spend (maxMismatches : ℤ) (height : ℕ) (replay : Replay) (txin : TxIn) : Step Replay :=
  match replay.expected.get? txin.outpoint with
  | some _ => .ok { replay with expected := replay.expected.delete txin.outpoint }
  | none =>
    let mismatches := replay.mismatches ++ [.missingSpentOutpoint txin.outpoint height]
    if maxMismatches ≤ mismatches.length then .error mismatches else .ok { replay with mismatches }

def add (txid : Bytes) (height : ℕ) (isCoinbase : Bool) :
    ℕ → List TxOut → KeyedRows Outpoint ReplayedUtxo → KeyedRows Outpoint ReplayedUtxo
  | _, [], expected => expected
  | i, txout :: vout, expected =>
    add txid height isCoinbase (i + 1) vout
      (if txout.isOpReturn then expected
        else expected.put (txid, i) ⟨txout.value.toNat, txout.scriptPubkey, height, isCoinbase⟩)

def spendInputs (maxMismatches : ℤ) (height : ℕ) (replay : Replay) (tx : Transaction) :
    Step Replay :=
  if tx.isCoinbase then .ok replay else tx.vin.foldlM (spend maxMismatches height) replay

def transaction (H : Hashlib) (maxMismatches : ℤ) (height : ℕ) (replay : Replay)
    (tx : Transaction) : Step Replay := do
  let replay ← spendInputs maxMismatches height replay tx
  return { replay with expected := add (tx.txid H) height tx.isCoinbase 0 tx.vout replay.expected }

/-- Rows of the database that differ from what the replay says of them. -/
def differs (expected : ReplayedUtxo) (actual : UtxoRow) : Bool :=
  expected.value ≠ actual.value.1 || expected.scriptPubkey ≠ actual.scriptPubkey ||
    expected.height ≠ actual.height || expected.isCoinbase ≠ actual.isCoinbase

/-- Further mismatches, until there are enough. -/
def report (maxMismatches : ℤ) : List UtxoMismatch → List UtxoMismatch → List UtxoMismatch
  | mismatches, [] => mismatches
  | mismatches, x :: xs =>
    if maxMismatches ≤ (mismatches ++ [x]).length then mismatches ++ [x]
    else report maxMismatches (mismatches ++ [x]) xs

def reportIfFew (maxMismatches : ℤ) (mismatches xs : List UtxoMismatch) : List UtxoMismatch :=
  if mismatches.length < maxMismatches then report maxMismatches mismatches xs else mismatches

/-- `sorted`, by the texts of the outpoints. -/
def sorted (keys : List Outpoint) : List Outpoint :=
  keys.mergeSort fun key key' => outpointText key ≤ outpointText key'

def compare (maxMismatches : ℤ) (replay : Replay) (actual : KeyedRows Outpoint UtxoRow) :
    List UtxoMismatch :=
  let missing := replay.expected.keys.filter fun key => !actual.contains key
  let unexpected := actual.keys.filter fun key => !replay.expected.contains key
  let different := replay.expected.keys.filter fun key =>
    match replay.expected.get? key, actual.get? key with
    | some expected, some row => differs expected row
    | _, _ => false
  let mismatches := report maxMismatches replay.mismatches ((sorted missing).map .missingUtxoInDb)
  let mismatches :=
    reportIfFew maxMismatches mismatches ((sorted unexpected).map .unexpectedUtxoInDb)
  reportIfFew maxMismatches mismatches ((sorted different).map .utxoFieldMismatch)

end Replay

namespace Node
section selfCheck
variable (cfg : NodeConfig)

def getBlockByHeight (height : ℕ) : NodeM (Option Block) := do
  match ← onChain (BlockIndex.read fun b => b.getBlockByHeight height) with
  | none => return none
  | some entry =>
    onFiles (BlockFiles.readBlockByHash cfg.crypto.toHashlib entry.blockHash)

/-- The blocks at these heights, one after the other. -/
def replayHeights (maxMismatches : ℤ) : List ℕ → Replay → NodeM (Replay.Step Replay)
  | [], replay => return .ok replay
  | height :: heights, replay => do
    match ← getBlockByHeight cfg height with
    | none => return .error [.missingMainChainBlock height]
    | some block =>
      match block.transactions.foldlM
        (Replay.transaction cfg.crypto.toHashlib maxMismatches height) replay with
      | .error mismatches => return .error mismatches
      | .ok replay => replayHeights maxMismatches heights replay

def verifyActiveChainUtxoState (maxMismatches : ℤ := 20) : NodeM UtxoReport := do
  let bestHeight := (← get).bestHeight
  if bestHeight < 0 then return ⟨true, bestHeight, []⟩
  else
    match ← replayHeights cfg maxMismatches (List.range (bestHeight + 1).toNat) ⟨.empty, []⟩ with
    | .error mismatches => return ⟨false, bestHeight, mismatches⟩
    | .ok replay =>
      let tables ← onChain (execute (.query id))
      let mismatches := replay.compare maxMismatches tables.utxo
      return ⟨mismatches = [], bestHeight, mismatches⟩

end selfCheck
end Node

/-! What the replay loses and keeps. -/
namespace Replay
variable {maxMismatches : ℤ} {height : ℕ} {key : Outpoint} {replay replay' : Replay}

/-- The output is one that the replay expects in the UTXO set. -/
def Expects (key : Outpoint) (replay : Replay) : Prop := replay.expected.get? key ≠ none

lemma expects_spend (h : replay.Expects key) {txin : TxIn} (hne : txin.outpoint ≠ key)
    (hspend : replay.spend maxMismatches height txin = .ok replay') : replay'.Expects key := by
  unfold spend at hspend
  cases hget : replay.expected.get? txin.outpoint with
  | none =>
    rw [hget] at hspend
    simp only at hspend
    split_ifs at hspend
    cases hspend
    exact h
  | some found =>
    rw [hget] at hspend
    cases hspend
    simp only [Expects, KeyedRows.get?_delete, if_neg (Ne.symm hne)]
    exact h

lemma expects_spendAll {vin : List TxIn} (h : replay.Expects key)
    (hne : ∀ txin ∈ vin, txin.outpoint ≠ key)
    (hspend : vin.foldlM (spend maxMismatches height) replay = .ok replay') :
    replay'.Expects key := by
  induction vin generalizing replay with
  | nil =>
    cases hspend
    exact h
  | cons txin vin ih =>
    rw [List.foldlM_cons] at hspend
    obtain ⟨next, hnext, hspend⟩ := except_bind_eq_ok hspend
    apply ih (expects_spend h (hne txin List.mem_cons_self) hnext) _ hspend
    intro txin' htxin'
    exact hne txin' (List.mem_cons_of_mem _ htxin')

lemma get?_add_ne_none {txid : Bytes} {isCoinbase : Bool} {vout : List TxOut} {i : ℕ}
    {expected : KeyedRows Outpoint ReplayedUtxo} (h : expected.get? key ≠ none) :
    (add txid height isCoinbase i vout expected).get? key ≠ none := by
  induction vout generalizing i expected with
  | nil => exact h
  | cons txout vout ih =>
    rw [add]
    apply ih
    split_ifs
    · exact h
    · rw [KeyedRows.get?_put]
      split_ifs
      · simp
      · exact h

lemma expects_transaction {H : Hashlib} {tx : Transaction} (h : replay.Expects key)
    (hspares : tx.isCoinbase = false → ∀ txin ∈ tx.vin, txin.outpoint ≠ key)
    (hrun : replay.transaction H maxMismatches height tx = .ok replay') : replay'.Expects key := by
  unfold transaction at hrun
  obtain ⟨spent, hspent, hrun⟩ := except_bind_eq_ok hrun
  cases hrun
  apply get?_add_ne_none
  unfold spendInputs at hspent
  split_ifs at hspent with hcoinbase
  · cases hspent
    exact h
  · exact expects_spendAll h (hspares (Bool.eq_false_iff.2 hcoinbase)) hspent

lemma expects_transactions {H : Hashlib} {txs : List Transaction} (h : replay.Expects key)
    (hspares : ∀ tx ∈ txs, tx.isCoinbase = false → ∀ txin ∈ tx.vin, txin.outpoint ≠ key)
    (hrun : txs.foldlM (transaction H maxMismatches height) replay = .ok replay') :
    replay'.Expects key := by
  induction txs generalizing replay with
  | nil =>
    cases hrun
    exact h
  | cons tx txs ih =>
    rw [List.foldlM_cons] at hrun
    obtain ⟨next, hnext, hrun⟩ := except_bind_eq_ok hrun
    apply ih (expects_transaction h (hspares tx List.mem_cons_self) hnext) _ hrun
    intro tx' htx'
    exact hspares tx' (List.mem_cons_of_mem _ htx')

lemma report_ne_nil_left {mismatches xs : List UtxoMismatch} (h : mismatches ≠ []) :
    report maxMismatches mismatches xs ≠ [] := by
  induction xs generalizing mismatches with
  | nil => exact h
  | cons x xs ih =>
    rw [report]
    split_ifs
    · simp
    · exact ih (by simp)

lemma report_ne_nil_right {mismatches xs : List UtxoMismatch} (h : xs ≠ []) :
    report maxMismatches mismatches xs ≠ [] := by
  cases xs with
  | nil => exact absurd rfl h
  | cons x xs =>
    rw [report]
    split_ifs
    · simp
    · exact report_ne_nil_left (by simp)

lemma reportIfFew_ne_nil {mismatches xs : List UtxoMismatch} (h : mismatches ≠ []) :
    reportIfFew maxMismatches mismatches xs ≠ [] := by
  unfold reportIfFew
  split_ifs
  · exact report_ne_nil_left h
  · exact h

/-- An output that is expected and is not there is reported, unless enough others are. -/
lemma compare_ne_nil {actual : KeyedRows Outpoint UtxoRow} (h : replay.Expects key)
    (habsent : actual.get? key = none) : replay.compare maxMismatches actual ≠ [] := by
  have hmissing : key ∈ sorted (replay.expected.keys.filter fun key => !actual.contains key) := by
    rw [sorted, List.mem_mergeSort, List.mem_filter, KeyedRows.mem_keys]
    exact ⟨h, by rw [KeyedRows.contains, habsent]; rfl⟩
  apply reportIfFew_ne_nil
  apply reportIfFew_ne_nil
  apply report_ne_nil_right
  exact List.ne_nil_of_mem (List.mem_map_of_mem hmissing)

end Replay

namespace Node
variable {cfg : NodeConfig} {node start : Node} {key : Outpoint} {maxMismatches : ℤ}
  {replay : Replay} {height : ℕ}

/-- The block that is read at a height. -/
def lookupHeight (cfg : NodeConfig) (height : ℕ) (node : Node) : Option Block :=
  (node.session.memory.getBlockByHeight height).bind fun entry =>
    node.files.lookup cfg.crypto.toHashlib
      (node.session.conn.current.blocks.get? entry.blockHash) entry.blockHash

lemma getBlockByHeight_apply (height : ℕ) (node : Node) :
    ∃ files, getBlockByHeight cfg height node =
        .ok (lookupHeight cfg height node) { node with files } ∧
      ∀ k, Follows cfg.crypto.toHashlib k node { node with files } := by
  simp only [getBlockByHeight, bind_apply, onChain, BerzCoin.read_apply, lookupHeight]
  cases hentry : node.session.memory.getBlockByHeight height with
  | none => exact ⟨node.files, rfl, fun k => ⟨rfl, .refl ..⟩⟩
  | some e => exact @readBlock_follows cfg e.blockHash node

/-- What is read at a height is found under the hash that the index has there. -/
lemma finds_of_lookupHeight {block : Block} (h : lookupHeight cfg height node = some block) :
    ∃ e, node.session.memory.getBlockByHeight height = some e ∧
      Finds cfg.crypto.toHashlib node e.blockHash block := by
  obtain ⟨e, he, hlookup⟩ := Option.bind_eq_some_iff.1 h
  exact ⟨e, he, BlockFiles.finds_of_lookup hlookup⟩

/-- Blocks that do not spend the output leave it expected. -/
lemma replayHeights_expects {heights : List ℕ} (hexpects : replay.Expects key)
    (hspares : ∀ h ∈ heights, ∀ e block, node.session.memory.getBlockByHeight h = some e →
      Finds cfg.crypto.toHashlib node e.blockHash block → block.Spares key) :
    ∃ result files, replayHeights cfg maxMismatches heights replay node =
        .ok result { node with files } ∧ ∀ r, result = .ok r → r.Expects key := by
  induction heights generalizing node replay with
  | nil =>
    refine ⟨.ok replay, node.files, rfl, ?_⟩
    intro r hr
    cases hr
    exact hexpects
  | cons h heights ih =>
    obtain ⟨files, hread, hfollows⟩ := @getBlockByHeight_apply cfg h node
    simp only [replayHeights, bind_apply, hread]
    cases hfound : lookupHeight cfg h node with
    | none => exact ⟨_, files, rfl, fun r hr => by cases hr⟩
    | some block =>
      obtain ⟨e, he, hfinds⟩ := finds_of_lookupHeight hfound
      cases hrun : block.transactions.foldlM
        (Replay.transaction cfg.crypto.toHashlib maxMismatches h) replay with
      | error mismatches => exact ⟨_, files, by simp only [hrun]; rfl, fun r hr => by cases hr⟩
      | ok next =>
        have hnext := Replay.expects_transactions hexpects
          (hspares h List.mem_cons_self e block he hfinds) hrun
        simp only [hrun]
        refine @ih { node with files } next hnext ?_
        intro h' hh' e' block' he' hfinds'
        exact hspares h' (List.mem_cons_of_mem _ hh') e' block' he'
          ((hfollows e'.blockHash).finds hfinds')

/-- Only the root is at height zero. -/
lemma hash_of_height_zero {b : BlockIndex} {root aboveRoot k : Bytes} {e : BlockIndexEntry}
    (hroot : b.Rooted root aboveRoot) (he : b.getBlock k = some e) : e.height = 0 ↔ k = root := by
  constructor
  · intro hzero
    by_contra hk
    obtain ⟨p, hp⟩ := Option.ne_none_iff_exists'.1 (hroot.parent k e he hk)
    have hheight := hroot.tree.parent k e p he hp
    omega
  · rintro rfl
    obtain ⟨e', he', hzero, -⟩ := hroot.entry
    rw [he] at he'
    cases he'
    exact hzero

lemma getBlock_of_height {b : BlockIndex} (htree : b.TreeShaped) {e : BlockIndexEntry}
    (h : b.getBlockByHeight height = some e) : b.getBlock e.blockHash = some e := by
  obtain ⟨k, -, he⟩ := Option.bind_eq_some_iff.1 h
  rw [htree.key k e he]
  exact he

section outcome
variable {header : BlockHeader}

/-- The genesis block adds its output to what the replay expects. -/
lemma genesis_expects {H : Hashlib} {replay' : Replay}
    (h : [genesisCoinbase].foldlM (Replay.transaction H maxMismatches 0) replay = .ok replay') :
    replay'.Expects (genesisCoinbase.txid H, 0) := by
  cases h
  simp [Replay.Expects, Replay.add, genesisCoinbase, TxOut.isOpReturn]

/-- The active chain of a node, from the genesis block to the best tip. -/
lemma FromGenesis.shows {root aboveRoot : Bytes} {body : Option Block} {keys : Set Outpoint}
    (h : FromGenesis cfg root aboveRoot body keys node) :
    ∃ best, ∃ bestHeight : ℕ, node.bestHash = some best ∧ node.bestHeight = bestHeight ∧
      node.session.memory.Shows best (bestHeight + 1) := by
  obtain ⟨best, hbest, -, e, he, hshows⟩ := h.consistent.best
  obtain ⟨best', bestHeight, hbest', hgetHeight, hheight⟩ := h.read.booked.best
  obtain rfl : best = best' := Option.some.inj (hbest.symm.trans hbest')
  have hsame : bestHeight = e.height := by
    rw [BlockIndex.getHeight, he] at hgetHeight
    exact (Option.some.inj hgetHeight).symm
  refine ⟨best, bestHeight, hbest, hheight, ?_⟩
  rw [hsame]
  exact hshows

/-- The block at height zero is the genesis block, where it is stored. -/
lemma FromGenesis.lookup_zero {block : Block}
    (h : FromGenesis cfg (header.hashHex cfg.crypto.toHashlib) zeroHash
      (genesisBody cfg header) (genesisOutputs cfg) node)
    (hfound : lookupHeight cfg 0 node = some block) :
    cfg.params.network = .regtest ∧ block = ⟨header, [genesisCoinbase]⟩ := by
  have hrooted := h.consistent.rooted
  obtain ⟨best, bestHeight, -, -, hshows⟩ := h.shows
  obtain ⟨e, he, hfinds⟩ := finds_of_lookupHeight hfound
  obtain ⟨e', he', hzero, -⟩ := hshows 0 (Nat.succ_pos _)
  obtain rfl : e = e' := Option.some.inj (he.symm.trans he')
  have hroot := (hash_of_height_zero hrooted (getBlock_of_height hrooted.tree he)).1 hzero
  rw [hroot] at hfinds
  have hbody := h.read.finds block hfinds
  unfold genesisBody at hbody
  split_ifs at hbody with hnetwork
  exact ⟨hnetwork, (Option.some.inj hbody).symm⟩

/-- The other blocks of the active chain do not spend the output of the genesis block. -/
lemma FromGenesis.spares {block : Block} {e : BlockIndexEntry}
    (h : FromGenesis cfg (header.hashHex cfg.crypto.toHashlib) zeroHash
      (genesisBody cfg header) (genesisOutputs cfg) node)
    (hkey : key ∈ genesisOutputs cfg) (hpos : 0 < height) (hle : (height : ℤ) ≤ node.bestHeight)
    (he : node.session.memory.getBlockByHeight height = some e)
    (hfinds : Finds cfg.crypto.toHashlib node e.blockHash block) : block.Spares key := by
  have hrooted := h.consistent.rooted
  obtain ⟨best, bestHeight, hbest, hheight, hshows⟩ := h.shows
  obtain ⟨e', he', heheight, hdesc⟩ := hshows height (by omega)
  obtain rfl : e = e' := Option.some.inj (he.symm.trans he')
  refine (h.unspent key hkey).spared best e.blockHash hbest hdesc ?_ block hfinds
  intro hroot
  have hzero := (hash_of_height_zero hrooted (getBlock_of_height hrooted.tree he)).2 hroot
  omega

/-- Reports on the states that follow the genesis block. -/
lemma verify_fromGenesis (h : FromGenesis cfg (header.hashHex cfg.crypto.toHashlib) zeroHash
    (genesisBody cfg header) (genesisOutputs cfg) node) (maxMismatches : ℤ) :
    ∃ report node', verifyActiveChainUtxoState cfg maxMismatches node = .ok report node' ∧
      report.ok = false := by
  obtain ⟨best, bestHeight, -, hheight, -⟩ := h.shows
  have hnonneg : ¬ (bestHeight : ℤ) < 0 := by omega
  have hcount : ((bestHeight : ℤ) + 1).toNat = bestHeight + 1 := by omega
  simp only [verifyActiveChainUtxoState, bind_apply, get_apply, hheight, if_neg hnonneg, hcount,
    List.range_succ_eq_map, replayHeights]
  obtain ⟨files, hread, hfollows⟩ := @getBlockByHeight_apply cfg 0 node
  rw [hread]
  cases hfound : lookupHeight cfg 0 node with
  | none => exact ⟨_, _, rfl, rfl⟩
  | some block =>
    obtain ⟨hnetwork, rfl⟩ := h.lookup_zero hfound
    have hkey : (genesisCoinbase.txid cfg.crypto.toHashlib, 0) ∈ genesisOutputs cfg :=
      ⟨hnetwork, rfl⟩
    obtain ⟨replay, hreplay⟩ : ∃ replay, [genesisCoinbase].foldlM
        (Replay.transaction cfg.crypto.toHashlib maxMismatches 0) ⟨.empty, []⟩ = .ok replay :=
      ⟨_, rfl⟩
    obtain ⟨result, files', hrun, hexpects⟩ := @replayHeights_expects cfg { node with files } _
      maxMismatches replay (List.map Nat.succ (List.range bestHeight)) (genesis_expects hreplay) (by
        intro j hj x found hx hfinds
        obtain ⟨i, hi, rfl⟩ := List.mem_map.1 hj
        have hlt := List.mem_range.1 hi
        exact h.spares hkey i.succ_pos (by omega) hx ((hfollows x.blockHash).finds hfinds))
    simp only [hreplay, hrun]
    cases result with
    | error mismatches => exact ⟨_, _, rfl, rfl⟩
    | ok replayed =>
      have hne : replayed.compare maxMismatches node.session.conn.current.utxo ≠ [] :=
        Replay.compare_ne_nil (hexpects replayed rfl) (h.unspent _ hkey).lacks.absent
      refine ⟨_, _, rfl, ?_⟩
      exact decide_eq_false hne

/-- The genesis block is never connected, and on the networks other than regtest it is not stored
either: the self-check refuses every state that a node reaches from an empty datadir. -/
theorem verifyActiveChainUtxoState_not_ok (hdigests : cfg.crypto.toHashlib.Digests)
    {metadataFile : Option GenesisMetadata} {now cacheSize : ℕ} {orphanage : Orphanage}
    (horphans : orphanage.orphans.rows = [])
    (hstart : initializeChainState cfg metadataFile now (fresh cacheSize orphanage) = .ok () start)
    (ds : List Delivery)
    (hds : ∀ d ∈ ds, ∀ key ∈ genesisOutputs cfg, ReadsApart cfg.crypto.toHashlib key d.block)
    (maxMismatches : ℤ) :
    ∃ report node', verifyActiveChainUtxoState cfg maxMismatches
        (deliver (fun d => onBlock cfg d.clock d.block d.sourcePeer) ds start).2 =
          .ok report node' ∧ report.ok = false := by
  obtain ⟨header, -, hgenesis, -⟩ := initializeChainState_fromGenesis hdigests horphans hstart
  have hdelivered := deliver_fromGenesis hgenesis fun d hd =>
    ⟨hdigests.nonzero d.block.header, hds d hd⟩
  exact verify_fromGenesis hdelivered maxMismatches

end outcome
end Node

/-! The first start of a node of regtest, and the first block that is mined on it. -/
namespace SelfCheckExample
open Node
open BlockExample (coinbase coinbase1Id blockOn)

def genesisMerkleRoot : ℕ := 0xbe126d9d48a82c618bc7e305bf042a311fd857470bc48f7cc8b43ed90ad233d5

def genesisHeader : BlockHeader :=
  ⟨1, zeroHash, beBytes 32 genesisMerkleRoot, 1774569720, 0x207fffff, 0⟩

def block1 : Block :=
  blockOn 0x5dd3bbe7666038a94cacbe73506d2c63b1c47bc0d271ba880400648ff37dcc60 coinbase1Id 1774569721 1
    [coinbase 1]

def digests : List (Bytes × ℕ × ℕ) :=
  [(genesisCoinbase.serialize false,
      0x8619d04744f885fa13f9eac96fb9bbb69968c8ca58f8b815da23f7d976ccef35, genesisMerkleRoot),
    (genesisHeader.serialize,
      0x86b249cdef6237253e6a92f2e691c04ee1d916d21ee209890dad2b6a2f59f907,
      0x60cc7df38f64000488ba71d2c07bc4b1632c6d5073beac4ca9386066e7bbd35d),
    ((coinbase 1).serialize false,
      0xf134d143006a51204c3e88a2beaf303b7a580ce200ce6b117703851a96e3efb9, coinbase1Id),
    (block1.header.serialize,
      0x12fef4007098d251ab330e5313b677c0408a67c97dee2ba3ac85499b898358f9,
      0x166a8012ea5c347ddb59f59c7dbecc572643730ad3db8b762cbeca6c28643559)]

/-- Other strings have the digest 1. -/
def crypto : Script.Crypto := .ofHashlib <|
  { Hashlib.ofDigests [] with sha256 := fun _ => beBytes 32 1 }.withDigests digests

lemma crypto_digest (data : Bytes) :
    (crypto.sha256 data).length = 32 ∧ crypto.sha256 data ≠ zeroHash := by
  have hall : ∀ d ∈ digests, ∀ digest ∈ [d.2.1, d.2.2],
      (beBytes 32 digest).length = 32 ∧ beBytes 32 digest ≠ zeroHash := by
    decide +kernel
  obtain hother | ⟨d, hd, digest, hdigest, heq⟩ := Hashlib.sha256_withDigests _ digests data
  · have hone : (beBytes 32 1).length = 32 ∧ beBytes 32 1 ≠ zeroHash := by decide
    rwa [crypto, Script.Crypto.ofHashlib, hother]
  · rw [crypto, Script.Crypto.ofHashlib, heq]
    exact hall d hd digest hdigest

lemma crypto_digests : crypto.toHashlib.Digests := by
  refine ⟨fun data => (crypto_digest data).1, ?_⟩
  intro header hzero
  have hdigest := (crypto_digest (crypto.sha256 header.serialize)).2
  apply hdigest
  have hreverse := congrArg List.reverse hzero
  rw [BlockHeader.hashHex, List.reverse_reverse] at hreverse
  exact hreverse

def regtestConfig : NodeConfig := { crypto, params := ConsensusParams.regtest }

def deliveries : List Delivery := [⟨1774569800, block1, none⟩]

def mined (start : Node) : Node :=
  (deliver (fun d => onBlock regtestConfig d.clock d.block d.sourcePeer) deliveries start).2

lemma readsApart (d : Delivery) (hd : d ∈ deliveries) (key : Outpoint) :
    ReadsApart crypto.toHashlib key d.block := by
  have hread : Block.deserialize (block1.serialize true) 0 =
      .ok (block1, (block1.serialize true).length) := by
    decide +kernel
  obtain rfl := List.mem_singleton.1 hd
  intro found offset hfound
  rw [hread, Except.ok.injEq, Prod.mk.injEq] at hfound
  exact .inl hfound.1.symm

/-- A node of regtest on which a block is mined. -/
theorem verifyActiveChainUtxoState_not_ok_mined : ∃ start report node',
    initializeChainState regtestConfig none 1774569800 (fresh 100 {}) = .ok () start ∧
      (mined start).bestHeight = 1 ∧
      verifyActiveChainUtxoState regtestConfig 20 (mined start) = .ok report node' ∧
        report.ok = false := by
  have hstarts : (match initializeChainState regtestConfig none 1774569800 (fresh 100 {}) with
    | .ok _ start => decide ((mined start).bestHeight = 1)
    | .error _ _ => false) = true := by
    decide +kernel
  cases hstart : initializeChainState regtestConfig none 1774569800 (fresh 100 {}) with
  | error e node =>
    rw [hstart] at hstarts
    cases hstarts
  | ok u start =>
    rw [hstart] at hstarts
    obtain ⟨report, node', hrun, hok⟩ := verifyActiveChainUtxoState_not_ok
      crypto_digests rfl hstart deliveries (fun d hd key _ => readsApart d hd key) 20
    exact ⟨start, report, node', rfl, of_decide_eq_true hstarts, hrun, hok⟩

/-- A node of regtest that was just started: the output of its genesis block is missed. -/
theorem regtest_report : (match initializeChainState regtestConfig none 1774569800
      (fresh 100 {}) with
    | .error _ _ => none
    | .ok _ start =>
      match verifyActiveChainUtxoState regtestConfig 20 start with
      | .error _ _ => none
      | .ok report _ => some report) =
    some ⟨false, 0, [.missingUtxoInDb (genesisCoinbase.txid crypto.toHashlib, 0)]⟩ := by
  decide +kernel

end SelfCheckExample
end BerzCoin
