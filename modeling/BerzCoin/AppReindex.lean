import BerzCoin.AppSelfCheck
import BerzCoin.StateInvariant

/-! `Reindexer`: the UTXO set is cleared and rebuilt from the stored blocks of the active chain. -/
namespace BerzCoin
open Database BlockIndex UTXOStore

namespace Reindexer
variable {ι : Type} (H : Hashlib)

def spendInputs (height : ℕ) (txid : Bytes) : ℕ → List TxIn → Db Tables ι Unit
  | _, [] => return ()
  | inIdx, txin :: vin => do
    let spent ← spendUtxo txin.outpoint.1 txin.outpoint.2 txid inIdx
    if !spent then
      throw (.runtimeError ("Failed to spend outpoint " ++ outpointText txin.outpoint ++
        " while replaying block " ++ toString height))
    spendInputs height txid (inIdx + 1) vin

def addOutputs (height : ℕ) (txid : Bytes) (isCoinbase : Bool) : ℕ → List TxOut → Db Tables ι Unit
  | _, [] => return ()
  | i, txout :: vout => do
    if !txout.isOpReturn then
      addUtxo txid i txout.value.toNat txout.scriptPubkey height isCoinbase
    addOutputs height txid isCoinbase (i + 1) vout

/-- `_reindex_block`. -/
def reindexBlock (height : ℕ) : List Transaction → Db Tables ι Unit
  | [] => return ()
  | tx :: txs => do
    if !tx.isCoinbase then spendInputs height (tx.txid H) 0 tx.vin
    addOutputs height (tx.txid H) tx.isCoinbase 0 tx.vout
    reindexBlock height txs

/-- `DELETE FROM utxo`. -/
def deleteAllUtxos : Statement Tables Unit := .change fun tables => { tables with utxo := .empty }

/-- `UPDATE outputs SET spent = 0, spent_by_txid = NULL, spent_by_index = NULL`, for all rows. -/
def clearAllSpent : Statement Tables Unit :=
  .change fun tables => { tables with
    outputs := tables.outputs.mapValues fun row =>
      { row with spent := false, spentByTxid := none, spentByIndex := none } }

/-- `verify_consistency`; no row has a negative value. -/
def verifyConsistency : Db Tables ι Bool :=
  execute (.query fun tables => decide tables.utxo.keys.Nodup)

end Reindexer

namespace Node
open Reindexer

/-- `db.transaction` around code that also reads blocks. -/
def transaction {α : Type} (body : NodeM α) : NodeM α := fun node =>
  if node.session.conn.inTransaction then
    match body node with
    | .ok a node' => .ok a node'
    | .error e node' => .error (.storageError ("Transaction failed: " ++ e.message)) node'
  else
    match body { node with session := { node.session with conn := node.session.conn.begin } } with
    | .ok a node' =>
      .ok a { node' with session := { node'.session with conn := node'.session.conn.commit } }
    | .error e node' =>
      .error (.storageError ("Transaction failed: " ++ e.message))
        { node' with session := { node'.session with conn := node'.session.conn.rollback } }

section reindex
variable (cfg : NodeConfig)

def reindexHeights : List ℕ → NodeM Unit
  | [] => return ()
  | height :: heights => do
    match ← getBlockByHeight cfg height with
    | none =>
      throw (.runtimeError ("Missing main-chain block at height " ++ toString height ++
        " during reindex"))
    | some block =>
      onChain (reindexBlock cfg.crypto.toHashlib height block.transactions)
      reindexHeights heights

/-- The replay always starts at height zero, whatever was asked for. -/
def replayFrom (startHeight endHeight : ℤ) : List ℕ :=
  let startHeight := if startHeight ≠ 0 then 0 else startHeight
  (List.range (endHeight + 1 - startHeight).toNat).map (startHeight.toNat + ·)

/-- The transactional rebuild of `run`. -/
def rebuild (startHeight endHeight : ℤ) : NodeM Unit :=
  transaction (do
    onChain (execute deleteAllUtxos)
    onChain (execute clearAllSpent)
    reindexHeights cfg (replayFrom startHeight endHeight))

/-- `run`. -/
def reindex (startHeight : ℤ) (endHeight : Option ℤ) : NodeM Bool :=
  tryCatch (do
    let endHeight := endHeight.getD (← get).bestHeight
    if endHeight < 0 then return false
    rebuild cfg startHeight endHeight
    if !(← onChain verifyConsistency) then
      throw (.runtimeError "UTXO consistency check failed after reindex")
    return true) fun _ => return false

end reindex
end Node

/-! An output that the rebuilding has put into the UTXO set, while blocks do not spend it. -/
section present
variable {H : Hashlib} {key : Outpoint} {rows : KeyedRows Bytes BlockRow} {b : BlockIndex}

structure Present (rows : KeyedRows Bytes BlockRow) (b : BlockIndex) (key : Outpoint)
    (s : Session Tables BlockIndex) : Prop where
  isOpen : s.conn.inTransaction = true
  blocks : s.conn.current.blocks = rows
  memory : s.memory = b
  present : s.conn.current.utxo.get? key ≠ none

open StateInvariant in
lemma keeps_execute {α : Type} {stmt : Statement Tables α}
    (h : ∀ tables tables' a, stmt.run tables = .ok (tables', a) → tables.utxo.get? key ≠ none →
      tables'.blocks = tables.blocks ∧ tables'.utxo.get? key ≠ none) :
    Keeps (Present rows b key) (execute stmt) fun _ => True := by
  intro s hs
  rw [execute_of_open stmt hs.isOpen]
  cases hrun : stmt.run s.conn.current with
  | error e => exact hs
  | ok p =>
    obtain ⟨tables', a⟩ := p
    obtain ⟨hblocks, hpresent⟩ := h _ _ _ hrun hs.present
    refine ⟨⟨?_, ?_, hs.memory, ?_⟩, trivial⟩
    · simp [hs.isOpen]
    · simp [hblocks, hs.blocks]
    · simpa using hpresent

namespace Reindexer
open StateInvariant

lemma keeps_spendUtxo {key' : Outpoint} (hne : key' ≠ key) (txid : Bytes) (inIdx : ℕ) :
    Keeps (Present rows b key) (spendUtxo key'.1 key'.2 txid inIdx) fun _ => True := by
  apply Keeps.bind (Q := fun _ => True)
  · apply keeps_execute
    intro tables tables' a hrun hpresent
    cases hrun
    refine ⟨rfl, ?_⟩
    simp only [KeyedRows.get?_delete, if_neg (Ne.symm hne)]
    exact hpresent
  · intro rowcount _
    apply keeps_ite
    · intro _
      apply Keeps.bind (Q := fun _ => True)
      · apply keeps_execute
        intro tables tables' a hrun hpresent
        cases hrun
        exact ⟨rfl, hpresent⟩
      · intro _ _
        exact keeps_pure trivial
    · intro _
      exact keeps_pure trivial

lemma keeps_spendInputs {height : ℕ} {txid : Bytes} {inIdx : ℕ} {vin : List TxIn}
    (hne : ∀ txin ∈ vin, txin.outpoint ≠ key) :
    Keeps (Present rows b key) (spendInputs height txid inIdx vin) fun _ => True := by
  induction vin generalizing inIdx with
  | nil => exact keeps_pure trivial
  | cons txin vin ih =>
    apply Keeps.bind (keeps_spendUtxo (hne txin List.mem_cons_self) txid inIdx)
    intro spent _
    have hrest := @ih (inIdx + 1) fun txin' htxin' => hne txin' (List.mem_cons_of_mem _ htxin')
    apply keeps_ite
    · intro _
      exact Keeps.bind (Q := fun _ => True) keeps_throw fun _ _ => hrest
    · intro _
      exact hrest

lemma keeps_addOutputs {height : ℕ} {txid : Bytes} {isCoinbase : Bool} {i : ℕ} {vout : List TxOut} :
    Keeps (Present rows b key) (addOutputs height txid isCoinbase i vout) fun _ => True := by
  induction vout generalizing i with
  | nil => exact keeps_pure trivial
  | cons txout vout ih =>
    apply keeps_ite
    · intro _
      apply Keeps.bind (Q := fun _ => True)
      · apply keeps_execute
        intro tables tables' a hrun hpresent
        obtain ⟨value, -, hrun⟩ := except_bind_eq_ok hrun
        cases hrun
        refine ⟨rfl, ?_⟩
        simp only [KeyedRows.get?_insertOrReplace]
        split_ifs
        · simp
        · exact hpresent
      · intro _ _
        exact ih
    · intro _
      exact ih

lemma keeps_reindexBlock {height : ℕ} {txs : List Transaction}
    (hspares : ∀ tx ∈ txs, tx.isCoinbase = false → ∀ txin ∈ tx.vin, txin.outpoint ≠ key) :
    Keeps (Present rows b key) (reindexBlock H height txs) fun _ => True := by
  induction txs with
  | nil => exact keeps_pure trivial
  | cons tx txs ih =>
    have hrest := ih fun tx' htx' => hspares tx' (List.mem_cons_of_mem _ htx')
    have hadd : Keeps (Present rows b key) (do
        addOutputs height (tx.txid H) tx.isCoinbase 0 tx.vout
        reindexBlock H height txs) fun _ => True :=
      Keeps.bind keeps_addOutputs fun _ _ => hrest
    apply keeps_ite
    · intro hcoinbase
      have hfalse : tx.isCoinbase = false := by simpa using hcoinbase
      exact Keeps.bind (keeps_spendInputs (hspares tx List.mem_cons_self hfalse)) fun _ _ => hadd
    · intro _
      exact hadd

end Reindexer
end present

namespace Node
open Reindexer
variable {cfg : NodeConfig} {node₀ node : Node} {key : Outpoint} {header : BlockHeader}

/-- The output is there, the index and the rows of the blocks are those of the node before, and
reads find no more than they did. -/
structure Rebuilt (H : Hashlib) (node₀ : Node) (key : Outpoint) (node : Node) : Prop where
  present : Present node₀.session.conn.current.blocks node₀.session.memory key node.session
  follows : ∀ k, Follows H k node₀ node

open StateInvariant in
lemma keeps_onChain {α : Type} {H : Hashlib} {x : ChainDb α}
    (hx : StateInvariant.Keeps (Present node₀.session.conn.current.blocks node₀.session.memory key) x
      fun _ => True) : StateInvariant.Keeps (Rebuilt H node₀ key) (onChain x) fun _ => True := by
  intro node hnode
  have hrun := hx node.session hnode.present
  have hfollows (session : Session Tables BlockIndex)
      (h : Present node₀.session.conn.current.blocks node₀.session.memory key session) (k : Bytes) :
      Follows H k node₀ { node with session } := by
    refine ⟨?_, (hnode.follows k).files⟩
    rw [h.blocks]
  unfold onChain
  cases hend : x node.session with
  | ok a session =>
    rw [hend] at hrun
    exact ⟨⟨hrun.1, hfollows session hrun.1⟩, trivial⟩
  | error e session =>
    rw [hend] at hrun
    exact ⟨hrun, hfollows session hrun⟩

lemma Follows.trans {H : Hashlib} {k : Bytes} {node' : Node} (h : Follows H k node₀ node)
    (h' : Follows H k node node') : Follows H k node₀ node' := by
  refine ⟨h'.row.trans h.row, h.files.trans ?_⟩
  rw [← h.row]
  exact h'.files

open StateInvariant in
lemma keeps_reindexHeights {heights : List ℕ}
    (hspares : ∀ j ∈ heights, ∀ e block, node₀.session.memory.getBlockByHeight j = some e →
      Finds cfg.crypto.toHashlib node₀ e.blockHash block → block.Spares key) :
    StateInvariant.Keeps (Rebuilt cfg.crypto.toHashlib node₀ key) (reindexHeights cfg heights) fun _ => True := by
  induction heights with
  | nil => exact keeps_pure trivial
  | cons j heights ih =>
    have hrest := ih fun j' hj' => hspares j' (List.mem_cons_of_mem _ hj')
    have hread : StateInvariant.Keeps (Rebuilt cfg.crypto.toHashlib node₀ key) (getBlockByHeight cfg j)
        fun found => ∀ block, found = some block → block.Spares key := by
      intro node hnode
      obtain ⟨files, hread, hfollows⟩ := @getBlockByHeight_apply cfg j node
      rw [hread]
      refine ⟨⟨hnode.present, fun k => (hnode.follows k).trans (hfollows k)⟩, ?_⟩
      intro block hblock
      obtain ⟨e, he, hfinds⟩ := finds_of_lookupHeight hblock
      rw [hnode.present.memory] at he
      exact hspares j List.mem_cons_self e block he ((hnode.follows _).finds hfinds)
    apply StateInvariant.Keeps.bind hread
    intro found hfound
    cases found with
    | none => exact keeps_throw
    | some block =>
      exact StateInvariant.Keeps.bind (keeps_onChain (keeps_reindexBlock (hfound block rfl))) fun _ _ => hrest

/-! The start of a rebuilding: the UTXO set is emptied, and the genesis block adds its output. -/
section start

/-- The tables without outputs and without marks of spending. -/
def cleared (tables : Tables) : Tables :=
  { tables with
    utxo := .empty
    outputs := tables.outputs.mapValues fun row =>
      { row with spent := false, spentByTxid := none, spentByIndex := none } }

@[simp] lemma cleared_blocks (tables : Tables) : (cleared tables).blocks = tables.blocks := rfl

lemma onChain_change {f : Tables → Tables} {s : Session Tables BlockIndex}
    (hopen : s.conn.inTransaction = true) (node : Node) :
    onChain (execute (.change f)) { node with session := s } =
      .ok () { node with session := put s (f s.conn.current) s.memory } := by
  simp only [onChain, change_apply hopen]

lemma reindexBlock_genesis (H : Hashlib) {s : Session Tables BlockIndex}
    (hopen : s.conn.inTransaction = true) :
    ∃ tables, reindexBlock H 0 [genesisCoinbase] s = .ok () (put s tables s.memory) ∧
      tables.blocks = s.conn.current.blocks ∧
      tables.utxo.get? (genesisCoinbase.txid H, 0) ≠ none := by
  have hadd : addUtxo (genesisCoinbase.txid H) 0 0 [] 0 true s =
      .ok () (put s { s.conn.current with
        utxo := s.conn.current.utxo.insertOrReplace (genesisCoinbase.txid H, 0)
          ⟨⟨0, by decide⟩, [], 0, true, none⟩ } s.memory) := by
    rw [addUtxo, execute_of_open _ hopen]
    rfl
  have hrun : reindexBlock H 0 [genesisCoinbase] s =
      .ok () (put s { s.conn.current with
        utxo := s.conn.current.utxo.insertOrReplace (genesisCoinbase.txid H, 0)
          ⟨⟨0, by decide⟩, [], 0, true, none⟩ } s.memory) := by
    change EStateM.bind (EStateM.bind (addUtxo _ 0 0 [] 0 true) fun _ => pure ()) (fun _ => pure ()) s = _
    simp only [EStateM.bind, hadd]
    rfl
  refine ⟨_, hrun, rfl, ?_⟩
  rw [KeyedRows.get?_insertOrReplace, if_pos rfl]
  exact Option.some_ne_none _

/-- Whether the replay comes to its end or not, the output of the genesis block is there. -/
lemma rebuilt_of_replay (h : FromGenesis cfg (header.hashHex cfg.crypto.toHashlib) zeroHash
      (genesisBody cfg header) (genesisOutputs cfg) node)
    (hnetwork : cfg.params.network = .regtest)
    (hfound : lookupHeight cfg 0 node = some ⟨header, [genesisCoinbase]⟩) {heights : List ℕ}
    (hheights : ∀ j ∈ heights, 0 < j ∧ (j : ℤ) ≤ node.bestHeight) :
    Rebuilt cfg.crypto.toHashlib node (genesisCoinbase.txid cfg.crypto.toHashlib, 0)
      (final (do
        onChain (execute deleteAllUtxos)
        onChain (execute clearAllSpent)
        reindexHeights cfg (0 :: heights)) node) := by
  have hopen := h.read.booked.isOpen
  have hkey : (genesisCoinbase.txid cfg.crypto.toHashlib, 0) ∈ genesisOutputs cfg :=
    ⟨hnetwork, rfl⟩
  have hdelete : onChain (execute deleteAllUtxos) node = .ok () { node with
      session := put node.session { node.session.conn.current with utxo := .empty }
        node.session.memory } :=
    onChain_change hopen node
  have hclear : onChain (execute clearAllSpent) { node with
      session := put node.session { node.session.conn.current with utxo := .empty }
        node.session.memory } = .ok () { node with
      session := put node.session (cleared node.session.conn.current) node.session.memory } := by
    rw [clearAllSpent, onChain_change (by simpa using hopen)]
    simp only [put_put, put_current, put_memory]
    rfl
  obtain ⟨files, hread, hfollows⟩ := @getBlockByHeight_apply cfg 0 { node with
    session := put node.session (cleared node.session.conn.current) node.session.memory }
  have hsame : lookupHeight cfg 0 { node with
      session := put node.session (cleared node.session.conn.current) node.session.memory } =
        lookupHeight cfg 0 node := by
    simp only [lookupHeight, put_memory, put_current]
    rfl
  rw [hsame, hfound] at hread
  obtain ⟨tables, hgenesis, hblocks, hpresent⟩ := @reindexBlock_genesis cfg.crypto.toHashlib
    (put node.session (cleared node.session.conn.current) node.session.memory) (by simpa using hopen)
  simp only [put_put, put_memory, put_current] at hgenesis hblocks
  have hrebuilt : Rebuilt cfg.crypto.toHashlib node (genesisCoinbase.txid cfg.crypto.toHashlib, 0)
      { node with files, session := put node.session tables node.session.memory } := by
    refine ⟨⟨by simpa using hopen, by simpa using hblocks, rfl, by simpa using hpresent⟩, ?_⟩
    intro k
    refine ⟨?_, ?_⟩
    · simp only [put_current, hblocks]
      rfl
    · have hfiles := (hfollows k).files
      simp only [put_current] at hfiles
      exact hfiles
  have hrest := @keeps_reindexHeights cfg node _ heights (fun j hj e block he hfinds =>
    h.spares hkey (hheights j hj).1 (hheights j hj).2 he hfinds) _ hrebuilt
  simp only [final, bind_apply, hdelete, hclear, reindexHeights, hread]
  simp only [onChain, hgenesis]
  cases hrun : reindexHeights cfg heights
      { node with files, session := put node.session tables node.session.memory } with
  | ok u node' =>
    rw [hrun] at hrest
    exact hrest.1
  | error e node' =>
    rw [hrun] at hrest
    exact hrest

end start

/-! The outcome. -/
section outcome

/-- `transaction` does not roll back what it found open. -/
lemma final_transaction {α : Type} (body : NodeM α)
    (hopen : node.session.conn.inTransaction = true) :
    final (transaction body) node = final body node := by
  simp only [final, transaction, hopen, if_true]
  cases body node <;> rfl

lemma replayFrom_eq (startHeight : ℤ) {endHeight : ℤ} (h : 0 ≤ endHeight) :
    replayFrom startHeight endHeight = 0 :: (List.range endHeight.toNat).map Nat.succ := by
  have hzero : (if startHeight ≠ 0 then (0 : ℤ) else startHeight) = 0 := by
    split_ifs with hstart
    · rfl
    · exact not_not.1 hstart
  have hcount : (endHeight + 1).toNat = endHeight.toNat + 1 := by omega
  simp only [replayFrom, hzero, sub_zero, hcount, Int.toNat_zero, zero_add, List.map_id',
    List.range_succ_eq_map]

lemma catch_apply (x : NodeM Bool) (node : Node) :
    ∃ ok, (tryCatch x fun _ => return false) node = .ok ok (final x node) := by
  simp only [tryCatch, tryCatchThe, MonadExceptOf.tryCatch, EStateM.tryCatch, final]
  cases x node with
  | ok ok node' => exact ⟨ok, rfl⟩
  | error e node' => exact ⟨false, rfl⟩

/-- `verify_consistency` decides the reply, and the node stays as it is. -/
lemma final_verified (x : NodeM Unit) (node : Node) :
    final (do
      x
      if !(← onChain verifyConsistency) then
        throw (.runtimeError "UTXO consistency check failed after reindex")
      return true) node = final x node := by
  simp only [final, bind_apply, onChain, verifyConsistency, query_apply]
  cases x node with
  | error e node' => rfl
  | ok u node' =>
    simp only
    cases decide node'.session.conn.current.utxo.keys.Nodup <;> rfl

/-- Each block of the active chain can be read. -/
def ActiveChainStored (cfg : NodeConfig) (node : Node) : Prop :=
  ∀ height : ℕ, (height : ℤ) ≤ node.bestHeight →
    ∃ block node', getBlockByHeight cfg height node = .ok (some block) node'

lemma reindex_fromGenesis (h : FromGenesis cfg (header.hashHex cfg.crypto.toHashlib) zeroHash
      (genesisBody cfg header) (genesisOutputs cfg) node)
    (hstored : ActiveChainStored cfg node) (startHeight : ℤ) {endHeight : Option ℤ}
    (hle : ∀ e, endHeight = some e → e ≤ node.bestHeight) :
    ∃ ok node', reindex cfg startHeight endHeight node = .ok ok node' ∧
      (node'.session.conn.current.utxo = node.session.conn.current.utxo ↔
        ∃ e, endHeight = some e ∧ e < 0) := by
  obtain ⟨best, bestHeight, -, hheight, -⟩ := h.shows
  obtain ⟨ok, hok⟩ := catch_apply (do
    let endHeight := endHeight.getD (← get).bestHeight
    if endHeight < 0 then return false
    rebuild cfg startHeight endHeight
    if !(← onChain verifyConsistency) then
      throw (.runtimeError "UTXO consistency check failed after reindex")
    return true) node
  refine ⟨ok, _, hok, ?_⟩
  by_cases hneg : endHeight.getD node.bestHeight < 0
  · -- Nothing is replayed.
    simp only [final, bind_apply, get_apply, if_pos hneg, pure_apply, true_iff]
    cases endHeight with
    | none =>
      simp only [Option.getD_none] at hneg
      omega
    | some e => exact ⟨e, rfl, hneg⟩
  · have hfinal : final (do
        let endHeight := endHeight.getD (← get).bestHeight
        if endHeight < 0 then return false
        rebuild cfg startHeight endHeight
        if !(← onChain verifyConsistency) then
          throw (.runtimeError "UTXO consistency check failed after reindex")
        return true) node = final (rebuild cfg startHeight (endHeight.getD node.bestHeight)) node := by
      rw [← final_verified]
      simp only [final, bind_apply, get_apply, if_neg hneg]
    obtain ⟨block, node', hblock⟩ := hstored 0 (by omega)
    obtain ⟨files, hread, -⟩ := @getBlockByHeight_apply cfg 0 node
    rw [hread, EStateM.Result.ok.injEq] at hblock
    obtain ⟨hnetwork, rfl⟩ := h.lookup_zero hblock.1
    have hbound : endHeight.getD node.bestHeight ≤ node.bestHeight := by
      cases endHeight with
      | none => exact le_rfl
      | some e => exact hle e rfl
    have hrebuilt := @rebuilt_of_replay cfg node header h hnetwork hblock.1
      ((List.range (endHeight.getD node.bestHeight).toNat).map Nat.succ) (by
        intro j hj
        obtain ⟨i, hi, rfl⟩ := List.mem_map.1 hj
        have hlt := List.mem_range.1 hi
        omega)
    rw [← replayFrom_eq startHeight (not_lt.1 hneg),
      ← final_transaction _ h.read.booked.isOpen] at hrebuilt
    have hpresent : (final (rebuild cfg startHeight (endHeight.getD node.bestHeight))
        node).session.conn.current.utxo.get? _ ≠ none := hrebuilt.present.present
    have habsent := (h.unspent (genesisCoinbase.txid cfg.crypto.toHashlib, 0)
      ⟨hnetwork, rfl⟩).lacks.absent
    rw [hfinal]
    constructor
    · intro hsame
      rw [hsame] at hpresent
      exact absurd habsent hpresent
    · rintro ⟨e, rfl, he⟩
      exact absurd he hneg

/-- The genesis block is replayed and was never connected, and nothing is rolled back, since on a
running node a transaction is open: as soon as a block is replayed the UTXO set is another one. -/
theorem reindex_agrees_iff (hdigests : cfg.crypto.toHashlib.Digests)
    {metadataFile : Option GenesisMetadata} {now cacheSize : ℕ} {orphanage : Orphanage} {start : Node}
    (horphans : orphanage.orphans.rows = [])
    (hstart : initializeChainState cfg metadataFile now (fresh cacheSize orphanage) = .ok () start)
    (ds : List Delivery)
    (hds : ∀ d ∈ ds, ∀ key ∈ genesisOutputs cfg, ReadsApart cfg.crypto.toHashlib key d.block)
    (hnode : (deliver (fun d => onBlock cfg d.clock d.block d.sourcePeer) ds start).2 = node)
    (hstored : ActiveChainStored cfg node) (startHeight : ℤ) {endHeight : Option ℤ}
    (hle : ∀ e, endHeight = some e → e ≤ node.bestHeight) :
    ∃ ok node', reindex cfg startHeight endHeight node = .ok ok node' ∧
      (((ok = true → node'.session.conn.current.utxo = node.session.conn.current.utxo) ∧
          (ok = false → node'.session.conn.current.utxo = node.session.conn.current.utxo)) ↔
        ∃ e, endHeight = some e ∧ e < 0) := by
  obtain ⟨header, -, hgenesis, -⟩ := initializeChainState_fromGenesis hdigests horphans hstart
  have hdelivered := deliver_fromGenesis hgenesis fun d hd =>
    ⟨hdigests.nonzero d.block.header, hds d hd⟩
  rw [hnode] at hdelivered
  obtain ⟨ok, node', hrun, hiff⟩ := reindex_fromGenesis hdelivered hstored startHeight hle
  refine ⟨ok, node', hrun, ?_⟩
  rw [← hiff]
  cases ok <;> simp

end outcome

end Node

namespace SelfCheckExample
open Node

/-- The UTXO set of a node of regtest that was just started, and the one after a rebuilding. -/
theorem regtest_reindex : (match initializeChainState regtestConfig none 1774569800
      (fresh 100 {}) with
    | .error _ _ => none
    | .ok _ start =>
      match reindex regtestConfig 0 none start with
      | .error _ _ => none
      | .ok ok node' => some (ok, start.session.conn.current.utxo.keys,
          node'.session.conn.current.utxo.keys)) =
    some (true, [], [(genesisCoinbase.txid crypto.toHashlib, 0)]) := by
  decide +kernel

/-- A node of regtest on which a block is mined. -/
theorem reindex_agrees_iff_mined : ∃ start ok node',
    initializeChainState regtestConfig none 1774569800 (fresh 100 {}) = .ok () start ∧
      (mined start).bestHeight = 1 ∧
      reindex regtestConfig 0 none (mined start) = .ok ok node' ∧
      (((ok = true →
            node'.session.conn.current.utxo = (mined start).session.conn.current.utxo) ∧
          (ok = false →
            node'.session.conn.current.utxo = (mined start).session.conn.current.utxo)) ↔
        ∃ e, none = some e ∧ e < (0 : ℤ)) := by
  have hstarts : (match initializeChainState regtestConfig none 1774569800 (fresh 100 {}) with
    | .ok _ start => decide ((mined start).bestHeight = 1) &&
        [0, 1].all fun height => (lookupHeight regtestConfig height (mined start)).isSome
    | .error _ _ => false) = true := by
    decide +kernel
  cases hstart : initializeChainState regtestConfig none 1774569800 (fresh 100 {}) with
  | error e node =>
    rw [hstart] at hstarts
    cases hstarts
  | ok u start =>
    rw [hstart] at hstarts
    simp only [Bool.and_eq_true, decide_eq_true_eq, List.all_eq_true] at hstarts
    obtain ⟨hone, hblocks⟩ := hstarts
    have hstored : ActiveChainStored regtestConfig (mined start) := by
      intro height hle
      have hmem : height ∈ [0, 1] := by
        rw [hone] at hle
        simp only [List.mem_cons, List.not_mem_nil, or_false]
        omega
      obtain ⟨block, hblock⟩ := Option.isSome_iff_exists.1 (hblocks height hmem)
      obtain ⟨files, hread, -⟩ := @getBlockByHeight_apply regtestConfig height (mined start)
      rw [hblock] at hread
      exact ⟨block, _, hread⟩
    obtain ⟨ok, node', hrun, hiff⟩ := reindex_agrees_iff crypto_digests rfl hstart deliveries
      (fun d hd key _ => readsApart d hd key) rfl hstored 0 (fun e (he : none = some e) => nomatch he)
    exact ⟨start, ok, node', rfl, hone, hrun, hiff⟩

end SelfCheckExample
end BerzCoin
