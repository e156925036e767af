import BerzCoin.AppContext
import BerzCoin.AppRejected
import BerzCoin.ChainRerun
import BerzCoin.ValidationSufficient

/-! The answers of `on_block` in runs. What is checked before a block is stored or a chain is
switched leaves the steps after it nothing to fail on. -/
namespace BerzCoin
open Database BlockIndex ReorgManager

namespace Node
variable {cfg : NodeConfig} {root aboveRoot : Bytes} {node node' : Node} {clock : ℚ} {block : Block}
variable {reply : BlockReply} {reason : BlockReason}

/-! Storing a block does not reach the UTXO set. -/

lemma writeBlock_utxo {ι : Type} (H : Hashlib) {P : Tables → Prop}
    (hP : ∀ tables tables', tables'.utxo = tables.utxo → tables'.blockUndo = tables.blockUndo →
      P tables → P tables') (block : Block) (height processedAt : ℕ) :
    Grows P (BlocksStore.writeBlock H block height processedAt : Db Tables ι Unit) :=
  .transaction (.bind (.change fun tables => hP tables _ rfl rfl) fun _ =>
    .bind (.change fun tables => hP tables _ rfl rfl) fun _ =>
      BlocksStore.writeTransactions_grows H
        (fun _ tables _ _ rows _ => hP tables { tables with transactions := rows } rfl rfl)
        (fun tables rows => hP tables { tables with inputs := rows } rfl rfl)
        (fun tables rows => hP tables { tables with outputs := rows } rfl rfl) _ _ _ _)

lemma storeBlock_utxo (clock : ℚ) (block : Block) (height chainworkTotal : ℕ) (node : Node) :
    (final (storeBlock cfg clock block height chainworkTotal) node).session.conn.current.utxo =
        node.session.conn.current.utxo ∧
      (final (storeBlock cfg clock block height chainworkTotal) node).session.conn.current.blockUndo =
        node.session.conn.current.blockUndo := by
  let P : Tables → Prop := fun tables => tables.utxo = node.session.conn.current.utxo ∧
    tables.blockUndo = node.session.conn.current.blockUndo
  have hP (tables tables' : Tables) (hutxo : tables'.utxo = tables.utxo)
      (hundo : tables'.blockUndo = tables.blockUndo) (h : P tables) : P tables' :=
    ⟨hutxo.trans h.1, hundo.trans h.2⟩
  have hkeeps : Keeps (fun node => P node.session.conn.current)
      (storeBlock cfg clock block height chainworkTotal) := by
    have hheader : Grows P (HeaderChain.addHeader cfg.crypto.toHashlib block.header height
        chainworkTotal : ChainDb Unit) := .change fun tables => hP tables _ rfl rfl
    refine .bind ?_ fun _ => .bind (keepsTables_onChain fun s hs => ?_) fun _ =>
      keepsTables_onChain hheader.le
    · intro node₁ h
      have hwrite := (writeBlock_utxo cfg.crypto.toHashlib hP block height ⌊clock⌋₊).le
        (BlockFiles.filed cfg.crypto.toHashlib block ⟨node₁.session.conn, node₁.files⟩) h
      simp only [final, onFiles, BlockFiles.writeBlock_apply]
      unfold Db.final at hwrite
      cases hrun : BlocksStore.writeBlock cfg.crypto.toHashlib block height ⌊clock⌋₊
          (BlockFiles.filed cfg.crypto.toHashlib block ⟨node₁.session.conn, node₁.files⟩) with
      | error e s =>
        rw [hrun] at hwrite
        exact hwrite
      | ok u s =>
        rw [hrun] at hwrite
        exact hwrite
    · rw [Db.final, addBlock_apply, put_current]
      exact hs
  exact hkeeps node ⟨rfl, rfl⟩

/-! Extending the best tip. -/

lemma setBestBlock_apply (k : Bytes) (height chainwork : ℕ) (node : Node) :
    ∃ session, setBestBlock k height chainwork node = .ok () { node with
        session, bestHash := some k, bestHeight := height, bestChainwork := chainwork } ∧
      session.memory = node.session.memory.tipped k ∧
      session.conn.current.utxo = node.session.conn.current.utxo ∧
      session.conn.current.blockUndo = node.session.conn.current.blockUndo := by
  obtain ⟨s', hs', hmem, hutxo, hundo⟩ := setBestChainTip_apply k node.session
  refine ⟨s', ?_, hmem, hutxo, hundo⟩
  simp only [setBestBlock, bind_apply, modify_apply, onChain, hs']

lemma getBlock_blind (files : BlockFiles) (k : Bytes) (d d' : Tables × BlockIndex) (h : Alike d d') :
    Node.getBlock cfg files k d = Node.getBlock cfg files k d' := by
  have hcore := h.shape.core k
  unfold Node.getBlock
  cases he : d.2.getBlock k with
  | none =>
    rw [he, Option.map_none, Option.map_eq_none_iff] at hcore
    rw [hcore]
  | some e =>
    obtain ⟨e', he', hcore'⟩ := h.shape.getBlock he
    rw [he']
    simp only [core_blockHash hcore', h.blocks]

lemma validateBlockStateful_reads (cfg : NodeConfig) (clock : ℚ) :
    ReadsOwnBranch cfg.crypto.toHashlib (validateBlockStateful cfg clock) := by
  intro block height d d' h hown hown'
  unfold validateBlockStateful
  rw [h.utxo]
  exact BlockValidator.validateBlock_ownBranch h.tree h.shape hown hown'

/-- The dry run fails, or it passes and then the switch takes place. -/
lemma tryReorganize_cases (clock : ℚ) (h : Consistent cfg.crypto.toHashlib root aboveRoot node)
    {blockHash : Bytes} {newBest : BlockIndexEntry}
    (hnew : node.session.memory.getBlock blockHash = some newBest) :
    ∃ oldBest s, node.bestHash = some oldBest.blockHash ∧ node.session.memory.Indexed oldBest ∧
      Alike node.session.data s.data ∧
      (tryReorganize cfg (validateBlockStateful cfg clock) node.bestHash blockHash node =
          .ok ⟨false, some .reorg_preflight_failed⟩ { node with session := s } ∨
        (∃ err, tryReorganize cfg (validateBlockStateful cfg clock) node.bestHash blockHash node =
          .error err { node with session := s }) ∨
        ∃ xs ys s' session, Prepared cfg.crypto.toHashlib (Node.getBlock cfg node.files)
            (s.memory.current newBest) (s.memory.current oldBest) s.memory ∧
          reorganize cfg.crypto.toHashlib
            ⟨Node.getBlock cfg node.files, some (validateBlockStateful cfg clock)⟩ cfg.maxReorgDepth
            (s.memory.current newBest) (s.memory.current oldBest) s = .ok (true, xs, ys) s' ∧
          session.conn.current.utxo = s'.conn.current.utxo ∧
          session.conn.current.blockUndo = s'.conn.current.blockUndo ∧
          tryReorganize cfg (validateBlockStateful cfg clock) node.bestHash blockHash node =
            .ok ⟨true, none⟩ { node with
              session, bestHash := some newBest.blockHash, bestHeight := newBest.height,
              bestChainwork := newBest.chainwork }) := by
  obtain ⟨k, hk, hbest⟩ := h.best
  obtain ⟨e, he, -⟩ := hbest.2
  have hkey := h.rooted.tree.key k e he
  have hprep : Prepared cfg.crypto.toHashlib (Node.getBlock cfg node.files) newBest e
      node.session.memory :=
    hbest.prepared h.rooted h.cache (by rw [Indexed, hkey]; exact he) hkey
      (by rw [Indexed, h.rooted.tree.key blockHash newBest hnew]; exact hnew)
  obtain ⟨hshape, hbest₁⟩ := canReorganize_bestShown (s := node.session) rfl h.rooted hbest
    cfg.crypto.toHashlib ⟨Node.getBlock cfg node.files, some (validateBlockStateful cfg clock)⟩
    cfg.maxReorgDepth newBest e
  have halike := canReorganize_alike (s := node.session) cfg.crypto.toHashlib
    ⟨Node.getBlock cfg node.files, some (validateBlockStateful cfg clock)⟩ cfg.maxReorgDepth newBest e
    h.rooted.tree
  refine ⟨e, _, by rw [hk, hkey], by rw [Indexed, hkey]; exact he, halike, ?_⟩
  have hcurrent : node.bestHash.bind node.session.memory.getBlock = some e := by
    rw [hk]
    exact he
  simp only [tryReorganize, bind_apply, read_apply, id, hcurrent, hnew, get_apply]
  simp only [onChain]
  unfold Db.final at hshape hbest₁ ⊢
  cases hcan : canReorganize cfg.crypto.toHashlib
      ⟨Node.getBlock cfg node.files, some (validateBlockStateful cfg clock)⟩ cfg.maxReorgDepth newBest e
      node.session with
  | error err s => exact .inr (.inl ⟨err, rfl⟩)
  | ok ok s =>
    rw [hcan] at hshape hbest₁
    cases ok with
    | false => exact .inl rfl
    | true =>
      obtain ⟨hold, holdCore⟩ := current_indexed h.rooted hshape he
      obtain ⟨hnew', hnewCore⟩ := current_indexed h.rooted hshape hnew
      have hprep' : Prepared cfg.crypto.toHashlib (Node.getBlock cfg node.files)
          (s.memory.current newBest) (s.memory.current e) s.memory :=
        hbest₁.prepared (hshape.rooted h.rooted) h.cache hold ((core_blockHash holdCore).trans hkey)
          hnew'
      obtain ⟨xs, ys, s', hre⟩ := reorganize_after_canReorganize (getBlock_blind _)
        (validateBlockStateful_reads cfg clock) hprep hprep' hnewCore holdCore hcan
      obtain ⟨session, hset, -, hutxo, hundo⟩ := setBestBlock_apply newBest.blockHash newBest.height
        newBest.chainwork { node with session := s' }
      refine .inr (.inr ⟨xs, ys, s', session, hprep', hre, hutxo, hundo, ?_⟩)
      simp only [Bool.not_true, Bool.false_eq_true, if_false, bind_apply, read_apply, id]
      simp only [onChain, hre, Bool.not_true, Bool.false_eq_true, if_false, bind_apply, hset]
      rfl

end Node
end BerzCoin
