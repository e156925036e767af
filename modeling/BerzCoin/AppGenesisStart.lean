import BerzCoin.AppGenesisRuns

/-! The node after `ChainState.initialize` on an empty datadir: its genesis block is the root of the
index, and on regtest its body is stored. -/
namespace BerzCoin
open Database BlockIndex

/-! Loading an index of one block. -/
namespace BlockIndex

/-- The index of one block, which is the best tip. -/
structure OnlyRoot (root : Bytes) (e : BlockIndexEntry) (b : BlockIndex) : Prop where
  rows : b.index.rows = [(root, e)]
  heightIndex : b.heightIndex e.height = some root
  bestHash : b.bestHash = some root
  bestHeight : b.bestHeight = e.height

/-- `load` on an empty index with the row of one valid header. -/
lemma load_one {s : Session Tables BlockIndex} {root : Bytes} {row : HeaderRow}
    (hrows : s.conn.current.blockHeaders.rows = [(root, row)]) (hmem : s.memory = empty)
    (hvalid : (loadedEntry root row).isInvalid = false) :
    ∃ s' e, load s = .ok () s' ∧ s'.conn.inTransaction = true ∧ s'.memory.OnlyRoot root e ∧
      e.core = (loadedEntry root row).core ∧
      s'.conn.current.blocks = s.conn.current.blocks ∧ s'.conn.current.utxo = s.conn.current.utxo ∧
      s'.conn.current.transactions = s.conn.current.transactions := by
  have hstored : storedRows s.conn.current = [(root, row)] := by
    simp [storedRows, hrows]
  set tip := loadedEntry root row with htip
  have hhash : tip.blockHash = root := rfl
  have hget : (empty.withEntry root tip).getBlock root = some tip := by
    simp [getBlock, withEntry]
  have hbranch : (empty.withEntry root tip).branch root = [tip] := by
    have hsize : (empty.withEntry root tip).index.rows.length = 1 := rfl
    rw [branch, hsize, pathFrom, hget]
    rfl
  set loaded := (empty.withEntry root tip).withBestChainTip tip root with hloaded
  have hindex : loaded.index.rows = [(root, rebuildStatus [tip] tip)] := by
    rw [hloaded, withBestChainTip, hbranch]
    rfl
  have hfold : [(root, row)].foldl loadRow (empty, none) = (empty.withEntry root tip, some tip) := by
    simp only [List.foldl_cons, List.foldl_nil, loadRow, ← htip, hvalid, better, Bool.false_eq_true,
      if_false]
  obtain ⟨s', hs', hcurrent, hopen, hmem'⟩ := change_opens (Database.put s s.conn.current loaded)
    fun tables : Tables => { tables with
      blockHeaders := tables.blockHeaders.update (rebuildStatus [tip] tip).blockHash fun row =>
        { row with isValid := !(rebuildStatus [tip] tip).isInvalid
                   statusFlags := (rebuildStatus [tip] tip).status } }
  rw [put_memory] at hmem'
  rw [put_current] at hcurrent
  refine ⟨s', rebuildStatus [tip] tip, ?_, hopen, ?_, core_rebuildStatus _ _, ?_, ?_, ?_⟩
  · have hpersist : persistAll loaded.index.rows (Database.put s s.conn.current loaded) = .ok () s' := by
      rw [hindex]
      simp only [persistAll, Db.bind_apply, persistStatus, persistStatement, hs', Db.pure_apply]
    simp only [load, Db.bind_apply, query_apply, read_apply, hstored, hmem, hfold, BlockIndex.modify,
      onMemory_apply, put_memory, put_current, put_put, hhash]
    exact hpersist
  · have hheight : (rebuildStatus [tip] tip).height = tip.height :=
      congrArg Prod.fst (core_rebuildStatus [tip] tip)
    refine ⟨by rw [hmem', hindex], ?_, by rw [hmem']; rfl, by rw [hmem', hheight]; rfl⟩
    rw [hmem', hheight, hloaded, withBestChainTip, hbranch]
    simp [chainMap, hhash]
  · rw [hcurrent]
  · rw [hcurrent]
  · rw [hcurrent]

end BlockIndex

/-! The rows of a block that was written. -/
section written
variable {ι : Type} {H : Hashlib}

lemma BlocksStore.writeBlock_rows {block : Block} {height processedAt : ℕ} {s s' : Session Tables ι}
    (h : BlocksStore.writeBlock H block height processedAt s = .ok () s') :
    s'.memory = s.memory ∧ s'.conn.current.utxo = s.conn.current.utxo ∧
      s'.conn.current.blockHeaders = s.conn.current.blockHeaders.insertOrReplace
        (block.header.hashHex H) { height, header := block.header, chainwork := some 0, isValid := true
                                   statusFlags := {.HEADER, .BLOCK, .VALID} } ∧
      s'.conn.current.blocks = s.conn.current.blocks.insertOrReplace (block.header.hashHex H)
        { height, header := block.header, txCount := block.transactions.length
          size := (block.serialize true).length, weight := block.weight, isValid := true
          processedAt } := by
  have hin := (transaction_ok_iff (BlocksStore.writeBody_client ..)).2 ⟨s', h, rfl⟩
  obtain ⟨honly, -⟩ := BlocksStore.writeBody_ok hin
  obtain ⟨_, d1, hblock, hin⟩ := (inside_bind_ok (.execute _) fun _ => .bind (.execute _) fun _ =>
    BlocksStore.writeTransactions_client ..).1 hin
  obtain ⟨_, d2, hheader, hin⟩ := (inside_bind_ok (.execute _) fun _ =>
    BlocksStore.writeTransactions_client ..).1 hin
  obtain ⟨hrun1, -⟩ := inside_execute_ok.1 hblock
  obtain ⟨hrun2, -⟩ := inside_execute_ok.1 hheader
  obtain ⟨tables1, m1⟩ := d1
  obtain ⟨tables2, m2⟩ := d2
  cases hrun1
  cases hrun2
  have hkept := (BlocksStore.writeTransactions_grows (ι := ι)
    (f := fun tables : Tables => tables.blockHeaders = s.conn.current.blockHeaders.insertOrReplace
        (block.header.hashHex H) { height, header := block.header, chainwork := some 0, isValid := true
                                   statusFlags := {.HEADER, .BLOCK, .VALID} } ∧
      tables.blocks = s.conn.current.blocks.insertOrReplace (block.header.hashHex H)
        { height, header := block.header, txCount := block.transactions.length
          size := (block.serialize true).length, weight := block.weight, isValid := true
          processedAt })
    H (fun _ _ _ _ _ _ h => h) (fun _ _ h => h) (fun _ _ h => h) _ _ _ _).inside hin ⟨rfl, rfl⟩
  exact ⟨honly.memory, honly.utxo, hkept.1, hkept.2⟩

end written

/-- Digests have 32 bytes, and no header has the hash that stands for no block. -/
structure Hashlib.Digests (H : Hashlib) : Prop where
  length : ∀ data, (H.sha256 data).length = 32
  nonzero : ∀ header : BlockHeader, header.hashHex H ≠ zeroHash

namespace Node

/-! The first load of a node, and the one after the genesis block was written. -/
section loading

lemma raising_ok {α : Type} {x : Except PyError α} {a : α} {node node' : Node} :
    raising x node = .ok a node' ↔ x = .ok a ∧ node' = node := by
  cases x with
  | error e =>
    constructor
    · intro h
      cases h
    · rintro ⟨h, -⟩
      cases h
  | ok b =>
    constructor
    · intro h
      cases h
      exact ⟨rfl, rfl⟩
    · rintro ⟨h, rfl⟩
      cases h
      rfl

lemma loadBest_fresh (cacheSize : ℕ) (orphanage : Orphanage) :
    loadBest (fresh cacheSize orphanage) = .ok () (fresh cacheSize orphanage) := rfl

/-- A node whose tables have one block header, that of the genesis block. -/
structure HasHeader (root : Bytes) (header : BlockHeader) (node : Node) : Prop where
  rows : ∃ row, node.session.conn.current.blockHeaders.rows = [(root, row)] ∧ row.height = 0 ∧
    row.header = header ∧ (loadedEntry root row).isInvalid = false
  utxo : node.session.conn.current.utxo.rows = []

/-- The index of this node has one block, which is the best one. -/
structure Reloaded (root : Bytes) (header : BlockHeader) (node node' : Node) : Prop where
  only : ∃ e, node'.session.memory.OnlyRoot root e ∧ e.blockHash = root ∧ e.height = 0 ∧
    e.header = header ∧ e.isInvalid = false
  isOpen : node'.session.conn.inTransaction = true
  best : node'.bestHash = some root ∧ node'.bestHeight = 0
  blocks : node'.session.conn.current.blocks = node.session.conn.current.blocks
  utxo : node'.session.conn.current.utxo.rows = []
  transactions : node'.session.conn.current.transactions = node.session.conn.current.transactions
  files : node'.files = node.files
  orphanage : node'.orphanage = node.orphanage

lemma reloadBestFromIndex_one {root : Bytes} {header : BlockHeader} {node : Node}
    (h : HasHeader root header node) :
    ∃ node', reloadBestFromIndex node = .ok () node' ∧ Reloaded root header node node' := by
  obtain ⟨⟨row, hrows, hheight, hheader, hvalid⟩, hutxo⟩ := h
  obtain ⟨s', e, hload, hopen, honly, hcore, hblocks, hutxo', htxs⟩ := load_one
    (s := Database.put node.session node.session.conn.current BlockIndex.empty)
    (by rw [put_current]; exact hrows) (put_memory ..) hvalid
  rw [put_current] at hblocks hutxo' htxs
  refine ⟨{ node with session := s', bestHeight := s'.memory.bestHeight
                      bestHash := s'.memory.bestHash }, ?_, ?_⟩
  · simp only [reloadBestFromIndex, loadBest, BlockIndex.clear, BlockIndex.modify, bind_apply, onChain,
      onMemory_apply, hload, BerzCoin.read_apply, modify_apply, id]
  · have hzero : e.height = 0 := (congrArg (fun c => c.1) hcore).trans hheight
    refine ⟨⟨e, honly, congrArg (fun c => c.2.1) hcore, hzero,
      (congrArg (fun c => c.2.2.1) hcore).trans hheader,
      (congrArg (fun c => c.2.2.2.2) hcore).trans hvalid⟩, hopen,
      ⟨honly.bestHash, by rw [honly.bestHeight, hzero]; rfl⟩, hblocks, ?_, htxs, rfl, rfl⟩
    rw [hutxo']
    exact hutxo

end loading

/-! The genesis block of regtest, and the header of the other networks. -/
section importing
variable {cfg : NodeConfig} {metadataFile : Option GenesisMetadata} {now cacheSize : ℕ}
variable {orphanage : Orphanage} {node : Node}

lemma mineFrom_some {H : Hashlib} {target tries nonce : ℕ} {header mined : BlockHeader}
    (h : ProofOfWork.mineFrom H target header tries nonce = some mined) :
    ∃ n, mined = { header with nonce := n } := by
  induction tries generalizing nonce with
  | zero => cases h
  | succ tries ih =>
    rw [ProofOfWork.mineFrom] at h
    split_ifs at h
    · cases h
      exact ⟨_, rfl⟩
    · exact ih h

/-- What the store is after the genesis block was written to an empty one. -/
structure Written (H : Hashlib) (cacheSize now : ℕ) (block : Block) (node : Node) : Prop where
  files : node.files = ((BlockFiles.init (fun _ => none) cacheSize).withFile (block.header.hashHex H)
    (block.serialize true)).updateCache (block.header.hashHex H) block
  row : node.session.conn.current.blocks.rows = [(block.header.hashHex H,
    { height := 0, header := block.header, txCount := block.transactions.length
      size := (block.serialize true).length, weight := block.weight, isValid := true
      processedAt := now })]
  known : ∀ tx ∈ block.transactions, node.session.conn.current.transactions.get? (tx.txid H) ≠ none

lemma importSyntheticGenesisForRegtest_ok
    (h : importSyntheticGenesisForRegtest cfg now (fresh cacheSize orphanage) = .ok () node) :
    ∃ header, ProofOfWork.mine cfg.crypto.toHashlib cfg.params (syntheticHeader cfg) 5000000 =
        some header ∧
      HasHeader (header.hashHex cfg.crypto.toHashlib) header node ∧
      Written cfg.crypto.toHashlib cacheSize now ⟨header, [genesisCoinbase]⟩ node ∧
      node.orphanage = orphanage := by
  unfold importSyntheticGenesisForRegtest at h
  cases hmine : ProofOfWork.mine cfg.crypto.toHashlib cfg.params (syntheticHeader cfg) 5000000 with
  | none =>
    rw [hmine] at h
    cases h
  | some header =>
    rw [hmine] at h
    simp only [bind_apply, onChain, query_apply] at h
    generalize hvalid : ConsensusRules.validateBlock cfg.crypto.toHashlib cfg.params _ now
      ⟨header, [genesisCoinbase]⟩ 0 = valid at h
    cases valid with
    | error e => cases h
    | ok u =>
      simp only [raising, pure_apply, onFiles] at h
      cases hwrite : BlockFiles.writeBlock cfg.crypto.toHashlib ⟨header, [genesisCoinbase]⟩ 0 now
          ⟨(fresh cacheSize orphanage).session.conn, (fresh cacheSize orphanage).files⟩ with
      | error e s => simp only [hwrite] at h; cases h
      | ok u s =>
        simp only [hwrite] at h
        cases h
        obtain ⟨s1, hs1, rfl⟩ := BlockFiles.writeBlock_ok.1 hwrite
        obtain ⟨hmem, hutxo, hheaders, hblocks⟩ := BlocksStore.writeBlock_rows hs1
        have hrow : s1.conn.current.blockHeaders.rows = [(header.hashHex cfg.crypto.toHashlib,
            { height := 0, header, chainwork := some 0, isValid := true
              statusFlags := {.HEADER, .BLOCK, .VALID} })] := by
          rw [hheaders]
          rfl
        have hvalid : (loadedEntry (header.hashHex cfg.crypto.toHashlib)
            { height := 0, header, chainwork := some 0, isValid := true
              statusFlags := {.HEADER, .BLOCK, .VALID} }).isInvalid = false := by
          simp [isInvalid_loadedEntry]
        refine ⟨header, rfl, ⟨⟨_, hrow, rfl, rfl, hvalid⟩, ?_⟩, ⟨?_, ?_, ?_⟩, ?_⟩
        · simp only [hutxo]
          rfl
        · simp only [hmem]
          rfl
        · simp only [hblocks]
          rfl
        · intro tx htx
          have hknown : tx.txid cfg.crypto.toHashlib ∈ s1.conn.current.known :=
            BlocksStore.writeBlock_known hs1 tx htx
          exact hknown
        · rfl

lemma importGenesisHeaderAnchor_ok
    (h : importGenesisHeaderAnchor cfg metadataFile now (fresh cacheSize orphanage) = .ok () node) :
    HasHeader (cfg.params.genesisMetadata.header.hashHex cfg.crypto.toHashlib)
        cfg.params.genesisMetadata.header node ∧
      node.files = (fresh cacheSize orphanage).files ∧
      node.session.conn.current.blocks.rows = [] ∧
      node.orphanage = orphanage := by
  unfold importGenesisHeaderAnchor at h
  cases hmetadata : loadAndValidateGenesisMetadata cfg metadataFile with
  | error e =>
    rw [hmetadata] at h
    cases h
  | ok metadata =>
    obtain rfl : metadata = cfg.params.genesisMetadata := by
      unfold loadAndValidateGenesisMetadata at hmetadata
      cases metadataFile with
      | none => cases hmetadata
      | some got =>
        simp only at hmetadata
        split_ifs at hmetadata with hgot
        cases hmetadata
        exact hgot
    simp only [hmetadata, raising, bind_apply, pure_apply] at h
    split_ifs at h
    · cases h
    · cases hvalid : ConsensusRules.validateBlockHeader cfg.crypto.toHashlib cfg.params now
          cfg.params.genesisMetadata.header with
      | error e =>
        rw [hvalid] at h
        cases h
      | ok u =>
        rw [hvalid] at h
        obtain ⟨s', hs', hcurrent, hopen, hmem⟩ := change_opens
          (fresh cacheSize orphanage).session fun tables : Tables => { tables with
            blockHeaders := tables.blockHeaders.insertOrReplace
              (cfg.params.genesisMetadata.header.hashHex cfg.crypto.toHashlib)
              { height := 0, header := cfg.params.genesisMetadata.header
                chainwork := some
                  (ChainWork.calculateBlockWork cfg.params cfg.params.genesisMetadata.header.bits)
                isValid := true, statusFlags := {.HEADER, .VALID} } }
        have hadd : HeaderChain.addHeader cfg.crypto.toHashlib cfg.params.genesisMetadata.header 0
            (ChainWork.calculateBlockWork cfg.params cfg.params.genesisMetadata.header.bits)
            (fresh cacheSize orphanage).session = .ok () s' := hs'
        have hend : node = { fresh cacheSize orphanage with session := s' } := by
          simp only [bind_apply, pure_apply, onChain, hadd, EStateM.Result.ok.injEq] at h
          exact h.2.symm
        subst hend
        have hrow : s'.conn.current.blockHeaders.rows =
            [(cfg.params.genesisMetadata.header.hashHex cfg.crypto.toHashlib,
              { height := 0, header := cfg.params.genesisMetadata.header
                chainwork := some
                  (ChainWork.calculateBlockWork cfg.params cfg.params.genesisMetadata.header.bits)
                isValid := true, statusFlags := {.HEADER, .VALID} })] := by
          rw [hcurrent]
          rfl
        refine ⟨⟨⟨_, hrow, rfl, rfl, by simp [isInvalid_loadedEntry]⟩, ?_⟩, rfl, ?_, rfl⟩
        · simp only [hcurrent]
          rfl
        · simp only [hcurrent]
          rfl

/-- The end of `initialize_chain_state` once a genesis block is imported. -/
def reloadBest : NodeM Unit := do
  reloadBestFromIndex
  let node ← get
  match node.bestHash.bind node.session.memory.getBlock with
  | none => return ()
  | some entry => modify fun node => { node with bestChainwork := entry.chainwork }

lemma initializeChainState_ok {start : Node}
    (h : initializeChainState cfg metadataFile now (fresh cacheSize orphanage) = .ok () start) :
    ∃ node header, HasHeader (header.hashHex cfg.crypto.toHashlib) header node ∧
      Reloaded (header.hashHex cfg.crypto.toHashlib) header node start ∧
      (start.session.memory.getBlock (header.hashHex cfg.crypto.toHashlib)).map
        BlockIndexEntry.chainwork = some start.bestChainwork ∧
      node.orphanage = orphanage ∧ header.prevBlockHash = zeroHash ∧
      if cfg.params.network = .regtest then
        header.merkleRoot = (syntheticHeader cfg).merkleRoot ∧
          Written cfg.crypto.toHashlib cacheSize now ⟨header, [genesisCoinbase]⟩ node
      else
        node.files = (fresh cacheSize orphanage).files ∧ node.session.conn.current.blocks.rows = [] := by
  have hneg : (fresh cacheSize orphanage).bestHeight < 0 := by simp [fresh]
  simp only [initializeChainState, bind_apply, loadBest_fresh, get_apply, if_pos hneg] at h
  have hrest {root : Bytes} {header : BlockHeader} {node : Node} (hnode : HasHeader root header node)
      (h : reloadBest node = .ok () start) : Reloaded root header node start ∧
        (start.session.memory.getBlock root).map BlockIndexEntry.chainwork =
          some start.bestChainwork := by
    obtain ⟨node', hreload, h'⟩ := reloadBestFromIndex_one hnode
    obtain ⟨e, honly, -⟩ := h'.only
    have hentry : node'.session.memory.getBlock root = some e := by
      rw [BlockIndex.getBlock, KeyedRows.get?, honly.rows]
      simp
    simp only [reloadBest, bind_apply, hreload, get_apply, h'.best.1, Option.bind_some, hentry] at h
    cases h
    refine ⟨⟨h'.only, h'.isOpen, h'.best, h'.blocks, h'.utxo, h'.transactions, h'.files,
      h'.orphanage⟩, ?_⟩
    rw [hentry, Option.map_some]
  by_cases hnetwork : cfg.params.network = .regtest
  · simp only [if_pos hnetwork] at h ⊢
    rw [bind_apply] at h
    cases himport : importSyntheticGenesisForRegtest cfg now (fresh cacheSize orphanage) with
    | error e node => simp only [himport] at h; cases h
    | ok u node =>
      simp only [himport] at h
      obtain ⟨header, hmine, hheader, hwritten, horphanage⟩ := importSyntheticGenesisForRegtest_ok himport
      obtain ⟨n, hmined⟩ := mineFrom_some hmine
      obtain ⟨hreloaded, hwork⟩ := hrest hheader h
      refine ⟨node, header, hheader, hreloaded, hwork, horphanage, ?_, ?_, hwritten⟩
      · rw [hmined]
        rfl
      · rw [hmined]
  · simp only [if_neg hnetwork] at h ⊢
    rw [bind_apply] at h
    cases himport : importGenesisHeaderAnchor cfg metadataFile now (fresh cacheSize orphanage) with
    | error e node => simp only [himport] at h; cases h
    | ok u node =>
      simp only [himport] at h
      obtain ⟨hheader, hfiles, hblocks, horphanage⟩ := importGenesisHeaderAnchor_ok himport
      obtain ⟨hreloaded, hwork⟩ := hrest hheader h
      exact ⟨node, cfg.params.genesisMetadata.header, hheader, hreloaded, hwork, horphanage, rfl, hfiles,
        hblocks⟩

end importing

/-! The invariant of the runs of `on_block`, at their start. -/
section started
variable {cfg : NodeConfig} {metadataFile : Option GenesisMetadata} {now cacheSize : ℕ}
variable {orphanage : Orphanage} {start : Node}

/-- The outputs of the genesis block, which is stored on regtest only. -/
def genesisOutputs (cfg : NodeConfig) : Set Outpoint :=
  {key | cfg.params.network = .regtest ∧ key = (genesisCoinbase.txid cfg.crypto.toHashlib, 0)}

/-- The genesis block as far as it is stored. -/
def genesisBody (cfg : NodeConfig) (header : BlockHeader) : Option Block :=
  if cfg.params.network = .regtest then some ⟨header, [genesisCoinbase]⟩ else none

lemma syntheticHeader_merkleRoot (cfg : NodeConfig) :
    (syntheticHeader cfg).merkleRoot = genesisCoinbase.txid cfg.crypto.toHashlib := rfl

lemma genesis_inRange {H : Hashlib} (hdigests : H.Digests) {header : BlockHeader}
    (hprev : header.prevBlockHash = zeroHash) (hroot : header.merkleRoot = genesisCoinbase.txid H) :
    Block.InRange ⟨header, [genesisCoinbase]⟩ where
  prevBlockHash := by
    rw [hprev]
    rfl
  merkleRoot := by
    rw [hroot]
    exact hdigests.length _
  count := by simp
  transactions := by
    intro tx htx
    rw [List.mem_singleton.1 htx]
    decide
  witnesses := by
    intro tx htx txin htxin
    rw [List.mem_singleton.1 htx] at htxin
    rw [List.mem_singleton.1 htxin]
    exact ⟨by simp, by simp⟩

/-- The file of the genesis block is read back. -/
lemma genesis_deserialize {H : Hashlib} (hdigests : H.Digests) {header : BlockHeader}
    (hprev : header.prevBlockHash = zeroHash) (hroot : header.merkleRoot = genesisCoinbase.txid H) :
    ∃ offset, Block.deserialize (Block.serialize ⟨header, [genesisCoinbase]⟩ true) 0 =
      .ok (⟨header, [genesisCoinbase]⟩, offset) := by
  refine (Block.deserialize_eq_self_iff (genesis_inRange hdigests hprev hroot) ?_).2 ?_
  · intro tx htx
    rw [List.mem_singleton.1 htx]
    simp [genesisCoinbase]
  · intro tx htx
    rw [List.mem_singleton.1 htx]
    exact .inl (by simp [genesisCoinbase])

/-- The files of a node on an empty datadir, once the genesis block is stored as far as it is. -/
def genesisFiles (cfg : NodeConfig) (cacheSize : ℕ) (header : BlockHeader) : BlockFiles :=
  match genesisBody cfg header with
  | none => BlockFiles.init (fun _ => none) cacheSize
  | some block => ((BlockFiles.init (fun _ => none) cacheSize).withFile
      (header.hashHex cfg.crypto.toHashlib) (block.serialize true)).updateCache
        (header.hashHex cfg.crypto.toHashlib) block

section files
variable {header : BlockHeader} {row : Option BlockRow} {k : Bytes} {block : Block}

lemma header_of_genesisBody (h : genesisBody cfg header = some block) : block.header = header := by
  unfold genesisBody at h
  split_ifs at h
  cases h
  rfl

/-- Nothing is found under another hash than that of the genesis block. -/
lemma genesisFiles_elsewhere (row : Option BlockRow)
    (hk : k ≠ header.hashHex cfg.crypto.toHashlib) :
    ¬ (genesisFiles cfg cacheSize header).Finds cfg.crypto.toHashlib row k block := by
  unfold genesisFiles
  cases genesisBody cfg header with
  | none =>
    rintro (hcached | hload)
    · cases hcached
    · cases row with
      | none => cases hload
      | some row => cases hload
  | some stored =>
    rintro (hcached | hload)
    · have hput := BlockFiles.shrink_get? hcached
      rw [KeyedRows.get?_put, if_neg hk] at hput
      cases hput
    · simp only [BlockFiles.load, BlockFiles.fileOf, BlockFiles.updateCache, BlockFiles.withFile,
        KeyedRows.get?_put, if_neg hk] at hload
      cases row with
      | none => cases hload
      | some row => cases hload

lemma genesisFiles_sound : CacheSound cfg.crypto.toHashlib (genesisFiles cfg cacheSize header) := by
  intro k found hfound
  by_cases hk : k = header.hashHex cfg.crypto.toHashlib
  · unfold genesisFiles at hfound
    cases hbody : genesisBody cfg header with
    | none =>
      rw [hbody] at hfound
      cases hfound
    | some stored =>
      rw [hbody] at hfound
      have hput := BlockFiles.shrink_get? hfound
      rw [KeyedRows.get?_put, if_pos hk] at hput
      cases hput
      rw [header_of_genesisBody hbody, hk]
  · exact absurd (.inl hfound) (genesisFiles_elsewhere none hk)

/-- Under its own hash the genesis block is found, and nothing else. -/
lemma genesisFiles_finds (hdigests : cfg.crypto.toHashlib.Digests)
    (hprev : header.prevBlockHash = zeroHash)
    (hroot : cfg.params.network = .regtest → header.merkleRoot = (syntheticHeader cfg).merkleRoot)
    (h : (genesisFiles cfg cacheSize header).Finds cfg.crypto.toHashlib row
      (header.hashHex cfg.crypto.toHashlib) block) : genesisBody cfg header = some block := by
  unfold genesisFiles at h
  cases hbody : genesisBody cfg header with
  | none =>
    rw [hbody] at h
    rcases h with hcached | hload
    · cases hcached
    · cases row with
      | none => cases hload
      | some row => cases hload
  | some stored =>
    have hheader := header_of_genesisBody hbody
    rw [hbody] at h
    simp only [← hheader] at h
    rcases BlockFiles.written_finds h with rfl | ⟨offset, hdes⟩
    · rfl
    · unfold genesisBody at hbody
      split_ifs at hbody with hnetwork
      cases hbody
      obtain ⟨offset', hself⟩ := genesis_deserialize hdigests hprev
        ((hroot hnetwork).trans (syntheticHeader_merkleRoot cfg))
      rw [hself] at hdes
      cases hdes
      rfl

end files

/-- The file of the genesis block is the one that its row describes. -/
lemma genesisFiles_load (hdigests : cfg.crypto.toHashlib.Digests) {header : BlockHeader}
    (hprev : header.prevBlockHash = zeroHash)
    (hroot : header.merkleRoot = (syntheticHeader cfg).merkleRoot)
    (hbody : genesisBody cfg header = some ⟨header, [genesisCoinbase]⟩) {row : Option BlockRow}
    (hsize : row.any (fun row => 0 < row.size &&
      (Block.serialize ⟨header, [genesisCoinbase]⟩ true).length ≠ row.size) = false) :
    (genesisFiles cfg cacheSize header).load cfg.crypto.toHashlib row
      (header.hashHex cfg.crypto.toHashlib) = some ⟨header, [genesisCoinbase]⟩ := by
  obtain ⟨offset, hself⟩ := genesis_deserialize hdigests hprev
    (hroot.trans (syntheticHeader_merkleRoot cfg))
  have hfile : (genesisFiles cfg cacheSize header).fileOf row
      (header.hashHex cfg.crypto.toHashlib) =
        some (Block.serialize ⟨header, [genesisCoinbase]⟩ true) := by
    simp [genesisFiles, hbody, BlockFiles.fileOf, BlockFiles.updateCache, BlockFiles.withFile]
  rw [BlockFiles.load, hfile, Option.bind_some, BlockFiles.decode, hsize, hself]
  simp

/-- A node whose index has the genesis block alone. -/
lemma genesisUnspent_start {root : Bytes} {key : Outpoint} {H : Hashlib}
    (honly : ∀ k, k ≠ root → ∀ block, ¬ Finds H start k block)
    (hindex : ∀ k, start.session.memory.getBlock k ≠ none → k = root)
    (hlacks : start.session.conn.current.Lacks key) : GenesisUnspent H root key start := by
  refine ⟨hlacks, ?_, ?_⟩
  · intro k hk hget
    exact absurd (hindex k hget) hk
  · intro best k _ _ hk block hblock
    exact absurd hblock (honly k hk block)

/-- The files of an initialised node. -/
lemma Reloaded.files_eq {root : Bytes} {header : BlockHeader} {node : Node}
    (h : Reloaded root header node start)
    (hstore : if cfg.params.network = .regtest then
        header.merkleRoot = (syntheticHeader cfg).merkleRoot ∧
          Written cfg.crypto.toHashlib cacheSize now ⟨header, [genesisCoinbase]⟩ node
      else
        node.files = (fresh cacheSize orphanage).files ∧ node.session.conn.current.blocks.rows = []) :
    start.files = genesisFiles cfg cacheSize header := by
  rw [h.files]
  unfold genesisFiles genesisBody
  by_cases hnetwork : cfg.params.network = .regtest
  · rw [if_pos hnetwork] at hstore ⊢
    exact hstore.2.files
  · rw [if_neg hnetwork] at hstore ⊢
    exact hstore.1

/-- A node whose index was loaded from one header knows that block only. -/
lemma Reloaded.started {H : Hashlib} {header : BlockHeader} {node : Node} (hdigests : H.Digests)
    (h : Reloaded (header.hashHex H) header node start) (hprev : header.prevBlockHash = zeroHash)
    (hcache : CacheSound H start.files) (horphans : node.orphanage.orphans.rows = []) :
    Started H (header.hashHex H) zeroHash start := by
  obtain ⟨e, honly, hhash, hzero, hheader, hvalid⟩ := h.only
  refine ⟨⟨e, honly.rows, hhash, hzero, ?_, hvalid⟩, (hdigests.nonzero header).symm, ?_,
    honly.bestHash, h.best.1, hcache, ?_⟩
  · rw [hheader, hprev]
  · rw [← hzero]
    exact honly.heightIndex
  · rw [h.orphanage]
    exact horphans

/-- An initialised node knows its genesis block only and has no coins, and the height and the
chainwork that it remembers are those of that block. -/
theorem initializeChainState_started (hdigests : cfg.crypto.toHashlib.Digests)
    (horphans : orphanage.orphans.rows = [])
    (h : initializeChainState cfg metadataFile now (fresh cacheSize orphanage) = .ok () start) :
    ∃ header : BlockHeader, header.prevBlockHash = zeroHash ∧
      Started cfg.crypto.toHashlib (header.hashHex cfg.crypto.toHashlib) zeroHash start ∧
      start.session.conn.current.utxo.rows = [] ∧ start.bestHeight = 0 ∧
      (start.session.memory.getBlock (header.hashHex cfg.crypto.toHashlib)).map
        BlockIndexEntry.chainwork = some start.bestChainwork := by
  obtain ⟨node, header, -, hreloaded, hwork, rfl, hprev, hstore⟩ := initializeChainState_ok h
  have hcache : CacheSound cfg.crypto.toHashlib start.files := by
    rw [hreloaded.files_eq hstore]
    exact genesisFiles_sound
  exact ⟨header, hprev, hreloaded.started hdigests hprev hcache horphans, hreloaded.utxo,
    hreloaded.best.2, hwork⟩

theorem initializeChainState_fromGenesis (hdigests : cfg.crypto.toHashlib.Digests)
    (horphans : orphanage.orphans.rows = [])
    (h : initializeChainState cfg metadataFile now (fresh cacheSize orphanage) = .ok () start) :
    ∃ header, header.prevBlockHash = zeroHash ∧
      FromGenesis cfg (header.hashHex cfg.crypto.toHashlib) zeroHash (genesisBody cfg header)
        (genesisOutputs cfg) start ∧ start.session.conn.current.utxo.rows = [] := by
  obtain ⟨node, header, -, hreloaded, -, hnodeOrphans, hprev, hstore⟩ := initializeChainState_ok h
  obtain ⟨e, honly, -, hzero, -⟩ := hreloaded.only
  have hroot : cfg.params.network = .regtest →
      header.merkleRoot = (syntheticHeader cfg).merkleRoot := by
    intro hnetwork
    rw [if_pos hnetwork] at hstore
    exact hstore.1
  have hfiles := hreloaded.files_eq hstore
  have hget (k : Bytes) : start.session.memory.getBlock k =
      if k = header.hashHex cfg.crypto.toHashlib then some e else none := by
    rw [BlockIndex.getBlock, KeyedRows.get?, honly.rows]
    by_cases hk : k = header.hashHex cfg.crypto.toHashlib
    · simp [hk]
    · simp [hk, Ne.symm hk]
  have hnoOrphans (k : Bytes) : start.orphanage.orphans.get? k = none := by
    rw [hreloaded.orphanage, hnodeOrphans, KeyedRows.get?, horphans]
    rfl
  have hstarted : Started cfg.crypto.toHashlib (header.hashHex cfg.crypto.toHashlib) zeroHash
      start := by
    refine hreloaded.started hdigests hprev ?_ ?_
    · rw [hfiles]
      exact genesisFiles_sound
    · rw [hnodeOrphans]
      exact horphans
  have helsewhere (k : Bytes) (hk : k ≠ header.hashHex cfg.crypto.toHashlib) (block : Block) :
      ¬ Finds cfg.crypto.toHashlib start k block := by
    rw [Finds, hfiles]
    exact genesisFiles_elsewhere _ hk
  refine ⟨header, hprev, ⟨hstarted.consistent, ⟨⟨rfl, rfl, hreloaded.isOpen, _, 0, hreloaded.best.1, ?_,
    hreloaded.best.2⟩, ?_, ?_⟩, ?_, ?_⟩, hreloaded.utxo⟩
  · rw [BlockIndex.getHeight, hget, if_pos rfl, Option.map_some, hzero]
  · intro block hblock
    rw [Finds, hfiles] at hblock
    exact genesisFiles_finds hdigests hprev hroot hblock
  · intro block hbody
    unfold genesisBody at hbody
    split_ifs at hbody with hnetwork
    cases hbody
    rw [if_pos hnetwork] at hstore
    rw [hfiles]
    apply genesisFiles_load hdigests hprev hstore.1
    · rw [genesisBody, if_pos hnetwork]
    · rw [hreloaded.blocks, KeyedRows.get?, hstore.2.row]
      simp
  · rintro key ⟨hnetwork, rfl⟩
    rw [if_pos hnetwork] at hstore
    apply genesisUnspent_start helsewhere
    · intro k hk
      rw [hget] at hk
      by_contra hne
      rw [if_neg hne] at hk
      exact hk rfl
    · refine ⟨?_, ?_⟩
      · rw [KeyedRows.get?, hreloaded.utxo]
        rfl
      · rw [hreloaded.transactions]
        exact hstore.2.known genesisCoinbase (by simp)
  · intro k x hx
    rw [hnoOrphans] at hx
    cases hx

end started
end Node
end BerzCoin
