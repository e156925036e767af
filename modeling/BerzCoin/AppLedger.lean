import BerzCoin.AppGenesisRuns
import BerzCoin.AppReplies
import BerzCoin.ChainLedgerReorg

/-! The UTXO table in runs of `on_block`. Whatever blocks come, in whatever order, and however often
the chain is switched, the table is the ledger of the active chain. -/
namespace BerzCoin
open Database BlockIndex ReorgManager UndoLog

/-- The encoding of the block is read back as the block. -/
def Block.ReadsBack (block : Block) : Prop :=
  ∃ offset, Block.deserialize (block.serialize true) 0 = .ok (block, offset)

namespace BlockFiles
variable {H : Hashlib} {m m' : BlockFiles} {block other : Block} {k : Bytes}

/-- Nothing but the block is read under its hash. -/
def Shelves (H : Hashlib) (m : BlockFiles) (block : Block) : Prop :=
  ∀ row found, m.Finds H row (block.header.hashHex H) found → found = block

lemma Shelves.updateCache (h : m.Shelves H block)
    (hload : k = block.header.hashHex H → other = block) : (m.updateCache k other).Shelves H block := by
  intro row found hfound
  rcases hfound with hcached | hloaded
  · have hput := shrink_get? hcached
    rw [KeyedRows.get?_put] at hput
    split_ifs at hput with hk
    · cases hput
      exact hload hk.symm
    · exact h row found (.inl hput)
  · exact h row found (.inr hloaded)

lemma Shelves.withFile (h : m.Shelves H block) (data : Bytes) (hk : block.header.hashHex H ≠ k) :
    (m.withFile k data).Shelves H block := by
  intro row found hfound
  have hfollows : Follows H row (block.header.hashHex H) m (m.withFile k data) := .withFile hk
  exact h row found (hfollows.finds hfound)

lemma Shelves.read (h : m.Shelves H block) {conn : SqlConnection Tables} {found : Option Block}
    {s : Session Tables BlockFiles} (hread : readBlockByHash H k ⟨conn, m⟩ = .ok found s) :
    s.memory.Shelves H block := by
  obtain ⟨m', happ, hm'⟩ := readBlockByHash_apply H k ⟨conn, m⟩
  rw [happ] at hread
  cases hread
  rcases hm' with rfl | ⟨loaded, rfl, hload⟩
  · exact h
  · refine h.updateCache ?_
    rintro rfl
    exact h _ loaded (.inr hload)

lemma shelves_written (h : block.ReadsBack) :
    ((m.withFile (block.header.hashHex H) (block.serialize true)).updateCache
      (block.header.hashHex H) block).Shelves H block := by
  intro row found hfound
  obtain ⟨offset, hdes⟩ := h
  rcases written_finds hfound with rfl | ⟨offset', hdes'⟩
  · rfl
  · rw [hdes] at hdes'
    cases hdes'
    rfl

end BlockFiles

namespace BlocksStore
variable {ι : Type} {H : Hashlib} {d d' : Tables × ι}

/-- The transactions of a block that was written have different ids. -/
lemma writeTransactions_nodup {blockHash : Bytes} {height i : ℕ} {txs : List Transaction}
    (h : inside (writeTransactions H blockHash height i txs) d = .ok () d') :
    (txs.map (·.txid H)).Nodup := by
  induction txs generalizing i d with
  | nil => exact .nil
  | cons tx txs ih =>
    obtain ⟨-, -, d₁, -, hrow, hrest⟩ := writeTransactions_cons_ok h
    refine List.nodup_cons.2 ⟨?_, ih hrest⟩
    intro hmem
    obtain ⟨tx', htx', heq⟩ := List.mem_map.1 hmem
    have hnone := ((writeTransactions_ok hrest).2 tx' htx').1
    rw [heq] at hnone
    exact hrow hnone

lemma writeBlock_nodup {block : Block} {height processedAt : ℕ} {s s' : Session Tables ι}
    (h : writeBlock H block height processedAt s = .ok () s') :
    (block.transactions.map (·.txid H)).Nodup := by
  have hin := (transaction_ok_iff (writeBody_client ..)).2 ⟨s', h, rfl⟩
  obtain ⟨_, d1, -, hin⟩ := (inside_bind_ok (.execute _) fun _ => .bind (.execute _) fun _ =>
    writeTransactions_client ..).1 hin
  obtain ⟨_, d2, -, hin⟩ := (inside_bind_ok (.execute _) fun _ => writeTransactions_client ..).1 hin
  exact writeTransactions_nodup hin

end BlocksStore

namespace Node
variable {cfg : NodeConfig} {root aboveRoot : Bytes} {base : Store Outpoint UtxoRow}
variable {Q : Block → Prop} {blocks : List Block} {chain : List Connected} {node node' : Node}
variable {clock : ℚ} {block : Block} {parent : BlockIndexEntry} {genesis : BlockHeader}

lemma storeBlock_nodup {height chainworkTotal : ℕ}
    (h : storeBlock cfg clock block height chainworkTotal node = .ok () node') :
    (block.transactions.map (·.txid cfg.crypto.toHashlib)).Nodup := by
  simp only [storeBlock, bind_apply, onFiles] at h
  cases hwrite : BlockFiles.writeBlock cfg.crypto.toHashlib block height ⌊clock⌋₊
      ⟨node.session.conn, node.files⟩ with
  | error e s => simp [hwrite] at h
  | ok u s =>
    obtain ⟨s₁, hrows, -⟩ := BlockFiles.writeBlock_ok.1 hwrite
    exact BlocksStore.writeBlock_nodup hrows

/-- `validate_block` accepts the block at a height on a UTXO map, at some time and in some view of the
index. -/
def accepts (cfg : NodeConfig) (store : Store Outpoint UtxoRow) (height : ℕ) (block : Block) : Prop :=
  ∃ b now, BlockValidator.validateBlock cfg.crypto cfg.params store b now block height = .ok true

/-- It does so where the index shows the ancestors of the block, which are blocks of a list. -/
def acceptsInPlace (cfg : NodeConfig) (root : Bytes) (genesis : BlockHeader) (blocks : List Block)
    (store : Store Outpoint UtxoRow) (height : ℕ) (block : Block) : Prop :=
  ∃ b now, Charted cfg.crypto.toHashlib root genesis blocks b ∧
    OwnBranch cfg.crypto.toHashlib block height b ∧
    BlockValidator.validateBlock cfg.crypto cfg.params store b now block height = .ok true

lemma accepts_of_inPlace {store : Store Outpoint UtxoRow} {height : ℕ}
    (h : acceptsInPlace cfg root genesis blocks store height block) : accepts cfg store height block := by
  obtain ⟨b, now, -, -, hvalid⟩ := h
  exact ⟨b, now, hvalid⟩

lemma acceptsInPlace.mono {blocks' : List Block} {store : Store Outpoint UtxoRow} {height : ℕ}
    (h : acceptsInPlace cfg root genesis blocks store height block) (hsub : blocks ⊆ blocks') :
    acceptsInPlace cfg root genesis blocks' store height block := by
  obtain ⟨b, now, hcharted, hrest⟩ := h
  exact ⟨b, now, hcharted.mono hsub, hrest⟩

/-- The ancestors of a new block on the best tip are shown. -/
lemma ownBranch_on_tip (hc : Consistent cfg.crypto.toHashlib root aboveRoot node)
    (htip : node.bestHash = some block.header.prevBlockHash)
    (hparent : node.session.memory.getBlock block.header.prevBlockHash = some parent)
    (hnew : node.session.memory.getBlock (block.header.hashHex cfg.crypto.toHashlib) = none) :
    OwnBranch cfg.crypto.toHashlib block (parent.height + 1) node.session.memory := by
  obtain ⟨k, hk, -, e, he, hshows⟩ := hc.best
  rw [hk] at htip
  cases htip
  rw [hparent] at he
  cases he
  simp only [OwnBranch, parentHashOf, hnew]
  exact hshows

open Classical in
/-- The validation, made to refuse a block whose ancestors are not shown. -/
noncomputable def validateInPlace (cfg : NodeConfig) (clock : ℚ) : StatefulValidation :=
  fun block height d =>
    if OwnBranch cfg.crypto.toHashlib block height d.2 then validateBlockStateful cfg clock block height d
    else .ok false

lemma validateInPlace_agrees (cfg : NodeConfig) (clock : ℚ) :
    AgreeOnBranch cfg.crypto.toHashlib (validateBlockStateful cfg clock) (validateInPlace cfg clock) := by
  intro block height d hown
  rw [validateInPlace, if_pos hown]

lemma validateInPlace_checks (clock : ℚ) (files : BlockFiles) {b : BlockIndex}
    (hcharted : Charted cfg.crypto.toHashlib root genesis blocks b) :
    ChecksFor (acceptsInPlace cfg root genesis blocks) b
      ⟨Node.getBlock cfg files, some (validateInPlace cfg clock)⟩ := by
  intro block height d hshape h
  have hchecked : validateInPlace cfg clock block height d = .ok true := h
  rw [validateInPlace] at hchecked
  split_ifs at hchecked with hown
  · exact ⟨d.2, ⌊clock⌋₊, hcharted.ofShape hshape, hown, hchecked⟩
  · cases hchecked

/-- What the index, the tables and the files of a node have of the blocks that it has stored. -/
structure Stores (cfg : NodeConfig) (root : Bytes) (genesis : BlockHeader)
    (base : Store Outpoint UtxoRow) (Q : Block → Prop) (blocks : List Block) (node : Node) : Prop where
  stocked : Stocked cfg.crypto.toHashlib root base blocks node.session.memory
  charted : Charted cfg.crypto.toHashlib root genesis blocks node.session.memory
  known : AllKnown cfg.crypto.toHashlib blocks node
  funded : ∀ key, base key ≠ none → key.1 ∈ node.known
  shelved : ∀ block ∈ blocks, node.files.Shelves cfg.crypto.toHashlib block
  listed : ∀ block ∈ blocks, Q block

/-- The best tip is the top of a chain of stored blocks, and the UTXO table is its ledger. -/
structure Ledger (cfg : NodeConfig) (root : Bytes) (genesis : BlockHeader)
    (base : Store Outpoint UtxoRow) (Q : Block → Prop) (blocks : List Block) (chain : List Connected)
    (node : Node) : Prop extends Stores cfg root genesis base Q blocks node where
  built : ∃ tip, node.bestHash = some tip ∧ Built cfg.crypto.toHashlib root cfg.params.network
    (acceptsInPlace cfg root genesis blocks) base blocks chain tip
  reflects : Reflects cfg.crypto.toHashlib base chain node.session.conn.current

lemma Stores.moved (h : Stores cfg root genesis base Q blocks node)
    (hshape : SameShape node.session.memory node'.session.memory) (hknown : node.known ⊆ node'.known)
    (hfiles : ∀ block ∈ blocks, node'.files.Shelves cfg.crypto.toHashlib block) :
    Stores cfg root genesis base Q blocks node' where
  stocked := h.stocked.ofShape hshape
  charted := h.charted.ofShape hshape
  known block hblock tx htx := hknown (h.known block hblock tx htx)
  funded key hkey := hknown (h.funded key hkey)
  shelved := hfiles
  listed := h.listed

lemma Stores.indexed (h : Stores cfg root genesis base Q blocks node) :
    AllStored cfg.crypto.toHashlib root blocks node := by
  intro k hk
  obtain ⟨e, he⟩ := Option.ne_none_iff_exists'.1 hk
  by_cases hroot : k = root
  · exact .inl hroot
  · obtain ⟨block, hblock, hhash, -⟩ := h.charted.listed k e he hroot
    exact .inr ⟨block, hblock, hhash⟩

lemma Stores.readsListed (h : Stores cfg root genesis base Q blocks node)
    (hroot : node.session.memory.Rooted root aboveRoot) :
    ReadsListed cfg.crypto.toHashlib root blocks node.session.memory
      (Node.getBlock cfg node.files) := by
  intro k d found hshape hk hget
  obtain ⟨hindexed, hlookup⟩ := getBlock_lookup hroot hshape hget
  rcases h.indexed k hindexed with rfl | ⟨block, hblock, rfl⟩
  · exact absurd rfl hk
  · obtain rfl := h.shelved block hblock _ found (BlockFiles.finds_of_lookup hlookup)
    exact ⟨hblock, rfl⟩

/-- A new block is stored beside the others. -/
lemma Stores.store {height chainworkTotal : ℕ} (h : Stores cfg root genesis base Q blocks node)
    (hQ : Q block) (hreads : block.ReadsBack)
    (hparent : node.session.memory.getBlock block.header.prevBlockHash = some parent)
    (hnew : node.session.memory.getBlock (block.header.hashHex cfg.crypto.toHashlib) = none)
    (hrooted : node'.session.memory.Rooted root aboveRoot)
    (hstore : storeBlock cfg clock block height chainworkTotal node = .ok () node')
    (hmem : node'.session.memory = node.session.memory.withBlock
      (block.header.hashHex cfg.crypto.toHashlib) block.header height chainworkTotal) :
    Stores cfg root genesis base Q (block :: blocks) node' := by
  obtain ⟨-, hfiles⟩ := @storeBlock_files cfg clock block height chainworkTotal node
  obtain ⟨hfiles, hfresh⟩ := hfiles node' hstore
  obtain ⟨hkeeps, hrows⟩ := @storeBlock_known cfg clock block height chainworkTotal node
  have hnodup := storeBlock_nodup hstore
  rw [final, hstore] at hkeeps
  have hne : ∀ other ∈ blocks, other.header.hashHex cfg.crypto.toHashlib ≠
      block.header.hashHex cfg.crypto.toHashlib := by
    intro other hother heq
    obtain ⟨e, he, -⟩ := h.stocked.entry other hother
    rw [heq, hnew] at he
    cases he
  have hget (k : Bytes) (hk : k ≠ block.header.hashHex cfg.crypto.toHashlib) :
      node'.session.memory.getBlock k = node.session.memory.getBlock k := by
    rw [hmem, withBlock_getBlock _ _ _ _ _ _ hk]
  obtain ⟨entry, hentry, hcore⟩ := @withBlock_self node.session.memory
    (block.header.hashHex cfg.crypto.toHashlib) block.header height chainworkTotal _ hparent
  have hheader : entry.header = block.header := congrArg (fun c => c.2.2.1) hcore
  have hroot : root ≠ block.header.hashHex cfg.crypto.toHashlib := by
    rintro rfl
    have hzero := h.stocked.root
    rw [getHeight, hnew] at hzero
    cases hzero
  refine ⟨⟨hrooted.tree, ?_, ?_, ?_, ?_, ?_, ?_⟩, ⟨⟨_, hrooted⟩, ?_, ?_⟩, ?_,
    fun key hkey => hkeeps (h.funded key hkey), ?_, List.forall_mem_cons.2 ⟨hQ, h.listed⟩⟩
  · rw [getHeight, hget root hroot]
    exact h.stocked.root
  · refine List.forall_mem_cons.2 ⟨⟨entry, by rw [hmem]; exact hentry, hheader⟩, ?_⟩
    intro other hother
    rw [hget _ (hne other hother)]
    exact h.stocked.entry other hother
  · intro x hx y hy heq
    rcases List.mem_cons.1 hx with rfl | hx' <;> rcases List.mem_cons.1 hy with rfl | hy'
    · rfl
    · exact absurd heq.symm (hne y hy')
    · exact absurd heq (hne x hx')
    · exact h.stocked.named x hx' y hy' heq
  · exact List.forall_mem_cons.2 ⟨hnodup, h.stocked.distinct⟩
  · -- the ids of the block have no row, and those of the others have one
    have hapart : ∀ other ∈ blocks, ∀ tx ∈ block.transactions, ∀ ty ∈ other.transactions,
        tx.txid cfg.crypto.toHashlib ≠ ty.txid cfg.crypto.toHashlib := by
      intro other hother tx htx ty hty heq
      exact h.known other hother ty hty (heq ▸ hfresh tx htx)
    intro x hx y hy tx htx ty hty heq
    rcases List.mem_cons.1 hx with rfl | hx' <;> rcases List.mem_cons.1 hy with rfl | hy'
    · rfl
    · exact absurd heq (hapart y hy' tx htx ty hty)
    · exact absurd heq.symm (hapart x hx' ty hty tx htx)
    · exact h.stocked.owned x hx' y hy' tx htx ty hty heq
  · refine List.forall_mem_cons.2 ⟨?_, h.stocked.unused⟩
    intro tx htx i
    by_contra hsome
    exact h.funded _ hsome (hfresh tx htx)
  · rw [hget root hroot]
    exact h.charted.atRoot
  · intro k e he hk
    by_cases hown : k = block.header.hashHex cfg.crypto.toHashlib
    · rw [hown, hmem, hentry] at he
      cases he
      exact ⟨block, List.mem_cons_self .., hown.symm, hheader⟩
    · rw [hget k hown] at he
      exact (h.charted.listed k e he hk).imp fun _ hx => ⟨List.mem_cons_of_mem _ hx.1, hx.2⟩
  · exact List.forall_mem_cons.2 ⟨hrows node' hstore, fun other hother tx htx =>
      hkeeps (h.known other hother tx htx)⟩
  · rw [hfiles]
    refine List.forall_mem_cons.2 ⟨BlockFiles.shelves_written hreads, ?_⟩
    intro other hother
    exact ((h.shelved other hother).withFile _ (hne other hother)).updateCache fun heq =>
      absurd heq.symm (hne other hother)

/-! After a block was stored. -/
section settle
variable {height chainworkTotal : ℕ}

lemma Ledger.moved (h : Ledger cfg root genesis base Q blocks chain node)
    (hstores : Stores cfg root genesis base Q blocks node') (hbest : node'.bestHash = node.bestHash)
    (hutxo : node'.session.conn.current.utxo = node.session.conn.current.utxo)
    (hundo : node'.session.conn.current.blockUndo = node.session.conn.current.blockUndo) :
    Ledger cfg root genesis base Q blocks chain node' where
  toStores := hstores
  built := by
    rw [hbest]
    exact h.built
  reflects := h.reflects.congr hutxo hundo

/-- A valid block on the best tip comes on top of the chain. -/
lemma Ledger.connectAsNewTip (h : Ledger cfg root genesis base Q blocks chain node) (hblock : block ∈ blocks)
    (hmoney : cfg.params.maxMoney < 2 ^ 63) (htip : node.bestHash = some block.header.prevBlockHash)
    (hvalid : ∀ p, node.session.memory.getBlock block.header.prevBlockHash = some p →
      acceptsInPlace cfg root genesis blocks node.session.conn.current.utxo.get? (p.height + 1) block) :
    ∃ session chain', Node.connectAsNewTip cfg block height chainworkTotal node =
        .ok true { node with
          session, bestHash := some (block.header.hashHex cfg.crypto.toHashlib), bestHeight := height,
          bestChainwork := chainworkTotal } ∧
      Built cfg.crypto.toHashlib root cfg.params.network (acceptsInPlace cfg root genesis blocks) base
        blocks chain' (block.header.hashHex cfg.crypto.toHashlib) ∧
      Reflects cfg.crypto.toHashlib base chain' session.conn.current := by
  obtain ⟨tip, hbest, hbuilt⟩ := h.built
  obtain rfl : tip = block.header.prevBlockHash := Option.some.inj (hbest.symm.trans htip)
  obtain ⟨p, hp, hlength⟩ := Option.map_eq_some_iff.1 (h.stocked.height hbuilt.linked hbuilt.listed)
  have haccepts := hvalid p hp
  rw [hlength] at haccepts
  obtain ⟨b, now, hvalid⟩ := accepts_of_inPlace haccepts
  have hbuilt' := Built.push (c := ⟨cfg.params.network, block⟩) hbuilt hblock (.inl rfl) h.reflects.store
    haccepts
  have hheight := h.stocked.height hbuilt'.linked hbuilt'.listed
  obtain ⟨s', hconnect⟩ := connect_true_of_validateBlock (s := node.session) cfg.params.network hmoney
    hvalid (by rw [hheight]; simp)
  obtain ⟨stored, hstored, hbody⟩ := connect_ok_true.1 hconnect
  obtain rfl : stored = chain.length + 1 := by
    rw [hheight] at hstored
    exact (Option.some.inj hstored).symm
  have hnext := h.reflects.connectBody (d := node.session.data) (h.stocked.ne_below hbuilt')
    ((transaction_ok_iff (connectBody_client ..)).2 ⟨s', hbody, rfl⟩)
  obtain ⟨session, hset, -, hutxo, hundo⟩ := setBestBlock_apply
    (block.header.hashHex cfg.crypto.toHashlib) height chainworkTotal { node with session := s' }
  refine ⟨session, _, ?_, hbuilt', hnext.congr hutxo hundo⟩
  simp only [Node.connectAsNewTip, bind_apply, onChain, hconnect, Bool.not_true, Bool.false_eq_true,
    if_false, hset, pure_apply]

/-- A switch to the branch of a block leaves the ledger of that branch. -/
lemma Ledger.tryReorganize (h : Ledger cfg root genesis base Q blocks chain node)
    (hc : Consistent cfg.crypto.toHashlib root aboveRoot node) {blockHash : Bytes}
    (hindex : node.session.memory.getBlock blockHash ≠ none) :
    (final (Node.tryReorganize cfg (validateBlockStateful cfg clock) node.bestHash blockHash)
        node).files = node.files ∧
      ∃ tip chain', (final (Node.tryReorganize cfg (validateBlockStateful cfg clock) node.bestHash
          blockHash) node).bestHash = some tip ∧
        Built cfg.crypto.toHashlib root cfg.params.network (acceptsInPlace cfg root genesis blocks) base
          blocks chain' tip ∧
        Reflects cfg.crypto.toHashlib base chain' (final (Node.tryReorganize cfg
          (validateBlockStateful cfg clock) node.bestHash blockHash) node).session.conn.current := by
  obtain ⟨newBest, hnew⟩ := Option.ne_none_iff_exists'.1 hindex
  obtain ⟨tip, hbest, hbuilt⟩ := h.built
  obtain ⟨oldBest, s, hold, hindexed, halike, hcases⟩ := tryReorganize_cases clock hc hnew
  obtain rfl : tip = oldBest.blockHash := Option.some.inj (hbest.symm.trans hold)
  have hledger : Reflects cfg.crypto.toHashlib base chain s.conn.current :=
    h.reflects.congr halike.utxo halike.blockUndo
  unfold final
  rcases hcases with hfails | ⟨err, herr⟩ | ⟨xs, ys, s', session, hprep, hre, hutxo, hundo, htrue⟩
  · rw [hfails]
    exact ⟨rfl, _, _, hold, hbuilt, hledger⟩
  · rw [herr]
    exact ⟨rfl, _, _, hold, hbuilt, hledger⟩
  · rw [htrue]
    have hkey := hc.rooted.tree.key blockHash newBest hnew
    have hreads := h.readsListed hc.rooted
    obtain ⟨holdIndexed, holdCore⟩ := current_indexed hc.rooted halike.shape
      (e := oldBest) (k := oldBest.blockHash) hindexed
    obtain ⟨hnewIndexed, hnewCore⟩ := current_indexed hc.rooted halike.shape hnew
    rw [reorganize_congr hprep (validateInPlace_agrees cfg clock)] at hre
    obtain ⟨above, habove, hreflects⟩ := reorganize_reflects (h.stocked.ofShape halike.shape)
      (fun k d found hshape => hreads k d found (halike.shape.trans hshape))
      (validateInPlace_checks clock node.files (h.charted.ofShape halike.shape)) hnewIndexed holdIndexed
      (by rw [core_blockHash holdCore]; exact hbuilt) hledger hre
    rw [core_blockHash hnewCore] at habove
    exact ⟨rfl, _, above, rfl, habove, hreflects.congr hutxo hundo⟩

lemma Ledger.settle (h : Ledger cfg root genesis base Q blocks chain node)
    (hc : Consistent cfg.crypto.toHashlib root aboveRoot node) (hblock : block ∈ blocks)
    (hmoney : cfg.params.maxMoney < 2 ^ 63)
    (hvalid : node.bestHash = some block.header.prevBlockHash →
      ∀ p, node.session.memory.getBlock block.header.prevBlockHash = some p →
        acceptsInPlace cfg root genesis blocks node.session.conn.current.utxo.get? (p.height + 1) block) :
    ∃ chain', Ledger cfg root genesis base Q blocks chain' (final (Node.settle cfg
      (validateBlockStateful cfg clock) node.bestHash
      (decide (node.bestHash = some block.header.prevBlockHash)) block height chainworkTotal) node) := by
  have hshape : SameShape node.session.memory (final (Node.settle cfg
      (validateBlockStateful cfg clock) node.bestHash
      (decide (node.bestHash = some block.header.prevBlockHash)) block height chainworkTotal)
      node).session.memory :=
    (ofShape_sameShape node.session.memory).settle _ _ block _ _ node (.refl _)
  have hknown := @keepsKnown_settle cfg (validateBlockStateful cfg clock) node.known node.bestHash
    (decide (node.bestHash = some block.header.prevBlockHash)) block height chainworkTotal node
    (subset_refl _)
  have hmoved {files : BlockFiles} (hfiles : files = node.files) :
      ∀ block ∈ blocks, files.Shelves cfg.crypto.toHashlib block := by
    rw [hfiles]
    exact h.shelved
  by_cases htip : node.bestHash = some block.header.prevBlockHash
  · obtain ⟨session, chain', hconnect, hbuilt, hreflects⟩ :=
      @Ledger.connectAsNewTip _ _ _ _ _ _ _ _ _ height chainworkTotal h hblock hmoney htip (hvalid htip)
    have hend : final (Node.settle cfg (validateBlockStateful cfg clock) node.bestHash
        (decide (node.bestHash = some block.header.prevBlockHash)) block height chainworkTotal) node =
        { node with
          session, bestHash := some (block.header.hashHex cfg.crypto.toHashlib), bestHeight := height,
          bestChainwork := chainworkTotal } := by
      unfold Node.settle final
      simp only [htip, decide_true, if_true, bind_apply, hconnect]
      rfl
    rw [hend] at hshape hknown ⊢
    exact ⟨chain', h.toStores.moved hshape hknown (hmoved rfl), ⟨_, rfl, hbuilt⟩, hreflects⟩
  · have hstart : final (Node.settle cfg (validateBlockStateful cfg clock) node.bestHash
        (decide (node.bestHash = some block.header.prevBlockHash)) block height chainworkTotal) node =
        if chainworkTotal ≤ node.bestChainwork then node
        else final (Node.tryReorganize cfg (validateBlockStateful cfg clock) node.bestHash
          (block.header.hashHex cfg.crypto.toHashlib)) node := by
      unfold Node.settle final
      simp only [htip, decide_false, Bool.false_eq_true, if_false, bind_apply, get_apply]
      split_ifs <;> rfl
    rw [hstart] at hshape hknown ⊢
    split_ifs at hshape hknown ⊢ with hwork
    · exact ⟨chain, h⟩
    · have hindex : node.session.memory.getBlock (block.header.hashHex cfg.crypto.toHashlib) ≠ none := by
        obtain ⟨e, he, -⟩ := h.stocked.entry block hblock
        rw [he]
        simp
      obtain ⟨hfiles, tip, chain', hbest, hbuilt, hreflects⟩ := @Ledger.tryReorganize _ _ _ _ _ _ _ _ clock
        _ h hc _ hindex
      exact ⟨chain', h.toStores.moved hshape hknown (hmoved hfiles), ⟨tip, hbest, hbuilt⟩, hreflects⟩

end settle

/-! Taking up a block. -/
section accept

/-- A block whose storing fails has left at most its file. -/
lemma Ledger.storeFailed {height chainworkTotal : ℕ}
    (h : Ledger cfg root genesis base Q blocks chain node)
    (hnew : node.session.memory.getBlock (block.header.hashHex cfg.crypto.toHashlib) = none)
    (hbooks : SameBooks node node') {err : PyError}
    (hstore : storeBlock cfg clock block height chainworkTotal node = .error err node')
    (hmem : node'.session.memory = node.session.memory) :
    Ledger cfg root genesis base Q blocks chain node' := by
  obtain ⟨hfiles, -⟩ := @storeBlock_files cfg clock block height chainworkTotal node
  obtain ⟨hknown, -⟩ := @storeBlock_known cfg clock block height chainworkTotal node
  obtain ⟨hutxo, hundo⟩ := @storeBlock_utxo cfg clock block height chainworkTotal node
  rw [final, hstore] at hfiles hknown hutxo hundo
  have hne : ∀ other ∈ blocks, other.header.hashHex cfg.crypto.toHashlib ≠
      block.header.hashHex cfg.crypto.toHashlib := by
    intro other hother heq
    obtain ⟨e, he, -⟩ := h.stocked.entry other hother
    rw [heq, hnew] at he
    cases he
  refine h.moved (h.toStores.moved (by rw [hmem]; exact .refl _) hknown ?_) hbooks.bestHash hutxo hundo
  intro other hother
  have hfiled := (h.shelved other hother).withFile (block.serialize true) (hne other hother)
  rcases hfiles with hfiles | hfiles
  · rw [hfiles]
    exact hfiled
  · rw [hfiles]
    exact hfiled.updateCache fun heq => absurd heq.symm (hne other hother)

lemma Ledger.acceptChild (h : Ledger cfg root genesis base Q blocks chain node)
    (hc : Consistent cfg.crypto.toHashlib root aboveRoot node) (hmoney : cfg.params.maxMoney < 2 ^ 63)
    (hQ : Q block) (hreads : block.ReadsBack)
    (hne : block.header.hashHex cfg.crypto.toHashlib ≠ aboveRoot)
    (hparent : node.session.memory.getBlock block.header.prevBlockHash = some parent)
    (hnew : node.session.memory.getBlock (block.header.hashHex cfg.crypto.toHashlib) = none) :
    ∃ blocks' chain', Ledger cfg root genesis base Q blocks' chain'
      (final (Node.acceptChild cfg (validateBlockStateful cfg clock) clock block parent) node) := by
  obtain ⟨found, files, hread, hsound, happly⟩ := @acceptChild_apply cfg clock block parent node
  have hfiles : ∀ other ∈ blocks, files.Shelves cfg.crypto.toHashlib other := by
    intro other hother
    obtain ⟨m, hm, -⟩ := BlockFiles.readBlockByHash_apply cfg.crypto.toHashlib parent.blockHash
      ⟨node.session.conn, node.files⟩
    have hshelves := (h.shelved other hother).read hm
    simp only [onFiles, hm] at hread
    cases hread
    exact hshelves
  have h₀ : Ledger cfg root genesis base Q blocks chain { node with files } :=
    h.moved (h.toStores.moved (.refl _) (subset_refl _) hfiles) rfl rfl rfl
  simp only [final, happly]
  cases hrefusal : refusal cfg (validateBlockStateful cfg clock) clock
      (decide (node.bestHash = some block.header.prevBlockHash)) block (parent.height + 1)
      node.session.data with
  | error e => exact ⟨blocks, chain, h₀⟩
  | ok reason =>
    cases reason with
    | some reason => exact ⟨blocks, chain, h₀⟩
    | none =>
      simp only [bind_apply]
      obtain ⟨node₁, hbooks, hcache, hstore⟩ := @storeBlock_cases cfg clock block (parent.height + 1)
        (parent.chainwork + ChainWork.calculateBlockWork cfg.params block.header.bits)
        { node with files }
      obtain ⟨hutxo, hundo⟩ := @storeBlock_utxo cfg clock block (parent.height + 1)
        (parent.chainwork + ChainWork.calculateBlockWork cfg.params block.header.bits)
        { node with files }
      rcases hstore with ⟨err, hstore, hmem⟩ | ⟨hstore, hmem⟩
      · rw [hstore]
        exact ⟨blocks, chain, h₀.storeFailed hnew hbooks hstore hmem⟩
      · rw [hstore]
        simp only [final, hstore] at hutxo hundo
        obtain ⟨hc₁, -⟩ := Consistent.stored hc hparent hnew hne rfl
          ⟨hbooks.bestHash, hbooks.bestHeight, hbooks.bestChainwork, hbooks.orphanage⟩
          (hcache (hsound hc.cache)) hmem
        have hstores := h₀.toStores.store hQ hreads hparent hnew hc₁.rooted hstore hmem
        have h₁ : Ledger cfg root genesis base Q (block :: blocks) chain node₁ := by
          refine ⟨hstores, ?_, h.reflects.congr hutxo hundo⟩
          obtain ⟨tip, hbest, hbuilt⟩ := h.built
          exact ⟨tip, hbooks.bestHash.trans hbest, (hbuilt.mono (List.subset_cons_self ..)).weaken
            fun _ _ _ haccepts => haccepts.mono (List.subset_cons_self ..)⟩
        have hbest : node₁.bestHash = node.bestHash := hbooks.bestHash
        have hparentNe : block.header.prevBlockHash ≠ block.header.hashHex cfg.crypto.toHashlib := by
          intro heq
          rw [heq, hnew] at hparent
          cases hparent
        obtain ⟨chain', hend⟩ := @Ledger.settle _ _ _ _ _ _ _ _ clock block _ (parent.height + 1)
          (parent.chainwork + ChainWork.calculateBlockWork cfg.params block.header.bits) h₁ hc₁
          (List.mem_cons_self ..) hmoney (by
            -- a block that was not refused on the tip is valid on the UTXO set that it now meets
            intro htip p hp
            rw [hbest] at htip
            rw [hmem, withBlock_getBlock _ _ _ _ _ _ hparentNe, hparent] at hp
            cases hp
            unfold refusal at hrefusal
            simp only [htip, decide_true, if_true] at hrefusal
            have hsame : node₁.session.conn.current.utxo = node.session.conn.current.utxo := hutxo
            rw [hsame]
            refine ⟨node.session.memory, ⌊clock⌋₊, h.charted.mono (List.subset_cons_self ..),
              ownBranch_on_tip hc htip hparent hnew, ?_⟩
            cases hv : validateBlockStateful cfg clock block (parent.height + 1) node.session.data with
            | error e => simp [hv] at hrefusal
            | ok ok =>
              cases ok with
              | false => simp [hv] at hrefusal
              | true => exact hv)
        rw [hbest] at hend
        exact ⟨block :: blocks, chain', hend⟩

end accept

/-! Taking up a block leaves the orphans. -/
section orphans
variable {α : Type} {P : Orphanage → Prop} {validate : StatefulValidation}

lemma keepsOrphans_onChain (x : ChainDb α) : Keeps (fun node => P node.orphanage) (onChain x) := by
  intro node h
  rw [final_onChain]
  exact h

lemma keepsOrphans_onFiles (x : FileDb α) : Keeps (fun node => P node.orphanage) (onFiles x) := by
  intro node h
  unfold final onFiles
  cases x ⟨node.session.conn, node.files⟩ <;> exact h

lemma keepsOrphans_setBestBlock (blockHash : Bytes) (height chainwork : ℕ) :
    Keeps (fun node => P node.orphanage) (setBestBlock blockHash height chainwork) :=
  .bind (.change fun _ h => h) fun _ => keepsOrphans_onChain _

lemma keepsOrphans_settle (bestHash : Option Bytes) (extendsTip : Bool) (block : Block)
    (height chainworkTotal : ℕ) :
    Keeps (fun node => P node.orphanage)
      (settle cfg validate bestHash extendsTip block height chainworkTotal) := by
  unfold settle
  split
  · refine .bind (.bind (keepsOrphans_onChain _) fun ok => ?_) fun ok => ?_
    · split
      · exact .ret _
      · exact .bind (keepsOrphans_setBestBlock _ _ _) fun _ => .ret _
    · split <;> exact .ret _
  · refine .bind .look fun node => ?_
    split
    · exact .ret _
    · refine .bind (keepsOrphans_onChain _) fun b => ?_
      split
      · refine .bind .look fun node => .bind (keepsOrphans_onChain _) fun ok => ?_
        split
        · exact .ret _
        · refine .bind (keepsOrphans_onChain _) fun b' => .bind (keepsOrphans_onChain _) fun r => ?_
          obtain ⟨ok, xs, ys⟩ := r
          simp only
          split
          · exact .ret _
          · exact .bind (keepsOrphans_setBestBlock _ _ _) fun _ => .ret _
      · exact .ret _

lemma keepsOrphans_acceptChild (clock : ℚ) (block : Block) (parent : BlockIndexEntry) :
    Keeps (fun node => P node.orphanage) (acceptChild cfg validate clock block parent) := by
  rw [acceptChild_eq]
  refine .bind (keepsOrphans_onFiles _) fun _ => .bind .look fun node => .bind ?_ fun reason => ?_
  · intro node' h
    rw [final, checkBlock_apply]
    cases refusal cfg validate clock (decide (node.bestHash = some block.header.prevBlockHash)) block
      (parent.height + 1) node'.session.data <;> exact h
  · cases reason with
    | some reason => exact .ret _
    | none =>
      exact .bind (.bind (keepsOrphans_onFiles _) fun _ => .bind (keepsOrphans_onChain _) fun _ =>
        keepsOrphans_onChain _) fun _ => keepsOrphans_settle _ _ _ _ _

end orphans

/-! Runs. -/
section runs
variable {start : Node}

/-- The state of a node in a run, with some chain of blocks that it has stored. -/
def InLedger (cfg : NodeConfig) (root aboveRoot : Bytes) (genesis : BlockHeader)
    (base : Store Outpoint UtxoRow) (Q : Block → Prop) (node : Node) : Prop :=
  (Consistent cfg.crypto.toHashlib root aboveRoot node ∧ OrphansAll Q node.orphanage) ∧
    ∃ blocks chain, Ledger cfg root genesis base Q blocks chain node

lemma inLedger_start (hstart : Started cfg.crypto.toHashlib root aboveRoot start) {e : BlockIndexEntry}
    (hgenesis : start.session.memory.getBlock root = some e)
    (hfunded : ∀ key, start.session.conn.current.utxo.get? key ≠ none → key.1 ∈ start.known) :
    InLedger cfg root aboveRoot e.header start.session.conn.current.utxo.get? Q start := by
  have hc := hstart.consistent (H := cfg.crypto.toHashlib)
  have hzero : e.height = 0 := by
    obtain ⟨e', he', hzero, -⟩ := hc.rooted.entry
    rw [hgenesis] at he'
    cases he'
    exact hzero
  refine ⟨⟨hc, ?_⟩, [], [], ⟨⟨⟨hc.rooted.tree, ?_, ?_, ?_, ?_, ?_, ?_⟩,
    ⟨⟨_, hc.rooted⟩, ⟨e, hgenesis, rfl⟩, ?_⟩, ?_, hfunded, ?_, ?_⟩,
    ⟨root, hstart.best, .nil⟩, .nil ..⟩⟩
  · intro k x hx
    simp [KeyedRows.get?, hstart.orphans] at hx
  · rw [getHeight, hgenesis, Option.map_some, hzero]
  all_goals try exact fun block hblock => (List.not_mem_nil hblock).elim
  -- the index has its root only
  intro k x hx hk
  obtain ⟨e, hrows, -⟩ := hstart.index
  rw [BlockIndex.getBlock, KeyedRows.get?, hrows] at hx
  simp [Ne.symm hk] at hx

lemma onBlock_inLedger (hmoney : cfg.params.maxMoney < 2 ^ 63)
    (hQ : ∀ block, Q block → block.ReadsBack ∧
      block.header.hashHex cfg.crypto.toHashlib ≠ aboveRoot)
    (hblock : Q block) (sourcePeer : Option String) :
    Keeps (InLedger cfg root aboveRoot genesis base Q) (onBlock cfg clock block sourcePeer) := by
  have hI : AllowsOrphans Q (InLedger cfg root aboveRoot genesis base Q) := by
    refine ⟨fun h => h.1.2, ?_⟩
    rintro node o ⟨⟨hc, -⟩, blocks, chain, h⟩ ho
    refine ⟨⟨(consistent_allowsOrphans ..).change hc fun k x hx => (hQ _ (ho k x hx)).2, ho⟩, blocks, chain,
      h.moved (h.toStores.moved (.refl _) (subset_refl _) h.shelved) rfl rfl rfl⟩
  refine hI.onBlock_keeps ?_ hblock sourcePeer
  rintro node block parent ⟨⟨hc, horphans⟩, blocks, chain, h⟩ hblock hparent hnew
  obtain ⟨hreads, hne⟩ := hQ block hblock
  exact ⟨⟨acceptChild_consistent hc hne hparent hnew, keepsOrphans_acceptChild _ _ _ node horphans⟩,
    h.acceptChild hc hmoney hblock hreads hne hparent hnew⟩

end runs

end Node
end BerzCoin
