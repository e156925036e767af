import BerzCoin.AppGenesis
import BerzCoin.AppStored

/-! What becomes of the genesis block in the runs of `on_block`. It is never connected, so its
output never comes into the UTXO set: no stored block can add it again, and no block that spends it
is connected. -/
namespace BerzCoin
open Database BlockIndex ReorgManager

namespace BlockFiles
variable {H : Hashlib} {m m' m'' : BlockFiles} {row : Option BlockRow} {k : Bytes} {block : Block}

/-- A read of a hash can return the block, now or when the cache has dropped it. -/
def Finds (H : Hashlib) (m : BlockFiles) (row : Option BlockRow) (k : Bytes) (block : Block) : Prop :=
  m.blockCache.get? k = some block ∨ m.load H row k = some block

lemma finds_of_lookup (h : m.lookup H row k = some block) : m.Finds H row k block := by
  unfold lookup at h
  cases hcache : m.blockCache.get? k with
  | none =>
    rw [hcache] at h
    exact .inr h
  | some cached =>
    rw [hcache] at h
    cases h
    exact .inl hcache

/-- The file of a hash is as it was, and the cache has at most what was found before. -/
structure Follows (H : Hashlib) (row : Option BlockRow) (k : Bytes) (m m' : BlockFiles) : Prop where
  load : m'.load H row k = m.load H row k
  cached : ∀ block, m'.blockCache.get? k = some block → m.Finds H row k block

namespace Follows

lemma refl (H : Hashlib) (row : Option BlockRow) (k : Bytes) (m : BlockFiles) :
    Follows H row k m m :=
  ⟨rfl, fun _ h => .inl h⟩

lemma finds (h : Follows H row k m m') (hfinds : m'.Finds H row k block) : m.Finds H row k block := by
  rcases hfinds with hcached | hload
  · exact h.cached block hcached
  · rw [h.load] at hload
    exact .inr hload

lemma trans (h : Follows H row k m m') (h' : Follows H row k m' m'') : Follows H row k m m'' :=
  ⟨h'.load.trans h.load, fun block hblock => h.finds (h'.cached block hblock)⟩

lemma updateCache {k' : Bytes} (h : k = k' → m.load H row k = some block) :
    Follows H row k m (m.updateCache k' block) := by
  refine ⟨rfl, ?_⟩
  intro cached hcached
  have hput := shrink_get? hcached
  rw [KeyedRows.get?_put] at hput
  split_ifs at hput with hk
  · cases hput
    exact .inr (h hk)
  · exact .inl hput

lemma withFile {k' data : Bytes} (h : k ≠ k') : Follows H row k m (m.withFile k' data) := by
  refine ⟨?_, fun _ hcached => .inl hcached⟩
  simp only [BlockFiles.load, fileOf, BlockFiles.withFile, KeyedRows.get?_put, if_neg h]

/-- A read follows, for every hash. -/
lemma read {conn : SqlConnection Tables} {k' : Bytes} {found : Option Block}
    {s' : Session Tables BlockFiles}
    (h : readBlockByHash H k' ⟨conn, m⟩ = .ok found s') :
    s'.conn = conn ∧ Follows H (conn.current.blocks.get? k) k m s'.memory := by
  obtain ⟨files, hread, hfiles⟩ := readBlockByHash_apply H k' ⟨conn, m⟩
  rw [hread] at h
  cases h
  refine ⟨rfl, ?_⟩
  rcases hfiles with rfl | ⟨loaded, rfl, hload⟩
  · exact .refl ..
  · refine .updateCache ?_
    rintro rfl
    exact hload

end Follows

/-- What a written block is read back as: itself from the cache, and from the file what the codec
makes of it. -/
lemma written_finds {found : Block}
    (h : ((m.withFile (block.header.hashHex H) (block.serialize true)).updateCache
      (block.header.hashHex H) block).Finds H row (block.header.hashHex H) found) :
    found = block ∨ ∃ offset, Block.deserialize (block.serialize true) 0 = .ok (found, offset) := by
  rcases h with hcached | hload
  · have hput := shrink_get? hcached
    rw [KeyedRows.get?_put, if_pos rfl] at hput
    exact .inl (Option.some.inj hput).symm
  · have hdata : (m.withFile (block.header.hashHex H) (block.serialize true)).fileOf row
        (block.header.hashHex H) = some (block.serialize true) := by
      simp [fileOf, BlockFiles.withFile]
    change ((m.withFile (block.header.hashHex H) (block.serialize true)).fileOf row
      (block.header.hashHex H)).bind _ = _ at hload
    rw [hdata, Option.bind_some, decode] at hload
    split_ifs at hload
    cases hdes : Block.deserialize (block.serialize true) 0 with
    | error e => simp [hdes] at hload
    | ok r =>
      obtain ⟨copy, offset⟩ := r
      simp only [hdes] at hload
      split_ifs at hload
      cases hload
      exact .inr ⟨offset, rfl⟩

end BlockFiles

/-! An output that is not there, and blocks that neither add nor spend it. -/
section lacking
variable {key : Outpoint} {rows : KeyedRows Bytes BlockRow}

/-- The output is not in the UTXO set, though its transaction has a row. -/
structure Tables.Lacks (key : Outpoint) (tables : Tables) : Prop where
  absent : tables.utxo.get? key = none
  known : tables.transactions.get? key.1 ≠ none

lemma Tables.steady_lacks : Steady (Lacks key) where
  rows tables tables' hutxo htxs _ h := ⟨by rw [hutxo]; exact h.absent, by rw [htxs]; exact h.known⟩
  insert column tables txid row txs hrows h := by
    obtain ⟨-, hget⟩ := uniqueInsert_ok hrows
    refine ⟨h.absent, ?_⟩
    simp only [hget]
    split_ifs
    · simp
    · exact h.known
  delete tables key' h := by
    refine ⟨?_, h.known⟩
    simp only [KeyedRows.get?_delete]
    split_ifs
    · rfl
    · exact h.absent
  update tables key' change h := by
    refine ⟨?_, h.known⟩
    simp only [KeyedRows.get?_update]
    split_ifs
    · rw [h.absent]
      rfl
    · exact h.absent

lemma Tables.admits_lacks {key' : Outpoint} (hne : key' ≠ key) : Admits (Lacks key) key' := by
  intro tables row h
  refine ⟨?_, h.known⟩
  simp only [KeyedRows.get?_insertOrReplace, if_neg (Ne.symm hne)]
  exact h.absent

/-- The same, while the rows of `blocks` stay. -/
def Tables.StillLacks (rows : KeyedRows Bytes BlockRow) (key : Outpoint) (tables : Tables) : Prop :=
  tables.blocks = rows ∧ tables.Lacks key

lemma Tables.steady_stillLacks : Steady (StillLacks rows key) :=
  (steady_blocks (· = rows)).and steady_lacks

lemma Tables.admits_stillLacks {key' : Outpoint} (hne : key' ≠ key) :
    Admits (StillLacks rows key) key' :=
  (admits_blocks (· = rows) key').and (admits_lacks hne)

/-- No transaction of the block has the id. -/
def Block.Avoids (H : Hashlib) (txid : Bytes) (block : Block) : Prop :=
  ∀ tx ∈ block.transactions, tx.txid H ≠ txid

/-- No transaction of the block spends the output. -/
def Block.Spares (key : Outpoint) (block : Block) : Prop :=
  ∀ tx ∈ block.transactions, tx.isCoinbase = false → ∀ txin ∈ tx.vin, txin.outpoint ≠ key

end lacking

section connecting
variable {key : Outpoint} {rows : KeyedRows Bytes BlockRow} {H : Hashlib}

/-- A block that is connected where the output is not there does not spend it. -/
lemma spendInputs_spares (blockHash txid : Bytes) (inIdx : ℕ) (vin : List TxIn) :
    Yields (Tables.StillLacks rows key) (fun _ => True) (spendInputs blockHash txid inIdx vin)
      fun _ => ∀ txin ∈ vin, txin.outpoint ≠ key := by
  induction vin generalizing inIdx with
  | nil => exact .ret fun txin h => (List.not_mem_nil h).elim
  | cons txin vin ih =>
    have hsteady := @Tables.steady_stillLacks key rows
    have hfirst : Yields (Tables.StillLacks rows key) (fun _ => True) (spendInput blockHash txid inIdx txin)
        fun _ => txin.outpoint ≠ key := by
      refine .bind (.query _) fun row hrow => ?_
      obtain ⟨tables, ⟨-, habsent, -⟩, rfl⟩ := hrow
      have hfound : ∀ row, tables.utxo.get? txin.outpoint = some row → txin.outpoint ≠ key := by
        intro row hget heq
        rw [heq, habsent] at hget
        cases hget
      simp only [TxIn.outpoint] at hfound ⊢
      generalize tables.utxo.get? (txin.prevTxHash, txin.prevTxIndex.toNat) = found at hfound ⊢
      cases found with
      | none => exact .raise _
      | some row =>
        have hne := hfound row rfl
        refine .weaken (.free (.bind (hsteady.change (fun _ => rfl) (fun _ => rfl) fun _ => rfl)
          fun _ => .bind (hsteady.spendUtxo _ _ _ _) fun ok => ?_)) fun _ _ => hne
        split
        · exact .raise _
        · exact .ret _
    exact .bind hfirst fun _ hne => (ih _).weaken fun _ hall => List.forall_mem_cons.2 ⟨hne, hall⟩

lemma connectTxs_spares (network : Network) (blockHash : Bytes) (height : ℕ) {txs : List Transaction}
    (hnew : ∀ tx ∈ txs, tx.txid H ≠ key.1) :
    Yields (Tables.StillLacks rows key) (fun _ => True) (connectTxs H network blockHash height txs)
      fun _ => ∀ tx ∈ txs, tx.isCoinbase = false → ∀ txin ∈ tx.vin, txin.outpoint ≠ key := by
  induction txs with
  | nil => exact .ret fun tx h => (List.not_mem_nil h).elim
  | cons tx txs ih =>
    have hadd := (@Tables.steady_stillLacks key rows).addOutputs H network height tx.isCoinbase 0
      tx.vout fun i => Tables.admits_stillLacks fun heq =>
        hnew tx List.mem_cons_self (congrArg Prod.fst heq)
    have hfirst : Yields (Tables.StillLacks rows key) (fun _ => True) (connectTx H network blockHash height tx)
        fun _ => tx.isCoinbase = false → ∀ txin ∈ tx.vin, txin.outpoint ≠ key := by
      unfold connectTx
      cases hcb : tx.isCoinbase with
      | true =>
        refine (Yields.free ?_).weaken fun _ _ h => Bool.noConfusion h
        rw [hcb] at hadd
        exact hadd
      | false =>
        rw [hcb] at hadd
        exact .bind (spendInputs_spares _ _ _ _) fun _ hall =>
          (Yields.free hadd).weaken fun _ _ _ => hall
    exact .bind hfirst fun _ hone => (ih fun tx' htx' => hnew tx' (List.mem_cons_of_mem _ htx')).weaken
      fun _ hall => List.forall_mem_cons.2 ⟨hone, hall⟩

lemma connect_spares {b₀ : BlockIndex} (network : Network) {block : Block}
    (hnew : block.Avoids H key.1) :
    Yields (Tables.StillLacks rows key) (SameShape b₀) (connect H network block)
      fun ok => ok = true → block.Spares key := by
  have hsteady := @Tables.steady_stillLacks key rows
  have hgrows := Yields.free (hsteady.connect H network fun tx htx i =>
    Tables.admits_stillLacks fun heq => hnew tx htx (congrArg Prod.fst heq))
  have hbody (height : ℕ) : Yields (Tables.StillLacks rows key) (fun _ => True)
      (connectBody H network (block.header.hashHex H) height block) fun _ => block.Spares key := by
    refine .bind (.free (hsteady.change (fun _ => rfl) (fun _ => rfl) fun _ => rfl)) fun _ _ =>
      .bind (connectTxs_spares network _ height hnew) fun _ hspares => ?_
    refine .weaken (.free (.bind (hsteady.markMainChain _ _) fun _ => ?_)) fun _ _ => hspares
    split
    · exact .raise _
    · exact hsteady.change (fun _ => rfl) (fun _ => rfl) fun _ => rfl
  refine .preserving ⟨?_, hgrows.error⟩
    (connect_preserves fun b h => h.trans (sameShape_marked b _ true))
  intro s ok s' hs hm h
  refine ⟨(hgrows.ok s ok s' hs hm h).1, ?_⟩
  rintro rfl
  obtain ⟨height, -, htx⟩ := connect_ok_true.1 h
  exact ((hbody height).transaction (connectBody_client ..)).ok s () s' hs hm htx |>.2

end connecting

lemma BlockIndex.Rooted.not_descends {b : BlockIndex} {root aboveRoot k x : Bytes}
    (hroot : b.Rooted root aboveRoot) (hk : b.getBlock k = none) (hne : k ≠ aboveRoot)
    (hx : b.getBlock x ≠ none) : ¬ b.Descends x k := by
  intro h
  rcases h.cases_tail with rfl | ⟨y, -, hyk⟩
  · exact hx hk
  · obtain ⟨e, he, hprev⟩ := Option.map_eq_some_iff.1 hyk
    exact absurd hprev (hroot.prev_ne he hk hne)

namespace Node

/-! What reads can find on a node. -/
section finds
variable {H : Hashlib} {key : Outpoint} {node node' : Node} {k : Bytes} {block : Block}

def Finds (H : Hashlib) (node : Node) (k : Bytes) (block : Block) : Prop :=
  node.files.Finds H (node.session.conn.current.blocks.get? k) k block

/-- Reads of a hash find no more than they did. -/
structure Follows (H : Hashlib) (k : Bytes) (node node' : Node) : Prop where
  row : node'.session.conn.current.blocks.get? k = node.session.conn.current.blocks.get? k
  files : BlockFiles.Follows H (node.session.conn.current.blocks.get? k) k node.files node'.files

lemma Follows.finds (h : Follows H k node node') (hfinds : Finds H node' k block) :
    Finds H node k block := by
  unfold Finds at hfinds ⊢
  rw [h.row] at hfinds
  exact h.files.finds hfinds

lemma Follows.same (hfiles : node'.files = node.files)
    (hblocks : node'.session.conn.current.blocks = node.session.conn.current.blocks) (k : Bytes) :
    Follows H k node node' := by
  refine ⟨by rw [hblocks], ?_⟩
  rw [hfiles]
  exact .refl ..

/-- Nothing that is read under the hash adds the output, and what is read from the file is the cached
block or does not spend the output. -/
structure Apart (H : Hashlib) (key : Outpoint) (node : Node) (k : Bytes) : Prop where
  avoids : ∀ block, Finds H node k block → block.Avoids H key.1
  agree : ∀ cached loaded, node.files.blockCache.get? k = some cached →
    node.files.load H (node.session.conn.current.blocks.get? k) k = some loaded →
      loaded = cached ∨ loaded.Spares key

lemma Apart.follows (h : Apart H key node k) (hfollows : Follows H k node node') :
    Apart H key node' k := by
  refine ⟨fun block hblock => h.avoids block (hfollows.finds hblock), ?_⟩
  intro cached loaded hcached hload
  rw [hfollows.row, hfollows.files.load] at hload
  rcases hfollows.files.cached cached hcached with hold | hold
  · exact h.agree cached loaded hold hload
  · rw [hold] at hload
    exact .inl (Option.some.inj hload).symm

/-- One read decides for all. -/
lemma Apart.spares (h : Apart H key node k) {block : Block}
    (hlookup : node.files.lookup H (node.session.conn.current.blocks.get? k) k = some block)
    (hspares : block.Spares key) : ∀ found, Finds H node k found → found.Spares key := by
  intro found hfound
  unfold BlockFiles.lookup at hlookup
  cases hcache : node.files.blockCache.get? k with
  | some cached =>
    rw [hcache] at hlookup
    cases hlookup
    rcases hfound with hfound | hfound
    · rw [hcache] at hfound
      cases hfound
      exact hspares
    · rcases h.agree block found hcache hfound with rfl | hspared
      · exact hspares
      · exact hspared
  | none =>
    rw [hcache] at hlookup
    rcases hfound with hfound | hfound
    · rw [hcache] at hfound
      cases hfound
    · have heq := hlookup.symm.trans hfound
      cases heq
      exact hspares

end finds

/-! The genesis block of a node. -/
section genesis
variable {H : Hashlib} {root : Bytes} {body : Option Block} {key : Outpoint} {node node' : Node}

/-- The node knows the height of its best tip, a transaction is open, and these are the block files
and the orphans. -/
structure Booked (files : BlockFiles) (orphanage : Orphanage) (node : Node) : Prop where
  files : node.files = files
  orphanage : node.orphanage = orphanage
  isOpen : node.session.conn.inTransaction = true
  best : ∃ k height, node.bestHash = some k ∧ node.session.memory.getHeight k = some height ∧
    node.bestHeight = height

/-- Under the root of the index this body is read, or none. -/
structure GenesisRead (H : Hashlib) (root : Bytes) (body : Option Block) (node : Node) : Prop where
  booked : Booked node.files node.orphanage node
  finds : ∀ block, Finds H node root block → body = some block
  stored : ∀ block, body = some block →
    node.files.load H (node.session.conn.current.blocks.get? root) root = some block

lemma GenesisRead.follows (h : GenesisRead H root body node) (hfollows : Follows H root node node')
    (hbooked : Booked node'.files node'.orphanage node') : GenesisRead H root body node' := by
  refine ⟨hbooked, fun block hblock => h.finds block (hfollows.finds hblock), ?_⟩
  intro block hbody
  rw [hfollows.row, hfollows.files.load]
  exact h.stored block hbody

/-- The output is not in the UTXO set, no block beside the root adds it, and none of the active
chain spends it. -/
structure GenesisUnspent (H : Hashlib) (root : Bytes) (key : Outpoint) (node : Node) : Prop where
  lacks : node.session.conn.current.Lacks key
  apart : ∀ k, k ≠ root → node.session.memory.getBlock k ≠ none → Apart H key node k
  spared : ∀ best k, node.bestHash = some best → node.session.memory.Descends best k → k ≠ root →
    ∀ block, Finds H node k block → block.Spares key

lemma GenesisUnspent.moved (h : GenesisUnspent H root key node)
    (hfollows : ∀ k, Follows H k node node') (hshape : SameShape node.session.memory node'.session.memory)
    (hlacks : node'.session.conn.current.Lacks key)
    (hspared : ∀ best k, node'.bestHash = some best → node.session.memory.Descends best k → k ≠ root →
      ∀ block, Finds H node k block → block.Spares key) : GenesisUnspent H root key node' := by
  refine ⟨hlacks, ?_, ?_⟩
  · intro k hk hget
    refine (h.apart k hk ?_).follows (hfollows k)
    rw [ne_eq, ← hshape.none_iff]
    exact hget
  · intro best k hbest hdesc hk block hblock
    rw [hshape.descends] at hdesc
    exact hspared best k hbest hdesc hk block ((hfollows k).finds hblock)

end genesis

/-! After a block was stored. -/
section settle
variable {cfg : NodeConfig} {validate : StatefulValidation} {root aboveRoot : Bytes} {key : Outpoint}
variable {node : Node} {block : Block}

lemma GenesisUnspent.session {H : Hashlib} (h : GenesisUnspent H root key node)
    {session : Session Tables BlockIndex} (hshape : SameShape node.session.memory session.memory)
    (htables : Tables.StillLacks node.session.conn.current.blocks key session.conn.current) :
    GenesisUnspent H root key { node with session } :=
  h.moved (Follows.same rfl htables.1) hshape htables.2 h.spared

/-- A tip is chosen where nothing of its branch spends the output. -/
lemma GenesisUnspent.setBestBlock {H : Hashlib} (h : GenesisUnspent H root key node) {k : Bytes}
    (height chainwork : ℕ)
    (hspared : ∀ k', node.session.memory.Descends k k' → k' ≠ root →
      ∀ block, Finds H node k' block → block.Spares key) :
    GenesisUnspent H root key (final (Node.setBestBlock k height chainwork) node) := by
  have hkept := keepsTables_setBestBlock (@Tables.steady_stillLacks key
    node.session.conn.current.blocks) k height chainwork node ⟨rfl, h.lacks⟩
  obtain ⟨s', hs', hmem, -⟩ := setBestChainTip_apply k node.session
  have hfinal : final (Node.setBestBlock k height chainwork) node = { node with
      session := s', bestHash := some k, bestHeight := height, bestChainwork := chainwork } := by
    simp only [final, Node.setBestBlock, bind_apply, modify_apply, onChain, hs']
  rw [hfinal] at hkept ⊢
  refine h.moved (Follows.same rfl hkept.1) ?_ hkept.2 ?_
  · simp only [hmem]
    exact sameShape_tipped _ _
  · intro best k' hbest
    cases hbest
    exact hspared k'

/-- A block that was just stored becomes the new tip. -/
lemma GenesisUnspent.connectAsNewTip (h : GenesisUnspent cfg.crypto.toHashlib root key node)
    {height chainworkTotal : ℕ} (hnew : block.Avoids cfg.crypto.toHashlib key.1)
    (hfound : ∀ found, Finds cfg.crypto.toHashlib node (block.header.hashHex cfg.crypto.toHashlib)
      found → found = block ∨ found.Spares key)
    (hprev : node.bestHash = some block.header.prevBlockHash)
    (hparent : node.session.memory.ParentHash (block.header.hashHex cfg.crypto.toHashlib)
      block.header.prevBlockHash) :
    GenesisUnspent cfg.crypto.toHashlib root key
      (final (Node.connectAsNewTip cfg block height chainworkTotal) node) := by
  have hyields := @connect_spares key node.session.conn.current.blocks cfg.crypto.toHashlib
    node.session.memory cfg.params.network block hnew
  simp only [final, Node.connectAsNewTip, bind_apply, onChain]
  cases hc : connect cfg.crypto.toHashlib cfg.params.network block node.session with
  | error e s =>
    obtain ⟨htables, hshape⟩ := hyields.error _ _ _ ⟨rfl, h.lacks⟩ (.refl _) hc
    exact h.session hshape htables
  | ok ok s =>
    obtain ⟨⟨htables, hshape⟩, hspares⟩ := hyields.ok _ _ _ ⟨rfl, h.lacks⟩ (.refl _) hc
    have hsession := h.session hshape htables
    cases ok with
    | false => exact hsession
    | true =>
      have hset := hsession.setBestBlock (k := block.header.hashHex cfg.crypto.toHashlib) height
        chainworkTotal (by
          intro k' hdesc hk' found hfinds
          have hold := (@Follows.same cfg.crypto.toHashlib node { node with session := s } rfl
            htables.1 k').finds hfinds
          simp only [hshape.descends] at hdesc
          rcases Relation.ReflTransGen.cases_head hdesc with rfl | ⟨p, hp, hrest⟩
          · rcases hfound found hold with rfl | hspared
            · exact hspares rfl
            · exact hspared
          · rw [ParentHash] at hp hparent
            rw [hparent] at hp
            cases hp
            exact h.spared _ k' hprev hrest hk' found hold)
      simp only [Bool.not_true, Bool.false_eq_true, if_false, bind_apply]
      unfold final at hset
      cases hr : Node.setBestBlock (block.header.hashHex cfg.crypto.toHashlib) height chainworkTotal
          { node with session := s } with
      | error e node' =>
        rw [hr] at hset
        exact hset
      | ok u node' =>
        rw [hr] at hset
        exact hset

/-- What `get_block` returns during a reorganisation. -/
lemma getBlock_lookup {b₀ : BlockIndex} (hroot : b₀.Rooted root aboveRoot) {files : BlockFiles}
    {d : Tables × BlockIndex} {k : Bytes} (hshape : SameShape b₀ d.2)
    (h : Node.getBlock cfg files k d = .ok (some block)) :
    b₀.getBlock k ≠ none ∧
      files.lookup cfg.crypto.toHashlib (d.1.blocks.get? k) k = some block := by
  unfold Node.getBlock at h
  cases he : d.2.getBlock k with
  | none => simp [he] at h
  | some e =>
    simp only [he, Except.ok.injEq] at h
    rw [(hshape.rooted hroot).tree.key k e he] at h
    refine ⟨?_, h⟩
    rw [ne_eq, ← hshape.none_iff]
    simp [he]

/-- The steps of a reorganisation from the best tip: the blocks that go spend nothing of the output,
and those that come do not add it. -/
lemma GenesisUnspent.steps (validate : StatefulValidation) {s : Session Tables BlockIndex}
    {best : Bytes}
    (hroot : s.memory.Rooted root aboveRoot)
    (h : GenesisUnspent cfg.crypto.toHashlib root key { node with session := s })
    (hbest : node.bestHash = some best) {newBest oldBest : BlockIndexEntry}
    (hold : s.memory.Indexed oldBest) (hhash : oldBest.blockHash = best)
    (hnew : s.memory.Indexed newBest) {depth : ℕ}
    {disconnectEntries connectEntries : List BlockIndexEntry}
    (hplan : plan depth newBest oldBest s.memory = some (disconnectEntries, connectEntries)) :
    (∀ e ∈ disconnectEntries, Yields (Tables.StillLacks s.conn.current.blocks key)
      (SameShape s.memory) (disconnectStep cfg.crypto.toHashlib
        ⟨Node.getBlock cfg node.files, some validate⟩ e) fun _ => True) ∧
    ∀ e ∈ connectEntries, Yields (Tables.StillLacks s.conn.current.blocks key)
      (SameShape s.memory) (connectStep cfg.crypto.toHashlib
        ⟨Node.getBlock cfg node.files, some validate⟩ e) fun block => block.Spares key ∧
          node.files.lookup cfg.crypto.toHashlib (s.conn.current.blocks.get? e.blockHash)
            e.blockHash = some block := by
  obtain ⟨fork, hfork, rfl, rfl⟩ := plan_eq_some hplan
  have habove {x : BlockIndexEntry} (hindexed : s.memory.Indexed x) (hlt : fork.height < x.height) :
      x.blockHash ≠ root := by
    intro heq
    obtain ⟨e₀, he₀, hzero, -⟩ := hroot.entry
    rw [Indexed, heq, he₀] at hindexed
    cases hindexed
    omega
  refine ⟨fun x hx => ?_, fun x hx => ?_⟩
  · obtain ⟨hindexed, hdesc, hlt⟩ := mem_pathAbove_descends hroot.tree hold hx
    refine disconnectStep_yields Tables.steady_stillLacks ?_
    intro d block hd hshape hget tx htx hcb txin htxin
    obtain ⟨-, hlookup⟩ := getBlock_lookup hroot hshape hget
    rw [hd.1] at hlookup
    rw [hhash] at hdesc
    exact Tables.admits_stillLacks (h.spared best x.blockHash hbest hdesc (habove hindexed hlt) block
      (BlockFiles.finds_of_lookup hlookup) tx htx hcb txin htxin)
  · obtain ⟨hindexed, -, hlt⟩ := mem_pathAbove_descends hroot.tree hnew (List.mem_reverse.1 hx)
    refine connectStep_yields Tables.steady_stillLacks ?_
    intro d block hd hshape hget
    obtain ⟨hne, hlookup⟩ := getBlock_lookup hroot hshape hget
    rw [hd.1] at hlookup
    exact (connect_spares .mainnet ((h.apart x.blockHash (habove hindexed hlt) hne).avoids block
      (BlockFiles.finds_of_lookup hlookup))).weaken fun ok hok htrue => ⟨hok htrue, hlookup⟩

/-- The branch of a new tip, after its blocks were connected. -/
lemma GenesisUnspent.reorganized {s s' : Session Tables BlockIndex} {best : Bytes}
    (hc : Consistent cfg.crypto.toHashlib root aboveRoot { node with session := s })
    (h : GenesisUnspent cfg.crypto.toHashlib root key { node with session := s })
    (hbest : node.bestHash = some best) {newBest oldBest : BlockIndexEntry}
    (hold : s.memory.Indexed oldBest) (hhash : oldBest.blockHash = best)
    (hnew : s.memory.Indexed newBest) {depth : ℕ} {xs ys : List Block}
    (hre : reorganize cfg.crypto.toHashlib ⟨Node.getBlock cfg node.files, some validate⟩ depth newBest
      oldBest s = .ok (true, xs, ys) s') :
    ∀ k, s.memory.Descends newBest.blockHash k → k ≠ root →
      ∀ block, Finds cfg.crypto.toHashlib { node with session := s } k block → block.Spares key := by
  have hroot : s.memory.Rooted root aboveRoot := hc.rooted
  have hsound : CacheSound cfg.crypto.toHashlib node.files := hc.cache
  obtain ⟨disconnectEntries, connectEntries, hplan, -, hys⟩ := reorganize_reads
    (getBlock_requested hroot hsound) hre
  have hkept := @reorganize_keeps cfg.crypto.toHashlib ⟨Node.getBlock cfg node.files, some validate⟩
    (Tables.StillLacks s.conn.current.blocks key) (fun block => block.Spares key ∧ node.files.lookup
      cfg.crypto.toHashlib (s.conn.current.blocks.get? (block.header.hashHex cfg.crypto.toHashlib))
      (block.header.hashHex cfg.crypto.toHashlib) = some block)
    Tables.steady_stillLacks depth newBest oldBest s ⟨rfl, h.lacks⟩ (by
      intro xs ys hplan
      obtain ⟨hdisconnect, hconnect⟩ := h.steps validate hroot hbest hold hhash hnew hplan
      refine ⟨hdisconnect, fun e he => (hconnect e he).weaken ?_⟩
      rintro block ⟨hspares, hlookup⟩
      rw [lookup_hash hsound hlookup]
      exact ⟨hspares, hlookup⟩)
  have hall := hkept.2 xs ys s' hre
  obtain ⟨fork, hfork, rfl, rfl⟩ := plan_eq_some hplan
  obtain ⟨hindexed, hdescNew, hdescOld⟩ := findCommonAncestor_descends hroot.tree hnew hold hfork
  intro k hk hne found hfinds
  rcases descends_pathAbove hroot hnew hindexed hdescNew hk with ⟨x, hx, rfl⟩ | hbelow
  · obtain ⟨hxindexed, -⟩ := mem_pathAbove_descends hroot.tree hnew hx
    have hmem : x.blockHash ∈ ys.map (·.header.hashHex cfg.crypto.toHashlib) := by
      rw [hys]
      exact List.mem_map_of_mem (List.mem_reverse.2 hx)
    obtain ⟨block, hblock, hxhash⟩ := List.mem_map.1 hmem
    obtain ⟨hspares, hlookup⟩ := hall block hblock
    rw [hxhash] at hlookup
    have hget : s.memory.getBlock x.blockHash = some x := hxindexed
    exact (h.apart x.blockHash hne (by simp [hget])).spares hlookup hspares found hfinds
  · rw [hhash] at hdescOld
    exact h.spared best k hbest (hdescOld.trans hbelow) hne found hfinds

/-- Switching to a heavier branch. -/
lemma GenesisUnspent.tryReorganize (hc : Consistent cfg.crypto.toHashlib root aboveRoot node)
    (h : GenesisUnspent cfg.crypto.toHashlib root key node) (blockHash : Bytes) :
    GenesisUnspent cfg.crypto.toHashlib root key
      (final (Node.tryReorganize cfg validate node.bestHash blockHash) node) := by
  obtain ⟨best, hbest, hshown⟩ := hc.best
  obtain ⟨e, he, -⟩ := hshown.2
  have hkey := hc.rooted.tree.key best e he
  simp only [Node.tryReorganize, final, bind_apply, read_apply, id, hbest, Option.bind_some, he]
  cases hnew : node.session.memory.getBlock blockHash with
  | none => exact h
  | some newBest =>
    have hkeyNew := hc.rooted.tree.key blockHash newBest hnew
    simp only [bind_apply, get_apply]
    obtain ⟨hshape, hshown₁⟩ := canReorganize_bestShown (s := node.session) rfl hc.rooted hshown
      cfg.crypto.toHashlib ⟨Node.getBlock cfg node.files, some validate⟩ cfg.maxReorgDepth newBest e
    have htables := @canReorganize_le cfg.crypto.toHashlib
      ⟨Node.getBlock cfg node.files, some validate⟩ Prop _ _ (@Tables.steady_stillLacks key
        node.session.conn.current.blocks) cfg.maxReorgDepth newBest e node.session ⟨rfl, h.lacks⟩
    simp only [onChain]
    unfold Db.final at hshape hshown₁ htables
    cases hcan : canReorganize cfg.crypto.toHashlib ⟨Node.getBlock cfg node.files, some validate⟩
        cfg.maxReorgDepth newBest e node.session with
    | error err s =>
      rw [hcan] at hshape htables
      exact h.session hshape htables
    | ok ok s =>
      rw [hcan] at hshape hshown₁ htables
      have hsession := h.session hshape htables
      cases ok with
      | false => exact hsession
      | true =>
        have hc₁ : Consistent cfg.crypto.toHashlib root aboveRoot { node with session := s } :=
          ⟨hc.toGrounded.ofShape hshape, best, hbest, hshown₁⟩
        obtain ⟨hold, holdCore⟩ := current_indexed hc.rooted hshape he
        obtain ⟨hnew', hnewCore⟩ := current_indexed hc.rooted hshape hnew
        have hhash : (s.memory.current e).blockHash = best :=
          (congrArg (fun c => c.2.1) holdCore).trans hkey
        have hhash' : (s.memory.current newBest).blockHash = newBest.blockHash :=
          congrArg (fun c => c.2.1) hnewCore
        have hroot₁ : s.memory.Rooted root aboveRoot := hc₁.rooted
        have hkept := @reorganize_keeps cfg.crypto.toHashlib
          ⟨Node.getBlock cfg node.files, some validate⟩
          (Tables.StillLacks s.conn.current.blocks key) (fun _ => True) Tables.steady_stillLacks
          cfg.maxReorgDepth (s.memory.current newBest) (s.memory.current e) s
          ⟨rfl, hsession.lacks⟩ (by
            intro xs ys hplan
            obtain ⟨hdisconnect, hconnect⟩ := hsession.steps validate hroot₁ hbest hold hhash hnew' hplan
            exact ⟨hdisconnect, fun e he => (hconnect e he).weaken fun _ _ => trivial⟩)
        have hshape' := OfShape.reorganize (P := SameShape s.memory) (fun _ _ h1 h2 => h2.trans h1)
          cfg.crypto.toHashlib ⟨Node.getBlock cfg node.files, some validate⟩ cfg.maxReorgDepth
          (s.memory.current newBest) (s.memory.current e) s (.refl _)
        simp only [Bool.not_true, Bool.false_eq_true, if_false, bind_apply, read_apply, id]
        simp only [onChain]
        unfold Db.final at hkept hshape'
        cases hre : reorganize cfg.crypto.toHashlib ⟨Node.getBlock cfg node.files, some validate⟩
            cfg.maxReorgDepth (s.memory.current newBest) (s.memory.current e) s with
        | error err s' =>
          rw [hre] at hkept hshape'
          exact hsession.session hshape' hkept.1
        | ok r s' =>
          obtain ⟨ok, xs, ys⟩ := r
          have hspared (hok : ok = true) := hsession.reorganized hc₁ hbest hold hhash hnew' (hok ▸ hre)
          rw [hre] at hkept hshape'
          have hsession' := hsession.session hshape' hkept.1
          cases ok with
          | false => exact hsession'
          | true =>
            have hset := hsession'.setBestBlock (k := newBest.blockHash) newBest.height
              newBest.chainwork (by
                intro k' hdesc hk' found hfinds
                simp only [hshape'.descends] at hdesc
                rw [hhash'] at hspared
                exact hspared rfl k' hdesc hk' found ((@Follows.same cfg.crypto.toHashlib
                  { node with session := s } { node with session := s' } rfl hkept.1.1 k').finds
                    hfinds))
            simp only [Bool.not_true, Bool.false_eq_true, if_false, bind_apply]
            unfold final at hset
            cases hr : Node.setBestBlock newBest.blockHash newBest.height newBest.chainwork
                { node with session := s' } with
            | error err node' =>
              rw [hr] at hset
              exact hset
            | ok u node' =>
              rw [hr] at hset
              exact hset

lemma GenesisUnspent.settle (hc : Consistent cfg.crypto.toHashlib root aboveRoot node)
    (h : GenesisUnspent cfg.crypto.toHashlib root key node) {extendsTip : Bool} {height : ℕ}
    (chainworkTotal : ℕ) (hnew : block.Avoids cfg.crypto.toHashlib key.1)
    (hfound : ∀ found, Finds cfg.crypto.toHashlib node (block.header.hashHex cfg.crypto.toHashlib)
      found → found = block ∨ found.Spares key)
    (hprev : extendsTip = true → node.bestHash = some block.header.prevBlockHash)
    (hparent : node.session.memory.ParentHash (block.header.hashHex cfg.crypto.toHashlib)
      block.header.prevBlockHash) :
    GenesisUnspent cfg.crypto.toHashlib root key (final
      (Node.settle cfg validate node.bestHash extendsTip block height chainworkTotal) node) := by
  unfold Node.settle
  cases extendsTip with
  | true =>
    have htip := @GenesisUnspent.connectAsNewTip cfg root key node block h height chainworkTotal hnew
      hfound (hprev rfl) hparent
    simp only [if_true, final, bind_apply] at htip ⊢
    cases hcon : Node.connectAsNewTip cfg block height chainworkTotal node with
    | error e node' =>
      rw [hcon] at htip
      exact htip
    | ok ok node' =>
      rw [hcon] at htip
      cases ok <;> exact htip
  | false =>
    simp only [Bool.false_eq_true, if_false, final, bind_apply, get_apply]
    split_ifs
    · exact h
    · exact h.tryReorganize hc _

end settle

/-! Storing a block. -/
section store
variable {cfg : NodeConfig} {clock : ℚ} {block : Block} {height chainworkTotal : ℕ}
variable {node node' : Node}

lemma storeBlock_files (node : Node) :
    let filed := node.files.withFile (block.header.hashHex cfg.crypto.toHashlib)
      (block.serialize true)
    let kept := filed.updateCache (block.header.hashHex cfg.crypto.toHashlib) block
    ((final (storeBlock cfg clock block height chainworkTotal) node).files = filed ∨
      (final (storeBlock cfg clock block height chainworkTotal) node).files = kept) ∧
    ∀ node', storeBlock cfg clock block height chainworkTotal node = .ok () node' →
      node'.files = kept ∧
      ∀ tx ∈ block.transactions,
        node.session.conn.current.transactions.get? (tx.txid cfg.crypto.toHashlib) = none := by
  intro filed kept
  have hrest : ∀ node₁ : Node, (final (do
      onChain (BlockIndex.addBlock cfg.crypto.toHashlib block height chainworkTotal false)
      onChain (HeaderChain.addHeader cfg.crypto.toHashlib block.header height chainworkTotal))
        node₁).files = node₁.files := by
    intro node₁
    have hkeeps : Keeps (fun node => node.files = node₁.files) (do
        onChain (BlockIndex.addBlock cfg.crypto.toHashlib block height chainworkTotal false)
        onChain (HeaderChain.addHeader cfg.crypto.toHashlib block.header height chainworkTotal)) := by
      refine .bind (fun node h => ?_) fun _ => fun node h => ?_
      · rw [final_onChain]
        exact h
      · rw [final_onChain]
        exact h
    exact hkeeps node₁ rfl
  have hmemory := (BlocksStore.writeBody_preserves cfg.crypto.toHashlib block height ⌊clock⌋₊
    (P := (· = filed))).transaction
      (BlockFiles.filed cfg.crypto.toHashlib block ⟨node.session.conn, node.files⟩) rfl
  unfold storeBlock
  simp only [final, bind_apply, onFiles, BlockFiles.writeBlock_apply]
  rw [Db.final] at hmemory
  cases hwrite : BlocksStore.writeBlock cfg.crypto.toHashlib block height ⌊clock⌋₊
      (BlockFiles.filed cfg.crypto.toHashlib block ⟨node.session.conn, node.files⟩) with
  | error e s =>
    rw [BlocksStore.writeBlock] at hwrite
    rw [hwrite] at hmemory
    exact ⟨.inl hmemory, fun node' h => by cases h⟩
  | ok u s =>
    have hin := (transaction_ok_iff (BlocksStore.writeBody_client ..)).2 ⟨s, hwrite, rfl⟩
    obtain ⟨-, hfresh⟩ := BlocksStore.writeBody_ok hin
    rw [BlocksStore.writeBlock] at hwrite
    rw [hwrite] at hmemory
    have hkept := hrest { node with
      session := ⟨s.conn, node.session.memory⟩
      files := s.memory.updateCache (block.header.hashHex cfg.crypto.toHashlib) block }
    simp only [final, bind_apply] at hkept
    simp only at hmemory ⊢
    rw [hmemory] at hkept ⊢
    refine ⟨.inr hkept, ?_⟩
    intro node' h
    rw [h] at hkept
    exact ⟨hkept, fun tx htx => (hfresh tx htx).1⟩

lemma storeBlock_open (node : Node) (h : node.session.conn.inTransaction = true) :
    (final (storeBlock cfg clock block height chainworkTotal) node).session.conn.inTransaction =
      true := by
  have hchain {α : Type} {x : ChainDb α} (hx : Client x) :
      Keeps (fun node => node.session.conn.inTransaction = true) (onChain x) := by
    intro node h
    rw [final_onChain]
    exact (hx.sameTransaction h).isOpen
  refine Keeps.bind (I := fun node => node.session.conn.inTransaction = true) ?_ (fun _ =>
    .bind (hchain (addBlock_grows Tables.steady_known ..).client) fun _ =>
      hchain (addHeader_grows Tables.steady_known ..).client) node h
  intro node h
  have hwritten := ((BlocksStore.writeBody_client cfg.crypto.toHashlib block height
    ⌊clock⌋₊).transaction).sameTransaction
      (s := BlockFiles.filed cfg.crypto.toHashlib block ⟨node.session.conn, node.files⟩) h
  simp only [final, onFiles, BlockFiles.writeBlock_apply, BlocksStore.writeBlock]
  unfold Db.final at hwritten
  cases hwrite : transaction (BlocksStore.writeBody cfg.crypto.toHashlib block height ⌊clock⌋₊)
      (BlockFiles.filed cfg.crypto.toHashlib block ⟨node.session.conn, node.files⟩) with
  | error e s =>
    rw [hwrite] at hwritten
    exact hwritten.isOpen
  | ok u s =>
    rw [hwrite] at hwritten
    exact hwritten.isOpen

/-- Reads of the other hashes find no more than before. -/
lemma storeBlock_follows (node : Node) {k : Bytes}
    (hk : k ≠ block.header.hashHex cfg.crypto.toHashlib) :
    Follows cfg.crypto.toHashlib k node
      (final (storeBlock cfg clock block height chainworkTotal) node) := by
  refine ⟨?_, ?_⟩
  · refine keepsTables_storeBlock (P := fun tables => tables.blocks.get? k =
      node.session.conn.current.blocks.get? k) (Tables.steady_blocks fun rows => rows.get? k = _)
      clock block height chainworkTotal ?_ node rfl
    intro tables row h
    simp only [KeyedRows.get?_insertOrReplace, if_neg hk]
    exact h
  · obtain ⟨hfiles, -⟩ := @storeBlock_files cfg clock block height chainworkTotal node
    rcases hfiles with hfiles | hfiles
    · rw [hfiles]
      exact .withFile hk
    · rw [hfiles]
      exact (BlockFiles.Follows.withFile hk).trans (.updateCache fun h => absurd h hk)

end store

/-! Taking up a block. -/
section accept
variable {cfg : NodeConfig} {validate : StatefulValidation} {root aboveRoot : Bytes} {key : Outpoint}
variable {node node₁ : Node} {clock : ℚ} {block : Block} {parent : BlockIndexEntry}

/-- Where the file of the block is read back as another block, that one neither adds nor spends the
output. -/
def ReadsApart (H : Hashlib) (key : Outpoint) (block : Block) : Prop :=
  ∀ found offset, Block.deserialize (block.serialize true) 0 = .ok (found, offset) →
    found = block ∨ found.Avoids H key.1 ∧ found.Spares key

/-- A block that is stored has no transaction that has a row. -/
lemma GenesisUnspent.stored {height chainworkTotal : ℕ}
    (hc : Consistent cfg.crypto.toHashlib root aboveRoot node)
    (h : GenesisUnspent cfg.crypto.toHashlib root key node)
    (hparent : node.session.memory.getBlock block.header.prevBlockHash = some parent)
    (hnew : node.session.memory.getBlock (block.header.hashHex cfg.crypto.toHashlib) = none)
    (hne : block.header.hashHex cfg.crypto.toHashlib ≠ aboveRoot)
    (hreads : ReadsApart cfg.crypto.toHashlib key block)
    (hstore : storeBlock cfg clock block height chainworkTotal node = .ok () node₁)
    (hbest : node₁.bestHash = node.bestHash)
    (hmem : node₁.session.memory = node.session.memory.withBlock
      (block.header.hashHex cfg.crypto.toHashlib) block.header height chainworkTotal) :
    GenesisUnspent cfg.crypto.toHashlib root key node₁ ∧ block.Avoids cfg.crypto.toHashlib key.1 ∧
      ∀ found, Finds cfg.crypto.toHashlib node₁ (block.header.hashHex cfg.crypto.toHashlib) found →
        found = block ∨ found.Spares key := by
  obtain ⟨-, hfiles⟩ := @storeBlock_files cfg clock block height chainworkTotal node
  obtain ⟨hfiles, hfresh⟩ := hfiles node₁ hstore
  have hlacks : (final (storeBlock cfg clock block height chainworkTotal)
      node).session.conn.current.Lacks key :=
    keepsTables_storeBlock Tables.steady_lacks clock block height chainworkTotal
      (fun _ _ h => ⟨h.absent, h.known⟩) node h.lacks
  have hfollows : ∀ k, k ≠ block.header.hashHex cfg.crypto.toHashlib →
      Follows cfg.crypto.toHashlib k node node₁ := by
    intro k hk
    have hkept := @storeBlock_follows cfg clock block height chainworkTotal node k hk
    rwa [final, hstore] at hkept
  rw [final, hstore] at hlacks
  have havoids : block.Avoids cfg.crypto.toHashlib key.1 := by
    intro tx htx heq
    exact h.lacks.known (heq ▸ hfresh tx htx)
  have hfinds : ∀ found, Finds cfg.crypto.toHashlib node₁
      (block.header.hashHex cfg.crypto.toHashlib) found →
        found = block ∨ found.Avoids cfg.crypto.toHashlib key.1 ∧ found.Spares key := by
    intro found hfound
    rw [Finds, hfiles] at hfound
    rcases BlockFiles.written_finds hfound with rfl | ⟨offset, hdes⟩
    · exact .inl rfl
    · exact hreads found offset hdes
  refine ⟨⟨hlacks, ?_, ?_⟩, havoids, fun found hfound => (hfinds found hfound).imp_right And.right⟩
  · intro k hk hget
    by_cases hown : k = block.header.hashHex cfg.crypto.toHashlib
    · subst hown
      refine ⟨fun found hfound => ?_, ?_⟩
      · rcases hfinds found hfound with rfl | ⟨havoid, -⟩
        · exact havoids
        · exact havoid
      · intro cached loaded hcached hload
        have hput : cached = block := by
          rw [hfiles] at hcached
          have hput := BlockFiles.shrink_get? hcached
          rw [KeyedRows.get?_put, if_pos rfl] at hput
          exact (Option.some.inj hput).symm
        rw [hput]
        exact (hfinds loaded (.inr hload)).imp_right And.right
    · refine (h.apart k hk ?_).follows (hfollows k hown)
      rwa [hmem, withBlock_getBlock _ _ _ _ _ _ hown] at hget
  · intro best k hbest' hdesc hk found hfound
    rw [hbest] at hbest'
    obtain ⟨tip, htip, -, e, he, -⟩ := hc.best
    have heq : best = tip := Option.some.inj (hbest'.symm.trans htip)
    rw [heq] at hdesc
    have hbestNe : tip ≠ block.header.hashHex cfg.crypto.toHashlib := by
      rintro rfl
      rw [hnew] at he
      cases he
    rw [hmem] at hdesc
    have hold := hc.rooted.descends_of_withBlock hnew hne hbestNe hdesc
    have hkne : k ≠ block.header.hashHex cfg.crypto.toHashlib := by
      rintro rfl
      exact hbestNe (hc.rooted.descends_new hnew hne hparent hdesc)
    exact h.spared tip k htip hold hk found ((hfollows k hkne).finds hfound)

lemma readBlock_follows (k : Bytes) (node : Node) :
    ∃ files, onFiles (BlockFiles.readBlockByHash cfg.crypto.toHashlib k) node =
        .ok (node.files.lookup cfg.crypto.toHashlib (node.session.conn.current.blocks.get? k) k)
          { node with files } ∧
      ∀ k', Follows cfg.crypto.toHashlib k' node { node with files } := by
  obtain ⟨m, hread, -⟩ := BlockFiles.readBlockByHash_apply cfg.crypto.toHashlib k
    ⟨node.session.conn, node.files⟩
  refine ⟨m, ?_, ?_⟩
  · unfold onFiles
    rw [hread]
  · intro k'
    obtain ⟨-, hfollows⟩ := BlockFiles.Follows.read (k := k') hread
    exact ⟨rfl, hfollows⟩

/-- What taking up a block comes to: it is refused, its rows are refused, or it is stored and then
settled. -/
lemma acceptChild_steps (cfg : NodeConfig) (validate : StatefulValidation) (clock : ℚ) (block : Block)
    (parent : BlockIndexEntry) (node : Node) :
    ∃ files, (∀ k, Follows cfg.crypto.toHashlib k node { node with files }) ∧
      (CacheSound cfg.crypto.toHashlib node.files → CacheSound cfg.crypto.toHashlib files) ∧
      (final (Node.acceptChild cfg validate clock block parent) node = { node with files } ∨
      ∃ node₁, SameBooks node node₁ ∧
        (CacheSound cfg.crypto.toHashlib files → CacheSound cfg.crypto.toHashlib node₁.files) ∧
        ((∃ e, storeBlock cfg clock block (parent.height + 1) (parent.chainwork +
            ChainWork.calculateBlockWork cfg.params block.header.bits) { node with files } =
              .error e node₁ ∧
            node₁.session.memory = node.session.memory ∧
            final (Node.acceptChild cfg validate clock block parent) node = node₁) ∨
          (storeBlock cfg clock block (parent.height + 1) (parent.chainwork +
            ChainWork.calculateBlockWork cfg.params block.header.bits) { node with files } =
              .ok () node₁ ∧
            node₁.session.memory = node.session.memory.withBlock
              (block.header.hashHex cfg.crypto.toHashlib) block.header (parent.height + 1)
              (parent.chainwork + ChainWork.calculateBlockWork cfg.params block.header.bits) ∧
            final (Node.acceptChild cfg validate clock block parent) node = final (Node.settle cfg
              validate node₁.bestHash (decide (node.bestHash = some block.header.prevBlockHash)) block
              (parent.height + 1) (parent.chainwork +
                ChainWork.calculateBlockWork cfg.params block.header.bits)) node₁))) := by
  obtain ⟨found, files, hread, hsound, happly⟩ := @acceptChild_apply cfg clock block parent node
  obtain ⟨files', hread', hfollows⟩ := @readBlock_follows cfg parent.blockHash node
  obtain rfl : files = files' := by
    rw [hread', EStateM.Result.ok.injEq] at hread
    exact (congrArg Node.files hread.2).symm
  refine ⟨files, hfollows, hsound, ?_⟩
  simp only [final, happly]
  cases refusal cfg validate clock (decide (node.bestHash = some block.header.prevBlockHash)) block
      (parent.height + 1) node.session.data with
  | error e => exact .inl rfl
  | ok reason =>
    cases reason with
    | some reason => exact .inl rfl
    | none =>
      obtain ⟨node₁, hbooks, hcache, hstore⟩ := @storeBlock_cases cfg clock block
          (parent.height + 1)
          (parent.chainwork + ChainWork.calculateBlockWork cfg.params block.header.bits)
          { node with files }
      have hbest : node₁.bestHash = node.bestHash := hbooks.bestHash
      refine .inr ⟨node₁, ⟨hbooks.bestHash, hbooks.bestHeight, hbooks.bestChainwork,
        hbooks.orphanage⟩, hcache, ?_⟩
      simp only [bind_apply, hbest]
      rcases hstore with ⟨e, hstore, hmem⟩ | ⟨hstore, hmem⟩
      · exact .inl ⟨e, hstore, hmem, by simp only [hstore]⟩
      · exact .inr ⟨hstore, hmem, by simp only [hstore]⟩

lemma parentHash_withBlock {b : BlockIndex} {k : Bytes} {header : BlockHeader} {height chainwork : ℕ}
    (hparent : b.getBlock header.prevBlockHash = some parent) :
    (b.withBlock k header height chainwork).ParentHash k header.prevBlockHash ∧
      (b.withBlock k header height chainwork).getHeight k = some height := by
  obtain ⟨entry, hentry, hcore⟩ := @withBlock_self b k header height chainwork _ hparent
  have hheader : entry.header = header := congrArg (fun c => c.2.2.1) hcore
  have hheight : entry.height = height := congrArg (fun c => c.1) hcore
  exact ⟨by rw [ParentHash, hentry, Option.map_some, hheader],
    by rw [getHeight, hentry, Option.map_some, hheight]⟩

/-- Taking up a block keeps the output away. -/
lemma GenesisUnspent.acceptChild (hc : Consistent cfg.crypto.toHashlib root aboveRoot node)
    (h : GenesisUnspent cfg.crypto.toHashlib root key node)
    (hparent : node.session.memory.getBlock block.header.prevBlockHash = some parent)
    (hnew : node.session.memory.getBlock (block.header.hashHex cfg.crypto.toHashlib) = none)
    (hne : block.header.hashHex cfg.crypto.toHashlib ≠ aboveRoot)
    (hreads : ReadsApart cfg.crypto.toHashlib key block) :
    GenesisUnspent cfg.crypto.toHashlib root key
      (final (Node.acceptChild cfg validate clock block parent) node) := by
  obtain ⟨files, hfiles, hsound, hsteps⟩ := acceptChild_steps cfg validate clock block parent node
  have hc' : Consistent cfg.crypto.toHashlib root aboveRoot { node with files } :=
    ⟨⟨hc.rooted, hsound hc.cache, hc.orphans⟩, hc.best⟩
  have h' : GenesisUnspent cfg.crypto.toHashlib root key { node with files } :=
    h.moved hfiles (.refl _) h.lacks h.spared
  rcases hsteps with hend | ⟨node₁, hbooks, hcache, ⟨e, hstore, hmem, hend⟩ | ⟨hstore, hmem, hend⟩⟩
  · rw [hend]
    exact h'
  · rw [hend]
    have hlacks : (final (storeBlock cfg clock block (parent.height + 1) (parent.chainwork +
        ChainWork.calculateBlockWork cfg.params block.header.bits))
          { node with files }).session.conn.current.Lacks key :=
      keepsTables_storeBlock Tables.steady_lacks clock block _ _
        (fun _ _ h => ⟨h.absent, h.known⟩) { node with files } h'.lacks
    have hfollows (k : Bytes) (hk : k ≠ block.header.hashHex cfg.crypto.toHashlib) :=
      @storeBlock_follows cfg clock block (parent.height + 1)
        (parent.chainwork + ChainWork.calculateBlockWork cfg.params block.header.bits)
        { node with files } k hk
    rw [final, hstore] at hlacks
    simp only [final, hstore] at hfollows
    refine ⟨hlacks, ?_, ?_⟩
    · intro k hk hget
      rw [hmem] at hget
      refine (h'.apart k hk hget).follows (hfollows k ?_)
      rintro rfl
      exact hget hnew
    · intro best k hbest hdesc hk found hfound
      rw [hbooks.bestHash] at hbest
      rw [hmem] at hdesc
      by_cases hown : k = block.header.hashHex cfg.crypto.toHashlib
      · subst hown
        obtain ⟨tip, htip, -, e, he, -⟩ := hc.best
        have heq : best = tip := Option.some.inj (hbest.symm.trans htip)
        rw [heq] at hdesc
        exact absurd hdesc (hc.rooted.not_descends hnew hne (by simp [he]))
      · exact h'.spared best k hbest hdesc hk found ((hfollows k hown).finds hfound)
  · rw [hend]
    obtain ⟨h₁, havoids, hfound⟩ := h'.stored hc' hparent hnew hne hreads hstore hbooks.bestHash hmem
    obtain ⟨hc₁, -⟩ := Consistent.stored hc hparent hnew hne rfl hbooks (hcache hc'.cache) hmem
    refine h₁.settle hc₁ _ havoids hfound ?_ ?_
    · intro htip
      rw [hbooks.bestHash]
      simpa using htip
    · rw [hmem]
      exact (parentHash_withBlock hparent).1

end accept

/-! The height of the best tip, the open transaction and the block files after a block was stored. -/
section books
variable {cfg : NodeConfig} {validate : StatefulValidation} {root aboveRoot : Bytes}
variable {node : Node}

/-- The books, and the height of a further block. -/
def BookedWith (files : BlockFiles) (orphanage : Orphanage) (k : Bytes) (height : ℕ)
    (node : Node) : Prop :=
  Booked files orphanage node ∧ node.session.memory.getHeight k = some height

lemma bookedWith_onChain {α : Type} {files : BlockFiles} {orphanage : Orphanage}
    {k : Bytes} {height : ℕ} {x : ChainDb α}
    (hopen : ∀ s, s.conn.inTransaction = true → (x.final s).conn.inTransaction = true)
    (hshape : ∀ b, Preserves (SameShape b) x) : Keeps (BookedWith files orphanage k height) (onChain x) := by
  rintro node ⟨⟨hfiles, horphans, hisOpen, best, bestHeight, hbest, hget, hheight⟩, hk⟩
  rw [final_onChain]
  have hsame := hshape node.session.memory node.session (.refl _)
  refine ⟨⟨hfiles, horphans, hopen _ hisOpen, best, bestHeight, hbest, ?_, hheight⟩, ?_⟩
  · exact (hsame.getHeight _).trans hget
  · exact (hsame.getHeight _).trans hk

lemma ofShape_sameShape (b : BlockIndex) : OfShape (SameShape b) := fun _ _ h h' => h'.trans h

lemma open_of_client {α : Type} {x : ChainDb α} (hx : Client x) (s : Session Tables BlockIndex)
    (h : s.conn.inTransaction = true) : (x.final s).conn.inTransaction = true :=
  (hx.sameTransaction h).isOpen

lemma keepsBooked_setBestBlock {files : BlockFiles} {orphanage : Orphanage} {k : Bytes} {height : ℕ}
    (chainwork : ℕ) :
    Keeps (BookedWith files orphanage k height) (Node.setBestBlock k height chainwork) := by
  refine .bind ?_ fun _ => bookedWith_onChain (open_of_client (setBestChainTip_client _))
    fun b => (ofShape_sameShape b).setBestChainTip _
  rintro node ⟨⟨hfiles, horphans, hopen, -⟩, hk⟩
  exact ⟨⟨hfiles, horphans, hopen, k, height, rfl, hk, rfl⟩, hk⟩

lemma keepsBooked_connectAsNewTip {files : BlockFiles} {orphanage : Orphanage} {block : Block}
    {height : ℕ}
    (chainworkTotal : ℕ) :
    Keeps (BookedWith files orphanage (block.header.hashHex cfg.crypto.toHashlib) height)
      (Node.connectAsNewTip cfg block height chainworkTotal) := by
  refine .bind (bookedWith_onChain (open_of_client (connect_client ..))
    fun b => (ofShape_sameShape b).connect _ _ _) fun ok => ?_
  split
  · exact .ret _
  · exact .bind (keepsBooked_setBestBlock _) fun _ => .ret _

lemma reorganize_open {H : Hashlib} {calls : ReorgCallbacks} {depth : ℕ}
    {newBest oldBest : BlockIndexEntry} (s : Session Tables BlockIndex)
    (h : s.conn.inTransaction = true) :
    ((reorganize H calls depth newBest oldBest).final s).conn.inTransaction = true := by
  have hback (snapshot : List (Bytes × Option (Finset BlockStatus))) (k : Bytes) :
      Client (rollBack snapshot k) :=
    .bind (.handle (.bind (.memory _) fun _ => setBestChainTip_client _) fun _ => .ret _)
      fun _ => .ret _
  refine open_of_client (.bind (.memory _) fun b => ?_) s h
  cases b.findCommonAncestor newBest oldBest with
  | none => exact .ret _
  | some fork =>
    simp only
    split_ifs
    · exact .ret _
    · cases validateReorgPaths fork (b.pathAbove fork oldBest) (b.pathAbove fork newBest).reverse with
      | error e => exact hback _ _
      | ok u =>
        exact .handle (.bind (.transaction (reorganizeBody_client ..)) fun _ => .ret _)
          fun _ => hback _ _

lemma canReorganize_open {H : Hashlib} {calls : ReorgCallbacks} {depth : ℕ}
    {newBest oldBest : BlockIndexEntry} (s : Session Tables BlockIndex)
    (h : s.conn.inTransaction = true) :
    ((canReorganize H calls depth newBest oldBest).final s).conn.inTransaction = true := by
  cases hplan : plan depth newBest oldBest s.memory with
  | none =>
    rw [Db.final, canReorganize_of_plan_none hplan]
    exact h
  | some paths =>
    obtain ⟨disconnectEntries, connectEntries⟩ := paths
    have hsame := (preflight_client H calls disconnectEntries connectEntries).sameTransaction
      (s := { s with conn := s.conn.savepoint savepointName }) (savepoint_inTransaction _ _)
    have hrun : canReorganize H calls _ _ _ s = _ := canReorganize_of_plan hplan
    rw [Db.final, hrun]
    change ((andFinally _ _).final _).conn.inTransaction = true
    rw [final_andFinally]
    obtain ⟨c₁, h₁, h₂⟩ := release_rollbackTo hsame
    generalize s.memory.snapshotStatuses _ = snapshot
    generalize (preflight H calls disconnectEntries connectEntries).final
      { s with conn := s.conn.savepoint savepointName } = t at h₁
    have hback : (onConnection savepointName (·.rollbackTo savepointName)).final t =
        { t with conn := c₁ } := by
      simp only [Db.final, onConnection, h₁]
    have hclient : Client (restoreMemory snapshot s.memory.bestHash) := by
      refine .bind (.memory _) fun _ => ?_
      cases s.memory.bestHash with
      | none => exact .ret _
      | some best => exact setBestChainTip_client best
    unfold leavePreflight
    rw [final_andFinally, hback, Db.final_bind]
    simp only [onConnection, h₂]
    exact open_of_client hclient ⟨s.conn, t.memory⟩ h

/-- `_try_reorganize` from the moment both ends of the path are found. -/
def reorganizeBetween (cfg : NodeConfig) (validate : StatefulValidation) (files : BlockFiles)
    (newBest currentBest : BlockIndexEntry) : NodeM BlockReply := do
  let calls : ReorgCallbacks := ⟨Node.getBlock cfg files, some validate⟩
  if !(← onChain (canReorganize cfg.crypto.toHashlib calls cfg.maxReorgDepth newBest currentBest)) then
    return ⟨false, some .reorg_preflight_failed⟩
  let b ← onChain (BlockIndex.read id)
  let (ok, _, _) ← onChain (reorganize cfg.crypto.toHashlib calls cfg.maxReorgDepth
    (b.current newBest) (b.current currentBest))
  if !ok then return ⟨false, some .reorg_failed⟩
  Node.setBestBlock newBest.blockHash newBest.height newBest.chainwork
  return ⟨true, none⟩

lemma keepsBooked_tryReorganize {files : BlockFiles} {orphanage : Orphanage} {blockHash : Bytes}
    (hc : Consistent cfg.crypto.toHashlib root aboveRoot node) (h : Booked files orphanage node)
    (bestHash : Option Bytes) :
    Booked files orphanage (final (Node.tryReorganize cfg validate bestHash blockHash) node) := by
  simp only [Node.tryReorganize, final, bind_apply, read_apply, id]
  cases bestHash.bind node.session.memory.getBlock with
  | none => exact h
  | some currentBest =>
    cases hnew : node.session.memory.getBlock blockHash with
    | none => exact h
    | some newBest =>
      have hkey := hc.rooted.tree.key blockHash newBest hnew
      have hstart : BookedWith files orphanage newBest.blockHash newBest.height node :=
        ⟨h, by simp [getHeight, hkey, hnew]⟩
      simp only [bind_apply, get_apply]
      have hrest : Keeps (BookedWith files orphanage newBest.blockHash newBest.height)
          (reorganizeBetween cfg validate node.files newBest currentBest) := by
        unfold reorganizeBetween
        refine .bind (bookedWith_onChain canReorganize_open
          fun b => (ofShape_sameShape b).canReorganize _ _ _ _ _) fun ok => ?_
        split
        · exact .ret _
        · refine .bind (bookedWith_onChain (open_of_client (read_client _))
            fun b => read_preserves _) fun b' => .bind (bookedWith_onChain reorganize_open
              fun b => (ofShape_sameShape b).reorganize _ _ _ _ _) fun r => ?_
          obtain ⟨ok, xs, ys⟩ := r
          simp only
          split
          · exact .ret _
          · exact .bind (keepsBooked_setBestBlock _) fun _ => .ret _
      have hend := hrest node hstart
      simp only [final, reorganizeBetween, bind_apply] at hend
      exact hend.1

lemma keepsBooked_settle {files : BlockFiles} {orphanage : Orphanage} {block : Block} {height : ℕ}
    (hc : Consistent cfg.crypto.toHashlib root aboveRoot node)
    (h : BookedWith files orphanage (block.header.hashHex cfg.crypto.toHashlib) height node)
    (bestHash : Option Bytes) (extendsTip : Bool) (chainworkTotal : ℕ) :
    Booked files orphanage (final
      (Node.settle cfg validate bestHash extendsTip block height chainworkTotal) node) := by
  unfold Node.settle
  cases extendsTip with
  | true =>
    refine (Keeps.bind (keepsBooked_connectAsNewTip chainworkTotal) (fun ok => ?_) node h).1
    cases ok <;> exact .ret _
  | false =>
    simp only [Bool.false_eq_true, if_false, final, bind_apply, get_apply]
    split_ifs
    · exact h.1
    · exact keepsBooked_tryReorganize hc h.1 _

end books

/-! Every call of `on_block`. -/
section runs
variable {cfg : NodeConfig} {validate : StatefulValidation} {root aboveRoot : Bytes}
variable {node : Node} {clock : ℚ} {block : Block} {parent : BlockIndexEntry}
variable {body : Option Block} {key : Outpoint}

/-- The body of the root stays what it was, the best height stays the one of the best tip, and the
transaction stays open. -/
lemma GenesisRead.acceptChild (hc : Consistent cfg.crypto.toHashlib root aboveRoot node)
    (h : GenesisRead cfg.crypto.toHashlib root body node)
    (hparent : node.session.memory.getBlock block.header.prevBlockHash = some parent)
    (hnew : node.session.memory.getBlock (block.header.hashHex cfg.crypto.toHashlib) = none)
    (hne : block.header.hashHex cfg.crypto.toHashlib ≠ aboveRoot) :
    GenesisRead cfg.crypto.toHashlib root body
        (final (Node.acceptChild cfg validate clock block parent) node) ∧
      (final (Node.acceptChild cfg validate clock block parent) node).orphanage =
        node.orphanage := by
  obtain ⟨files, hfiles, hsound, hsteps⟩ := acceptChild_steps cfg validate clock block parent node
  have hc' : Consistent cfg.crypto.toHashlib root aboveRoot { node with files } :=
    ⟨⟨hc.rooted, hsound hc.cache, hc.orphans⟩, hc.best⟩
  have h' : GenesisRead cfg.crypto.toHashlib root body { node with files } :=
    h.follows (hfiles root) ⟨rfl, rfl, h.booked.isOpen, h.booked.best⟩
  have hroot : root ≠ block.header.hashHex cfg.crypto.toHashlib := by
    rintro rfl
    obtain ⟨e, he, -⟩ := hc.rooted.entry
    rw [hnew] at he
    cases he
  rcases hsteps with hend | ⟨node₁, hbooks, hcache, hstored⟩
  · rw [hend]
    exact ⟨h', rfl⟩
  have hopen : (final (storeBlock cfg clock block (parent.height + 1) (parent.chainwork +
      ChainWork.calculateBlockWork cfg.params block.header.bits))
        { node with files }).session.conn.inTransaction = true :=
    storeBlock_open { node with files } h'.booked.isOpen
  have hfollows := @storeBlock_follows cfg clock block (parent.height + 1) (parent.chainwork +
    ChainWork.calculateBlockWork cfg.params block.header.bits) { node with files } root hroot
  obtain ⟨k, n, hbest, hheight, hbestHeight⟩ := h'.booked.best
  rcases hstored with ⟨e, hstore, hmem, hend⟩ | ⟨hstore, hmem, hend⟩
  · rw [hend]
    rw [final, hstore] at hopen hfollows
    refine ⟨h'.follows hfollows ⟨rfl, rfl, hopen, k, n, hbooks.bestHash.trans hbest, ?_,
      hbooks.bestHeight.trans hbestHeight⟩, hbooks.orphanage⟩
    rw [hmem]
    exact hheight
  · rw [hend]
    rw [final, hstore] at hopen hfollows
    obtain ⟨hc₁, hsame⟩ := Consistent.stored hc hparent hnew hne rfl hbooks (hcache hc'.cache) hmem
    have hbooked : BookedWith node₁.files node₁.orphanage (block.header.hashHex cfg.crypto.toHashlib)
        (parent.height + 1) node₁ := by
      refine ⟨⟨rfl, rfl, hopen, k, n, hbooks.bestHash.trans hbest, ?_,
        hbooks.bestHeight.trans hbestHeight⟩, ?_⟩
      · rw [getHeight, hsame k hbest]
        exact hheight
      · rw [hmem]
        exact (parentHash_withBlock hparent).2
    have hsettled := @keepsBooked_settle cfg validate root aboveRoot node₁ node₁.files node₁.orphanage block
      (parent.height + 1) hc₁ hbooked node₁.bestHash
      (decide (node.bestHash = some block.header.prevBlockHash))
      (parent.chainwork + ChainWork.calculateBlockWork cfg.params block.header.bits)
    have hblocks := @keepsTables_settle cfg validate _
      (Tables.steady_blocks (· = node₁.session.conn.current.blocks))
      (Tables.admits_blocks (· = node₁.session.conn.current.blocks)) node₁.bestHash
      (decide (node.bestHash = some block.header.prevBlockHash)) block (parent.height + 1)
      (parent.chainwork + ChainWork.calculateBlockWork cfg.params block.header.bits) node₁ rfl
    have h₁ : GenesisRead cfg.crypto.toHashlib root body node₁ := h'.follows hfollows hbooked.1
    refine ⟨h₁.follows (.same hsettled.files hblocks root) ?_, ?_⟩
    · rw [hsettled.files, hsettled.orphanage]
      exact hsettled
    · rw [hsettled.orphanage]
      exact hbooks.orphanage

/-- What holds of a node between the blocks that it takes up: the genesis block is the root of its
index, and its output is not there where its body is. The blocks that wait are of the kind of those
that come. -/
structure FromGenesis (cfg : NodeConfig) (root aboveRoot : Bytes) (body : Option Block)
    (keys : Set Outpoint) (node : Node) : Prop where
  consistent : Consistent cfg.crypto.toHashlib root aboveRoot node
  read : GenesisRead cfg.crypto.toHashlib root body node
  unspent : ∀ key ∈ keys, GenesisUnspent cfg.crypto.toHashlib root key node
  orphans : OrphansAll (fun block => block.header.hashHex cfg.crypto.toHashlib ≠ aboveRoot ∧
    ∀ key ∈ keys, ReadsApart cfg.crypto.toHashlib key block) node.orphanage

lemma fromGenesis_allowsOrphans (cfg : NodeConfig) (root aboveRoot : Bytes) (body : Option Block)
    (keys : Set Outpoint) : AllowsOrphans
      (fun block => block.header.hashHex cfg.crypto.toHashlib ≠ aboveRoot ∧
        ∀ key ∈ keys, ReadsApart cfg.crypto.toHashlib key block)
      (FromGenesis cfg root aboveRoot body keys) where
  orphans h := h.orphans
  change h ho := by
    refine ⟨⟨⟨h.consistent.rooted, h.consistent.cache, fun k x hx => (ho k x hx).1⟩,
      h.consistent.best⟩, ⟨⟨rfl, rfl, h.read.booked.isOpen, h.read.booked.best⟩, h.read.finds,
      h.read.stored⟩, ?_, ho⟩
    intro key hkey
    exact (h.unspent key hkey).moved (fun k => ⟨rfl, .refl ..⟩) (.refl _) (h.unspent key hkey).lacks
      (h.unspent key hkey).spared

/-- A run of `on_block` that starts so stays so. -/
lemma deliver_fromGenesis {keys : Set Outpoint} {start : Node}
    (h : FromGenesis cfg root aboveRoot body keys start) {ds : List Delivery}
    (hds : ∀ d ∈ ds, d.block.header.hashHex cfg.crypto.toHashlib ≠ aboveRoot ∧
      ∀ key ∈ keys, ReadsApart cfg.crypto.toHashlib key d.block) :
    FromGenesis cfg root aboveRoot body keys
      (deliver (fun d => onBlock cfg d.clock d.block d.sourcePeer) ds start).2 := by
  refine deliver_keeps (fun d hd => (fromGenesis_allowsOrphans ..).onBlock_keeps ?_ (hds d hd)
    d.sourcePeer) h
  intro node block parent h hblock hparent hnew
  obtain ⟨hread, horphans⟩ := @GenesisRead.acceptChild cfg (validateBlockStateful cfg d.clock) root
    aboveRoot node d.clock block parent body h.consistent h.read hparent hnew hblock.1
  refine ⟨acceptChild_consistent h.consistent hblock.1 hparent hnew, hread, ?_, ?_⟩
  · intro key hkey
    exact (h.unspent key hkey).acceptChild h.consistent hparent hnew hblock.1 (hblock.2 key hkey)
  · rw [horphans]
    exact h.orphans

end runs
end Node
end BerzCoin
