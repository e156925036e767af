import BerzCoin.AppReconcile
import BerzCoin.AppVersionbits
import BerzCoin.MiningBits

/-! Runs in which the deployments have one update for each block of the active chain. -/
namespace BerzCoin
open Database BlockIndex
open VersionBitsTracker (windowSize updateState updateAt statesAfter statesAfter_concat recentVersions
  Waiting updateAt_of_waiting)

namespace BlockIndex

/-- The headers from genesis up to the block `k`, by its ancestors. -/
structure Line (b : BlockIndex) (k : Bytes) (chain : List BlockHeader) : Prop where
  tip : ∃ e, b.getBlock k = some e ∧ e.height + 1 = chain.length
  ancestors : ∀ h header, chain[h]? = some header →
    ∃ x e, b.getBlock x = some e ∧ e.height = h ∧ e.header = header ∧ b.Descends k x

namespace Line
variable {b b' : BlockIndex} {k : Bytes} {chain : List BlockHeader}

lemma ne_nil (h : b.Line k chain) : chain ≠ [] := by
  obtain ⟨e, -, hlength⟩ := h.tip
  intro hnil
  rw [hnil] at hlength
  cases hlength

lemma sameShape (h : b.Line k chain) (hshape : SameShape b b') : b'.Line k chain := by
  constructor
  · obtain ⟨e, he, hlength⟩ := h.tip
    obtain ⟨e', he', hcore⟩ := hshape.getBlock he
    have hheight : e'.height = e.height := congrArg (fun c => c.1) hcore
    exact ⟨e', he', by rw [hheight]; exact hlength⟩
  · intro j header hj
    obtain ⟨x, e, he, hheight, hheader, hdesc⟩ := h.ancestors j header hj
    obtain ⟨e', he', hcore⟩ := hshape.getBlock he
    refine ⟨x, e', he', ?_, ?_, by rw [hshape.descends]; exact hdesc⟩
    · exact (congrArg (fun c => c.1) hcore).trans hheight
    · exact (congrArg (fun c => c.2.2.1) hcore).trans hheader

lemma withBlock (h : b.Line k chain) {new : Bytes} (hnew : b.getBlock new = none)
    (header : BlockHeader) (height chainwork : ℕ) :
    (b.withBlock new header height chainwork).Line k chain := by
  have hold : ∀ x e, b.getBlock x = some e →
      (b.withBlock new header height chainwork).getBlock x = some e := by
    intro x e he
    rw [withBlock_getBlock]
    · exact he
    · intro hx
      rw [hx, hnew] at he
      cases he
  constructor
  · obtain ⟨e, he, hlength⟩ := h.tip
    exact ⟨e, hold k e he, hlength⟩
  · intro j found hj
    obtain ⟨x, e, he, hheight, hheader, hdesc⟩ := h.ancestors j found hj
    exact ⟨x, e, hold x e he, hheight, hheader, hdesc.withBlock hnew⟩

/-- A block on top of the line. -/
lemma extend (h : b.Line k chain) {new : Bytes} {e : BlockIndexEntry} (he : b.getBlock new = some e)
    (hprev : e.header.prevBlockHash = k) (hheight : e.height = chain.length) :
    b.Line new (chain ++ [e.header]) := by
  have hparent : b.ParentHash new k := by
    rw [ParentHash, he, Option.map_some, hprev]
  constructor
  · exact ⟨e, he, by simp [hheight]⟩
  · intro j header hj
    by_cases hlt : j < chain.length
    · rw [List.getElem?_append_left hlt] at hj
      obtain ⟨x, ex, hex, hheight', hheader, hdesc⟩ := h.ancestors j header hj
      exact ⟨x, ex, hex, hheight', hheader, hdesc.head hparent⟩
    · have hj' : j = chain.length := by
        have hbound := (List.getElem?_eq_some_iff.1 hj).1
        simp at hbound
        omega
      subst hj'
      simp at hj
      exact ⟨new, e, he, hheight, hj, .refl⟩

/-- The height index gives the line of the block that it shows. -/
lemma getBlockByHeight (h : b.Line k chain) (htree : b.TreeShaped) (hshown : Node.BestShown b k)
    {j : ℕ} {header : BlockHeader} (hj : chain[j]? = some header) :
    ∃ x e, b.getBlockByHeight j = some e ∧ b.getBlock x = some e ∧ e.blockHash = x ∧ e.height = j ∧
      e.header = header := by
  obtain ⟨x, e, he, hheight, hheader, hdesc⟩ := h.ancestors j header hj
  obtain ⟨-, tip, htip, hshows⟩ := hshown
  have htipHeight : b.getHeight k = some tip.height := by simp [getHeight, htip]
  have hle := (descends_height htree hdesc he htipHeight).1
  obtain ⟨found, hfound, hfoundHeight, hfoundDesc⟩ := hshows j (by omega)
  obtain ⟨y, -, hy⟩ := Option.bind_eq_some_iff.1 hfound
  have hkey := htree.key y found hy
  rw [hkey] at hfoundDesc
  -- two ancestors of one block at one height are the same
  have hbetween := hdesc.between htree hfoundDesc he hy (by omega)
  have hxHeight : b.getHeight x = some e.height := by simp [getHeight, he]
  have hyx : y = x := (descends_height htree hbetween hy hxHeight).2 (by omega)
  subst hyx
  rw [he] at hy
  cases hy
  exact ⟨y, e, hfound, he, hkey, hheight, hheader⟩

end Line
end BlockIndex

/-! What the caches hold. -/

/-- The index knows its blocks in the cache of heights, and the headers of the chain are cached at
their heights. -/
structure CachedHeaders.Holds (c : CachedHeaders) (b : BlockIndex) (chain : List BlockHeader) :
    Prop where
  heights : ∀ k e, b.getBlock k = some e → c.heightCache.get? k = some e.height
  headers : ∀ h header, chain[h]? = some header → c.headerCache.get? h = some header

namespace CachedHeaders.Holds
variable {c : CachedHeaders} {b : BlockIndex} {chain : List BlockHeader}

/-- A lookup in the index never goes to the rows for a header of the chain. -/
lemma getHeaderByHash (h : c.Holds b chain) {x : Bytes} {e : BlockIndexEntry}
    (he : b.getBlock x = some e) {header : BlockHeader} (hchain : chain[e.height]? = some header) :
    c.getHeaderByHash x = (some header, c) := by
  rw [CachedHeaders.getHeaderByHash, h.heights x e he]
  simp only [CachedHeaders.getHeader, h.headers e.height header hchain]

/-- Another lookup fills in a header that was not there. -/
lemma afterLookup (h : c.Holds b chain) {x : Bytes} {e : BlockIndexEntry}
    (he : b.getBlock x = some e) : (c.getHeaderByHash x).2.Holds b chain := by
  rw [CachedHeaders.getHeaderByHash, h.heights x e he]
  simp only [CachedHeaders.getHeader]
  split
  · exact h
  · rename_i hnone
    split
    · exact h
    · refine ⟨h.heights, ?_⟩
      intro j header hj
      have hcached := h.headers j header hj
      rw [KeyedRows.get?_put, if_neg]
      · exact hcached
      · intro hjx
        rw [hjx, hnone] at hcached
        cases hcached

/-- A header above the chain, of a block that the index does not know. -/
lemma addHeader (h : c.Holds b chain) (H : Hashlib) {header : BlockHeader} {height chainwork : ℕ}
    (hnew : b.getBlock (header.hashHex H) = none) (habove : chain.length ≤ height) :
    (c.addHeader H header height chainwork).Holds b chain := by
  constructor
  · intro k e he
    simp only [CachedHeaders.addHeader]
    rw [KeyedRows.get?_put, if_neg]
    · exact h.heights k e he
    · intro hk
      rw [hk, hnew] at he
      cases he
  · intro j found hj
    have hlt := (List.getElem?_eq_some_iff.1 hj).1
    simp only [CachedHeaders.addHeader]
    rw [KeyedRows.get?_put, if_neg (by omega)]
    exact h.headers j found hj

lemma sameShape (h : c.Holds b chain) {b' : BlockIndex} (hshape : SameShape b b') :
    c.Holds b' chain := by
  refine ⟨?_, h.headers⟩
  intro k e' he'
  obtain ⟨e, he, hcore⟩ := hshape.of_some he'
  have hheight : e'.height = e.height := congrArg (fun c => c.1) hcore
  rw [hheight]
  exact h.heights k e he

lemma of_append {header : BlockHeader} (h : c.Holds b (chain ++ [header])) : c.Holds b chain := by
  refine ⟨h.heights, ?_⟩
  intro j found hj
  apply h.headers j found
  rw [List.getElem?_append_left (List.getElem?_eq_some_iff.1 hj).1]
  exact hj

/-- A new block of the index on top of the chain is cached. -/
lemma withBlock (h : c.Holds b chain) (k : Bytes) {header : BlockHeader} (chainwork : ℕ)
    {p : BlockIndexEntry} (hp : b.getBlock header.prevBlockHash = some p) {height : ℕ}
    (hheight : height = chain.length) :
    CachedHeaders.Holds { c with
        headerCache := c.headerCache.put height header
        heightCache := c.heightCache.put k height }
      (b.withBlock k header height chainwork) (chain ++ [header]) := by
  subst hheight
  constructor
  · intro x e he
    simp only
    rw [KeyedRows.get?_put]
    by_cases hx : x = k
    · subst hx
      obtain ⟨e', he', hcore⟩ := @withBlock_self b x header chain.length chainwork p hp
      rw [he] at he'
      cases he'
      rw [if_pos rfl]
      exact congrArg some (congrArg (fun c => c.1) hcore).symm
    · rw [withBlock_getBlock _ _ _ _ _ _ hx] at he
      rw [if_neg hx]
      exact h.heights x e he
  · intro j found hj
    simp only
    rw [KeyedRows.get?_put]
    by_cases hlast : j = chain.length
    · subst hlast
      simpa using hj
    · have hlt : j < chain.length := by
        have hbound := (List.getElem?_eq_some_iff.1 hj).1
        rw [List.length_append, List.length_singleton] at hbound
        omega
      rw [List.getElem?_append_left hlt] at hj
      rw [if_neg hlast]
      exact h.headers j found hj

end CachedHeaders.Holds

namespace BlockSync
variable {H : Hashlib} {params : ConsensusParams} {chain : List BlockHeader}

/-- Header synchronisation works above the best height, and below it only reads. -/
lemma storeHeaders_holds {now i : ℕ} {s : SyncChain} {headers : List BlockHeader}
    (htree : s.blockIndex.TreeShaped) (hheight : s.bestHeight + 1 = chain.length)
    (hnew : ∀ header ∈ headers, s.blockIndex.getBlock (header.hashHex H) = none)
    (hcaches : s.headerChain.Holds s.blockIndex chain) :
    (storeHeaders H params now s i headers).1.headerChain.Holds s.blockIndex chain := by
  induction headers generalizing s i with
  | nil => exact hcaches
  | cons header rest ih =>
    have hread : ∀ height, (s.getHeader height).2.headerChain.Holds s.blockIndex chain ∧
        (s.getHeader height).2.blockIndex = s.blockIndex ∧
        (s.getHeader height).2.bestHeight = s.bestHeight := by
      intro height
      unfold SyncChain.getHeader
      cases hentry : s.blockIndex.getBlockByHeight height with
      | none => exact ⟨hcaches, rfl, rfl⟩
      | some entry =>
        obtain ⟨x, -, hx⟩ := Option.bind_eq_some_iff.1 hentry
        have hkey := htree.key x entry hx
        rw [← hkey] at hx
        exact ⟨hcaches.afterLookup hx, rfl, rfl⟩
    rw [storeHeaders]
    split
    rename_i found read hfound
    have hholds : read.headerChain.Holds s.blockIndex chain ∧ read.blockIndex = s.blockIndex ∧
        read.bestHeight = s.bestHeight := by
      split_ifs at hfound
      · cases hfound
        exact ⟨hcaches, rfl, rfl⟩
      · have hsecond := congrArg Prod.snd hfound
        simp only at hsecond
        rw [← hsecond]
        exact hread _
    obtain ⟨hholds, hindex, hbest⟩ := hholds
    dsimp only
    split
    · exact hholds
    · rw [← hindex] at htree hnew hholds ⊢
      have habove : chain.length ≤ (s.bestHeight + 1 + i).toNat := by omega
      refine ih (s := { read with
        headerChain := read.headerChain.addHeader H header (s.bestHeight + 1 + i).toNat
          (ChainWork.calculateBlockWork params header.bits) }) htree ?_ ?_ ?_
      · exact hbest ▸ hheight
      · intro other hmem
        exact hnew other (List.mem_cons_of_mem _ hmem)
      · exact hholds.addHeader H (hnew header List.mem_cons_self) habove

end BlockSync

namespace TrackedNode

/-- The height index shows the chain, and the caches hold it. -/
structure Shows (t : TrackedNode) (chain : List BlockHeader) : Prop where
  ne : chain ≠ []
  height : t.node.bestHeight + 1 = chain.length
  entry : ∀ h header, chain[h]? = some header → ∃ e,
    t.node.session.memory.getBlockByHeight h = some e ∧
      t.node.session.memory.getBlock e.blockHash = some e ∧ e.height = h ∧ e.header = header
  caches : t.headerChain.Holds t.node.session.memory chain

namespace Shows
variable {t : TrackedNode} {chain : List BlockHeader}

lemma getHeader (h : t.Shows chain) {j : ℕ} (hj : j < chain.length) :
    t.getHeader j = (chain[j]?, t) := by
  have hget := List.getElem?_eq_getElem hj
  obtain ⟨e, hentry, hself, hheight, -⟩ := h.entry j _ hget
  subst hheight
  rw [TrackedNode.getHeader, hentry]
  simp only [h.caches.getHeaderByHash hself hget, hget]
  rfl

lemma versionsAt (h : t.Shows chain) {start count : ℕ} (hle : start + count ≤ chain.length) :
    TrackedNode.versionsAt (List.range' start count) t =
      (((chain.drop start).take count).map fun header => header.version.toNat, t) := by
  induction count generalizing start with
  | zero => simp [TrackedNode.versionsAt]
  | succ count ih =>
    have hlt : start < chain.length := by omega
    rw [List.range'_succ, TrackedNode.versionsAt, h.getHeader hlt, List.getElem?_eq_getElem hlt]
    simp only [ih (by omega : start + 1 + count ≤ chain.length), List.drop_eq_getElem_cons hlt,
      List.take_succ_cons, List.map_cons]

lemma getRecentHeaderVersions (h : t.Shows chain) :
    t.getRecentHeaderVersions windowSize = (recentVersions chain, t) := by
  have hlength := h.height
  have hpos := List.length_pos_iff.2 h.ne
  have hwindow : ¬ (windowSize = 0 ∨ t.node.bestHeight < 0) := by
    unfold windowSize
    omega
  have hbest : t.node.bestHeight.toNat + 1 = chain.length := by omega
  simp only [TrackedNode.getRecentHeaderVersions, if_neg hwindow, hbest]
  rw [h.versionsAt (by omega), recentVersions, List.take_of_length_le (by simp)]

/-- One refresh is one update at the tip of the chain. -/
lemma refreshVersionbitsState (h : t.Shows chain) :
    t.refreshVersionbitsState = { t with deployments := updateAt t.deployments chain } := by
  have hlength := h.height
  have hpos := List.length_pos_iff.2 h.ne
  have hbest : t.node.bestHeight.toNat = chain.length - 1 := by omega
  have htip : chain[chain.length - 1]? = some (chain.getLast h.ne) := by
    rw [List.getLast_eq_getElem, List.getElem?_eq_getElem]
  rw [TrackedNode.refreshVersionbitsState, if_neg (by omega), hbest,
    h.getHeader (by omega), htip]
  simp only [h.getRecentHeaderVersions, updateAt, List.getLast?_eq_some_getLast h.ne, hbest]

lemma activeChain (h : t.Shows chain) : t.node.activeChain = chain := by
  have hlength : (t.node.bestHeight + 1).toNat = chain.length := by
    have hheight := h.height
    omega
  have hget : ∀ j < chain.length, (t.node.session.memory.getBlockByHeight j).map
      BlockIndexEntry.header = chain[j]? := by
    intro j hj
    obtain ⟨e, hentry, -, -, hheader⟩ := h.entry j _ (List.getElem?_eq_getElem hj)
    rw [hentry, Option.map_some, hheader, List.getElem?_eq_getElem hj]
  rw [Node.activeChain, hlength, List.range_eq_range', filterMap_window hget (by omega)]
  simp

end Shows
end TrackedNode

/-- A block on top of the tip is connected and becomes the tip, or the tip stays. -/
lemma Node.settle_extends_cases (cfg : NodeConfig) (validate : StatefulValidation)
    (bestHash : Option Bytes) (block : Block) (height chainworkTotal : ℕ) (node : Node) :
    (∃ s, SameShape node.session.memory s.memory ∧
      Node.final (settle cfg validate bestHash true block height chainworkTotal) node =
        { node with session := s } ∧
      ∀ reply node', settle cfg validate bestHash true block height chainworkTotal node =
        .ok reply node' → reply ≠ ⟨true, none⟩) ∨
    ∃ node', settle cfg validate bestHash true block height chainworkTotal node =
        .ok ⟨true, none⟩ node' ∧
      SameShape node.session.memory node'.session.memory ∧
      node'.bestHash = some (block.header.hashHex cfg.crypto.toHashlib) ∧ node'.bestHeight = height := by
  have hshape : SameShape node.session.memory
      ((connect cfg.crypto.toHashlib cfg.params.network block).final node.session).memory :=
    OfShape.connect (P := SameShape node.session.memory) (fun _ _ h1 h2 => h2.trans h1)
      cfg.crypto.toHashlib cfg.params.network block node.session (.refl _)
  unfold Db.final at hshape
  simp only [Node.final, settle, if_true, connectAsNewTip, bind_apply, onChain]
  cases hc : connect cfg.crypto.toHashlib cfg.params.network block node.session with
  | error e s =>
    rw [hc] at hshape
    left
    exact ⟨s, hshape, by simp, by simp⟩
  | ok ok s =>
    rw [hc] at hshape
    cases ok with
    | false =>
      left
      exact ⟨s, hshape, by simp [pure_apply], by simp [pure_apply, eq_comm]⟩
    | true =>
      obtain ⟨s', hs', hmem, -⟩ :=
        setBestChainTip_apply (block.header.hashHex cfg.crypto.toHashlib) s
      right
      simp only [Bool.not_true, Bool.false_eq_true, if_false, bind_apply, setBestBlock, modify_apply,
        onChain, hs', pure_apply, if_true]
      refine ⟨_, rfl, ?_, rfl, rfl⟩
      simp only [hmem]
      exact hshape.trans (sameShape_tipped _ _)

namespace TrackedNode

lemma bind_apply {α β : Type} (x : TrackedM α) (f : α → TrackedM β) (t : TrackedNode) :
    (x >>= f) t = match x t with
      | .ok a t' => f a t'
      | .error e t' => .error e t' := by
  simp only [bind, EStateM.bind]
  cases x t <;> rfl

lemma get_apply (t : TrackedNode) : (get : TrackedM TrackedNode) t = .ok t t := rfl

lemma modify_apply (f : TrackedNode → TrackedNode) (t : TrackedNode) :
    (modify f : TrackedM PUnit) t = .ok ⟨⟩ (f t) := rfl

/-- What a block does to the tracked node, by what it does to the node. -/
lemma acceptChild_cases (cfg : NodeConfig) (validate : StatefulValidation) (clock : ℚ)
    (block : Block) (parent : BlockIndexEntry) (t : TrackedNode) :
    ∃ files, (∃ node', t.final (acceptChild cfg validate clock block parent) =
        { t with node := node' } ∧ node'.bestHash = t.node.bestHash ∧
        node'.bestHeight = t.node.bestHeight ∧ node'.session.memory = t.node.session.memory) ∨
      ∃ node₁, Node.refusal cfg validate clock
          (decide (t.node.bestHash = some block.header.prevBlockHash)) block (parent.height + 1)
          t.node.session.data = .ok none ∧
        Node.SameBooks { t.node with files } node₁ ∧
        node₁.session.memory = t.node.session.memory.withBlock
          (block.header.hashHex cfg.crypto.toHashlib) block.header (parent.height + 1)
          (parent.chainwork + ChainWork.calculateBlockWork cfg.params block.header.bits) ∧
        t.final (acceptChild cfg validate clock block parent) =
          match Node.settle cfg validate t.node.bestHash
            (decide (t.node.bestHash = some block.header.prevBlockHash)) block (parent.height + 1)
            (parent.chainwork + ChainWork.calculateBlockWork cfg.params block.header.bits) node₁ with
          | .ok reply node₂ =>
            if reply = ⟨true, none⟩ then
              ({ t with node := node₂ }.cacheHeader (block.header.hashHex cfg.crypto.toHashlib)
                block.header (parent.height + 1)).refreshVersionbitsState
            else { t with node := node₂ }.cacheHeader (block.header.hashHex cfg.crypto.toHashlib)
              block.header (parent.height + 1)
          | .error _ node₂ => { t with node := node₂ }.cacheHeader
              (block.header.hashHex cfg.crypto.toHashlib) block.header (parent.height + 1) := by
  obtain ⟨found, files, hread, -⟩ := @Node.readBlock_apply cfg parent.blockHash t.node
  refine ⟨files, ?_⟩
  have hlook : onNode (Node.onFiles
      (BlockFiles.readBlockByHash cfg.crypto.toHashlib parent.blockHash)) t =
      .ok found { t with node := { t.node with files } } := by
    rw [onNode, hread]
  rw [final, acceptChild, bind_apply, hlook]
  dsimp only
  rw [bind_apply, get_apply]
  dsimp only
  rw [bind_apply, onNode, Node.checkBlock_apply]
  have hdata : ({ t.node with files } : Node).session.data = t.node.session.data := rfl
  dsimp only at hdata ⊢
  rw [hdata]
  cases hrefusal : Node.refusal cfg validate clock
      (decide (t.node.bestHash = some block.header.prevBlockHash)) block (parent.height + 1)
      t.node.session.data with
  | error e =>
    left
    exact ⟨_, rfl, rfl, rfl, rfl⟩
  | ok reason =>
    cases reason with
    | some reason =>
      left
      exact ⟨_, rfl, rfl, rfl, rfl⟩
    | none =>
      obtain ⟨node₁, hbooks, -, hstore⟩ := @Node.storeBlock_cases cfg clock block
        (parent.height + 1)
        (parent.chainwork + ChainWork.calculateBlockWork cfg.params block.header.bits)
        { t.node with files }
      dsimp only
      rcases hstore with ⟨e, hstore, hmem⟩ | ⟨hstore, hmem⟩
      · left
        rw [bind_apply, onNode, hstore]
        exact ⟨node₁, rfl, hbooks.bestHash, hbooks.bestHeight, hmem⟩
      · right
        refine ⟨node₁, rfl, hbooks, hmem, ?_⟩
        rw [bind_apply, onNode, hstore]
        dsimp only
        rw [bind_apply, modify_apply]
        dsimp only
        rw [bind_apply, onNode]
        dsimp only [cacheHeader]
        cases Node.settle cfg validate t.node.bestHash
            (decide (t.node.bestHash = some block.header.prevBlockHash)) block (parent.height + 1)
            (parent.chainwork + ChainWork.calculateBlockWork cfg.params block.header.bits) node₁ with
        | error e node₂ => rfl
        | ok reply node₂ =>
          dsimp only
          split_ifs <;> rfl

/-! The deployments are looked on from outside: the node goes on as it does without them. -/

lemma getHeader_node (height : ℕ) (t : TrackedNode) : (t.getHeader height).2.node = t.node := by
  unfold getHeader
  split <;> rfl

lemma versionsAt_node (heights : List ℕ) (t : TrackedNode) :
    (versionsAt heights t).2.node = t.node := by
  induction heights generalizing t with
  | nil => rfl
  | cons height rest ih =>
    have hread := getHeader_node height t
    rw [versionsAt]
    split
    · rename_i t' heq
      rw [heq] at hread
      exact (ih t').trans hread
    · rename_i header t' heq
      rw [heq] at hread
      exact (ih t').trans hread

lemma refreshVersionbitsState_node (t : TrackedNode) : t.refreshVersionbitsState.node = t.node := by
  have hread := getHeader_node t.node.bestHeight.toNat t
  unfold refreshVersionbitsState
  split_ifs
  · rfl
  · split
    · rename_i t' heq
      rw [heq] at hread
      exact hread
    · rename_i header t' heq
      rw [heq] at hread
      simp only [getRecentHeaderVersions]
      split_ifs
      · exact hread
      · exact (versionsAt_node _ t').trans hread

lemma acceptChild_node (cfg : NodeConfig) (validate : StatefulValidation) (clock : ℚ)
    (block : Block) (parent : BlockIndexEntry) (t : TrackedNode) :
    (t.final (acceptChild cfg validate clock block parent)).node =
      Node.final (Node.acceptChild cfg validate clock block parent) t.node := by
  rw [Node.acceptChild_eq, final, acceptChild, Node.final, bind_apply, Node.bind_apply, onNode]
  cases Node.onFiles (BlockFiles.readBlockByHash cfg.crypto.toHashlib parent.blockHash) t.node with
  | error e node => rfl
  | ok found node =>
    dsimp only
    rw [bind_apply, get_apply, Node.bind_apply, Node.get_apply]
    dsimp only
    rw [bind_apply, Node.bind_apply, onNode]
    dsimp only
    cases Node.checkBlock cfg validate clock
        (decide (node.bestHash = some block.header.prevBlockHash)) block (parent.height + 1)
        node with
    | error e node₁ => rfl
    | ok reason node₁ =>
      cases reason with
      | some reason => rfl
      | none =>
        dsimp only
        rw [bind_apply, Node.bind_apply, onNode]
        dsimp only
        cases Node.storeBlock cfg clock block (parent.height + 1)
            (parent.chainwork + ChainWork.calculateBlockWork cfg.params block.header.bits) node₁ with
        | error e node₂ => rfl
        | ok stored node₂ =>
          dsimp only
          rw [bind_apply, modify_apply]
          dsimp only
          rw [bind_apply, onNode]
          dsimp only [cacheHeader]
          cases Node.settle cfg validate node.bestHash
              (decide (node.bestHash = some block.header.prevBlockHash)) block (parent.height + 1)
              (parent.chainwork + ChainWork.calculateBlockWork cfg.params block.header.bits)
              node₂ with
          | error e node₃ => rfl
          | ok reply node₃ =>
            dsimp only
            split_ifs
            · rw [bind_apply, modify_apply]
              exact refreshVersionbitsState_node _
            · rfl

/-! Runs in which every block that is stored extends the tip. -/

/-- The block extends the tip or is refused by the rules; the headers belong to unknown blocks; and
a further update at the tip changes nothing. -/
def Quiet (cfg : NodeConfig) (t : TrackedNode) : Step → Prop
  | .orphans _ => True
  | .accept clock block parent =>
    t.node.bestHash = some block.header.prevBlockHash ∨
      Node.refusal cfg (Node.validateBlockStateful cfg clock) clock
        (decide (t.node.bestHash = some block.header.prevBlockHash)) block (parent.height + 1)
        t.node.session.data ≠ .ok none
  | .sync _ headers =>
    ∀ parsed, headers.mapM (fun data => BlockHeader.deserialize data 0) = .ok parsed →
      ∀ p ∈ parsed, t.node.session.memory.getBlock (p.1.hashHex cfg.crypto.toHashlib) = none
  | .mining _ =>
    ∀ tip, t.node.activeChain.getLast? = some tip → ∀ d ∈ t.deployments,
      Waiting (t.node.activeChain.length - 1) tip.timestamp.toNat
        (recentVersions t.node.activeChain) d

/-- The deployments have had one update for each block of the active chain. -/
structure Settled (cfg : NodeConfig) (root aboveRoot : Bytes) (chain : List BlockHeader)
    (t : TrackedNode) : Prop where
  consistent : t.node.Consistent cfg.crypto.toHashlib root aboveRoot
  height : t.node.bestHeight + 1 = chain.length
  line : ∃ k, t.node.bestHash = some k ∧ t.node.session.memory.Line k chain
  caches : t.headerChain.Holds t.node.session.memory chain
  states : t.deployments = statesAfter (getDeploymentDefinitions cfg.params.network) chain

namespace Settled
variable {cfg : NodeConfig} {root aboveRoot : Bytes} {chain : List BlockHeader} {t : TrackedNode}

lemma shows_of {chain : List BlockHeader} {t : TrackedNode}
    (hconsistent : t.node.Consistent cfg.crypto.toHashlib root aboveRoot)
    (hheight : t.node.bestHeight + 1 = chain.length) {k : Bytes} (hk : t.node.bestHash = some k)
    (hline : t.node.session.memory.Line k chain)
    (hcaches : t.headerChain.Holds t.node.session.memory chain) : t.Shows chain := by
  refine ⟨hline.ne_nil, hheight, ?_, hcaches⟩
  intro j header hj
  obtain ⟨k', hk', hshown⟩ := hconsistent.best
  rw [hk] at hk'
  cases hk'
  obtain ⟨x, e, hentry, hx, hkey, hheight', hheader⟩ :=
    hline.getBlockByHeight hconsistent.rooted.tree hshown hj
  exact ⟨e, hentry, by rw [hkey]; exact hx, hheight', hheader⟩

lemma shows (h : Settled cfg root aboveRoot chain t) : t.Shows chain := by
  obtain ⟨k, hk, hline⟩ := h.line
  exact shows_of h.consistent h.height hk hline h.caches

lemma mining (h : Settled cfg root aboveRoot chain t)
    (hidle : updateAt t.deployments t.node.activeChain = t.deployments) :
    Settled cfg root aboveRoot chain t.refreshVersionbitsState := by
  rw [h.shows.refreshVersionbitsState, ← h.shows.activeChain, hidle, h.shows.activeChain]
  exact h

lemma orphans (h : Settled cfg root aboveRoot chain t) {o : Orphanage}
    (ho : Node.OrphansAll (fun block => block.header.hashHex cfg.crypto.toHashlib ≠ aboveRoot) o) :
    Settled cfg root aboveRoot chain { t with node := { t.node with orphanage := o } } :=
  ⟨(Node.consistent_allowsOrphans ..).change h.consistent ho, h.height, h.line, h.caches, h.states⟩

lemma sync (h : Settled cfg root aboveRoot chain t) {now : ℕ} {headers : List Bytes}
    (hnew : ∀ parsed, headers.mapM (fun data => BlockHeader.deserialize data 0) = .ok parsed →
      ∀ p ∈ parsed, t.node.session.memory.getBlock (p.1.hashHex cfg.crypto.toHashlib) = none) :
    Settled cfg root aboveRoot chain (t.processHeaders cfg now headers) := by
  have hholds : (BlockSync.processHeaders cfg.crypto.toHashlib cfg.params now
      (t.syncChain cfg.crypto.toHashlib) headers).1.headerChain.Holds t.node.session.memory chain := by
    unfold BlockSync.processHeaders
    split
    · exact h.caches
    · rename_i parsed hparsed
      apply BlockSync.storeHeaders_holds h.consistent.rooted.tree h.height
      · intro header hmem
        obtain ⟨p, hp, rfl⟩ := List.mem_map.1 hmem
        exact hnew parsed hparsed p hp
      · exact h.caches
  refine ⟨⟨⟨h.consistent.rooted, h.consistent.cache, h.consistent.orphans⟩, h.consistent.best⟩,
    h.height, h.line, ?_, h.states⟩
  exact ⟨hholds.heights, hholds.headers⟩

/-- The step lemma for a block. -/
lemma accept (h : Settled cfg root aboveRoot chain t) {clock : ℚ} {block : Block}
    {parent : BlockIndexEntry} (hne : block.header.hashHex cfg.crypto.toHashlib ≠ aboveRoot)
    (hparent : t.node.session.memory.getBlock block.header.prevBlockHash = some parent)
    (hnew : t.node.session.memory.getBlock (block.header.hashHex cfg.crypto.toHashlib) = none)
    (hquiet : Quiet cfg t (.accept clock block parent)) :
    ∃ chain', Settled cfg root aboveRoot chain'
      (t.final (acceptChild cfg (Node.validateBlockStateful cfg clock) clock block parent)) := by
  have hconsistent := @Node.acceptChild_consistent cfg (Node.validateBlockStateful cfg clock) _ _ _
    clock block parent h.consistent hne hparent hnew
  rw [← acceptChild_node] at hconsistent
  obtain ⟨k, hk, hline⟩ := h.line
  obtain ⟨files, hcases⟩ :=
    acceptChild_cases cfg (Node.validateBlockStateful cfg clock) clock block parent t
  rcases hcases with ⟨node', hfinal, hbest, hheight, hmem⟩ | ⟨node₁, hrefusal, hbooks, hmem, hfinal⟩
  · -- the block is not in the index
    refine ⟨chain, ?_⟩
    rw [hfinal] at hconsistent ⊢
    refine ⟨hconsistent, ?_, ⟨k, hbest.trans hk, ?_⟩, ?_, h.states⟩
    · rw [hheight]
      exact h.height
    · rw [hmem]
      exact hline
    · rw [hmem]
      exact ⟨h.caches.heights, h.caches.headers⟩
  · have htip : t.node.bestHash = some block.header.prevBlockHash :=
      hquiet.resolve_right fun hrefused => hrefused hrefusal
    rw [hk] at htip
    have hprev : block.header.prevBlockHash = k := (Option.some.inj htip).symm
    have hlength : parent.height + 1 = chain.length := by
      obtain ⟨e, he, hlength⟩ := hline.tip
      rw [hprev, he] at hparent
      cases hparent
      exact hlength
    have hextends : decide (t.node.bestHash = some block.header.prevBlockHash) = true := by
      simp [hk, hprev]
    have hgrown := hline.withBlock hnew block.header (parent.height + 1)
      (parent.chainwork + ChainWork.calculateBlockWork cfg.params block.header.bits)
    have hcached := h.caches.withBlock (block.header.hashHex cfg.crypto.toHashlib)
      (parent.chainwork + ChainWork.calculateBlockWork cfg.params block.header.bits) hparent hlength
    rw [← hmem] at hgrown hcached
    rw [hextends] at hfinal
    rcases Node.settle_extends_cases cfg (Node.validateBlockStateful cfg clock) t.node.bestHash block
      (parent.height + 1)
      (parent.chainwork + ChainWork.calculateBlockWork cfg.params block.header.bits) node₁ with
      ⟨s, hshape, hsettled, hreply⟩ | ⟨node₂, hsettled, hshape, hbest, hheight⟩
    · -- the block is stored, and the tip stays
      have hsame : t.final (acceptChild cfg (Node.validateBlockStateful cfg clock) clock block
          parent) = { t with node := { node₁ with session := s } }.cacheHeader
            (block.header.hashHex cfg.crypto.toHashlib) block.header (parent.height + 1) := by
        rw [hfinal]
        unfold Node.final at hsettled
        split
        · rename_i reply node₂ hresult
          rw [hresult] at hsettled
          dsimp only at hsettled
          rw [if_neg (hreply reply node₂ hresult), hsettled]
        · rename_i e node₂ hresult
          rw [hresult] at hsettled
          dsimp only at hsettled
          rw [hsettled]
      refine ⟨chain, ?_⟩
      rw [hsame] at hconsistent ⊢
      have hholds := hcached.of_append.sameShape hshape
      refine ⟨hconsistent, ?_, ⟨k, hbooks.bestHash.trans hk, hgrown.sameShape hshape⟩,
        ⟨hholds.heights, hholds.headers⟩, h.states⟩
      have hheight : node₁.bestHeight = t.node.bestHeight := hbooks.bestHeight
      simp only [cacheHeader, hheight]
      exact h.height
    · -- the block is the new tip
      obtain ⟨e, he, hcore⟩ := @withBlock_self t.node.session.memory
        (block.header.hashHex cfg.crypto.toHashlib) block.header (parent.height + 1)
        (parent.chainwork + ChainWork.calculateBlockWork cfg.params block.header.bits) parent hparent
      rw [← hmem] at he
      have hheader : e.header = block.header := congrArg (fun c => c.2.2.1) hcore
      have heHeight : e.height = chain.length := (congrArg (fun c => c.1) hcore).trans hlength
      have hlonger := (hgrown.extend he (by rw [hheader, hprev]) heHeight).sameShape hshape
      rw [hheader] at hlonger
      have hholds := hcached.sameShape hshape
      rw [hfinal, hsettled] at hconsistent ⊢
      simp only [if_true] at hconsistent ⊢
      rw [refreshVersionbitsState_node] at hconsistent
      have hshows := shows_of (t := { t with node := node₂ }.cacheHeader
          (block.header.hashHex cfg.crypto.toHashlib) block.header (parent.height + 1))
        hconsistent (by simp [cacheHeader, hheight, hlength]) hbest hlonger
        ⟨hholds.heights, hholds.headers⟩
      refine ⟨chain ++ [block.header], ?_⟩
      rw [hshows.refreshVersionbitsState]
      refine ⟨hconsistent, hshows.height, ⟨_, hbest, hlonger⟩, hshows.caches, ?_⟩
      rw [statesAfter_concat, ← h.states]
      rfl

end Settled

/-- A node that knows its genesis block only, with the row of its header. -/
structure Fresh (H : Hashlib) (root aboveRoot : Bytes) (node : Node) : Prop extends
    Node.Started H root aboveRoot node where
  height : node.bestHeight = 0
  row : ∀ e, node.session.memory.getBlock root = some e → ∃ row,
    node.session.conn.current.blockHeaders.get? root = some row ∧ row.height = 0 ∧
      row.header = e.header

section runs
variable {cfg : NodeConfig} {root aboveRoot : Bytes} {start : Node}

lemma Fresh.settled (h : Fresh cfg.crypto.toHashlib root aboveRoot start) :
    ∃ chain, Settled cfg root aboveRoot chain (initialized cfg start) := by
  have hconsistent := h.toStarted.consistent (H := cfg.crypto.toHashlib)
  obtain ⟨e, hrows, hhash, hzero, -, -⟩ := h.index
  have honly : ∀ k x, start.session.memory.getBlock k = some x → k = root ∧ x = e := by
    intro k x hx
    rw [BlockIndex.getBlock, KeyedRows.get?, hrows] at hx
    by_cases hk : k = root
    · refine ⟨hk, ?_⟩
      simpa [hk, eq_comm] using hx
    · simp [Ne.symm hk] at hx
  have hroot : start.session.memory.getBlock root = some e := by
    rw [BlockIndex.getBlock, KeyedRows.get?, hrows]
    simp
  have hentry : start.session.memory.getBlockByHeight 0 = some e := by
    rw [BlockIndex.getBlockByHeight, h.heightIndex]
    exact hroot
  obtain ⟨row, hrow, hrowHeight, hheader⟩ := h.row e hroot
  -- the first lookup reads the row and fills the caches
  have hread : TrackedNode.getHeader ⟨start, KeyedRows.empty, KeyedRows.empty,
      getDeploymentDefinitions cfg.params.network⟩ 0 = (some e.header, ⟨start,
        KeyedRows.empty.put 0 e.header, KeyedRows.empty.put root 0,
        getDeploymentDefinitions cfg.params.network⟩) := by
    rw [getHeader, hentry]
    simp only [hhash, CachedHeaders.getHeaderByHash, headerChain, KeyedRows.get?_empty, hrow,
      hrowHeight, hheader, withCaches]
  have hline : start.session.memory.Line root [e.header] := by
    refine ⟨⟨e, hroot, by simp [hzero]⟩, ?_⟩
    intro j header hj
    obtain ⟨rfl, rfl⟩ : j = 0 ∧ e.header = header := by
      simpa [List.getElem?_singleton] using hj
    exact ⟨root, e, hroot, hzero, rfl, .refl⟩
  have hholds : CachedHeaders.Holds ⟨start.session.conn.current.blockHeaders,
      KeyedRows.empty.put 0 e.header, KeyedRows.empty.put root 0⟩ start.session.memory [e.header] := by
    constructor
    · intro k x hx
      obtain ⟨rfl, rfl⟩ := honly k x hx
      simp [hzero]
    · intro j header hj
      obtain ⟨rfl, rfl⟩ : j = 0 ∧ e.header = header := by
        simpa [List.getElem?_singleton] using hj
      simp
  have hshows : Shows ⟨start, KeyedRows.empty.put 0 e.header, KeyedRows.empty.put root 0,
      getDeploymentDefinitions cfg.params.network⟩ [e.header] :=
    Settled.shows_of hconsistent (by simp [h.height]) h.best hline hholds
  refine ⟨[e.header], ?_⟩
  have hrefresh : initialized cfg start = ⟨start, KeyedRows.empty.put 0 e.header,
      KeyedRows.empty.put root 0,
      updateAt (getDeploymentDefinitions cfg.params.network) [e.header]⟩ := by
    have hbest : start.bestHeight.toNat = 0 := by rw [h.height]; rfl
    rw [initialized, refreshVersionbitsState, if_neg (by rw [h.height]; omega), hbest, hread]
    simp only [hshows.getRecentHeaderVersions, updateAt, hbest, List.getLast?_singleton,
      List.length_singleton]
  rw [hrefresh]
  exact ⟨hconsistent, hshows.height, ⟨root, h.best, hline⟩, ⟨hholds.heights, hholds.headers⟩, rfl⟩

lemma Run.settled (h : Fresh cfg.crypto.toHashlib root aboveRoot start) {t : TrackedNode}
    (hrun : Run cfg aboveRoot (Quiet cfg) (initialized cfg start) t) :
    ∃ chain, Settled cfg root aboveRoot chain t := by
  induction hrun with
  | start => exact h.settled
  | step s _ hpossible hquiet ih =>
    obtain ⟨chain, hsettled⟩ := ih
    cases s with
    | orphans o => exact ⟨chain, hsettled.orphans hpossible⟩
    | accept clock block parent =>
      obtain ⟨hne, hparent, hnew⟩ := hpossible
      exact hsettled.accept hne hparent hnew hquiet
    | sync now headers => exact ⟨chain, hsettled.sync hquiet⟩
    | mining baseVersion => exact ⟨chain, hsettled.mining (updateAt_of_waiting hquiet)⟩

/-- Every call of `on_block` passes through states of a run. -/
theorem onBlock_run (h : Fresh cfg.crypto.toHashlib root aboveRoot start) (clock : ℚ) (block : Block)
    (sourcePeer : Option String) (hne : block.header.hashHex cfg.crypto.toHashlib ≠ aboveRoot) :
    Node.Keeps (fun node => ∃ t, Run cfg aboveRoot (fun _ _ => True) (initialized cfg start) t ∧
      t.node = node) (Node.onBlock cfg clock block sourcePeer) := by
  have hconsistent : ∀ t, Run cfg aboveRoot (fun _ _ => True) (initialized cfg start) t →
      t.node.Consistent cfg.crypto.toHashlib root aboveRoot := by
    intro t hrun
    induction hrun with
    | start =>
      rw [initialized, refreshVersionbitsState_node]
      exact h.toStarted.consistent
    | @step t s _ hpossible _ ih =>
      cases s with
      | orphans o => exact (Node.consistent_allowsOrphans ..).change ih hpossible
      | accept clock block parent =>
        obtain ⟨hne, hparent, hnew⟩ := hpossible
        rw [Step.apply, acceptChild_node]
        exact Node.acceptChild_consistent ih hne hparent hnew
      | sync now headers => exact ⟨⟨ih.rooted, ih.cache, ih.orphans⟩, ih.best⟩
      | mining baseVersion =>
        rw [Step.apply, getMiningBlockVersion, refreshVersionbitsState_node]
        exact ih
  have hI : Node.AllowsOrphans (fun block => block.header.hashHex cfg.crypto.toHashlib ≠ aboveRoot)
      (fun node => ∃ t, Run cfg aboveRoot (fun _ _ => True) (initialized cfg start) t ∧
        t.node = node) := by
    constructor
    · intro node hnode
      obtain ⟨t, hrun, rfl⟩ := hnode
      exact (hconsistent t hrun).orphans
    · intro node o hnode ho
      obtain ⟨t, hrun, rfl⟩ := hnode
      exact ⟨_, hrun.step (.orphans o) ho trivial, rfl⟩
  refine hI.onBlock_keeps ?_ hne sourcePeer
  intro node block parent hnode hne hparent hnew
  obtain ⟨t, hrun, rfl⟩ := hnode
  exact ⟨_, hrun.step (.accept clock block parent) ⟨hne, hparent, hnew⟩ trivial,
    acceptChild_node cfg _ clock block parent t⟩

/-- Quiet runs that end with one active chain have their deployments in the same states. -/
theorem deployments_eq_of_activeChain_eq {root' aboveRoot' : Bytes} {start' : Node}
    (h : Fresh cfg.crypto.toHashlib root aboveRoot start)
    (h' : Fresh cfg.crypto.toHashlib root' aboveRoot' start') {t t' : TrackedNode}
    (hrun : Run cfg aboveRoot (Quiet cfg) (initialized cfg start) t)
    (hrun' : Run cfg aboveRoot' (Quiet cfg) (initialized cfg start') t')
    (hchain : t.node.activeChain = t'.node.activeChain) : t.deployments = t'.deployments := by
  obtain ⟨chain, hsettled⟩ := hrun.settled h
  obtain ⟨chain', hsettled'⟩ := hrun'.settled h'
  have hsame : chain = chain' := by
    rw [← hsettled.shows.activeChain, hchain, hsettled'.shows.activeChain]
  rw [hsettled.states, hsettled'.states, hsame]

end runs

/-! Two blocks `blockB` and `blockB2` on genesis, in one run after a block whose time is the timeout of
the deployments. -/
namespace VersionbitsExample
open Node.ReorgExample (genesisEntry blockB blockB2)
open BlockExample (coinbase coinbase1Id blockOn genesisHash)

def lateBlock : Block := blockOn genesisHash coinbase1Id 0x7fffffff 0 [coinbase 1]

def crypto : Script.Crypto :=
  { Node.ReorgExample.crypto with
    toHashlib := Node.ReorgExample.crypto.toHashlib.withDigests [
      (lateBlock.header.serialize,
        0x989a0265ac54d7a6e4568c822e5464c62643c01a86eee0d88776f0054267f55f,
        0x1d2e77b67e2946c47059c158ee9c33195a7f06276a1c1066fc3eca947916f674)] }

def config : NodeConfig := { crypto, params := ConsensusParams.regtest }

def clock : ℚ := 2147483647

def genesisRow : HeaderRow := ⟨0, genesisEntry.header, some 0, true, genesisEntry.status⟩

/-- The node with the row of its genesis header. -/
def startNode : Node :=
  { Node.ReorgExample.start with
    session := { Node.ReorgExample.start.session with
      conn := ⟨{ Node.ReorgExample.tables with
        blockHeaders := KeyedRows.empty.put genesisEntry.blockHash genesisRow }, none⟩ } }

lemma fresh : Fresh crypto.toHashlib genesisEntry.blockHash zeroHash startNode where
  index := ⟨genesisEntry, by decide +kernel, rfl, rfl, by decide +kernel, by decide +kernel⟩
  ne := by decide +kernel
  heightIndex := by decide +kernel
  indexBest := rfl
  best := rfl
  cache := Node.cacheSound_init _ _ _
  orphans := rfl
  height := rfl
  row := by decide +kernel

def accepted (block : Block) (parent : BlockIndexEntry) (t : TrackedNode) : TrackedNode :=
  (Step.accept clock block parent).apply config t

def entryB (t : TrackedNode) : BlockIndexEntry :=
  (t.node.session.memory.getBlock (blockB.header.hashHex crypto.toHashlib)).getD genesisEntry

def direct : TrackedNode := accepted blockB genesisEntry (initialized config startNode)

def forked : TrackedNode :=
  accepted blockB genesisEntry (accepted lateBlock genesisEntry (initialized config startNode))

lemma direct_run : Run config zeroHash (fun _ _ => True) (initialized config startNode) direct :=
  Run.start.step (.accept clock blockB genesisEntry)
    ⟨by decide +kernel, by decide +kernel, by decide +kernel⟩ trivial

lemma forked_run : Run config zeroHash (fun _ _ => True) (initialized config startNode) forked := by
  have hlate : Run config zeroHash (fun _ _ => True) (initialized config startNode)
      (accepted lateBlock genesisEntry (initialized config startNode)) :=
    Run.start.step (.accept clock lateBlock genesisEntry)
      ⟨by decide +kernel, by decide +kernel, by decide +kernel⟩ trivial
  exact hlate.step (.accept clock blockB genesisEntry)
    ⟨by decide +kernel, by decide +kernel, by decide +kernel⟩ trivial

/-- `blockB2` on `blockB`. -/
def withB2 (t : TrackedNode) : TrackedNode := accepted blockB2 (entryB t) t

end VersionbitsExample

open VersionbitsExample in
/-- One of the runs asks for a block version before `blockB`. -/
theorem deployments_eq_of_activeChain_eq_blockB :
    direct.deployments = (accepted Node.ReorgExample.blockB Node.ReorgExample.genesisEntry
      ((initialized config startNode).getMiningBlockVersion 0x20000000).2).deployments := by
  have hdirect : Run config zeroHash (Quiet config) (initialized config startNode) direct :=
    Run.start.step (.accept clock Node.ReorgExample.blockB Node.ReorgExample.genesisEntry)
      ⟨by decide +kernel, by decide +kernel, by decide +kernel⟩ (.inl (by decide +kernel))
  have hmining : Run config zeroHash (Quiet config) (initialized config startNode)
      ((initialized config startNode).getMiningBlockVersion 0x20000000).2 := by
    apply Run.start.step (.mining 0x20000000) trivial
    intro tip htip d hd
    have hchain : (initialized config startNode).node.activeChain =
        [Node.ReorgExample.genesisEntry.header] := by
      decide +kernel
    have hstates : ∀ d ∈ (initialized config startNode).deployments,
        d.state = .STARTED ∧ 2000 ≤ d.timeout := by
      decide +kernel
    rw [hchain] at htip ⊢
    obtain ⟨hstarted, htimeout⟩ := hstates d hd
    have htime : tip.timestamp.toNat = 1000 := by
      cases htip
      rfl
    rw [Waiting, hstarted]
    exact ⟨by omega, .inl (by decide)⟩
  have hasked := hmining.step
    (.accept clock Node.ReorgExample.blockB Node.ReorgExample.genesisEntry)
    ⟨by decide +kernel, by decide +kernel, by decide +kernel⟩ (.inl (by decide +kernel))
  exact deployments_eq_of_activeChain_eq fresh fresh hdirect hasked (by decide +kernel)

open VersionbitsExample in
open Node.ReorgExample (genesisEntry blockB blockB2) in
/-- The two runs end with one active chain, and each deployment has failed in the first and has started
in the second. -/
theorem deployments_keep_disconnected :
    Run config zeroHash (fun _ _ => True) (initialized config startNode) (withB2 forked) ∧
      Run config zeroHash (fun _ _ => True) (initialized config startNode) (withB2 direct) ∧
      (withB2 forked).node.activeChain = (withB2 direct).node.activeChain ∧
      (withB2 direct).node.activeChain = [genesisEntry.header, blockB.header, blockB2.header] ∧
      (∀ d ∈ (withB2 forked).deployments, d.state = .FAILED) ∧
      (∀ d ∈ (withB2 direct).deployments, d.state = .STARTED) ∧
      (withB2 forked).deployments.length = 3 ∧ (withB2 direct).deployments.length = 3 := by
  refine ⟨?_, ?_, ?_⟩
  · exact forked_run.step (.accept clock blockB2 (entryB forked))
      ⟨by decide +kernel, by decide +kernel, by decide +kernel⟩ trivial
  · exact direct_run.step (.accept clock blockB2 (entryB direct))
      ⟨by decide +kernel, by decide +kernel, by decide +kernel⟩ trivial
  · decide +kernel

end TrackedNode
end BerzCoin
