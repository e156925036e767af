import BerzCoin.AppRuns

/-! In every run of `on_block` a block is validated while the height index shows its own
ancestors. -/
namespace BerzCoin
open Database BlockIndex ReorgManager

namespace Node

/-- The best tip of the index is shown with its ancestors. -/
def BestShown (b : BlockIndex) (k : Bytes) : Prop :=
  b.bestHash = some k ∧ ∃ e, b.getBlock k = some e ∧ b.Shows k (e.height + 1)

/-- The index is a tree, cached blocks stand under their hash, and no orphan has the hash that the
genesis block names as its parent. -/
structure Grounded (H : Hashlib) (root aboveRoot : Bytes) (node : Node) : Prop where
  rooted : node.session.memory.Rooted root aboveRoot
  cache : CacheSound H node.files
  orphans : ∀ k o, node.orphanage.orphans.get? k = some o → o.block.header.hashHex H ≠ aboveRoot

/-- The best tip of the node is the one of the index, and it is shown. -/
structure Consistent (H : Hashlib) (root aboveRoot : Bytes) (node : Node) : Prop
    extends Grounded H root aboveRoot node where
  best : ∃ k, node.bestHash = some k ∧ BestShown node.session.memory k

section index
variable {b b' : BlockIndex} {root aboveRoot k : Bytes}

lemma bestShown_tipped (hroot : b.Rooted root aboveRoot) (h : SameShape b b') {e : BlockIndexEntry}
    (he : b.getBlock k = some e) : BestShown (b'.tipped k) k := by
  obtain ⟨e', he', -⟩ := h.getBlock he
  obtain ⟨hshows, hbest⟩ := (h.rooted hroot).shows_tipped he'
  obtain ⟨e'', he'', hcore⟩ := (sameShape_tipped b' k).getBlock he'
  have hheight : e''.height = e'.height := congrArg (fun c => c.1) hcore
  exact ⟨hbest, e'', he'', by rw [hheight]; exact hshows⟩

lemma marked_bestHash (b : BlockIndex) (k : Bytes) (isMain : Bool) :
    (b.marked k isMain).bestHash = b.bestHash := by
  unfold marked
  cases b.getBlock k with
  | none => rfl
  | some e =>
    simp only [withMainChain]
    split_ifs <;> rfl

/-- Connecting a block above the best tip leaves the tip shown. -/
lemma connect_bestShown {H : Hashlib} {network : Network} {block : Block} {height : ℕ}
    (hheight : b.getHeight (block.header.hashHex H) = some height) (hbest : BestShown b k)
    (habove : ∀ e, b.getBlock k = some e → e.height < height) (s : Session Tables BlockIndex)
    (hs : s.memory = b) : BestShown ((connect H network block).final s).memory k := by
  have hkeep : Preserves (fun b' => SameShape b b' ∧ b'.bestHash = b.bestHash ∧
      ∀ j < height, b'.heightIndex j = b.heightIndex j) (connect H network block) := by
    refine connect_preserves ?_
    intro b' hb'
    obtain ⟨hshape, hhash, hindex⟩ := hb'
    refine ⟨hshape.trans (sameShape_marked b' _ true), (marked_bestHash ..).trans hhash, ?_⟩
    intro j hj
    rw [marked_heightIndex ((hshape.getHeight _).trans hheight) hj.ne]
    exact hindex j hj
  obtain ⟨hshape, hhash, hindex⟩ := hkeep s (by rw [hs]; exact ⟨.refl b, rfl, fun _ _ => rfl⟩)
  obtain ⟨hk, e, he, hshows⟩ := hbest
  obtain ⟨e', he', hcore⟩ := hshape.getBlock he
  have hheight' : e'.height = e.height := congrArg (fun c => c.1) hcore
  have hlt := habove e he
  refine ⟨hhash.trans hk, e', he', ?_⟩
  rw [hheight']
  exact hshows.transfer hshape fun j hj => hindex j (by omega)

end index

section settle
variable {cfg : NodeConfig} {v v' : StatefulValidation} {root aboveRoot : Bytes} {node : Node}

lemma Grounded.ofShape {session : Session Tables BlockIndex}
    (h : Grounded cfg.crypto.toHashlib root aboveRoot node)
    (hshape : SameShape node.session.memory session.memory) :
    Grounded cfg.crypto.toHashlib root aboveRoot { node with session } :=
  ⟨hshape.rooted h.rooted, h.cache, h.orphans⟩

/-- A block of the index becomes the best tip. -/
lemma setBestBlock_consistent {k : Bytes} {height chainwork : ℕ} {e : BlockIndexEntry}
    (h : Grounded cfg.crypto.toHashlib root aboveRoot node)
    (he : node.session.memory.getBlock k = some e) :
    Consistent cfg.crypto.toHashlib root aboveRoot (final (setBestBlock k height chainwork) node) := by
  obtain ⟨s', hs', hmem, -⟩ := setBestChainTip_apply k node.session
  have hshape : SameShape node.session.memory s'.memory := by
    rw [hmem]
    exact sameShape_tipped _ k
  have hfinal : final (setBestBlock k height chainwork) node = { node with
      session := s', bestHash := some k, bestHeight := height, bestChainwork := chainwork } := by
    simp only [final, setBestBlock, bind_apply, modify_apply, onChain, hs']
  rw [hfinal]
  refine ⟨⟨hshape.rooted h.rooted, h.cache, h.orphans⟩, k, rfl, ?_⟩
  simp only [hmem]
  exact bestShown_tipped h.rooted (.refl _) he

lemma connectAsNewTip_consistent {block : Block} {height chainworkTotal : ℕ}
    (h : Consistent cfg.crypto.toHashlib root aboveRoot node) {entry : BlockIndexEntry}
    (hentry : node.session.memory.getBlock (block.header.hashHex cfg.crypto.toHashlib) = some entry)
    (hheight : entry.height = height)
    (habove : ∀ k e, node.bestHash = some k → node.session.memory.getBlock k = some e →
      e.height < height) :
    Consistent cfg.crypto.toHashlib root aboveRoot
      (final (connectAsNewTip cfg block height chainworkTotal) node) := by
  obtain ⟨k, hk, hbest⟩ := h.best
  have hget : node.session.memory.getHeight (block.header.hashHex cfg.crypto.toHashlib) =
      some height := by simp [getHeight, hentry, hheight]
  have hshown := @connect_bestShown _ _ _ cfg.params.network _ _ hget hbest
      (fun e he => habove k e hk he) node.session rfl
  have hshape : SameShape node.session.memory
      ((connect cfg.crypto.toHashlib cfg.params.network block).final node.session).memory :=
    OfShape.connect (P := SameShape node.session.memory) (fun _ _ h1 h2 => h2.trans h1)
      cfg.crypto.toHashlib cfg.params.network block node.session (.refl _)
  simp only [final, connectAsNewTip, bind_apply, onChain]
  unfold Db.final at hshown hshape
  cases hc : connect cfg.crypto.toHashlib cfg.params.network block node.session with
  | error e s =>
    rw [hc] at hshown hshape
    exact ⟨h.toGrounded.ofShape hshape, k, hk, hshown⟩
  | ok ok s =>
    rw [hc] at hshown hshape
    have hground := h.toGrounded.ofShape hshape
    cases ok with
    | false => exact ⟨hground, k, hk, hshown⟩
    | true =>
      obtain ⟨entry', hentry', -⟩ := hshape.getBlock hentry
      have hset := @setBestBlock_consistent _ _ _ _ _ height chainworkTotal _ hground hentry'
      simp only [Bool.not_true, Bool.false_eq_true, if_false, bind_apply]
      unfold final at hset
      cases hr : setBestBlock (block.header.hashHex cfg.crypto.toHashlib) height chainworkTotal
          { node with session := s } with
      | error e node' =>
        rw [hr] at hset
        exact hset
      | ok u node' =>
        rw [hr] at hset
        exact hset

/-- The blocks that are read for a reorganisation have the hash that was asked for. -/
lemma getBlock_requested {b : BlockIndex} (hroot : b.Rooted root aboveRoot) {files : BlockFiles}
    (hfiles : CacheSound cfg.crypto.toHashlib files) :
    RequestedOver cfg.crypto.toHashlib b (Node.getBlock cfg files) := by
  intro k d block hshape hget
  unfold Node.getBlock at hget
  cases he : d.2.getBlock k with
  | none => simp [he] at hget
  | some e =>
    simp only [he, Except.ok.injEq] at hget
    rw [lookup_hash hfiles hget]
    exact (hshape.rooted hroot).tree.key k e he

lemma current_indexed {b b' : BlockIndex} (hroot : b.Rooted root aboveRoot) (h : SameShape b b')
    {k : Bytes} {e : BlockIndexEntry} (he : b.getBlock k = some e) :
    b'.Indexed (b'.current e) ∧ (b'.current e).core = e.core := by
  have hkey := hroot.tree.key k e he
  obtain ⟨e', he', hcore⟩ := h.getBlock he
  have hcurrent : b'.current e = e' := by simp [BlockIndex.current, hkey, he']
  have hhash : e'.blockHash = e.blockHash := congrArg (fun c => c.2.1) hcore
  rw [hcurrent]
  refine ⟨?_, hcore⟩
  rw [Indexed, hhash, hkey]
  exact he'

lemma BestShown.prepared {b : BlockIndex} (hroot : b.Rooted root aboveRoot) {files : BlockFiles}
    (hfiles : CacheSound cfg.crypto.toHashlib files) {k : Bytes} (hbest : BestShown b k)
    {oldBest newBest : BlockIndexEntry} (hold : b.Indexed oldBest) (hk : oldBest.blockHash = k)
    (hnew : b.Indexed newBest) :
    Prepared cfg.crypto.toHashlib (Node.getBlock cfg files) newBest oldBest b := by
  obtain ⟨-, e, he, hshows⟩ := hbest
  have heq : oldBest = e := by
    rw [Indexed, hk, he] at hold
    exact (Option.some.inj hold).symm
  refine ⟨getBlock_requested hroot hfiles, hroot.tree, hnew, hold, ?_⟩
  rw [hk, heq]
  exact hshows

/-- The index after a dry run. -/
lemma canReorganize_bestShown {b : BlockIndex} {s : Session Tables BlockIndex} (hs : s.memory = b)
    (hroot : b.Rooted root aboveRoot) {k : Bytes} (hbest : BestShown b k) (H : Hashlib)
    (calls : ReorgCallbacks) (depth : ℕ) (newBest oldBest : BlockIndexEntry) :
    SameShape b ((canReorganize H calls depth newBest oldBest).final s).memory ∧
      BestShown ((canReorganize H calls depth newBest oldBest).final s).memory k := by
  subst hs
  rcases @canReorganize_memory H calls s depth newBest oldBest with hmem | ⟨b', hshape, hmem⟩
  · rw [hmem]
    exact ⟨.refl _, hbest⟩
  · obtain ⟨hk, e, he, -⟩ := hbest
    rw [hmem, hk]
    exact ⟨hshape.trans (sameShape_tipped b' k), bestShown_tipped hroot hshape he⟩

/-- Switching to a heavier branch. -/
lemma tryReorganize_same (hagree : AgreeOnBranch cfg.crypto.toHashlib v v')
    (h : Consistent cfg.crypto.toHashlib root aboveRoot node) {blockHash : Bytes} :
    tryReorganize cfg v node.bestHash blockHash node =
        tryReorganize cfg v' node.bestHash blockHash node ∧
      Consistent cfg.crypto.toHashlib root aboveRoot
        (final (tryReorganize cfg v node.bestHash blockHash) node) := by
  obtain ⟨k, hk, hbest⟩ := h.best
  obtain ⟨e, he, -⟩ := hbest.2
  simp only [tryReorganize, final, bind_apply, read_apply, id, hk, Option.bind_some, he]
  cases hnew : node.session.memory.getBlock blockHash with
  | none => exact ⟨rfl, h⟩
  | some newBest =>
    simp only [bind_apply, get_apply]
    have hkey := h.rooted.tree.key k e he
    have hkeyNew := h.rooted.tree.key blockHash newBest hnew
    have hprep : Prepared cfg.crypto.toHashlib (Node.getBlock cfg node.files) newBest e
        node.session.memory :=
      hbest.prepared h.rooted h.cache (by rw [Indexed, hkey]; exact he) hkey
        (by rw [Indexed, hkeyNew]; exact hnew)
    have hcan := @canReorganize_congr _ _ cfg.maxReorgDepth _ _ _ _ _ hprep hagree
    obtain ⟨hshape, hbest₁⟩ := canReorganize_bestShown (s := node.session) rfl h.rooted hbest
      cfg.crypto.toHashlib ⟨Node.getBlock cfg node.files, some v⟩ cfg.maxReorgDepth newBest e
    simp only [onChain, ← hcan]
    unfold Db.final at hshape hbest₁
    cases hc : canReorganize cfg.crypto.toHashlib ⟨Node.getBlock cfg node.files, some v⟩
        cfg.maxReorgDepth newBest e node.session with
    | error err s =>
      rw [hc] at hshape hbest₁
      exact ⟨rfl, h.toGrounded.ofShape hshape, k, hk, hbest₁⟩
    | ok ok s =>
      rw [hc] at hshape hbest₁
      have hground := h.toGrounded.ofShape hshape
      cases ok with
      | false =>
        simp only [Bool.not_false, if_true]
        exact ⟨trivial, hground, k, hk, hbest₁⟩
      | true =>
        simp only [Bool.not_true, Bool.false_eq_true, if_false, bind_apply, read_apply, id]
        obtain ⟨hold, holdCore⟩ := current_indexed h.rooted hshape he
        obtain ⟨hnew', hnewCore⟩ := current_indexed h.rooted hshape hnew
        have hhash : (s.memory.current e).blockHash = k := by
          rw [← hkey]
          exact congrArg (fun c => c.2.1) holdCore
        have hhash' : (s.memory.current newBest).blockHash = newBest.blockHash :=
          congrArg (fun c => c.2.1) hnewCore
        have hprep₁ := hbest₁.prepared hground.rooted h.cache hold hhash hnew'
        have hre := @reorganize_congr _ _ cfg.maxReorgDepth _ _ _ _ _ hprep₁ hagree
        simp only [onChain, ← hre]
        obtain ⟨ok, xs, ys, s', hs', hmem⟩ := @reorganize_memory cfg.crypto.toHashlib
            ⟨Node.getBlock cfg node.files, some v⟩ s cfg.maxReorgDepth (s.memory.current newBest)
            (s.memory.current e)
        simp only [hs']
        cases ok with
        | false =>
          rcases hmem with ⟨-, hmem⟩ | ⟨b', hshape', hmem⟩
          · refine ⟨trivial, h.toGrounded.ofShape (by rw [hmem]; exact hshape), k, hk, ?_⟩
            rw [← hmem] at hbest₁
            exact hbest₁
          · simp only [Bool.false_eq_true, if_false, hhash] at hmem
            obtain ⟨e₁, he₁, -⟩ := hshape.getBlock he
            refine ⟨trivial, h.toGrounded.ofShape ?_, k, hk, ?_⟩
            · rw [hmem]
              exact (hshape.trans hshape').trans (sameShape_tipped b' k)
            · have hshown := bestShown_tipped hground.rooted hshape' he₁
              rw [← hmem] at hshown
              exact hshown
        | true =>
          rcases hmem with ⟨hfalse, -⟩ | ⟨b', hshape', hmem⟩
          · cases hfalse
          · simp only [if_true, hhash'] at hmem
            have hshape₂ : SameShape node.session.memory s'.memory := by
              rw [hmem]
              exact (hshape.trans hshape').trans (sameShape_tipped b' _)
            obtain ⟨e₂, he₂, -⟩ := hshape₂.getBlock hnew
            have hset := @setBestBlock_consistent _ _ _ _ newBest.blockHash newBest.height
                newBest.chainwork _ (h.toGrounded.ofShape hshape₂) (by rw [hkeyNew]; exact he₂)
            simp only [Bool.not_true, Bool.false_eq_true, if_false, bind_apply]
            refine ⟨trivial, ?_⟩
            unfold final at hset
            cases hr : setBestBlock newBest.blockHash newBest.height newBest.chainwork
                { node with session := s' } with
            | error err node' =>
              rw [hr] at hset
              exact hset
            | ok u node' =>
              rw [hr] at hset
              exact hset

lemma settle_same (hagree : AgreeOnBranch cfg.crypto.toHashlib v v')
    (h : Consistent cfg.crypto.toHashlib root aboveRoot node) {block : Block} {extendsTip : Bool}
    {height chainworkTotal : ℕ} {entry : BlockIndexEntry}
    (hentry : node.session.memory.getBlock (block.header.hashHex cfg.crypto.toHashlib) = some entry)
    (hheight : entry.height = height)
    (habove : extendsTip = true → ∀ k e, node.bestHash = some k →
      node.session.memory.getBlock k = some e → e.height < height) :
    settle cfg v node.bestHash extendsTip block height chainworkTotal node =
        settle cfg v' node.bestHash extendsTip block height chainworkTotal node ∧
      Consistent cfg.crypto.toHashlib root aboveRoot
        (final (settle cfg v node.bestHash extendsTip block height chainworkTotal) node) := by
  unfold settle
  cases extendsTip with
  | true =>
    have htip := @connectAsNewTip_consistent _ _ _ _ _ _ chainworkTotal h _ hentry hheight
        (habove rfl)
    simp only [if_true, final, bind_apply, true_and] at htip ⊢
    cases hc : connectAsNewTip cfg block height chainworkTotal node with
    | error e node' =>
      rw [hc] at htip
      exact htip
    | ok ok node' =>
      rw [hc] at htip
      cases ok <;> exact htip
  | false =>
    simp only [Bool.false_eq_true, if_false, final, bind_apply, get_apply]
    split_ifs
    · exact ⟨rfl, h⟩
    · exact tryReorganize_same hagree h

end settle

/-! A block with a known parent. -/
section accept
variable {cfg : NodeConfig} {v v' : StatefulValidation} {root aboveRoot : Bytes}
variable {node : Node} {clock : ℚ} {block : Block}

/-- A new block is validated on the tip when the index shows the branch of the tip. -/
lemma refusal_same (hagree : AgreeOnBranch cfg.crypto.toHashlib v v')
    (h : Consistent cfg.crypto.toHashlib root aboveRoot node) {parent : BlockIndexEntry}
    (hparent : node.session.memory.getBlock block.header.prevBlockHash = some parent)
    (hnew : node.session.memory.getBlock (block.header.hashHex cfg.crypto.toHashlib) = none) :
    refusal cfg v clock (decide (node.bestHash = some block.header.prevBlockHash)) block
        (parent.height + 1) node.session.data =
      refusal cfg v' clock (decide (node.bestHash = some block.header.prevBlockHash)) block
        (parent.height + 1) node.session.data := by
  unfold refusal
  split_ifs with htip
  · have hbest : node.bestHash = some block.header.prevBlockHash := by simpa using htip
    obtain ⟨k, hk, -, e, he, hshows⟩ := h.best
    rw [hk] at hbest
    cases hbest
    rw [hparent] at he
    cases he
    have hown : OwnBranch cfg.crypto.toHashlib block (parent.height + 1) node.session.data.2 := by
      have hparentOf : node.session.memory.parentHashOf cfg.crypto.toHashlib block =
          block.header.prevBlockHash := by simp only [parentHashOf, hnew]
      have hmem : node.session.data.2 = node.session.memory := rfl
      rw [OwnBranch, hmem, hparentOf]
      exact hshows
    rw [hagree block (parent.height + 1) node.session.data hown]
  · rfl

/-- A new block with a known parent goes into the index, and the best tip stays. -/
lemma Consistent.stored {node' : Node} (h : Consistent cfg.crypto.toHashlib root aboveRoot node)
    {parent : BlockIndexEntry} {height chainwork : ℕ}
    (hparent : node.session.memory.getBlock block.header.prevBlockHash = some parent)
    (hnew : node.session.memory.getBlock (block.header.hashHex cfg.crypto.toHashlib) = none)
    (hne : block.header.hashHex cfg.crypto.toHashlib ≠ aboveRoot) (hheight : height = parent.height + 1)
    (hbooks : SameBooks node node') (hcache : CacheSound cfg.crypto.toHashlib node'.files)
    (hmem : node'.session.memory = node.session.memory.withBlock
      (block.header.hashHex cfg.crypto.toHashlib) block.header height chainwork) :
    Consistent cfg.crypto.toHashlib root aboveRoot node' ∧
      ∀ k, node.bestHash = some k →
        node'.session.memory.getBlock k = node.session.memory.getBlock k := by
  subst hheight
  obtain ⟨k, hk, hbestHash, e, he, hshows⟩ := h.best
  have hkne : k ≠ block.header.hashHex cfg.crypto.toHashlib := by
    rintro rfl
    rw [hnew] at he
    cases he
  have hget : node'.session.memory.getBlock k = node.session.memory.getBlock k := by
    rw [hmem, withBlock_getBlock _ _ _ _ _ _ hkne]
  refine ⟨⟨⟨?_, hcache, ?_⟩, k, hbooks.bestHash.trans hk, ?_, e, hget.trans he, ?_⟩, ?_⟩
  · rw [hmem]
    exact h.rooted.withBlock hnew hne hparent
  · rw [hbooks.orphanage]
    exact h.orphans
  · rw [hmem, (withBlock_rest ..).2, hbestHash]
  · rw [hmem]
    exact hshows.withBlock hnew
  · intro k' hk'
    rw [hk] at hk'
    cases hk'
    exact hget

lemma acceptChild_same (hagree : AgreeOnBranch cfg.crypto.toHashlib v v')
    (h : Consistent cfg.crypto.toHashlib root aboveRoot node) {parent : BlockIndexEntry}
    (hparent : node.session.memory.getBlock block.header.prevBlockHash = some parent)
    (hnew : node.session.memory.getBlock (block.header.hashHex cfg.crypto.toHashlib) = none)
    (hne : block.header.hashHex cfg.crypto.toHashlib ≠ aboveRoot) :
    acceptChild cfg v clock block parent node = acceptChild cfg v' clock block parent node ∧
      Consistent cfg.crypto.toHashlib root aboveRoot
        (final (acceptChild cfg v clock block parent) node) := by
  obtain ⟨-, files, -, hsound, happly⟩ := @acceptChild_apply cfg clock block parent node
  have hfiles : Consistent cfg.crypto.toHashlib root aboveRoot { node with files } :=
    ⟨⟨h.rooted, hsound h.cache, h.orphans⟩, h.best⟩
  simp only [final, happly, ← refusal_same hagree h hparent hnew]
  cases refusal cfg v clock (decide (node.bestHash = some block.header.prevBlockHash)) block
      (parent.height + 1) node.session.data with
  | error e => exact ⟨rfl, hfiles⟩
  | ok reason =>
    cases reason with
    | some reason => exact ⟨rfl, hfiles⟩
    | none =>
      simp only [bind_apply]
      obtain ⟨node₁, hbooks, hcache, hstore⟩ := @storeBlock_cases cfg clock block
          (parent.height + 1)
          (parent.chainwork + ChainWork.calculateBlockWork cfg.params block.header.bits)
          { node with files }
      obtain ⟨k, hk, hbestHash, e, he, hshows⟩ := h.best
      have horphans : ∀ j o, node₁.orphanage.orphans.get? j = some o →
          o.block.header.hashHex cfg.crypto.toHashlib ≠ aboveRoot := by
        rw [hbooks.orphanage]
        exact h.orphans
      rcases hstore with ⟨err, hstore, hmem⟩ | ⟨hstore, hmem⟩
      · simp only [hstore]
        refine ⟨trivial, ⟨?_, hcache hfiles.cache, horphans⟩, k, hbooks.bestHash.trans hk, ?_⟩
        · rw [hmem]
          exact h.rooted
        · rw [hmem]
          exact ⟨hbestHash, e, he, hshows⟩
      · simp only [hstore]
        have hmem : node₁.session.memory = node.session.memory.withBlock
            (block.header.hashHex cfg.crypto.toHashlib) block.header (parent.height + 1)
            (parent.chainwork + ChainWork.calculateBlockWork cfg.params block.header.bits) := hmem
        obtain ⟨h₁, hkept⟩ := Consistent.stored h hparent hnew hne rfl
          ⟨hbooks.bestHash, hbooks.bestHeight, hbooks.bestChainwork, hbooks.orphanage⟩
          (hcache hfiles.cache) hmem
        have hget : node₁.session.memory.getBlock k = some e := (hkept k hk).trans he
        obtain ⟨entry, hentry, hcore⟩ := @withBlock_self node.session.memory
            (block.header.hashHex cfg.crypto.toHashlib) _ (parent.height + 1) (parent.chainwork +
            ChainWork.calculateBlockWork cfg.params block.header.bits) _ hparent
        rw [← hmem] at hentry
        have hheight : entry.height = parent.height + 1 := congrArg (fun c => c.1) hcore
        have hbest : node₁.bestHash = node.bestHash := hbooks.bestHash
        have hsettle := @settle_same _ _ _ _ _ _ hagree h₁ _
            (decide (node.bestHash = some block.header.prevBlockHash)) _ (parent.chainwork +
            ChainWork.calculateBlockWork cfg.params block.header.bits) _ hentry hheight (by
            intro htip k' e' hk' he'
            have hprev : node.bestHash = some block.header.prevBlockHash := by simpa using htip
            rw [hbest, hk] at hk'
            cases hk'
            rw [hget] at he'
            cases he'
            rw [hk] at hprev
            cases hprev
            rw [hparent] at he
            cases he
            omega)
        rw [hbest] at hsettle
        exact hsettle

end accept

/-- The orphans may change as long as none has the hash that the genesis block names as its
parent. -/
lemma consistent_allowsOrphans (H : Hashlib) (root aboveRoot : Bytes) :
    AllowsOrphans (fun block => block.header.hashHex H ≠ aboveRoot) (Consistent H root aboveRoot) where
  orphans h := h.orphans
  change h ho := ⟨⟨h.rooted, h.cache, ho⟩, h.best⟩

/-! Runs. -/

/-- A node that knows its genesis block only. -/
structure Started (H : Hashlib) (root aboveRoot : Bytes) (node : Node) : Prop where
  index : ∃ e, node.session.memory.index.rows = [(root, e)] ∧ e.blockHash = root ∧ e.height = 0 ∧
    e.header.prevBlockHash = aboveRoot ∧ e.isInvalid = false
  ne : aboveRoot ≠ root
  heightIndex : node.session.memory.heightIndex 0 = some root
  indexBest : node.session.memory.bestHash = some root
  best : node.bestHash = some root
  cache : CacheSound H node.files
  orphans : node.orphanage.orphans.rows = []

lemma consistent_of_root {H : Hashlib} {root aboveRoot : Bytes} {node : Node}
    (hindex : ∃ e, node.session.memory.index.rows = [(root, e)] ∧ e.blockHash = root ∧ e.height = 0 ∧
      e.header.prevBlockHash = aboveRoot ∧ e.isInvalid = false)
    (hne : aboveRoot ≠ root) (hheight : node.session.memory.heightIndex 0 = some root)
    (hindexBest : node.session.memory.bestHash = some root) (hbest : node.bestHash = some root)
    (hcache : CacheSound H node.files)
    (horphans : ∀ k o, node.orphanage.orphans.get? k = some o → o.block.header.hashHex H ≠ aboveRoot) :
    Consistent H root aboveRoot node := by
  obtain ⟨e, hrows, hhash, hzero, habove, hvalid⟩ := hindex
  have hget : ∀ k, node.session.memory.getBlock k = if k = root then some e else none := by
    intro k
    rw [BlockIndex.getBlock, KeyedRows.get?, hrows]
    by_cases hk : k = root
    · simp [hk]
    · simp [hk, Ne.symm hk]
  have honly : ∀ k x, node.session.memory.getBlock k = some x → k = root ∧ x = e := by
    intro k x hx
    rw [hget] at hx
    split_ifs at hx with hk
    exact ⟨hk, (Option.some.inj hx).symm⟩
  have hroot : node.session.memory.getBlock root = some e := by simp [hget]
  have hnone : node.session.memory.getBlock aboveRoot = none := by simp [hget, hne]
  refine ⟨⟨⟨⟨?_, ?_⟩, ⟨e, hroot, hzero, habove⟩, hnone, ?_, ?_, ?_⟩, hcache, horphans⟩,
    root, hbest, hindexBest, e, hroot, ?_⟩
  · intro k x hx
    obtain ⟨rfl, rfl⟩ := honly k x hx
    exact hhash
  · intro k x p hx hp
    obtain ⟨rfl, rfl⟩ := honly k x hx
    rw [habove, hnone] at hp
    cases hp
  · intro k x hx hk
    exact absurd (honly k x hx).1 hk
  · intro k x hx
    rw [(honly k x hx).2, hzero, hrows]
    simp
  · intro k x hx
    rw [(honly k x hx).2]
    exact hvalid
  · intro k hk
    have hk0 : k = 0 := by omega
    refine ⟨e, ?_, hzero.trans hk0.symm, ?_⟩
    · rw [getBlockByHeight, hk0, hheight]
      exact hroot
    · rw [hhash]
      exact .refl

lemma Started.consistent {H : Hashlib} {root aboveRoot : Bytes} {node : Node}
    (h : Started H root aboveRoot node) : Consistent H root aboveRoot node := by
  refine consistent_of_root h.index h.ne h.heightIndex h.indexBest h.best h.cache ?_
  intro k x hx
  simp [KeyedRows.get?, h.orphans] at hx

/-- Where the branch of a block is shown, the headers and times that are read for it are those of
its ancestors. -/
lemma ownBranch_headers {H : Hashlib} {block : Block} {height : ℕ} {b : BlockIndex}
    (params : ConsensusParams) (h : OwnBranch H block height b) :
    ∃ ancestor : ℕ → BlockIndexEntry,
      (∀ k < height, b.getBlockByHeight k = some (ancestor k) ∧ (ancestor k).height = k ∧
        b.Descends (b.parentHashOf H block) (ancestor k).blockHash) ∧
      (∀ n ≤ height, BlockValidator.headersFrom b (height - n) n =
        some ((List.range' (height - n) n).map fun k => (ancestor k).header)) ∧
      ∃ start, BlockValidator.pastTimes params b height =
        (List.range' start (height - start)).map fun k => (ancestor k).header.timestamp.toNat := by
  obtain ⟨ancestor, hanc⟩ : ∃ ancestor : ℕ → BlockIndexEntry, ∀ k < height,
      b.getBlockByHeight k = some (ancestor k) ∧ (ancestor k).height = k ∧
        b.Descends (b.parentHashOf H block) (ancestor k).blockHash := by
    refine ⟨fun k => (b.getBlockByHeight k).getD ⟨0, [], block.header, 0, ∅⟩, ?_⟩
    intro k hk
    obtain ⟨e, he, hrest⟩ := h k hk
    simp only [he, Option.getD_some]
    exact ⟨trivial, hrest⟩
  refine ⟨ancestor, hanc, ?_, height - max 1 params.limits.medianTimePastWindow, ?_⟩
  · intro n hn
    have hall : ∀ ks : List ℕ, (∀ k ∈ ks, k < height) →
        (ks.mapM fun k => (b.getBlockByHeight k).map BlockIndexEntry.header) =
          some (ks.map fun k => (ancestor k).header) := by
      intro ks hks
      induction ks with
      | nil => rfl
      | cons k ks ih =>
        have hk := (hanc k (hks k (List.mem_cons_self ..))).1
        rw [List.mapM_cons, ih fun x hx => hks x (List.mem_cons_of_mem _ hx), hk]
        rfl
    refine hall _ ?_
    intro k hk
    have hrange := List.mem_range'_1.1 hk
    omega
  · unfold BlockValidator.pastTimes
    simp only
    rw [← List.filterMap_eq_map]
    refine List.filterMap_congr ?_
    intro k hk
    have hrange := List.mem_range'_1.1 hk
    rw [(hanc k (by omega)).1]
    rfl

/-- A run of `on_block` over a tree of blocks does not depend on what validation answers where the
height index does not show, at every height below that of the block, the ancestor of the block:
it is never asked there. Where it is asked, headers and times are read from the ancestors. -/
theorem validation_on_own_branch (cfg : NodeConfig) (root aboveRoot : Bytes) (node : Node)
    (hstart : Started cfg.crypto.toHashlib root aboveRoot node) (deliveries : List Delivery)
    (htree : ∀ d ∈ deliveries, d.block.header.hashHex cfg.crypto.toHashlib ≠ aboveRoot)
    (other : ℚ → StatefulValidation)
    (hagree : ∀ clock, AgreeOnBranch cfg.crypto.toHashlib (validateBlockStateful cfg clock)
      (other clock)) :
    deliver (fun d => onBlock cfg d.clock d.block d.sourcePeer) deliveries node =
        deliver (onBlockBy cfg other) deliveries node ∧
      ∀ block height b, OwnBranch cfg.crypto.toHashlib block height b →
        ∃ ancestor : ℕ → BlockIndexEntry,
          (∀ k < height, b.getBlockByHeight k = some (ancestor k) ∧ (ancestor k).height = k ∧
            b.Descends (b.parentHashOf cfg.crypto.toHashlib block) (ancestor k).blockHash) ∧
          (∀ n ≤ height, BlockValidator.headersFrom b (height - n) n =
            some ((List.range' (height - n) n).map fun k => (ancestor k).header)) ∧
          ∃ start, BlockValidator.pastTimes cfg.params b height =
            (List.range' start (height - start)).map fun k =>
              (ancestor k).header.timestamp.toNat := by
  refine ⟨?_, fun block height b => ownBranch_headers cfg.params⟩
  refine deliver_same (I := Consistent cfg.crypto.toHashlib root aboveRoot) ?_ hstart.consistent
  intro d hd
  refine .bind (.of_keeps .look) fun node => ?_
  refine (consistent_allowsOrphans ..).onBlockWithin_same ?_ _ (htree d hd) d.sourcePeer
  exact fun node block parent h hne hparent hnew => acceptChild_same (hagree d.clock) h hparent hnew hne

namespace NodeExample

open Classical in
/-- Validation that raises where the branch of the block is not shown. -/
noncomputable def guarded (clock : ℚ) : StatefulValidation := fun block height d =>
  if OwnBranch crypto.toHashlib block height d.2 then validateBlockStateful config clock block height d
  else .error (.runtimeError "another branch")

def deliveries : List Delivery := [⟨2000, blockA, none⟩, ⟨2000, blockB, none⟩, ⟨2000, blockB2, none⟩]

lemma start_started : Started crypto.toHashlib genesisEntry.blockHash zeroHash start where
  index := ⟨genesisEntry, by decide +kernel, rfl, rfl, by decide +kernel, by decide +kernel⟩
  ne := by decide +kernel
  heightIndex := by decide +kernel
  indexBest := rfl
  best := rfl
  cache := cacheSound_init _ _ _
  orphans := rfl

end NodeExample

open NodeExample in
theorem validation_on_own_branch_example :
    deliver (fun d => onBlock config d.clock d.block d.sourcePeer) deliveries start =
      deliver (onBlockBy config guarded) deliveries start := by
  refine (validation_on_own_branch config genesisEntry.blockHash zeroHash start start_started
    deliveries (by decide +kernel) guarded ?_).1
  intro clock block height d h
  have hown : OwnBranch crypto.toHashlib block height d.2 := h
  rw [guarded, if_pos hown]

end Node
end BerzCoin
