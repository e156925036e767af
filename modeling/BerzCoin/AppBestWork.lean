import BerzCoin.AppGenesisStart
import BerzCoin.AppLedgerRuns

/-! The chainwork of the best tip in runs of `on_block`. -/
namespace BerzCoin
open Database BlockIndex

namespace Node
variable {cfg : NodeConfig} {validate : StatefulValidation} {clock : ℚ} {node node' : Node}
  {block : Block} {w height chainwork : ℕ} {k : Bytes}

/-- The index holds a block of this height and chainwork. -/
def EntryAt (b : BlockIndex) (k : Bytes) (height chainwork : ℕ) : Prop :=
  ∃ e, b.getBlock k = some e ∧ e.blockHash = k ∧ e.height = height ∧ e.chainwork = chainwork

/-- The height and the chainwork that the node remembers are those of its best tip. -/
def TipWeighed (node : Node) : Prop :=
  ∃ k height, node.bestHash = some k ∧ node.bestHeight = (height : ℕ) ∧
    EntryAt node.session.memory k height node.bestChainwork

/-- A node has it once it is initialised. -/
theorem tipWeighed_initialized {metadataFile : Option GenesisMetadata} {now cacheSize : ℕ}
    {orphanage : Orphanage} {start : Node} (hdigests : cfg.crypto.toHashlib.Digests)
    (horphans : orphanage.orphans.rows = [])
    (h : initializeChainState cfg metadataFile now (fresh cacheSize orphanage) = .ok () start) :
    start.TipWeighed := by
  obtain ⟨header, -, hstarted, -, hheight, hwork⟩ :=
    initializeChainState_started hdigests horphans h
  obtain ⟨e, hrows, hhash, hzero, -⟩ := hstarted.index
  have hentry : start.session.memory.getBlock (header.hashHex cfg.crypto.toHashlib) = some e := by
    rw [BlockIndex.getBlock, KeyedRows.get?, hrows]
    simp
  rw [hentry] at hwork
  exact ⟨_, 0, hstarted.best, hheight, e, hentry, hhash, hzero, Option.some.inj hwork⟩

/-- The best tip is no lighter than a number, and the index holds a certain block. -/
structure Weighed (w : ℕ) (k : Bytes) (height chainwork : ℕ) (node : Node) : Prop where
  tip : node.TipWeighed
  least : w ≤ node.bestChainwork
  entry : EntryAt node.session.memory k height chainwork

lemma EntryAt.shape {b b' : BlockIndex} (h : EntryAt b k height chainwork) (hshape : SameShape b b') :
    EntryAt b' k height chainwork := by
  obtain ⟨e, he, hkey, hheight, hwork⟩ := h
  obtain ⟨e', he', hcore⟩ := hshape.getBlock he
  exact ⟨e', he', (core_blockHash hcore).trans hkey,
    (congrArg (fun c => c.1) hcore).trans hheight,
    (congrArg (fun c => c.2.2.2.1) hcore).trans hwork⟩

/-- Flags do not weigh. -/
lemma Weighed.shape {session : Session Tables BlockIndex} (h : Weighed w k height chainwork node)
    (hshape : SameShape node.session.memory session.memory) :
    Weighed w k height chainwork { node with session } := by
  obtain ⟨⟨tip, tipHeight, hbest, hheight, htip⟩, hleast, hentry⟩ := h
  exact ⟨⟨tip, tipHeight, hbest, hheight, htip.shape hshape⟩, hleast, hentry.shape hshape⟩

lemma ofShape_shape (b : BlockIndex) : OfShape (SameShape b) := fun _ _ h h' => h'.trans h

lemma weighed_chain {α : Type} {x : ChainDb α} (hx : ∀ b, Preserves (SameShape b) x) :
    Keeps (Weighed w k height chainwork) (onChain x) := by
  intro node h
  rw [final_onChain]
  exact h.shape (hx node.session.memory node.session (.refl _))

/-- The block of the index becomes the best tip. -/
lemma weighed_setBestBlock (hle : w ≤ chainwork) :
    Keeps (Weighed w k height chainwork) (setBestBlock k height chainwork) := by
  intro node h
  obtain ⟨s', hs', hmem, -⟩ := setBestChainTip_apply k node.session
  have hshape : SameShape node.session.memory s'.memory := by
    rw [hmem]
    exact sameShape_tipped _ k
  have hentry := h.entry.shape hshape
  simp only [final, setBestBlock, bind_apply, modify_apply, onChain, hs']
  exact ⟨⟨k, height, rfl, rfl, hentry⟩, hle, hentry⟩

lemma weighed_connectAsNewTip (hkey : block.header.hashHex cfg.crypto.toHashlib = k)
    (hle : w ≤ chainwork) :
    Keeps (Weighed w k height chainwork) (connectAsNewTip cfg block height chainwork) := by
  subst hkey
  refine .bind (weighed_chain fun b => (ofShape_shape b).connect _ _ _) fun ok => ?_
  split
  · exact .ret _
  · exact .bind (weighed_setBestBlock hle) fun _ => .ret _

lemma weighed_tryReorganize (hle : w ≤ chainwork) (bestHash : Option Bytes) :
    Keeps (Weighed w k height chainwork) (tryReorganize cfg validate bestHash k) := by
  intro node h
  obtain ⟨e, he, hkey, hheight, hwork⟩ := h.entry
  have hset : Keeps (Weighed w k height chainwork) (setBestBlock e.blockHash e.height e.chainwork) := by
    rw [hkey, hheight, hwork]
    exact weighed_setBestBlock hle
  simp only [final, tryReorganize, bind_apply, read_apply, id, he]
  cases hcurrent : bestHash.bind node.session.memory.getBlock with
  | none => exact h
  | some current =>
    refine Keeps.bind .look (fun looked => .bind (weighed_chain fun b =>
      (ofShape_shape b).canReorganize _ _ _ _ _) fun ok => ?_) node h
    split
    · exact .ret _
    · refine .bind (weighed_chain fun b => read_preserves _) fun b' => .bind (weighed_chain fun b =>
        (ofShape_shape b).reorganize _ _ _ _ _) fun r => ?_
      obtain ⟨ok, xs, ys⟩ := r
      simp only
      split
      · exact .ret _
      · exact .bind hset fun _ => .ret _

/-! What an answer says of the best tip. -/

lemma setBestBlock_work {u : Unit}
    (h : setBestBlock k height chainwork node = .ok u node') : node'.bestChainwork = chainwork := by
  obtain ⟨s', hs', -⟩ := setBestChainTip_apply k node.session
  simp only [setBestBlock, bind_apply, modify_apply, onChain, hs'] at h
  cases h
  rfl

lemma connectAsNewTip_work
    (h : connectAsNewTip cfg block height chainwork node = .ok true node') :
    node'.bestChainwork = chainwork := by
  simp only [connectAsNewTip, bind_apply] at h
  cases hconnect : onChain (connect cfg.crypto.toHashlib cfg.params.network block) node with
  | error e node₁ => simp [hconnect] at h
  | ok ok node₁ =>
    cases ok with
    | false =>
      simp only [hconnect, Bool.not_false, if_true, pure_apply] at h
      cases h
    | true =>
      simp only [hconnect, Bool.not_true, Bool.false_eq_true, if_false, bind_apply] at h
      cases hset : setBestBlock (block.header.hashHex cfg.crypto.toHashlib) height chainwork node₁ with
      | error e node₂ => simp [hset] at h
      | ok u node₂ =>
        simp only [hset, pure_apply] at h
        cases h
        exact setBestBlock_work hset

/-- The candidate is taken from the index before anything is done. -/
lemma tryReorganize_work {reply : BlockReply} {bestHash : Option Bytes} {e : BlockIndexEntry}
    (he : node.session.memory.getBlock k = some e) (haccepted : reply.accepted = true)
    (h : tryReorganize cfg validate bestHash k node = .ok reply node') :
    node'.bestChainwork = e.chainwork := by
  simp only [tryReorganize, bind_apply, read_apply, id, he] at h
  cases hcurrent : bestHash.bind node.session.memory.getBlock with
  | none =>
    simp only [hcurrent, pure_apply] at h
    cases h
    cases haccepted
  | some current =>
    simp only [hcurrent, bind_apply, get_apply] at h
    cases hcan : onChain (ReorgManager.canReorganize cfg.crypto.toHashlib
        ⟨getBlock cfg node.files, some validate⟩ cfg.maxReorgDepth e current) node with
    | error err node₁ => simp [hcan] at h
    | ok ok node₁ =>
      cases ok with
      | false =>
        simp only [hcan, Bool.not_false, if_true, pure_apply] at h
        cases h
        cases haccepted
      | true =>
        simp only [hcan, Bool.not_true, Bool.false_eq_true, if_false, bind_apply, read_apply, id] at h
        cases hre : onChain (ReorgManager.reorganize cfg.crypto.toHashlib
            ⟨getBlock cfg node.files, some validate⟩ cfg.maxReorgDepth
            (node₁.session.memory.current e) (node₁.session.memory.current current)) node₁ with
        | error err node₂ => simp [hre] at h
        | ok r node₂ =>
          obtain ⟨ok, xs, ys⟩ := r
          cases ok with
          | false =>
            simp only [hre, Bool.not_false, if_true, pure_apply] at h
            cases h
            cases haccepted
          | true =>
            simp only [hre, Bool.not_true, Bool.false_eq_true, if_false, bind_apply] at h
            cases hset : setBestBlock e.blockHash e.height e.chainwork node₂ with
            | error err node₃ => simp [hset] at h
            | ok u node₃ =>
              simp only [hset, pure_apply] at h
              cases h
              exact setBestBlock_work hset

/-- After a block was stored the best tip does not get lighter, and where the block is accepted it
is not heavier than the tip. -/
lemma weighed_settle (hkey : block.header.hashHex cfg.crypto.toHashlib = k) {extendsTip : Bool}
    (htip : extendsTip = true → w ≤ chainwork) (bestHash : Option Bytes)
    (h : Weighed w k height chainwork node) :
    Weighed w k height chainwork
        (final (settle cfg validate bestHash extendsTip block height chainwork) node) ∧
      ∀ reply node', settle cfg validate bestHash extendsTip block height chainwork node =
        .ok reply node' → reply.accepted = true → chainwork ≤ node'.bestChainwork := by
  subst hkey
  unfold settle
  by_cases hextends : extendsTip = true
  · rw [if_pos hextends]
    constructor
    · refine Keeps.bind (weighed_connectAsNewTip rfl (htip hextends)) (fun ok => ?_) node h
      split <;> exact .ret _
    · intro reply node' hreply haccepted
      simp only [bind_apply] at hreply
      cases hconnect : connectAsNewTip cfg block height chainwork node with
      | error e node₁ => simp [hconnect] at hreply
      | ok ok node₁ =>
        cases ok with
        | false =>
          simp only [hconnect, Bool.false_eq_true, if_false, pure_apply] at hreply
          cases hreply
          cases haccepted
        | true =>
          simp only [hconnect, if_true, pure_apply] at hreply
          cases hreply
          exact (connectAsNewTip_work hconnect).ge
  · rw [if_neg hextends]
    simp only [final, bind_apply, get_apply]
    split_ifs with hlight
    · refine ⟨h, ?_⟩
      intro reply node' hreply _
      cases hreply
      exact hlight
    · have hle : w ≤ chainwork := h.least.trans (not_le.1 hlight).le
      refine ⟨weighed_tryReorganize hle bestHash node h, ?_⟩
      intro reply node' hreply haccepted
      obtain ⟨e, he, -, -, hwork⟩ := h.entry
      rw [tryReorganize_work he haccepted hreply, hwork]

/-! A block with a known parent, and whole calls. -/

lemma ofShape_entryAt (k : Bytes) (height chainwork : ℕ) : OfShape fun b => EntryAt b k height chainwork :=
  fun _ _ hshape h => h.shape hshape

lemma EntryAt.withBlock {b : BlockIndex} (h : EntryAt b k height chainwork) {hash : Bytes}
    (hnew : b.getBlock hash = none) (header : BlockHeader) (height' chainwork' : ℕ) :
    EntryAt (b.withBlock hash header height' chainwork') k height chainwork := by
  obtain ⟨e, he, hrest⟩ := h
  have hne : k ≠ hash := by
    rintro rfl
    rw [hnew] at he
    cases he
  exact ⟨e, by rw [withBlock_getBlock _ _ _ _ _ _ hne, he], hrest⟩

lemma Weighed.acceptChild (h : Weighed w k height chainwork node) {parent : BlockIndexEntry}
    (hparent : node.session.memory.getBlock block.header.prevBlockHash = some parent)
    (hnew : node.session.memory.getBlock (block.header.hashHex cfg.crypto.toHashlib) = none) :
    Weighed w k height chainwork (final (acceptChild cfg validate clock block parent) node) ∧
      ∀ reply node', acceptChild cfg validate clock block parent node = .ok reply node' →
        reply.accepted = true → ∃ height chainwork,
          Weighed chainwork (block.header.hashHex cfg.crypto.toHashlib) height chainwork node' := by
  obtain ⟨-, files, -, -, happly⟩ := @acceptChild_apply cfg clock block parent node
  obtain ⟨⟨tip, tipHeight, hbest, hbestHeight, htip⟩, hleast, hentry⟩ := h
  simp only [final, happly]
  cases hrefusal : refusal cfg validate clock
      (decide (node.bestHash = some block.header.prevBlockHash)) block (parent.height + 1)
      node.session.data with
  | error e =>
    refine ⟨⟨⟨tip, tipHeight, hbest, hbestHeight, htip⟩, hleast, hentry⟩, ?_⟩
    intro reply node' hreply
    cases hreply
  | ok refused =>
    cases refused with
    | some reason =>
      refine ⟨⟨⟨tip, tipHeight, hbest, hbestHeight, htip⟩, hleast, hentry⟩, ?_⟩
      intro reply node' hreply haccepted
      cases hreply
      cases haccepted
    | none =>
      simp only [bind_apply]
      obtain ⟨chainworkTotal, hwork⟩ : ∃ total, parent.chainwork +
          ChainWork.calculateBlockWork cfg.params block.header.bits = total := ⟨_, rfl⟩
      obtain ⟨node₁, hbooks, -, ⟨e, hstore, hmem⟩ | ⟨hstore, hmem⟩⟩ := @storeBlock_cases cfg clock block
        (parent.height + 1) chainworkTotal { node with files }
      · simp only [hwork, hstore]
        refine ⟨⟨⟨tip, tipHeight, hbooks.bestHash.trans hbest, hbooks.bestHeight.trans hbestHeight, ?_⟩,
          hbooks.bestChainwork ▸ hleast, by rw [hmem]; exact hentry⟩, ?_⟩
        · rw [hmem, hbooks.bestChainwork]
          exact htip
        · intro reply node' hreply
          cases hreply
      · simp only [hwork, hstore]
        have htip₁ : node₁.TipWeighed := by
          refine ⟨tip, tipHeight, hbooks.bestHash.trans hbest, hbooks.bestHeight.trans hbestHeight, ?_⟩
          rw [hmem, hbooks.bestChainwork]
          exact htip.withBlock hnew _ _ _
        have hown : EntryAt node₁.session.memory (block.header.hashHex cfg.crypto.toHashlib)
            (parent.height + 1) chainworkTotal := by
          obtain ⟨entry, hentry', hcore⟩ := @withBlock_self node.session.memory
            (block.header.hashHex cfg.crypto.toHashlib) _ (parent.height + 1) chainworkTotal _ hparent
          rw [hmem]
          exact ⟨entry, hentry', congrArg (fun c => c.2.1) hcore, congrArg (fun c => c.1) hcore,
            congrArg (fun c => c.2.2.2.1) hcore⟩
        -- a block that extends the tip weighs as much as the tip and its own work
        have hextends : decide (node.bestHash = some block.header.prevBlockHash) = true →
            w ≤ chainworkTotal := by
          intro hdecide
          have hprev := of_decide_eq_true hdecide
          obtain ⟨e, he, -, -, hweight⟩ := htip
          rw [hbest, Option.some.injEq] at hprev
          rw [hprev, hparent, Option.some.injEq] at he
          rw [← he] at hweight
          omega
        have hleast₁ : w ≤ node₁.bestChainwork := hbooks.bestChainwork ▸ hleast
        have hkept₁ : EntryAt node₁.session.memory k height chainwork := by
          rw [hmem]
          exact hentry.withBlock hnew _ _ _
        obtain ⟨hafter, hanswer⟩ := @weighed_settle cfg validate node₁ block w (parent.height + 1)
          chainworkTotal _ rfl _ hextends node.bestHash ⟨htip₁, hleast₁, hown⟩
        have hkept := @OfShape.settle cfg validate _ (ofShape_entryAt k height chainwork) node.bestHash
          (decide (node.bestHash = some block.header.prevBlockHash)) block (parent.height + 1)
          chainworkTotal node₁ hkept₁
        refine ⟨⟨hafter.tip, hafter.least, hkept⟩, ?_⟩
        intro reply node' hreply haccepted
        have hle := hanswer reply node' hreply haccepted
        rw [final, hreply] at hafter
        exact ⟨_, _, hafter.tip, hle, hafter.entry⟩

end Node
end BerzCoin
