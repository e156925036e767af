import BerzCoin.AppContext
import BerzCoin.ChainReorgReports
import BerzCoin.StorageGrowth

/-! The blocks that a run of `on_block` has stored. The table `transactions` has all their
transactions from then on, whichever branch is active. -/
namespace BerzCoin
open Database BlockIndex ReorgManager

namespace Node
variable {α : Type} {cfg : NodeConfig} {validate : StatefulValidation} {S : Set Bytes}

/-- The transactions that have a row in the database of the node. -/
def known (node : Node) : Set Bytes := node.session.conn.current.known

/-! A reorganisation with the blocks that it reports. -/
section lists
variable (cfg validate)

/-- `tryReorganize` with the disconnected and the connected blocks. -/
def reorganizeTo (bestHash : Option Bytes) (blockHash : Bytes) :
    NodeM (BlockReply × List Block × List Block) := do
  let b ← onChain (BlockIndex.read id)
  match bestHash.bind b.getBlock, b.getBlock blockHash with
  | some currentBest, some candidateBest =>
    let files := (← get).files
    let calls : ReorgCallbacks := ⟨getBlock cfg files, some validate⟩
    if !(← onChain (ReorgManager.canReorganize cfg.crypto.toHashlib calls cfg.maxReorgDepth
        candidateBest currentBest)) then
      return (⟨false, some .reorg_preflight_failed⟩, [], [])
    let b ← onChain (BlockIndex.read id)
    let (ok, disconnected, connected) ← onChain (ReorgManager.reorganize cfg.crypto.toHashlib calls
      cfg.maxReorgDepth (b.current candidateBest) (b.current currentBest))
    if !ok then return (⟨false, some .reorg_failed⟩, [], [])
    setBestBlock candidateBest.blockHash candidateBest.height candidateBest.chainwork
    return (⟨true, none⟩, disconnected, connected)
  | _, _ => return (⟨false, some .reorg_missing_index_entry⟩, [], [])

lemma tryReorganize_eq (bestHash : Option Bytes) (blockHash : Bytes) :
    tryReorganize cfg validate bestHash blockHash =
      (do
        let reply ← reorganizeTo cfg validate bestHash blockHash
        return reply.1) := by
  unfold tryReorganize reorganizeTo
  simp only [bind_assoc]
  refine bind_congr fun b => ?_
  cases bestHash.bind b.getBlock with
  | none => rfl
  | some currentBest =>
    cases b.getBlock blockHash with
    | none => rfl
    | some candidateBest =>
      simp only [bind_assoc]
      refine bind_congr fun node => bind_congr fun ok => ?_
      cases ok with
      | false => rfl
      | true =>
        simp only [Bool.not_true, Bool.false_eq_true, if_false, bind_assoc]
        refine bind_congr fun b' => bind_congr fun r => ?_
        obtain ⟨ok, xs, ys⟩ := r
        cases ok <;> simp

end lists

section known

lemma keepsTables_onChain {P : Tables → Prop} {x : ChainDb α}
    (hx : ∀ s, P s.conn.current → P (x.final s).conn.current) :
    Keeps (fun node => P node.session.conn.current) (onChain x) := by
  intro node h
  rw [final_onChain]
  exact hx node.session h

lemma addBlock_grows {γ : Type} [Preorder γ] {f : Tables → γ} (hf : Tables.Steady f) (H : Hashlib)
    (block : Block) (height chainwork : ℕ) (updateBest : Bool) :
    Grows f (BlockIndex.addBlock H block height chainwork updateBest) := by
  refine .bind (.memory _) fun entry => .bind (.memory _) fun _ => ?_
  refine .bind (.memory _) fun chainwork => ?_
  split
  · exact hf.setBestChainTip _
  · -- A block that is not the new best one is marked as a side chain, in memory only.
    refine .bind (.memory _) fun best => ?_
    cases best with
    | none => exact .ret _
    | some best =>
      simp only
      split
      · exact .ret _
      · exact .memory _

lemma addHeader_grows {γ : Type} [Preorder γ] {f : Tables → γ} (hf : Tables.Steady f) (H : Hashlib)
    (header : BlockHeader) (height chainwork : ℕ) :
    Grows f (HeaderChain.addHeader H header height chainwork : ChainDb Unit) :=
  hf.change (fun _ => rfl) (fun _ => rfl) fun _ => rfl

/-! A property of the tables that no output which comes back can take down is kept after a block
was stored. -/
section tables
variable {P : Tables → Prop} (hP : Tables.Steady P)
include hP

lemma keepsTables_setBestBlock (blockHash : Bytes) (height chainwork : ℕ) :
    Keeps (fun node => P node.session.conn.current) (setBestBlock blockHash height chainwork) :=
  .bind (.change fun _ h => h) fun _ => keepsTables_onChain (hP.setBestChainTip _).le

variable (hadmits : ∀ key, Tables.Admits P key)
include hadmits

lemma keepsTables_reorganizeTo (bestHash : Option Bytes) (blockHash : Bytes) :
    Keeps (fun node => P node.session.conn.current) (reorganizeTo cfg validate bestHash blockHash) := by
  refine .bind (keepsTables_onChain (Grows.memory (f := P) _).le) fun b => ?_
  split
  · refine .bind .look fun node =>
      .bind (keepsTables_onChain fun s => canReorganize_le hP _ _ _ s) fun ok => ?_
    split
    · exact .ret _
    · refine .bind (keepsTables_onChain (Grows.memory (f := P) _).le) fun b' =>
        .bind (keepsTables_onChain fun s hs => (reorganize_keeps hP hs fun _ _ _ => ⟨fun e _ =>
          disconnectStep_yields hP fun _ _ _ _ _ _ _ _ _ _ => hadmits _, fun e _ =>
          connectStep_yields (Q := fun _ => True) hP fun _ block _ _ _ =>
            (connect_yields hP _ fun _ _ _ => hadmits _).weaken fun _ _ _ => trivial⟩).1) fun r => ?_
      obtain ⟨ok, xs, ys⟩ := r
      simp only
      split
      · exact .ret _
      · exact .bind (keepsTables_setBestBlock hP _ _ _) fun _ => .ret _
  · exact .ret _

lemma keepsTables_settle (bestHash : Option Bytes) (extendsTip : Bool) (block : Block)
    (height chainworkTotal : ℕ) :
    Keeps (fun node => P node.session.conn.current)
      (settle cfg validate bestHash extendsTip block height chainworkTotal) := by
  unfold settle
  split
  · refine .bind (.bind (keepsTables_onChain (hP.connect _ _ fun _ _ _ => hadmits _).le)
      fun ok => ?_) fun ok => ?_
    · split
      · exact .ret _
      · exact .bind (keepsTables_setBestBlock hP _ _ _) fun _ => .ret _
    · split <;> exact .ret _
  · refine .bind .look fun node => ?_
    split
    · exact .ret _
    · rw [tryReorganize_eq]
      exact .bind (keepsTables_reorganizeTo hP hadmits _ _) fun _ => .ret _

end tables

/-! The ids with a row are such a property for each set that they contain. -/

lemma keepsKnown_reorganizeTo (bestHash : Option Bytes) (blockHash : Bytes) :
    Keeps (fun node => S ⊆ node.known) (reorganizeTo cfg validate bestHash blockHash) :=
  keepsTables_reorganizeTo (Tables.steady_known.above S)
    (fun key => (Tables.admits_known key).above S) _ _

lemma keepsKnown_settle (bestHash : Option Bytes) (extendsTip : Bool) (block : Block)
    (height chainworkTotal : ℕ) :
    Keeps (fun node => S ⊆ node.known)
      (settle cfg validate bestHash extendsTip block height chainworkTotal) :=
  keepsTables_settle (Tables.steady_known.above S)
    (fun key => (Tables.admits_known key).above S) _ _ _ _ _

/-- Storing a block only adds its own row to `blocks`. -/
lemma keepsTables_storeBlock {P : Tables → Prop} (hP : Tables.Steady P) (clock : ℚ) (block : Block)
    (height chainworkTotal : ℕ)
    (hblocks : ∀ tables row, P tables → P { tables with
      blocks := tables.blocks.insertOrReplace (block.header.hashHex cfg.crypto.toHashlib) row }) :
    Keeps (fun node => P node.session.conn.current)
      (storeBlock cfg clock block height chainworkTotal) := by
  refine .bind ?_ fun _ => .bind (keepsTables_onChain (addBlock_grows hP ..).le) fun _ =>
    keepsTables_onChain (addHeader_grows hP ..).le
  intro node h
  have hgrows := (BlocksStore.writeBlock_grows cfg.crypto.toHashlib hP block height ⌊clock⌋₊
    hblocks).le (BlockFiles.filed cfg.crypto.toHashlib block ⟨node.session.conn, node.files⟩) h
  simp only [final, onFiles, BlockFiles.writeBlock_apply]
  unfold Db.final at hgrows
  cases hwrite : BlocksStore.writeBlock cfg.crypto.toHashlib block height ⌊clock⌋₊
      (BlockFiles.filed cfg.crypto.toHashlib block ⟨node.session.conn, node.files⟩) with
  | error e s =>
    rw [hwrite] at hgrows
    exact hgrows
  | ok u s =>
    rw [hwrite] at hgrows
    exact hgrows

/-- The rows of a stored block come before anything else that can fail. -/
lemma storeBlock_known (clock : ℚ) (block : Block) (height chainworkTotal : ℕ) (node : Node) :
    node.known ⊆ (final (storeBlock cfg clock block height chainworkTotal) node).known ∧
      ∀ node', storeBlock cfg clock block height chainworkTotal node = .ok () node' →
        ∀ tx ∈ block.transactions, tx.txid cfg.crypto.toHashlib ∈ node'.known := by
  refine ⟨keepsTables_storeBlock (Tables.steady_known.above node.known) clock block height
    chainworkTotal (fun _ _ h => h) node (le_refl _), ?_⟩
  intro node' h
  simp only [storeBlock, bind_apply, onFiles] at h
  cases hwrite : BlockFiles.writeBlock cfg.crypto.toHashlib block height ⌊clock⌋₊
      ⟨node.session.conn, node.files⟩ with
  | error e s => simp [hwrite] at h
  | ok u s =>
    obtain ⟨s₁, hrows, rfl⟩ := BlockFiles.writeBlock_ok.1 hwrite
    simp only [hwrite] at h
    have hsteady := Tables.steady_known.above s₁.conn.current.known
    have hkept : Keeps (fun node => s₁.conn.current.known ≤ node.session.conn.current.known) (do
        onChain (BlockIndex.addBlock cfg.crypto.toHashlib block height chainworkTotal false)
        onChain (HeaderChain.addHeader cfg.crypto.toHashlib block.header height chainworkTotal)) :=
      .bind (keepsTables_onChain (P := fun tables => s₁.conn.current.known ≤ tables.known)
          (addBlock_grows hsteady ..).le) fun _ =>
        keepsTables_onChain (P := fun tables => s₁.conn.current.known ≤ tables.known)
          (addHeader_grows hsteady ..).le
    have hlast := hkept { node with
      session := ⟨s₁.conn, node.session.memory⟩
      files := s₁.memory.updateCache (block.header.hashHex cfg.crypto.toHashlib) block } (le_refl _)
    simp only [final, bind_apply, h] at hlast
    exact fun tx htx => hlast (BlocksStore.writeBlock_known hrows tx htx)

/-- Taking up a block loses no row; a block that comes into the index has all its rows, and no other
block comes into it. -/
lemma acceptChild_rows (clock : ℚ) (block : Block) (parent : BlockIndexEntry) (node : Node)
    (hnew : node.session.memory.getBlock (block.header.hashHex cfg.crypto.toHashlib) = none) :
    node.known ⊆ (final (acceptChild cfg validate clock block parent) node).known ∧
      ((final (acceptChild cfg validate clock block parent) node).session.memory.getBlock
          (block.header.hashHex cfg.crypto.toHashlib) ≠ none →
        ∀ tx ∈ block.transactions, tx.txid cfg.crypto.toHashlib ∈
          (final (acceptChild cfg validate clock block parent) node).known) ∧
      ∀ k, (final (acceptChild cfg validate clock block parent) node).session.memory.getBlock k ≠
          none → node.session.memory.getBlock k ≠ none ∨
            k = block.header.hashHex cfg.crypto.toHashlib := by
  obtain ⟨-, files, -, -, happly⟩ := @acceptChild_apply cfg clock block parent node
  unfold final
  rw [happly]
  cases refusal cfg validate clock (decide (node.bestHash = some block.header.prevBlockHash)) block
      (parent.height + 1) node.session.data with
  | error e => exact ⟨subset_refl _, fun h => absurd hnew h, fun k hk => .inl hk⟩
  | ok reason =>
    cases reason with
    | some reason => exact ⟨subset_refl _, fun h => absurd hnew h, fun k hk => .inl hk⟩
    | none =>
      simp only [bind_apply]
      obtain ⟨hkeeps, hrows⟩ := @storeBlock_known cfg clock block (parent.height + 1)
        (parent.chainwork + ChainWork.calculateBlockWork cfg.params block.header.bits)
        { node with files }
      obtain ⟨node₁, -, -, hstore⟩ := @storeBlock_cases cfg clock block (parent.height + 1)
        (parent.chainwork + ChainWork.calculateBlockWork cfg.params block.header.bits)
        { node with files }
      unfold final at hkeeps
      rcases hstore with ⟨err, hstore, hmem⟩ | ⟨hstore, hmem⟩
      · rw [hstore] at hkeeps ⊢
        refine ⟨hkeeps, ?_, ?_⟩
        · intro h
          simp only [hmem] at h
          exact absurd hnew h
        · intro k hk
          simp only [hmem] at hk
          exact .inl hk
      · rw [hstore] at hkeeps ⊢
        have hsettled := @keepsKnown_settle cfg validate node₁.known node.bestHash
          (decide (node.bestHash = some block.header.prevBlockHash)) block (parent.height + 1)
          (parent.chainwork + ChainWork.calculateBlockWork cfg.params block.header.bits) node₁
          (subset_refl _)
        have hshape : OfShape (SameShape node₁.session.memory) := fun b b' h hb => hb.trans h
        have hend : SameShape node₁.session.memory (final (settle cfg validate node.bestHash
            (decide (node.bestHash = some block.header.prevBlockHash)) block (parent.height + 1)
            (parent.chainwork + ChainWork.calculateBlockWork cfg.params block.header.bits))
            node₁).session.memory :=
          hshape.settle _ _ block _ _ node₁ (.refl _)
        refine ⟨hkeeps.trans hsettled, fun _ tx htx => hsettled (hrows node₁ hstore tx htx), ?_⟩
        intro k hk
        by_cases hown : k = block.header.hashHex cfg.crypto.toHashlib
        · exact .inr hown
        · refine .inl ?_
          rw [← withBlock_getBlock node.session.memory _ block.header (parent.height + 1)
            (parent.chainwork + ChainWork.calculateBlockWork cfg.params block.header.bits) k hown]
          simp only at hmem
          rw [← hmem]
          exact fun hnone => hk ((hend.none_iff k).2 hnone)

end known

/-! The states of a run. -/
section reached

/-- The states of `on_block` between taking up one block and the next, also inside one call, with
the blocks that have come into the index, the latest first. Orphans may come and go. -/
inductive Reached (cfg : NodeConfig) (aboveRoot : Bytes) (start : Node) : List Block → Node → Prop
  | start : Reached cfg aboveRoot start [] start
  | orphans {blocks : List Block} {node : Node} (o : Orphanage) :
      Reached cfg aboveRoot start blocks node →
      OrphansAll (fun block => block.header.hashHex cfg.crypto.toHashlib ≠ aboveRoot) o →
      Reached cfg aboveRoot start blocks { node with orphanage := o }
  | refused {blocks : List Block} {node : Node} (clock : ℚ) (block : Block)
      (parent : BlockIndexEntry) :
      Reached cfg aboveRoot start blocks node →
      block.header.hashHex cfg.crypto.toHashlib ≠ aboveRoot →
      node.session.memory.getBlock block.header.prevBlockHash = some parent →
      node.session.memory.getBlock (block.header.hashHex cfg.crypto.toHashlib) = none →
      (final (acceptChild cfg (validateBlockStateful cfg clock) clock block parent)
        node).session.memory.getBlock (block.header.hashHex cfg.crypto.toHashlib) = none →
      Reached cfg aboveRoot start blocks
        (final (acceptChild cfg (validateBlockStateful cfg clock) clock block parent) node)
  | stored {blocks : List Block} {node : Node} (clock : ℚ) (block : Block)
      (parent : BlockIndexEntry) :
      Reached cfg aboveRoot start blocks node →
      block.header.hashHex cfg.crypto.toHashlib ≠ aboveRoot →
      node.session.memory.getBlock block.header.prevBlockHash = some parent →
      node.session.memory.getBlock (block.header.hashHex cfg.crypto.toHashlib) = none →
      (final (acceptChild cfg (validateBlockStateful cfg clock) clock block parent)
        node).session.memory.getBlock (block.header.hashHex cfg.crypto.toHashlib) ≠ none →
      Reached cfg aboveRoot start (block :: blocks)
        (final (acceptChild cfg (validateBlockStateful cfg clock) clock block parent) node)

variable {root aboveRoot : Bytes} {start node : Node} {blocks : List Block}

lemma acceptChild_consistent {clock : ℚ} {block : Block} {parent : BlockIndexEntry}
    (h : Consistent cfg.crypto.toHashlib root aboveRoot node)
    (hne : block.header.hashHex cfg.crypto.toHashlib ≠ aboveRoot)
    (hparent : node.session.memory.getBlock block.header.prevBlockHash = some parent)
    (hnew : node.session.memory.getBlock (block.header.hashHex cfg.crypto.toHashlib) = none) :
    Consistent cfg.crypto.toHashlib root aboveRoot
      (final (acceptChild cfg validate clock block parent) node) :=
  (@acceptChild_same _ validate validate _ _ _ _ _ (fun _ _ _ _ => rfl) h _ hparent hnew hne).2

/-- All transactions of the stored blocks have a row. -/
def AllKnown (H : Hashlib) (blocks : List Block) (node : Node) : Prop :=
  ∀ block ∈ blocks, ∀ tx ∈ block.transactions, tx.txid H ∈ node.known

/-- Every block of the index but its root is one of the stored blocks. -/
def AllStored (H : Hashlib) (root : Bytes) (blocks : List Block) (node : Node) : Prop :=
  ∀ k, node.session.memory.getBlock k ≠ none →
    k = root ∨ ∃ block ∈ blocks, block.header.hashHex H = k

lemma Reached.spec (hstart : Started cfg.crypto.toHashlib root aboveRoot start)
    (h : Reached cfg aboveRoot start blocks node) :
    Consistent cfg.crypto.toHashlib root aboveRoot node ∧
      AllKnown cfg.crypto.toHashlib blocks node ∧
      AllStored cfg.crypto.toHashlib root blocks node := by
  induction h with
  | start =>
    refine ⟨hstart.consistent, fun block hblock => (List.not_mem_nil hblock).elim, ?_⟩
    intro k hk
    obtain ⟨e, hrows, -⟩ := hstart.index
    by_contra hne
    rw [not_or] at hne
    rw [BlockIndex.getBlock, KeyedRows.get?, hrows] at hk
    simp [Ne.symm hne.1] at hk
  | orphans o _ ho ih => exact ⟨(consistent_allowsOrphans ..).change ih.1 ho, ih.2⟩
  | refused clock block parent _ hne hparent hnew hgone ih =>
    obtain ⟨hconsistent, hknown, hstored⟩ := ih
    obtain ⟨hkeeps, -, hindex⟩ := @acceptChild_rows cfg (validateBlockStateful cfg clock) clock block
      parent _ hnew
    refine ⟨acceptChild_consistent hconsistent hne hparent hnew,
      fun b hb tx htx => hkeeps (hknown b hb tx htx), ?_⟩
    intro k hk
    rcases hindex k hk with hold | rfl
    · exact hstored k hold
    · exact absurd hgone hk
  | stored clock block parent _ hne hparent hnew hindexed ih =>
    obtain ⟨hconsistent, hknown, hstored⟩ := ih
    obtain ⟨hkeeps, hrows, hindex⟩ := @acceptChild_rows cfg (validateBlockStateful cfg clock) clock
      block parent _ hnew
    refine ⟨acceptChild_consistent hconsistent hne hparent hnew, List.forall_mem_cons.2
      ⟨hrows hindexed, fun b hb tx htx => hkeeps (hknown b hb tx htx)⟩, ?_⟩
    intro k hk
    rcases hindex k hk with hold | rfl
    · rcases hstored k hold with hroot | ⟨B, hB, hhash⟩
      · exact .inl hroot
      · exact .inr ⟨B, List.mem_cons_of_mem _ hB, hhash⟩
    · exact .inr ⟨block, List.mem_cons_self, rfl⟩

/-- A call of `on_block` passes through such states only. -/
theorem onBlock_reached (hstart : Started cfg.crypto.toHashlib root aboveRoot start) (clock : ℚ) (block : Block)
    (sourcePeer : Option String) (hne : block.header.hashHex cfg.crypto.toHashlib ≠ aboveRoot) :
    Keeps (fun node => ∃ later, Reached cfg aboveRoot start (later ++ blocks) node)
      (onBlock cfg clock block sourcePeer) := by
  have hI : AllowsOrphans (fun block => block.header.hashHex cfg.crypto.toHashlib ≠ aboveRoot)
      (fun node => ∃ later, Reached cfg aboveRoot start (later ++ blocks) node) := by
    refine ⟨?_, ?_⟩
    · rintro node ⟨later, h⟩
      exact (h.spec hstart).1.orphans
    · rintro node o ⟨later, h⟩ ho
      exact ⟨later, h.orphans o ho⟩
  refine hI.onBlock_keeps ?_ hne sourcePeer
  rintro node block parent ⟨later, h⟩ hne hparent hnew
  by_cases hindexed : (final (acceptChild cfg (validateBlockStateful cfg clock) clock block parent)
      node).session.memory.getBlock (block.header.hashHex cfg.crypto.toHashlib) = none
  · exact ⟨later, .refused clock block parent h hne hparent hnew hindexed⟩
  · exact ⟨block :: later, .stored clock block parent h hne hparent hnew hindexed⟩

theorem deliver_reached (hstart : Started cfg.crypto.toHashlib root aboveRoot start) {ds : List Delivery}
    (htree : ∀ d ∈ ds, d.block.header.hashHex cfg.crypto.toHashlib ≠ aboveRoot) :
    ∃ blocks, Reached cfg aboveRoot start blocks
      (deliver (fun d => onBlock cfg d.clock d.block d.sourcePeer) ds start).2 := by
  have hrun := deliver_keeps (I := fun node => ∃ later, Reached cfg aboveRoot start (later ++ []) node)
    (fun d hd => onBlock_reached hstart d.clock d.block d.sourcePeer (htree d hd)) ⟨[], .start⟩
  obtain ⟨later, h⟩ := hrun
  exact ⟨_, h⟩

end reached

/-! A block that moves the active chain to its branch. -/
section reorganized

/-- `on_block` takes up a block beside the best tip and switches to its branch, with the blocks that
are reported. -/
structure Reorganized (cfg : NodeConfig) (clock : ℚ) (block : Block) (node node' : Node)
    (disconnected connected : List Block) : Prop where
  new : node.session.memory.getBlock (block.header.hashHex cfg.crypto.toHashlib) = none
  beside : node.bestHash ≠ some block.header.prevBlockHash
  switched : ∃ parent found files stored,
    node.session.memory.getBlock block.header.prevBlockHash = some parent ∧
      onFiles (BlockFiles.readBlockByHash cfg.crypto.toHashlib parent.blockHash) node =
        .ok found { node with files } ∧
      storeBlock cfg clock block (parent.height + 1)
        (parent.chainwork + ChainWork.calculateBlockWork cfg.params block.header.bits)
        { node with files } = .ok () stored ∧
      reorganizeTo cfg (validateBlockStateful cfg clock) node.bestHash
        (block.header.hashHex cfg.crypto.toHashlib) stored =
          .ok (⟨true, none⟩, disconnected, connected) node'

variable {clock : ℚ} {block : Block} {node node' : Node}
variable {disconnected connected : List Block}

lemma tryReorganize_ok {bestHash : Option Bytes} {blockHash : Bytes} {reply : BlockReply}
    (h : tryReorganize cfg validate bestHash blockHash node = .ok reply node') :
    ∃ disconnected connected, reorganizeTo cfg validate bestHash blockHash node =
      .ok (reply, disconnected, connected) node' := by
  rw [tryReorganize_eq, bind_apply] at h
  cases hre : reorganizeTo cfg validate bestHash blockHash node with
  | error e node₁ => simp [hre] at h
  | ok r node₁ =>
    obtain ⟨reply', xs, ys⟩ := r
    simp only [hre] at h
    cases h
    exact ⟨xs, ys, rfl⟩

/-- Every call that accepts a block beside the best tip as the new one is of this kind. -/
theorem acceptChild_reorganized {parent : BlockIndexEntry}
    (hparent : node.session.memory.getBlock block.header.prevBlockHash = some parent)
    (hnew : node.session.memory.getBlock (block.header.hashHex cfg.crypto.toHashlib) = none)
    (hbeside : node.bestHash ≠ some block.header.prevBlockHash)
    (h : acceptChild cfg (validateBlockStateful cfg clock) clock block parent node =
      .ok ⟨true, none⟩ node') :
    ∃ disconnected connected, Reorganized cfg clock block node node' disconnected connected := by
  obtain ⟨found, files, hread, -, happly⟩ := @acceptChild_apply cfg clock block parent node
  simp only [happly, hbeside, decide_false] at h
  cases hreason : refusal cfg (validateBlockStateful cfg clock) clock false block
      (parent.height + 1) node.session.data with
  | error e => simp [hreason] at h
  | ok reason =>
    cases reason with
    | some reason => simp [hreason] at h
    | none =>
      simp only [hreason, bind_apply] at h
      cases hstore : storeBlock cfg clock block (parent.height + 1)
          (parent.chainwork + ChainWork.calculateBlockWork cfg.params block.header.bits)
          { node with files } with
      | error e stored => simp [hstore] at h
      | ok u stored =>
        simp only [hstore, settle, Bool.false_eq_true, if_false, bind_apply, get_apply] at h
        split_ifs at h
        · cases h
        · obtain ⟨disconnected, connected, hre⟩ := tryReorganize_ok h
          exact ⟨disconnected, connected, hnew, hbeside, parent, found, files, stored, hparent, hread,
            hstore, hre⟩

/-- A block is connected where the new tip is not an ancestor of the best one, and the disconnected
blocks are in the index above its root. -/
lemma reorganizeTo_reports {root aboveRoot k : Bytes}
    (h : Consistent cfg.crypto.toHashlib root aboveRoot node)
    (hside : ∀ best, node.bestHash = some best → ¬ node.session.memory.Descends best k)
    (hre : reorganizeTo cfg validate node.bestHash k node =
      .ok (⟨true, none⟩, disconnected, connected) node') :
    connected ≠ [] ∧ ∀ b ∈ disconnected, ∃ e,
      node.session.memory.getBlock (b.header.hashHex cfg.crypto.toHashlib) = some e ∧
        0 < e.height := by
  obtain ⟨best, hbest, hshown⟩ := h.best
  obtain ⟨e, he, -⟩ := hshown.2
  have hkey := h.rooted.tree.key best e he
  simp only [reorganizeTo, bind_apply, read_apply, id, hbest, Option.bind_some, he] at hre
  cases hnew : node.session.memory.getBlock k with
  | none =>
    simp only [hnew, pure_apply] at hre
    cases hre
  | some newBest =>
    have hkeyNew := h.rooted.tree.key k newBest hnew
    simp only [hnew, bind_apply, get_apply] at hre
    obtain ⟨hshape, -⟩ := canReorganize_bestShown (s := node.session) rfl h.rooted hshown
      cfg.crypto.toHashlib ⟨Node.getBlock cfg node.files, some validate⟩ cfg.maxReorgDepth newBest e
    unfold Db.final at hshape
    simp only [onChain] at hre
    cases hc : canReorganize cfg.crypto.toHashlib ⟨Node.getBlock cfg node.files, some validate⟩
        cfg.maxReorgDepth newBest e node.session with
    | error err s => simp [hc] at hre
    | ok ok s =>
      simp only [hc] at hshape
      cases ok with
      | false =>
        simp only [hc, Bool.not_false, if_true, pure_apply] at hre
        cases hre
      | true =>
        simp only [hc, Bool.not_true, Bool.false_eq_true, if_false, bind_apply, read_apply, id] at hre
        simp only [onChain] at hre
        obtain ⟨hold, holdCore⟩ := current_indexed h.rooted hshape he
        obtain ⟨hnew', hnewCore⟩ := current_indexed h.rooted hshape hnew
        have hhash : (s.memory.current e).blockHash = best :=
          (congrArg (fun c => c.2.1) holdCore).trans hkey
        have hhash' : (s.memory.current newBest).blockHash = k :=
          (congrArg (fun c => c.2.1) hnewCore).trans hkeyNew
        cases hreorg : reorganize cfg.crypto.toHashlib ⟨Node.getBlock cfg node.files, some validate⟩
            cfg.maxReorgDepth (s.memory.current newBest) (s.memory.current e) s with
        | error err s' => simp [hreorg] at hre
        | ok r s' =>
          obtain ⟨ok, xs, ys⟩ := r
          cases ok with
          | false =>
            simp only [hreorg, Bool.not_false, if_true, pure_apply] at hre
            cases hre
          | true =>
            obtain ⟨disconnectEntries, connectEntries, hplan, hxs, hys⟩ := reorganize_reads
              (getBlock_requested (hshape.rooted h.rooted) h.cache) hreorg
            have htree := hshape.treeShaped h.rooted.tree
            have hne := plan_connects htree hnew' hold (by
              rw [hhash, hhash', hshape.descends]
              exact hside best hbest) hplan
            obtain ⟨fork, -, -, -, hpath⟩ := plan_fork htree hnew' hold hplan
            simp only [hreorg, Bool.not_true, Bool.false_eq_true, if_false, bind_apply] at hre
            cases hset : setBestBlock newBest.blockHash newBest.height newBest.chainwork
                { node with session := s' } with
            | error err node₁ => simp [hset] at hre
            | ok u node₁ =>
              simp only [hset] at hre
              cases hre
              refine ⟨?_, ?_⟩
              · rintro rfl
                exact hne (List.map_eq_nil_iff.1 hys.symm)
              · intro b hb
                have hmem : b.header.hashHex cfg.crypto.toHashlib ∈
                    disconnectEntries.map (·.blockHash) := by
                  rw [← hxs]
                  exact List.mem_map_of_mem hb
                obtain ⟨x, hx, hxhash⟩ := List.mem_map.1 hmem
                obtain ⟨hindexed, hheight⟩ := hpath x hx
                obtain ⟨e', he', hcore⟩ := hshape.of_some hindexed
                have hheight' : x.height = e'.height := congrArg (fun c => c.1) hcore
                rw [hxhash] at he'
                exact ⟨e', he', by omega⟩

/-- The new branch is connected, the rows of all blocks stored so far are there, and the disconnected
blocks are among them. -/
lemma Reorganized.spec {root aboveRoot : Bytes} {blocks : List Block}
    (h : Consistent cfg.crypto.toHashlib root aboveRoot node)
    (hne : block.header.hashHex cfg.crypto.toHashlib ≠ aboveRoot)
    (hknown : AllKnown cfg.crypto.toHashlib blocks node)
    (hindexed : AllStored cfg.crypto.toHashlib root blocks node)
    (hre : Reorganized cfg clock block node node' disconnected connected) :
    connected ≠ [] ∧ AllKnown cfg.crypto.toHashlib (block :: blocks) node' ∧
      ∀ b ∈ disconnected, ∃ stored ∈ block :: blocks,
        stored.header.hashHex cfg.crypto.toHashlib = b.header.hashHex cfg.crypto.toHashlib := by
  obtain ⟨hnew, -, parent, found, files, stored, hparent, hread, hstore, hswitch⟩ := hre
  obtain ⟨hkept, hrows⟩ := @storeBlock_known cfg clock block (parent.height + 1)
    (parent.chainwork + ChainWork.calculateBlockWork cfg.params block.header.bits) { node with files }
  have hswitched := @keepsKnown_reorganizeTo cfg (validateBlockStateful cfg clock) stored.known
    node.bestHash (block.header.hashHex cfg.crypto.toHashlib) stored (subset_refl _)
  unfold final at hkept hswitched
  rw [hstore] at hkept
  rw [hswitch] at hswitched
  have hfiles : CacheSound cfg.crypto.toHashlib files := by
    obtain ⟨found', files', hread', hsound⟩ := @readBlock_apply cfg parent.blockHash node
    rw [hread] at hread'
    cases hread'
    exact hsound h.cache
  obtain ⟨node₁, hbooks, hcache, hcases⟩ := @storeBlock_cases cfg clock block (parent.height + 1)
    (parent.chainwork + ChainWork.calculateBlockWork cfg.params block.header.bits) { node with files }
  rcases hcases with ⟨e, herror, -⟩ | ⟨hok, hmem⟩
  · rw [hstore] at herror
    cases herror
  · rw [hstore] at hok
    cases hok
    obtain ⟨hstored, -⟩ := Consistent.stored h hparent hnew hne rfl
      ⟨hbooks.bestHash, hbooks.bestHeight, hbooks.bestChainwork, hbooks.orphanage⟩
      (hcache hfiles) hmem
    have hbest : stored.bestHash = node.bestHash := hbooks.bestHash
    rw [← hbest] at hswitch
    obtain ⟨hconnected, hdisconnected⟩ := reorganizeTo_reports hstored (by
      intro best hk hdesc
      rw [hmem] at hdesc
      obtain ⟨k, hk', -, e, he, -⟩ := h.best
      rw [hbest, hk'] at hk
      cases hk
      have heq := h.rooted.descends_new hnew hne hparent hdesc
      rw [heq, hnew] at he
      cases he) hswitch
    refine ⟨hconnected, List.forall_mem_cons.2 ⟨fun tx htx => hswitched (hrows stored hstore tx htx),
      fun b hb tx htx => hswitched (hkept (hknown b hb tx htx))⟩, ?_⟩
    intro b hb
    obtain ⟨e, he, hheight⟩ := hdisconnected b hb
    by_cases hown : b.header.hashHex cfg.crypto.toHashlib = block.header.hashHex cfg.crypto.toHashlib
    · exact ⟨block, List.mem_cons_self, hown.symm⟩
    · have hold : node.session.memory.getBlock (b.header.hashHex cfg.crypto.toHashlib) = some e := by
        rw [hmem] at he
        rwa [withBlock_getBlock _ _ _ _ _ _ hown] at he
      rcases hindexed (b.header.hashHex cfg.crypto.toHashlib) (by simp [hold]) with
        hroot | ⟨B, hB, hhash⟩
      · obtain ⟨e₀, he₀, hzero, -⟩ := h.rooted.entry
        rw [hroot, he₀] at hold
        cases hold
        omega
      · exact ⟨B, List.mem_cons_of_mem _ hB, hhash⟩

end reorganized
end Node
end BerzCoin
