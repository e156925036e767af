import BerzCoin.AppPipeline

/-! A block that fails after it was stored. The entry that `add_block` made stays in the index, so
the block counts as known from then on. -/
namespace BerzCoin
open Database BlockIndex

/-- The reasons for which a stored block is refused. -/
def BlockReason.afterStore (reason : BlockReason) : Prop :=
  reason = .connect_failed ∨ reason = .reorg_preflight_failed ∨ reason = .reorg_failed

namespace Node
variable {cfg : NodeConfig} {validate : StatefulValidation} {clock : ℚ} {block : Block}
variable {sourcePeer : Option String} {node node' : Node} {reason : BlockReason}

/-- A refused block has not touched its orphans. -/
lemma acceptBlock_of_refused {depth : ℕ}
    (h : onBlockWithin cfg validate clock depth block sourcePeer node =
      .ok ⟨false, some reason⟩ node') :
    acceptBlock cfg validate clock block sourcePeer node = .ok ⟨false, some reason⟩ node' := by
  cases depth with
  | zero => exact h
  | succ depth =>
    simp only [onBlockWithin, bind_apply] at h
    cases haccept : acceptBlock cfg validate clock block sourcePeer node with
    | error e node₁ => simp [haccept] at h
    | ok reply node₁ =>
      simp only [haccept] at h
      by_cases hreply : reply = ⟨true, none⟩
      · simp only [hreply, if_true, bind_apply, get_apply] at h
        split at h
        · simp [pure_apply] at h
        · cases h
      · simp only [hreply, if_false, pure_apply] at h
        cases h
        rfl

/-- The checks before a block is stored have reasons of their own. -/
lemma refusal_reason {extendsTip : Bool} {height : ℕ} {d : Tables × BlockIndex}
    (h : refusal cfg validate clock extendsTip block height d = .ok (some reason)) :
    ¬ reason.afterStore := by
  have hreason : reason = .stateful_validation_failed ∨ reason = .consensus_rule_invalid := by
    unfold refusal at h
    split_ifs at h
    · cases hv : validate block height d with
      | error e => simp [hv] at h
      | ok ok =>
        cases ok with
        | true => simp [hv] at h
        | false =>
          simp only [hv] at h
          cases h
          exact .inl rfl
    · cases hv : ConsensusRules.validateBlock cfg.crypto.toHashlib cfg.params
          (lookupOutputValue d.1) ⌊clock⌋₊ block height with
      | ok u => simp [hv] at h
      | error e =>
        simp only [hv] at h
        cases h
        exact .inr rfl
  rcases hreason with rfl | rfl <;> simp [BlockReason.afterStore]

lemma acceptChild_refused (hreason : reason.afterStore) {parent : BlockIndexEntry}
    (hparent : node.session.memory.getBlock block.header.prevBlockHash = some parent)
    (h : acceptChild cfg validate clock block parent node = .ok ⟨false, some reason⟩ node') :
    ∃ entry, node'.session.memory.getBlock (block.header.hashHex cfg.crypto.toHashlib) = some entry ∧
      entry.header = block.header ∧ entry.height = parent.height + 1 ∧
      entry.isInvalid = parent.isInvalid := by
  obtain ⟨-, files, -, -, happly⟩ := @acceptChild_apply cfg clock block parent node
  rw [happly validate] at h
  cases hrefusal : refusal cfg validate clock
      (decide (node.bestHash = some block.header.prevBlockHash)) block (parent.height + 1)
      node.session.data with
  | error e => simp [hrefusal] at h
  | ok refused =>
    cases refused with
    | some r =>
      simp only [hrefusal] at h
      cases h
      exact absurd hreason (refusal_reason hrefusal)
    | none =>
      simp only [hrefusal] at h
      rw [bind_apply] at h
      obtain ⟨node₁, -, -, hstore⟩ := @storeBlock_cases cfg clock block (parent.height + 1)
          (parent.chainwork + ChainWork.calculateBlockWork cfg.params block.header.bits)
          { node with files }
      rcases hstore with ⟨e, hstore, -⟩ | ⟨hstore, hmem⟩
      · simp [hstore] at h
      · simp only [hstore] at h
        obtain ⟨entry, hentry, hcore⟩ := @withBlock_self node.session.memory
            (block.header.hashHex cfg.crypto.toHashlib) _ (parent.height + 1) (parent.chainwork +
            ChainWork.calculateBlockWork cfg.params block.header.bits) _ hparent
        -- From here on the entry of the block changes in its flags at most.
        have hkeep := @OfShape.settle cfg validate
            (fun b => (b.getBlock (block.header.hashHex cfg.crypto.toHashlib)).map
            BlockIndexEntry.core = some entry.core) (fun b b' hshape hb => (hshape.core _).trans hb)
            node.bestHash (decide (node.bestHash = some block.header.prevBlockHash)) block
            (parent.height + 1)
            (parent.chainwork + ChainWork.calculateBlockWork cfg.params block.header.bits) node₁
            (by simp only [hmem, hentry, Option.map_some])
        rw [final, h] at hkeep
        obtain ⟨entry', hentry', hcore'⟩ := Option.map_eq_some_iff.1 hkeep
        rw [hcore] at hcore'
        simp only [BlockIndexEntry.core, Prod.mk.injEq] at hcore'
        exact ⟨entry', hentry', hcore'.2.2.1, hcore'.1, hcore'.2.2.2.2⟩

/-- A block that is refused after it was stored is in the index, on its parent. -/
lemma acceptBlock_refused (hreason : reason.afterStore)
    (h : acceptBlock cfg validate clock block sourcePeer node = .ok ⟨false, some reason⟩ node') :
    ∃ parent entry, node.session.memory.getBlock block.header.prevBlockHash = some parent ∧
      node'.session.memory.getBlock (block.header.hashHex cfg.crypto.toHashlib) = some entry ∧
      entry.header = block.header ∧ entry.height = parent.height + 1 ∧
      entry.isInvalid = parent.isInvalid := by
  simp only [acceptBlock, bind_apply, read_apply, id] at h
  cases hknown : (node.session.memory.getBlock
      (block.header.hashHex cfg.crypto.toHashlib)).isSome with
  | true => simp [hknown, pure_apply] at h
  | false =>
    simp only [hknown, Bool.false_eq_true, if_false, bind_apply, modify_apply] at h
    cases hparent : node.session.memory.getBlock block.header.prevBlockHash with
    | none =>
      simp only [hparent, bind_apply, modify_apply, pure_apply] at h
      cases h
      rcases hreason with h | h | h <;> cases h
    | some parent =>
      simp only [hparent] at h
      obtain ⟨entry, hentry, hrest⟩ := @acceptChild_refused _ _ _ _
          { node with orphanage := node.orphanage.cleanupExpired clock } _ _ hreason _ hparent h
      exact ⟨parent, entry, rfl, hentry, hrest⟩

/-- A block in the index is known, and nothing is done with it. -/
lemma onBlock_known (cfg : NodeConfig) (clock : ℚ) (block : Block) (sourcePeer : Option String)
    {node : Node} {entry : BlockIndexEntry}
    (h : node.session.memory.getBlock (block.header.hashHex cfg.crypto.toHashlib) = some entry) :
    onBlock cfg clock block sourcePeer node = .ok ⟨true, some .known⟩ node := by
  have haccept : acceptBlock cfg (validateBlockStateful cfg clock) clock block sourcePeer node =
      .ok ⟨true, some .known⟩ node := by
    simp [acceptBlock, bind_apply, read_apply, h, pure_apply]
  simp only [onBlock, bind_apply, get_apply, onBlockWithin, haccept]
  rfl

/-- Whenever a block is refused after it was stored, the next delivery of the same block reports
it as known, and it stays in the index as valid as its parent. -/
theorem refused_block_known (cfg : NodeConfig) (clock clock' : ℚ) (block : Block)
    (sourcePeer sourcePeer' : Option String) (node node' : Node) (reason : BlockReason)
    (hreason : reason.afterStore)
    (h : onBlock cfg clock block sourcePeer node = .ok ⟨false, some reason⟩ node') :
    onBlock cfg clock' block sourcePeer' node' = .ok ⟨true, some .known⟩ node' ∧
      ∃ parent entry, node.session.memory.getBlock block.header.prevBlockHash = some parent ∧
        node'.session.memory.getBlock (block.header.hashHex cfg.crypto.toHashlib) = some entry ∧
        entry.header = block.header ∧ entry.height = parent.height + 1 ∧
        entry.isInvalid = parent.isInvalid := by
  simp only [onBlock, bind_apply, get_apply] at h
  obtain ⟨parent, entry, hparent, hentry, hrest⟩ :=
    acceptBlock_refused hreason (acceptBlock_of_refused h)
  exact ⟨onBlock_known cfg clock' block sourcePeer' hentry, parent, entry, hparent, hentry, hrest⟩

namespace NodeExample

/-- `blockA` is the tip and `blockB` is stored beside it. -/
def forked : Node :=
  final (onBlock config 2000 blockB none) (final (onBlock config 2000 blockA none) start)

def refused : Node := final (onBlock config 2000 blockB2 none) forked

lemma refused_reply : onBlock config 2000 blockB2 none forked =
    .ok ⟨false, some .reorg_preflight_failed⟩ refused := eq_ok_of_returns (by decide +kernel)

end NodeExample

open NodeExample in
theorem refused_block_known_example :
    onBlock config 2000 blockB2 none refused = .ok ⟨true, some .known⟩ refused :=
  (refused_block_known config 2000 2000 blockB2 none none forked refused .reorg_preflight_failed
    (.inr (.inl rfl)) refused_reply).1

open NodeExample in
/-- The branch of `blockB2` does not validate, and the block is a known one when it comes again. -/
theorem refused_block_accepted_again :
    onBlock config 2000 blockB2 none forked = .ok ⟨false, some .reorg_preflight_failed⟩ refused ∧
      returns (onBlock config 2000 blockB2 none) ⟨true, some .known⟩ refused = true ∧
      (refused.session.memory.getBlock (blockB2.header.hashHex crypto.toHashlib)).map
        BlockIndexEntry.isInvalid = some false :=
  ⟨refused_reply, by decide +kernel, by decide +kernel⟩

end Node
end BerzCoin
