import BerzCoin.ChainReorgFrame
import BerzCoin.ParentPath

/-! The part of the block index that flags and height index leave alone: which blocks there
are, their parents, heights and work, and whether they are invalid. -/
namespace BerzCoin
open Database

def BlockIndexEntry.core (e : BlockIndexEntry) : ℕ × Bytes × BlockHeader × ℕ × Bool :=
  (e.height, e.blockHash, e.header, e.chainwork, e.isInvalid)

namespace BlockIndex

/-- The entries differ in their flags only, and not in the ones for invalid blocks. -/
structure SameShape (b b' : BlockIndex) : Prop where
  core : ∀ h, (b'.getBlock h).map BlockIndexEntry.core = (b.getBlock h).map BlockIndexEntry.core
  size : b'.index.rows.length = b.index.rows.length

namespace SameShape
variable {b b' b'' : BlockIndex}

lemma refl (b : BlockIndex) : SameShape b b := ⟨fun _ => rfl, rfl⟩

lemma trans (h : SameShape b b') (h' : SameShape b' b'') : SameShape b b'' :=
  ⟨fun k => (h'.core k).trans (h.core k), h'.size.trans h.size⟩

lemma symm (h : SameShape b b') : SameShape b' b := ⟨fun k => (h.core k).symm, h.size.symm⟩

/-- An update of one entry that keeps its core. -/
lemma update {f : BlockIndexEntry → BlockIndexEntry} {k : Bytes}
    (hf : ∀ e, b.getBlock k = some e → (f e).core = e.core) (hb : b'.index = b.index.update k f) :
    SameShape b b' := by
  refine ⟨?_, ?_⟩
  · intro h
    simp only [getBlock, hb, KeyedRows.get?_update]
    split_ifs with hk
    · subst hk
      cases he : b.index.get? h with
      | none => rfl
      | some e => simp [hf e he]
    · rfl
  · rw [hb]
    simp [KeyedRows.update, KeyedRows.updateWhere]

lemma mapValues {f : BlockIndexEntry → BlockIndexEntry} (hf : ∀ e, (f e).core = e.core)
    (hb : b'.index = b.index.mapValues f) : SameShape b b' := by
  refine ⟨?_, ?_⟩
  · intro h
    simp only [getBlock, hb, KeyedRows.get?_mapValues, Option.map_map]
    cases b.index.get? h with
    | none => rfl
    | some e => simp [hf e]
  · rw [hb]
    simp [KeyedRows.mapValues, KeyedRows.updateWhere]

lemma getBlock (h : SameShape b b') {k : Bytes} {e : BlockIndexEntry} (he : b.getBlock k = some e) :
    ∃ e', b'.getBlock k = some e' ∧ e'.core = e.core := by
  have hcore := h.core k
  rw [he] at hcore
  exact Option.map_eq_some_iff.1 hcore

lemma getHeight (h : SameShape b b') (k : Bytes) : b'.getHeight k = b.getHeight k := by
  have hheight (b : BlockIndex) :
      b.getHeight k = ((b.getBlock k).map BlockIndexEntry.core).map Prod.fst := by
    rw [Option.map_map]
    rfl
  rw [hheight, hheight, h.core]

lemma pathFrom (h : SameShape b b') (n : ℕ) (k : Bytes) :
    (b'.pathFrom n k).map BlockIndexEntry.core = (b.pathFrom n k).map BlockIndexEntry.core := by
  induction n generalizing k with
  | zero => rfl
  | succ n ih =>
    have hcore := h.core k
    simp only [BlockIndex.pathFrom]
    cases he : b.getBlock k with
    | none =>
      rw [he, Option.map_none, Option.map_eq_none_iff] at hcore
      rw [hcore]
    | some e =>
      obtain ⟨e', he', hee⟩ := h.getBlock he
      have hprev : e'.header.prevBlockHash = e.header.prevBlockHash := by
        have hheader : e'.header = e.header := congrArg (fun c => c.2.2.1) hee
        rw [hheader]
      rw [he']
      simp only [List.map_cons, hee, hprev, ih]

lemma branch (h : SameShape b b') (k : Bytes) :
    (b'.branch k).map BlockIndexEntry.core = (b.branch k).map BlockIndexEntry.core := by
  rw [BlockIndex.branch, BlockIndex.branch, h.size]
  exact h.pathFrom _ k

lemma isBranchInvalid (h : SameShape b b') (k : Bytes) :
    b'.isBranchInvalid k = b.isBranchInvalid k := by
  have hany (b : BlockIndex) : b.isBranchInvalid k =
      ((b.branch k).map BlockIndexEntry.core).any fun c => c.2.2.2.2 := by
    rw [List.any_map]
    rfl
  rw [hany, hany, h.branch]

end SameShape

lemma core_markedMain (e : BlockIndexEntry) : (markedMain e).core = e.core := by
  simp [markedMain, BlockIndexEntry.core, BlockIndexEntry.setStatus, BlockIndexEntry.clearStatus,
    BlockIndexEntry.isInvalid, BlockIndexEntry.hasStatus]

lemma core_markedSide (e : BlockIndexEntry) : (markedSide e).core = e.core := by
  simp [markedSide, BlockIndexEntry.core, BlockIndexEntry.setStatus, BlockIndexEntry.clearStatus,
    BlockIndexEntry.isInvalid, BlockIndexEntry.hasStatus]

lemma core_rebuildStatus (path : List BlockIndexEntry) (e : BlockIndexEntry) :
    (rebuildStatus path e).core = e.core := by
  unfold rebuildStatus
  split_ifs <;>
    simp [BlockIndexEntry.core, BlockIndexEntry.setStatus, BlockIndexEntry.clearStatus,
      BlockIndexEntry.isInvalid, BlockIndexEntry.hasStatus]

lemma sameShape_marked (b : BlockIndex) (k : Bytes) (isMain : Bool) :
    SameShape b (b.marked k isMain) := by
  unfold marked
  cases b.getBlock k with
  | none => exact .refl b
  | some entry =>
    cases isMain with
    | true => exact .update (fun e _ => core_markedMain e) rfl
    | false => exact .update (fun e _ => core_markedSide e) rfl

/-- Restoring flags that were read from the same entries. -/
lemma sameShape_restoreStatuses {b₀ b : BlockIndex} (h : SameShape b₀ b) (hashes : List Bytes) :
    SameShape b₀ (b.restoreStatuses (b₀.snapshotStatuses hashes)) := by
  induction hashes generalizing b with
  | nil => exact h
  | cons k hashes ih =>
    refine ih (h.trans ?_)
    simp only
    cases hk : b₀.getBlock k with
    | none => exact .refl b
    | some e₀ =>
      refine .update (f := fun e => { e with status := e₀.status }) (k := k) ?_ rfl
      intro e he
      obtain ⟨e', he', hcore⟩ := h.getBlock hk
      rw [he] at he'
      cases he'
      simp only [BlockIndexEntry.core, Prod.mk.injEq, true_and] at hcore ⊢
      exact hcore.2.2.2.2.symm

lemma restoreStatuses_rest (b : BlockIndex) (snapshot : List (Bytes × Option (Finset BlockStatus))) :
    (b.restoreStatuses snapshot).heightIndex = b.heightIndex ∧
      (b.restoreStatuses snapshot).bestHash = b.bestHash ∧
      (b.restoreStatuses snapshot).bestHeight = b.bestHeight := by
  induction snapshot generalizing b with
  | nil => exact ⟨rfl, rfl, rfl⟩
  | cons p snapshot ih =>
    obtain ⟨h1, h2, h3⟩ := ih (b.restoreStatus p)
    obtain ⟨k, _ | status⟩ := p
    · exact ⟨h1, h2, h3⟩
    · exact ⟨h1, h2, h3⟩

/-- What `set_best_chain_tip` does to the index. -/
def tipped (b : BlockIndex) (blockHash : Bytes) : BlockIndex :=
  match b.getBlock blockHash with
  | none => b
  | some tip =>
    if tip.isInvalid || b.isBranchInvalid blockHash then b else b.withBestChainTip tip blockHash

/-- Every block stands under its own hash and one above its parent. -/
structure TreeShaped (b : BlockIndex) : Prop where
  key : ∀ h e, b.getBlock h = some e → e.blockHash = h
  parent : ∀ h e p, b.getBlock h = some e → b.getBlock e.header.prevBlockHash = some p →
    e.height = p.height + 1

/-- The height index and the flags are those of the branch of a block, which is the best tip. -/
structure ActiveTip (b : BlockIndex) (tip : BlockIndexEntry) : Prop where
  entry : b.getBlock tip.blockHash = some tip
  bestHash : b.bestHash = some tip.blockHash
  bestHeight : b.bestHeight = tip.height
  heightIndex : b.heightIndex = chainMap (b.branch tip.blockHash)
  mainChain : ∀ h e, b.getBlock h = some e →
    (e.isMainChain = true ↔ e.blockHash ∈ (b.branch tip.blockHash).map BlockIndexEntry.blockHash)

/-- The rows of the index decide whether it is a tree. -/
lemma treeShaped_of_rows {b : BlockIndex} (hkey : ∀ row ∈ b.index.rows, row.2.blockHash = row.1)
    (hparent : ∀ row ∈ b.index.rows, ∀ p ∈ b.getBlock row.2.header.prevBlockHash,
      row.2.height = p.height + 1) : TreeShaped b where
  key _ _ he := hkey _ (KeyedRows.mem_rows_of_get? he)
  parent _ _ _ he hp := hparent _ (KeyedRows.mem_rows_of_get? he) _ hp

lemma activeTip_of_rows {b : BlockIndex} {tip : BlockIndexEntry}
    (entry : b.getBlock tip.blockHash = some tip) (bestHash : b.bestHash = some tip.blockHash)
    (bestHeight : b.bestHeight = tip.height)
    (heightIndex : b.heightIndex = chainMap (b.branch tip.blockHash))
    (hmain : ∀ row ∈ b.index.rows, (row.2.isMainChain = true ↔
      row.2.blockHash ∈ (b.branch tip.blockHash).map BlockIndexEntry.blockHash)) :
    ActiveTip b tip :=
  { entry, bestHash, bestHeight, heightIndex,
    mainChain := fun _ _ he => hmain _ (KeyedRows.mem_rows_of_get? he) }

lemma chainMap_congr {path path' : List BlockIndexEntry}
    (h : path'.map BlockIndexEntry.core = path.map BlockIndexEntry.core) :
    chainMap path' = chainMap path := by
  have hfold (path : List BlockIndexEntry) (chain : ℕ → Option Bytes) :
      path.foldl (fun (chain : ℕ → Option Bytes) entry =>
          Function.update chain entry.height (some entry.blockHash)) chain =
        (path.map BlockIndexEntry.core).foldl (fun (chain : ℕ → Option Bytes) c =>
          Function.update chain c.1 (some c.2.1)) chain := by
    rw [List.foldl_map]
    rfl
  rw [chainMap, chainMap, hfold, hfold, h]

lemma isMainChain_rebuildStatus (path : List BlockIndexEntry) (e : BlockIndexEntry) :
    (rebuildStatus path e).isMainChain =
      decide (e.blockHash ∈ path.map BlockIndexEntry.blockHash) := by
  unfold rebuildStatus
  split_ifs with h
  · simp only [h, decide_true]
    simp [BlockIndexEntry.isMainChain, BlockIndexEntry.hasStatus, BlockIndexEntry.setStatus,
      BlockIndexEntry.clearStatus]
  · simp only [h, decide_false]
    simp [BlockIndexEntry.isMainChain, BlockIndexEntry.hasStatus, BlockIndexEntry.setStatus,
      BlockIndexEntry.clearStatus]

/-- The best tip, the height index and the flags for the main chain agree. -/
structure SameActive (b b' : BlockIndex) : Prop where
  bestHash : b'.bestHash = b.bestHash
  bestHeight : b'.bestHeight = b.bestHeight
  heightIndex : b'.heightIndex = b.heightIndex
  mainChain : ∀ h, (b'.getBlock h).map BlockIndexEntry.isMainChain =
    (b.getBlock h).map BlockIndexEntry.isMainChain

lemma SameActive.refl (b : BlockIndex) : SameActive b b := ⟨rfl, rfl, rfl, fun _ => rfl⟩

/-- Restoring the flags of some blocks, where the others still have theirs. -/
lemma restoreStatuses_status {b₀ b : BlockIndex} {hashes : List Bytes} (hshape : SameShape b₀ b)
    (hothers : ∀ h ∉ hashes, (b.getBlock h).map BlockIndexEntry.status =
      (b₀.getBlock h).map BlockIndexEntry.status) (h : Bytes) :
    ((b.restoreStatuses (b₀.snapshotStatuses hashes)).getBlock h).map BlockIndexEntry.status =
      (b₀.getBlock h).map BlockIndexEntry.status := by
  induction hashes generalizing b with
  | nil => exact hothers h (List.not_mem_nil)
  | cons k hashes ih =>
    have hstep : SameShape b₀ (b.restoreStatuses (b₀.snapshotStatuses [k])) :=
      sameShape_restoreStatuses hshape [k]
    refine ih (b := b.restoreStatuses (b₀.snapshotStatuses [k])) hstep ?_
    intro h' hh'
    cases hk : b₀.getBlock k with
    | none =>
      have hsame : b.restoreStatuses (b₀.snapshotStatuses [k]) = b := by
        simp [restoreStatuses, snapshotStatuses, restoreStatus, hk]
      rw [hsame]
      by_cases hkh : h' = k
      · subst hkh
        have hcore := hshape.core h'
        rw [hk, Option.map_none, Option.map_eq_none_iff] at hcore
        rw [hcore, hk]
      · exact hothers h' (by simp [hkh, hh'])
    | some e =>
      have hget : (b.restoreStatuses (b₀.snapshotStatuses [k])).getBlock h' =
          if h' = k then (b.getBlock h').map fun x => { x with status := e.status }
          else b.getBlock h' := by
        have hupdate : b.restoreStatuses (b₀.snapshotStatuses [k]) = { b with
            index := b.index.update k fun x => { x with status := e.status } } := by
          simp [restoreStatuses, snapshotStatuses, restoreStatus, hk]
        simp [hupdate, getBlock]
      rw [hget]
      split_ifs with hkh
      · subst hkh
        obtain ⟨e', he', -⟩ := hshape.getBlock hk
        rw [he', hk]
        rfl
      · exact hothers h' (by simp [hkh, hh'])

/-- Once the flags are restored, only the height index can differ. -/
lemma sameActive_restored_iff {b₀ b : BlockIndex} {hashes : List Bytes} (hshape : SameShape b₀ b)
    (hhash : b.bestHash = b₀.bestHash) (hbest : b.bestHeight = b₀.bestHeight)
    (hothers : ∀ h ∉ hashes, (b.getBlock h).map BlockIndexEntry.status =
      (b₀.getBlock h).map BlockIndexEntry.status) :
    SameActive b₀ (b.restoreStatuses (b₀.snapshotStatuses hashes)) ↔
      b.heightIndex = b₀.heightIndex := by
  obtain ⟨hheight', hhash', hbest'⟩ := b.restoreStatuses_rest (b₀.snapshotStatuses hashes)
  constructor
  · intro h
    rw [← hheight']
    exact h.heightIndex
  · intro h
    refine ⟨hhash'.trans hhash, hbest'.trans hbest, hheight'.trans h, ?_⟩
    intro k
    have hmain (b' : BlockIndex) : (b'.getBlock k).map BlockIndexEntry.isMainChain =
        ((b'.getBlock k).map BlockIndexEntry.status).map fun status =>
          decide (BlockStatus.MAIN_CHAIN ∈ status) := by
      rw [Option.map_map]
      rfl
    rw [hmain, hmain b₀, restoreStatuses_status hshape hothers]

/-- Restoring the flags that the entries have. -/
lemma sameActive_restoreStatuses (b : BlockIndex) (hashes : List Bytes) :
    SameActive b (b.restoreStatuses (b.snapshotStatuses hashes)) :=
  (sameActive_restored_iff (.refl b) rfl rfl fun _ _ => rfl).2 rfl

lemma length_pos_of_getBlock {b : BlockIndex} {k : Bytes} {e : BlockIndexEntry} (he : b.getBlock k = some e) :
    ∃ n, b.index.rows.length = n + 1 := by
  refine Nat.exists_eq_succ_of_ne_zero ?_
  intro hzero
  have hnil : b.index.rows = [] := List.eq_nil_of_length_eq_zero hzero
  simp [getBlock, KeyedRows.get?, hnil] at he

lemma isInvalid_of_isBranchInvalid {b : BlockIndex} {k : Bytes} {e : BlockIndexEntry}
    (he : b.getBlock k = some e) (h : b.isBranchInvalid k = false) : e.isInvalid = false := by
  obtain ⟨n, hn⟩ := length_pos_of_getBlock he
  simp only [isBranchInvalid, branch, hn, pathFrom, he, List.any_cons, Bool.or_eq_false_iff] at h
  exact h.1

/-- `set_best_chain_tip` takes the block. -/
def Accepts (b : BlockIndex) (k : Bytes) : Prop := b.getBlock k ≠ none ∧ b.isBranchInvalid k = false

lemma Accepts.tipped {b : BlockIndex} {k : Bytes} (h : b.Accepts k) :
    ∃ tip, b.getBlock k = some tip ∧ b.tipped k = b.withBestChainTip tip k := by
  obtain ⟨tip, htip⟩ := Option.ne_none_iff_exists'.1 h.1
  refine ⟨tip, htip, ?_⟩
  simp [BlockIndex.tipped, htip, h.2, isInvalid_of_isBranchInvalid htip h.2]

lemma tipped_of_not_accepts {b : BlockIndex} {k : Bytes} (h : ¬ b.Accepts k) : b.tipped k = b := by
  unfold tipped
  cases htip : b.getBlock k with
  | none => rfl
  | some tip =>
    have hinvalid : b.isBranchInvalid k = true := by
      by_contra hvalid
      exact h ⟨by simp [htip], by simpa using hvalid⟩
    simp [hinvalid]

lemma SameShape.accepts {b b' : BlockIndex} (h : SameShape b b') (k : Bytes) :
    b'.Accepts k ↔ b.Accepts k := by
  have hnone : b'.getBlock k = none ↔ b.getBlock k = none := by
    rw [← Option.map_eq_none_iff (f := BlockIndexEntry.core), h.core, Option.map_eq_none_iff]
  rw [Accepts, Accepts, h.isBranchInvalid, ne_eq, ne_eq, hnone]

/-- A chosen tip and its chain depend on the shape of the index only. -/
lemma sameActive_tipped_tipped {b b' : BlockIndex} {k : Bytes} (hshape : SameShape b b')
    (h : b.Accepts k) : SameActive (b.tipped k) (b'.tipped k) := by
  obtain ⟨e, he, htip⟩ := h.tipped
  obtain ⟨e', he', htip'⟩ := ((hshape.accepts k).2 h).tipped
  obtain ⟨e'', he'', hcore⟩ := hshape.getBlock he
  rw [he'] at he''
  cases he''
  have hhashes : (b'.branch k).map BlockIndexEntry.blockHash =
      (b.branch k).map BlockIndexEntry.blockHash := by
    have hmap := congrArg (List.map fun c : ℕ × Bytes × BlockHeader × ℕ × Bool => c.2.1)
      (hshape.branch k)
    simpa [BlockIndexEntry.core, Function.comp_def] using hmap
  rw [htip, htip']
  refine ⟨?_, ?_, chainMap_congr (hshape.branch k), ?_⟩
  · exact congrArg (fun c => some c.2.1) hcore
  · exact congrArg (fun c => (c.1 : ℤ)) hcore
  · intro h
    have hget (b : BlockIndex) (tip : BlockIndexEntry) : (b.withBestChainTip tip k).getBlock h =
        (b.getBlock h).map (rebuildStatus (b.branch k)) := by
      simp [withBestChainTip, getBlock]
    rw [hget, hget, Option.map_map, Option.map_map]
    have hmain (path : List BlockIndexEntry) : BlockIndexEntry.isMainChain ∘ rebuildStatus path =
        (fun c : ℕ × Bytes × BlockHeader × ℕ × Bool =>
          decide (c.2.1 ∈ path.map BlockIndexEntry.blockHash)) ∘ BlockIndexEntry.core := by
      funext e
      exact isMainChain_rebuildStatus path e
    rw [hmain, hmain, hhashes, ← Option.map_map, ← Option.map_map, hshape.core]

/-- Choosing the active tip again changes nothing. -/
lemma ActiveTip.sameActive {b : BlockIndex} {tip : BlockIndexEntry} (hactive : ActiveTip b tip)
    (hvalid : b.isBranchInvalid tip.blockHash = false) : SameActive b (b.tipped tip.blockHash) := by
  obtain ⟨e, he, htip⟩ := Accepts.tipped ⟨by simp [hactive.entry], hvalid⟩
  rw [hactive.entry] at he
  cases he
  rw [htip]
  refine ⟨hactive.bestHash.symm, hactive.bestHeight.symm, hactive.heightIndex.symm, ?_⟩
  intro h
  have hget : (b.withBestChainTip tip tip.blockHash).getBlock h =
      (b.getBlock h).map (rebuildStatus (b.branch tip.blockHash)) := by
    simp [withBestChainTip, getBlock]
  rw [hget, Option.map_map]
  cases he : b.getBlock h with
  | none => rfl
  | some e =>
    have hmain := hactive.mainChain h e he
    rw [Option.map_some, Option.map_some, Function.comp_apply, isMainChain_rebuildStatus,
      Option.some.injEq, Bool.eq_iff_iff, decide_eq_true_eq, hmain]

lemma SameActive.trans {b b' b'' : BlockIndex} (h : SameActive b b') (h' : SameActive b' b'') :
    SameActive b b'' :=
  ⟨h'.bestHash.trans h.bestHash, h'.bestHeight.trans h.bestHeight,
    h'.heightIndex.trans h.heightIndex, fun k => (h'.mainChain k).trans (h.mainChain k)⟩

lemma SameActive.symm {b b' : BlockIndex} (h : SameActive b b') : SameActive b' b :=
  ⟨h.bestHash.symm, h.bestHeight.symm, h.heightIndex.symm, fun k => (h.mainChain k).symm⟩

/-- Choosing the old tip again restores its chain, if its branch is valid. -/
lemma sameActive_tipped {b₀ b : BlockIndex} {tip : BlockIndexEntry} (hshape : SameShape b₀ b)
    (hactive : ActiveTip b₀ tip) (hvalid : b₀.isBranchInvalid tip.blockHash = false) :
    SameActive b₀ (b.tipped tip.blockHash) :=
  (hactive.sameActive hvalid).trans
    (sameActive_tipped_tipped hshape ⟨by simp [hactive.entry], hvalid⟩)

/-- If choosing the best tip again changes nothing, it is the active one. -/
lemma activeTip_of_sameActive {b : BlockIndex} {k : Bytes} (htree : TreeShaped b) (h : b.Accepts k)
    (hsame : SameActive b (b.tipped k)) : ∃ tip, ActiveTip b tip ∧ tip.blockHash = k := by
  obtain ⟨tip, htip, heq⟩ := h.tipped
  have hkey := htree.key k tip htip
  rw [heq] at hsame
  refine ⟨tip, ⟨by rw [hkey]; exact htip, hsame.bestHash.symm, hsame.bestHeight.symm, ?_, ?_⟩, hkey⟩
  · rw [hkey]
    exact hsame.heightIndex.symm
  · intro h' e he
    have hmain := hsame.mainChain h'
    have hget : (b.withBestChainTip tip k).getBlock h' =
        (b.getBlock h').map (rebuildStatus (b.branch k)) := by
      simp [withBestChainTip, getBlock]
    rw [hget, he, Option.map_some, Option.map_some, Option.map_some, isMainChain_rebuildStatus,
      Option.some.injEq] at hmain
    rw [hkey, ← hmain, decide_eq_true_eq]

/-! Walking up the index is walking up a forest. -/

section forest
variable {b : BlockIndex}

def parentOf (b : BlockIndex) (e : BlockIndexEntry) : Option BlockIndexEntry :=
  b.getBlock e.header.prevBlockHash

def Indexed (b : BlockIndex) (e : BlockIndexEntry) : Prop := b.getBlock e.blockHash = some e

lemma Indexed.getHeight {e : BlockIndexEntry} (h : b.Indexed e) :
    b.getHeight e.blockHash = some e.height :=
  congrArg (Option.map BlockIndexEntry.height) h

lemma TreeShaped.forest (h : b.TreeShaped) :
    ParentPath.Forest b.parentOf BlockIndexEntry.height b.Indexed where
  closed a p _ hp := by
    have hkey := h.key _ p hp
    rw [Indexed, hkey]
    exact hp
  step a p ha hp := h.parent _ a p ha hp

lemma cons_pathFrom (b : BlockIndex) (n : ℕ) (e : BlockIndexEntry) :
    e :: b.pathFrom n e.header.prevBlockHash = ParentPath.path b.parentOf n e := by
  induction n generalizing e with
  | zero => rfl
  | succ n ih =>
    simp only [pathFrom, ParentPath.path, parentOf]
    cases b.getBlock e.header.prevBlockHash with
    | none => rfl
    | some p =>
      simp only
      rw [ih]

lemma ancestors_eq_path (b : BlockIndex) (e : BlockIndexEntry) :
    b.ancestors e = ParentPath.path b.parentOf b.index.rows.length e :=
  cons_pathFrom b _ e

lemma findCommonAncestor_eq_meet (b : BlockIndex) (block1 block2 : BlockIndexEntry) :
    b.findCommonAncestor block1 block2 = ParentPath.meet b.parentOf BlockIndexEntry.height
      BlockIndexEntry.blockHash b.index.rows.length block1 block2 := by
  simp only [findCommonAncestor, ParentPath.meet, climb, ParentPath.climb, ancestors_eq_path]

/-- The branch of an indexed block starts with it and goes down. -/
lemma TreeShaped.branch (h : b.TreeShaped) {e : BlockIndexEntry} (he : b.Indexed e) :
    ∃ rest, b.branch e.blockHash = e :: rest ∧ ∀ x ∈ rest, x.height < e.height := by
  obtain ⟨n, hn⟩ := length_pos_of_getBlock he
  refine ⟨b.pathFrom n e.header.prevBlockHash, ?_, ?_⟩
  · have hget : b.getBlock e.blockHash = some e := he
    simp only [BlockIndex.branch, hn, pathFrom, hget]
  · intro x hx
    obtain ⟨i, hi⟩ := List.mem_iff_getElem?.1 hx
    have hpath : (ParentPath.path b.parentOf n e)[i + 1]? = some x := by
      rw [← cons_pathFrom]
      simpa using hi
    obtain ⟨-, hheight⟩ := h.forest.height_getElem? he hpath
    omega

lemma chainMap_apply_of_notMem {path : List BlockIndexEntry} {h : ℕ}
    (hpath : ∀ x ∈ path, x.height ≠ h) (chain : ℕ → Option Bytes) :
    path.foldl (fun (chain : ℕ → Option Bytes) entry =>
      Function.update chain entry.height (some entry.blockHash)) chain h = chain h := by
  induction path generalizing chain with
  | nil => rfl
  | cons e path ih =>
    have he : e.height ≠ h := hpath e (List.mem_cons_self ..)
    rw [List.foldl_cons, ih fun x hx => hpath x (List.mem_cons_of_mem _ hx),
      Function.update_of_ne he.symm]

lemma chainMap_head {e : BlockIndexEntry} {rest : List BlockIndexEntry}
    (hrest : ∀ x ∈ rest, x.height < e.height) : chainMap (e :: rest) e.height = some e.blockHash := by
  rw [chainMap, List.foldl_cons,
    chainMap_apply_of_notMem fun x hx => (hrest x hx).ne, Function.update_self]

lemma chainMap_above {path : List BlockIndexEntry} {h : ℕ} (hpath : ∀ x ∈ path, x.height < h) :
    chainMap path h = none :=
  chainMap_apply_of_notMem (fun x hx => (hpath x hx).ne) _

end forest

end BlockIndex
end BerzCoin
