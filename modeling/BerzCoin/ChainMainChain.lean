import BerzCoin.ChainWalks

/-! The main chain as the block index shows it after `set_best_chain_tip`: the flags, the height
index, `get_ancestor` and `find_fork`. -/
namespace BerzCoin
open Database WhileLoop

namespace BlockIndex

def getAncestor (b : BlockIndex) (n : ℕ) (blockHash : Bytes) (height : ℕ) :
    Option (Option BlockIndexEntry) :=
  match b.getBlock blockHash with
  | none => some none
  | some entry => if entry.height < height then some none else b.climbLoop n entry height

/-- `candidate.height` and `best.height` are read of `None` where the parents run out. -/
def findFork (b : BlockIndex) (n : ℕ) (blockHash : Bytes) :
    Option (Except String (Option BlockIndexEntry × Option BlockIndexEntry)) := do
  match b.getBlock blockHash with
  | none => return .ok (none, none)
  | some block =>
    match b.bestHash.bind b.getBlock with
    | none => return .ok (none, some block)
    | some best =>
      match ← b.climbLoop n block best.height with
      | none => return .error "'NoneType' object has no attribute 'height'"
      | some candidate =>
        match ← b.climbLoop n best candidate.height with
        | none => return .error "'NoneType' object has no attribute 'height'"
        | some best =>
          let met ← b.meetLoop n candidate best
          return .ok (met.2, b.getBlock blockHash)

lemma getAncestor_of_some {b : BlockIndex} {k : Bytes} {entry : BlockIndexEntry}
    (h : b.getBlock k = some entry) (n height : ℕ) : b.getAncestor n k height =
      if entry.height < height then some none else b.climbLoop n entry height := by
  simp only [getAncestor, h]

/-- The parent links form a tree whose root has height 0. -/
structure OneTree (b : BlockIndex) (root : Bytes) : Prop where
  tree : b.TreeShaped
  entry : ∃ e, b.getBlock root = some e ∧ e.height = 0
  parent : ∀ k e, b.getBlock k = some e → k ≠ root → b.getBlock e.header.prevBlockHash ≠ none

/-- The deepest block that `e` shares with the main chain. -/
structure DeepestShared (b : BlockIndex) (e fork : BlockIndexEntry) : Prop where
  indexed : b.Indexed fork
  main : fork.isMainChain = true
  ancestor : b.Descends e.blockHash fork.blockHash
  deepest : ∀ a, b.Indexed a → a.isMainChain = true → b.Descends e.blockHash a.blockHash →
    a.height ≤ fork.height

/-- The flags, the height index and the walks show the branch of `tip`. -/
structure MainChainView (b : BlockIndex) (tip : BlockIndexEntry) : Prop where
  bestHash : b.bestHash = some tip.blockHash
  bestHeight : b.bestHeight = tip.height
  flagged : ∀ e, b.Indexed e → (e.isMainChain = true ↔ b.Descends tip.blockHash e.blockHash)
  heightIndex : ∀ h k, b.heightIndex h = some k ↔
    ∃ e, b.Indexed e ∧ e.blockHash = k ∧ e.height = h ∧ b.Descends tip.blockHash k
  upToTip : ∀ h, b.heightIndex h ≠ none ↔ h ≤ tip.height
  ancestor : ∀ h n, tip.height + 1 < n →
    b.getAncestor n tip.blockHash h = some (b.getBlockByHeight h)
  fork : ∀ e, b.Indexed e → ∀ n, e.height + 1 < n → tip.height + 1 < n →
    ∃ fork, b.findFork n e.blockHash = some (.ok (some fork, some e)) ∧ b.DeepestShared e fork

section tree
variable {b b' : BlockIndex} {root : Bytes} {e x tip : BlockIndexEntry} {n : ℕ}

lemma SameShape.oneTree (h : SameShape b b') (htree : b.OneTree root) : b'.OneTree root where
  tree := h.treeShaped htree.tree
  entry := by
    obtain ⟨e, he, hzero⟩ := htree.entry
    obtain ⟨e', he', hcore⟩ := h.getBlock he
    have hheight : e'.height = e.height := congrArg (fun c => c.1) hcore
    exact ⟨e', he', hheight.trans hzero⟩
  parent k e' he' hk := by
    obtain ⟨e, he, hcore⟩ := h.of_some he'
    have hheader : e'.header = e.header := congrArg (fun c => c.2.2.1) hcore
    rw [hheader, ne_eq, h.none_iff]
    exact htree.parent k e he hk

/-- A block has an ancestor at each height below its own. -/
lemma OneTree.exists_ancestor (htree : b.OneTree root) (he : b.Indexed e) {h : ℕ}
    (hle : h ≤ e.height) :
    ∃ x, b.Indexed x ∧ b.Descends e.blockHash x.blockHash ∧ x.height = h := by
  induction hheight : e.height generalizing e with
  | zero => exact ⟨e, he, .refl, by omega⟩
  | succ m ih =>
    by_cases heq : h = m + 1
    · exact ⟨e, he, .refl, by omega⟩
    · have hne : e.blockHash ≠ root := by
        intro hroot
        obtain ⟨r, hr, hzero⟩ := htree.entry
        rw [Indexed, hroot, hr, Option.some.injEq] at he
        rw [he] at hzero
        omega
      obtain ⟨p, hp⟩ := Option.ne_none_iff_exists'.1 (htree.parent _ e he hne)
      obtain ⟨hindexed, hstep⟩ := htree.tree.parent_height he hp
      obtain ⟨x, hx, hdesc, hxh⟩ := ih hindexed (by omega) (by omega)
      refine ⟨x, hx, .head ?_ hdesc, hxh⟩
      have hget : b.getBlock e.blockHash = some e := he
      rw [ParentHash, hget, Option.map_some, htree.tree.key _ p hp]

lemma climb_eq_some (htree : b.TreeShaped) (he : b.Indexed e) (hx : b.Indexed x)
    (hdesc : b.Descends e.blockHash x.blockHash) : b.climb e x.height = some x := by
  have hmem := (htree.mem_ancestors_iff he).2 ⟨hx, hdesc⟩
  cases hclimb : b.climb e x.height with
  | none =>
    have hnot := List.find?_eq_none.1 hclimb x hmem
    simp at hnot
  | some c =>
    have hc := (htree.mem_ancestors_iff he).1 (List.mem_of_find?_eq_some hclimb)
    rw [ancestors_eq_path] at hmem
    have hle := (htree.forest.getElem?_of_mem he hmem).1
    have hpath : ParentPath.climb b.parentOf BlockIndexEntry.height b.index.rows.length e x.height =
        some c := by
      rw [ParentPath.climb, ← ancestors_eq_path]
      exact hclimb
    have hheight := htree.forest.climb_height he hle hpath
    have hcx := hc.2.between htree hdesc hc.1 hx hheight.ge
    have hsame := (descends_height htree hcx hx hc.1.getHeight).2 hheight.symm
    rw [hc.1.eq_of_blockHash hx hsame.symm]

/-- Two blocks of one tree have a common ancestor. -/
lemma OneTree.findCommonAncestor_ne_none (htree : b.OneTree root) (he : b.Indexed e)
    (hx : b.Indexed x) : b.findCommonAncestor e x ≠ none := by
  obtain ⟨r, hr, hdesc, hzero⟩ := htree.exists_ancestor he (h := 0) (Nat.zero_le _)
  obtain ⟨r', hr', hdesc', hzero'⟩ := htree.exists_ancestor hx (h := 0) (Nat.zero_le _)
  have hroot {r : BlockIndexEntry} (hr : b.Indexed r) (hzero : r.height = 0) : r.blockHash = root := by
    by_contra hne
    obtain ⟨p, hp⟩ := Option.ne_none_iff_exists'.1 (htree.parent _ r hr hne)
    have hstep := htree.tree.parent _ r p hr hp
    omega
  intro hnone
  apply (findCommonAncestor_eq_none_iff htree.tree he hx).1 hnone
  refine ⟨r, hr, hdesc, ?_⟩
  rw [hroot hr hzero, ← hroot hr' hzero']
  exact hdesc'

/-- `find_fork` finds what `_find_common_ancestor` finds for the block and the best tip. -/
lemma findFork_eq (htree : b.TreeShaped) (he : b.Indexed e) (htip : b.Indexed tip)
    (hbest : b.bestHash = some tip.blockHash) {fork : BlockIndexEntry}
    (hfork : b.findCommonAncestor e tip = some fork) (hn : e.height + 1 < n)
    (hn' : tip.height + 1 < n) : b.findFork n e.blockHash = some (.ok (some fork, some e)) := by
  have hget : b.getBlock e.blockHash = some e := he
  have hget' : b.getBlock tip.blockHash = some tip := htip
  simp only [findCommonAncestor, Option.bind_eq_bind, Option.bind_eq_some_iff] at hfork
  obtain ⟨candidate, hcandidate, best, hbestAt, pair, hpair, hfst⟩ := hfork
  obtain ⟨hindexed, hdesc⟩ := (htree.mem_ancestors_iff he).1 (List.mem_of_find?_eq_some hcandidate)
  obtain ⟨hindexed', -⟩ := (htree.mem_ancestors_iff htip).1 (List.mem_of_find?_eq_some hbestAt)
  have hle := (descends_height htree hdesc hindexed he.getHeight).1
  obtain ⟨s, hs, hmet, hsnd⟩ := meetLoop_eq htree hindexed hindexed' (n := n) (by omega)
  rw [hpair, Option.map_some] at hmet
  cases hfst
  simp only [findFork, hget, hbest, Option.bind_some, hget', climbLoop_eq htree he hn, hcandidate,
    climbLoop_eq htree htip hn', hbestAt, hs, hsnd _ hmet, Option.bind_eq_bind, Option.pure_def]

lemma chainMap_eq_some_iff {path : List BlockIndexEntry} {h : ℕ} {k : Bytes}
    (hpath : path.Pairwise fun x y => y.height < x.height) :
    chainMap path h = some k ↔ ∃ e ∈ path, e.height = h ∧ e.blockHash = k := by
  constructor
  · intro hmap
    by_cases hmem : ∃ e ∈ path, e.height = h
    · obtain ⟨e, he, rfl⟩ := hmem
      have hget : chainMap path e.height = some e.blockHash := foldl_chainMap_of_mem hpath he _
      rw [hget, Option.some.injEq] at hmap
      exact ⟨e, he, rfl, hmap⟩
    · have hnone : chainMap path h = none :=
        chainMap_apply_of_notMem (fun x hx heq => hmem ⟨x, hx, heq⟩) _
      rw [hnone] at hmap
      cases hmap
  · rintro ⟨e, he, rfl, rfl⟩
    exact foldl_chainMap_of_mem hpath he _

end tree

/-! The view from its two encodings. -/
section view
variable {b : BlockIndex} {root k : Bytes} {e tip : BlockIndexEntry}

lemma TreeShaped.mem_branch_iff (htree : b.TreeShaped) :
    e ∈ b.branch k ↔ b.Indexed e ∧ b.Descends k e.blockHash := by
  constructor
  · exact mem_pathFrom htree.key
  · rintro ⟨he, hdesc⟩
    exact htree.noCycle.mem_branch htree.keyed hdesc he

/-- A tip whose chain is flagged and mapped to heights is seen the same way by every walk. -/
lemma OneTree.mainChainView (htree : b.OneTree root) (hactive : b.ActiveTip tip) :
    b.MainChainView tip := by
  have htip : b.Indexed tip := hactive.entry
  have hflagged (e : BlockIndexEntry) (he : b.Indexed e) :
      e.isMainChain = true ↔ b.Descends tip.blockHash e.blockHash := by
    rw [hactive.mainChain _ e he, List.mem_map]
    constructor
    · rintro ⟨x, hx, hxe⟩
      rw [← hxe]
      exact (htree.tree.mem_branch_iff.1 hx).2
    · intro hdesc
      exact ⟨e, htree.tree.mem_branch_iff.2 ⟨he, hdesc⟩, rfl⟩
  have hheights (h : ℕ) (k : Bytes) : b.heightIndex h = some k ↔
      ∃ e, b.Indexed e ∧ e.blockHash = k ∧ e.height = h ∧ b.Descends tip.blockHash k := by
    have hpath : (b.branch tip.blockHash).Pairwise fun x y => y.height < x.height :=
      pairwise_pathFrom htree.tree _ _
    rw [hactive.heightIndex, chainMap_eq_some_iff hpath]
    constructor
    · rintro ⟨e, he, hheight, rfl⟩
      obtain ⟨hindexed, hdesc⟩ := htree.tree.mem_branch_iff.1 he
      exact ⟨e, hindexed, rfl, hheight, hdesc⟩
    · rintro ⟨e, hindexed, rfl, hheight, hdesc⟩
      exact ⟨e, htree.tree.mem_branch_iff.2 ⟨hindexed, hdesc⟩, hheight, rfl⟩
  have hupTo (h : ℕ) : b.heightIndex h ≠ none ↔ h ≤ tip.height := by
    constructor
    · intro hne
      obtain ⟨k, hk⟩ := Option.ne_none_iff_exists'.1 hne
      obtain ⟨e, he, rfl, rfl, hdesc⟩ := (hheights h k).1 hk
      exact (descends_height htree.tree hdesc he htip.getHeight).1
    · intro hle
      obtain ⟨x, hx, hdesc, rfl⟩ := htree.exists_ancestor htip hle
      rw [(hheights _ _).2 ⟨x, hx, rfl, rfl, hdesc⟩]
      exact Option.some_ne_none _
  refine ⟨hactive.bestHash, hactive.bestHeight, hflagged, hheights, hupTo, ?_, ?_⟩
  · intro h n hn
    rw [getAncestor_of_some hactive.entry]
    by_cases hle : h ≤ tip.height
    · obtain ⟨x, hx, hdesc, rfl⟩ := htree.exists_ancestor htip hle
      have hget : b.getBlock x.blockHash = some x := hx
      rw [if_neg (not_lt.2 hle), climbLoop_eq htree.tree htip hn,
        climb_eq_some htree.tree htip hx hdesc, getBlockByHeight,
        (hheights _ _).2 ⟨x, hx, rfl, rfl, hdesc⟩, Option.bind_some, hget]
    · have hnone : b.heightIndex h = none := by
        by_contra hne
        exact hle ((hupTo h).1 hne)
      rw [if_pos (not_le.1 hle), getBlockByHeight, hnone]
      rfl
  · intro e he n hn hn'
    obtain ⟨fork, hfork⟩ :=
      Option.ne_none_iff_exists'.1 (htree.findCommonAncestor_ne_none he htip)
    have hdeepest := findCommonAncestor_deepest htree.tree he htip hfork
    refine ⟨fork, findFork_eq htree.tree he htip hactive.bestHash hfork hn hn', hdeepest.indexed,
      (hflagged fork hdeepest.indexed).2 hdeepest.right, hdeepest.left, ?_⟩
    intro a ha hmain hdesc
    exact hdeepest.deepest a ha hdesc ((hflagged a ha).1 hmain)

/-- `set_best_chain_tip` makes an accepted block the active tip, whatever was active before. -/
lemma Accepts.activeTip (haccepts : b.Accepts k) (htree : b.TreeShaped) :
    ∃ tip, (b.tipped k).ActiveTip tip ∧ tip.blockHash = k := by
  have hshape := sameShape_tipped b k
  exact activeTip_of_sameActive (hshape.treeShaped htree) ((hshape.accepts k).2 haccepts)
    (sameActive_tipped_tipped hshape haccepts)

/-- After `set_best_chain_tip` of a block on a valid branch, which ends, everything that tells the
main chain shows the branch of that block. -/
theorem setBestChainTip_mainChainView (s : Session Tables BlockIndex) (root k : Bytes)
    (tip : BlockIndexEntry) (htree : s.memory.OneTree root) (htip : s.memory.getBlock k = some tip)
    (hvalid : s.memory.BranchValid k) :
    (∀ n, tip.height + 1 < n → s.memory.walkLoop n k = some (s.memory.branch k)) ∧
    ∃ s' tip', setBestChainTip k s = .ok () s' ∧ SameShape s.memory s'.memory ∧
      s'.memory.getBlock k = some tip' ∧ tip'.core = tip.core ∧ s'.memory.MainChainView tip' := by
  refine ⟨fun n hn => walkLoop_eq htree.tree htip hn, ?_⟩
  have haccepts : s.memory.Accepts k :=
    ⟨by simp [htip], (htree.tree.noCycle.isBranchInvalid_eq_false_iff htree.tree.keyed).2 hvalid⟩
  obtain ⟨s', hs', hmemory, -⟩ := setBestChainTip_apply k s
  have hshape := sameShape_tipped s.memory k
  obtain ⟨tip', hactive, hkey⟩ := haccepts.activeTip htree.tree
  have hview := (hshape.oneTree htree).mainChainView hactive
  have hget := hactive.entry
  obtain ⟨e, he, hcore⟩ := hshape.getBlock htip
  rw [hkey, he, Option.some.injEq] at hget
  rw [← hmemory] at hshape hview he
  rw [hget] at he hcore
  exact ⟨s', tip', hs', hshape, he, hcore, hview⟩

end view
end BlockIndex

open BlockIndex WalkExample in
/-- The shorter branch is chosen in place of the longer one that was active. -/
theorem setBestChainTip_mainChainView_side :
    (∀ n, side.height + 1 < n → index.walkLoop n side.blockHash = some [side, root]) ∧
    ∃ s' tip', setBestChainTip side.blockHash ⟨⟨Tables.empty, none⟩, index⟩ = .ok () s' ∧
      SameShape index s'.memory ∧ s'.memory.getBlock side.blockHash = some tip' ∧
      tip'.core = side.core ∧ s'.memory.MainChainView tip' := by
  have hrows : ∀ row ∈ index.index.rows, row.1 ≠ root.blockHash →
      index.getBlock row.2.header.prevBlockHash ≠ none := by decide
  have htree : index.OneTree root.blockHash :=
    ⟨index_treeShaped, ⟨root, by decide, rfl⟩,
      fun _ _ he hne => hrows _ (KeyedRows.mem_rows_of_get? he) hne⟩
  have hrowsValid : ∀ row ∈ index.index.rows, row.2.isInvalid = false := by decide
  have hvalid : index.BranchValid side.blockHash :=
    fun _ _ _ he => hrowsValid _ (KeyedRows.mem_rows_of_get? he)
  have hbranch : index.branch side.blockHash = [side, root] := by decide
  have hview := setBestChainTip_mainChainView ⟨⟨Tables.empty, none⟩, index⟩ root.blockHash
    side.blockHash side htree (by decide) hvalid
  rw [hbranch] at hview
  exact hview
end BerzCoin
