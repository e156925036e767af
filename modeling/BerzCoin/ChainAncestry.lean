import BerzCoin.ChainReorgPreflight

/-! Ancestors in the block index. The height index shows a branch when it gives, for each height
below some bound, the ancestor of a block at that height. -/
namespace BerzCoin
open Database

namespace BlockIndex

/-- `p` is named as parent by the entry of `k`. -/
def ParentHash (b : BlockIndex) (k p : Bytes) : Prop :=
  (b.getBlock k).map (·.header.prevBlockHash) = some p

/-- Following the parents from `k` leads to `x`. -/
def Descends (b : BlockIndex) : Bytes → Bytes → Prop := Relation.ReflTransGen b.ParentHash

/-- Below height `n` the height index has the ancestors of `tip`. -/
def Shows (b : BlockIndex) (tip : Bytes) (n : ℕ) : Prop :=
  ∀ k < n, ∃ e, b.getBlockByHeight k = some e ∧ e.height = k ∧ b.Descends tip e.blockHash

/-- A tree of valid blocks with one root. -/
structure Rooted (b : BlockIndex) (root aboveRoot : Bytes) : Prop where
  tree : b.TreeShaped
  entry : ∃ e, b.getBlock root = some e ∧ e.height = 0 ∧ e.header.prevBlockHash = aboveRoot
  noneAbove : b.getBlock aboveRoot = none
  parent : ∀ k e, b.getBlock k = some e → k ≠ root → b.getBlock e.header.prevBlockHash ≠ none
  bound : ∀ k e, b.getBlock k = some e → e.height < b.index.rows.length
  valid : ∀ k e, b.getBlock k = some e → e.isInvalid = false

section shape
variable {b b' : BlockIndex}

lemma SameShape.parentHash (h : SameShape b b') : b'.ParentHash = b.ParentHash := by
  have hcore (b : BlockIndex) (k : Bytes) : (b.getBlock k).map (·.header.prevBlockHash) =
      ((b.getBlock k).map BlockIndexEntry.core).map fun c => c.2.2.1.prevBlockHash := by
    rw [Option.map_map]
    rfl
  funext k p
  rw [ParentHash, ParentHash, hcore, hcore b, h.core]

lemma SameShape.descends (h : SameShape b b') : b'.Descends = b.Descends := by
  rw [Descends, Descends, h.parentHash]

lemma SameShape.of_some (h : SameShape b b') {k : Bytes} {e' : BlockIndexEntry}
    (he : b'.getBlock k = some e') : ∃ e, b.getBlock k = some e ∧ e'.core = e.core := by
  obtain ⟨e, he, hcore⟩ := h.symm.getBlock he
  exact ⟨e, he, hcore.symm⟩

lemma SameShape.none_iff (h : SameShape b b') (k : Bytes) :
    b'.getBlock k = none ↔ b.getBlock k = none := by
  rw [← Option.map_eq_none_iff (f := BlockIndexEntry.core), h.core, Option.map_eq_none_iff]

lemma SameShape.treeShaped (h : SameShape b b') (htree : b.TreeShaped) : b'.TreeShaped where
  key k e' he' := by
    obtain ⟨e, he, hcore⟩ := h.of_some he'
    have hhash : e'.blockHash = e.blockHash := congrArg (fun c => c.2.1) hcore
    rw [hhash]
    exact htree.key k e he
  parent k e' p' he' hp' := by
    obtain ⟨e, he, hcore⟩ := h.of_some he'
    obtain ⟨p, hp, hcore'⟩ := h.of_some hp'
    have hheader : e'.header = e.header := congrArg (fun c => c.2.2.1) hcore
    have hheight : e'.height = e.height := congrArg (fun c => c.1) hcore
    have hheight' : p'.height = p.height := congrArg (fun c => c.1) hcore'
    rw [hheader] at hp
    rw [hheight, hheight']
    exact htree.parent k e p he hp

lemma SameShape.rooted (h : SameShape b b') {root aboveRoot : Bytes} (hroot : b.Rooted root aboveRoot) :
    b'.Rooted root aboveRoot where
  tree := h.treeShaped hroot.tree
  entry := by
    obtain ⟨e, he, hzero, hprev⟩ := hroot.entry
    obtain ⟨e', he', hcore⟩ := h.getBlock he
    have hheader : e'.header = e.header := congrArg (fun c => c.2.2.1) hcore
    have hheight : e'.height = e.height := congrArg (fun c => c.1) hcore
    exact ⟨e', he', hheight.trans hzero, by rw [hheader, hprev]⟩
  noneAbove := (h.none_iff _).2 hroot.noneAbove
  parent k e' he' hk := by
    obtain ⟨e, he, hcore⟩ := h.of_some he'
    have hheader : e'.header = e.header := congrArg (fun c => c.2.2.1) hcore
    rw [hheader, ne_eq, h.none_iff]
    exact hroot.parent k e he hk
  bound k e' he' := by
    obtain ⟨e, he, hcore⟩ := h.of_some he'
    have hheight : e'.height = e.height := congrArg (fun c => c.1) hcore
    rw [hheight, h.size]
    exact hroot.bound k e he
  valid k e' he' := by
    obtain ⟨e, he, hcore⟩ := h.of_some he'
    have hinvalid : e'.isInvalid = e.isInvalid := congrArg (fun c => c.2.2.2.2) hcore
    rw [hinvalid]
    exact hroot.valid k e he

/-- The entry at a height, where the height index is the same. -/
lemma SameShape.getBlockByHeight (h : SameShape b b') {k : ℕ} {e : BlockIndexEntry}
    (hindex : b'.heightIndex k = b.heightIndex k) (he : b.getBlockByHeight k = some e) :
    ∃ e', b'.getBlockByHeight k = some e' ∧ e'.core = e.core := by
  obtain ⟨x, hx, he⟩ := Option.bind_eq_some_iff.1 he
  obtain ⟨e', he', hcore⟩ := h.getBlock he
  refine ⟨e', ?_, hcore⟩
  rw [BlockIndex.getBlockByHeight, hindex, hx]
  exact he'

lemma Shows.transfer {tip : Bytes} {n : ℕ} (hshows : b.Shows tip n) (h : SameShape b b')
    (hindex : ∀ k < n, b'.heightIndex k = b.heightIndex k) : b'.Shows tip n := by
  intro k hk
  obtain ⟨e, he, hheight, hdesc⟩ := hshows k hk
  obtain ⟨e', he', hcore⟩ := h.getBlockByHeight (hindex k hk) he
  have hhash : e'.blockHash = e.blockHash := congrArg (fun c => c.2.1) hcore
  have hheight' : e'.height = e.height := congrArg (fun c => c.1) hcore
  refine ⟨e', he', hheight'.trans hheight, ?_⟩
  rw [h.descends, hhash]
  exact hdesc

lemma Shows.mono {tip : Bytes} {m n : ℕ} (hshows : b.Shows tip n) (h : m ≤ n) : b.Shows tip m :=
  fun k hk => hshows k (hk.trans_le h)

end shape

section tree
variable {b : BlockIndex} {root aboveRoot : Bytes}

lemma descends_height (htree : b.TreeShaped) {k x : Bytes} {e : BlockIndexEntry} {h : ℕ}
    (hdesc : b.Descends k x) (he : b.getBlock x = some e) (hk : b.getHeight k = some h) :
    e.height ≤ h ∧ (e.height = h → x = k) := by
  induction hdesc using Relation.ReflTransGen.head_induction_on generalizing h with
  | refl =>
    have hheight : b.getHeight x = some e.height := by simp [getHeight, he]
    rw [hheight] at hk
    cases hk
    exact ⟨le_rfl, fun _ => rfl⟩
  | @head k p hkp hpx ih =>
    obtain ⟨ek, hek, hprev⟩ := Option.map_eq_some_iff.1 hkp
    obtain ⟨ek', hek', hheight⟩ := Option.map_eq_some_iff.1 hk
    rw [hek] at hek'
    cases hek'
    cases hp : b.getBlock p with
    | none =>
      -- The walk ends at a block that is not there, so it cannot lead to `x`.
      have hpeq : p = x := by
        rcases Relation.ReflTransGen.cases_head hpx with heq | ⟨q, hpq, -⟩
        · exact heq
        · rw [ParentHash, hp] at hpq
          cases hpq
      rw [hpeq, he] at hp
      cases hp
    | some ep =>
      have hstep := htree.parent k ek ep hek (by rw [hprev]; exact hp)
      obtain ⟨hle, -⟩ := ih (h := ep.height) (by simp [getHeight, hp])
      refine ⟨by omega, ?_⟩
      intro heq
      omega

/-- Two ancestors of one block: the higher one descends from the lower one. -/
lemma Descends.between (htree : b.TreeShaped) {k x y : Bytes} {ex ey : BlockIndexEntry}
    (hx : b.Descends k x) (hy : b.Descends k y) (hex : b.getBlock x = some ex)
    (hey : b.getBlock y = some ey) (hle : ey.height ≤ ex.height) : b.Descends x y := by
  have hunique : Relator.RightUnique b.ParentHash := by
    intro k p q hp hq
    rw [ParentHash] at hp hq
    rw [hp] at hq
    exact Option.some.inj hq
  rcases Relation.ReflTransGen.total_of_right_unique hunique hx hy with h | h
  · exact h
  · have hheight : b.getHeight y = some ey.height := by simp [getHeight, hey]
    obtain ⟨hle', heq⟩ := descends_height htree h hex hheight
    rw [heq (by omega)]
    exact .refl

/-- What is shown of a branch is shown of each part of it. -/
lemma Shows.below (htree : b.TreeShaped) {tip x : Bytes} {ex : BlockIndexEntry} {n : ℕ}
    (hshows : b.Shows tip n) (hx : b.Descends tip x) (hex : b.getBlock x = some ex)
    (hn : ex.height < n) : b.Shows x (ex.height + 1) := by
  intro k hk
  obtain ⟨e, he, hheight, hdesc⟩ := hshows k (by omega)
  obtain ⟨y, -, hy⟩ := Option.bind_eq_some_iff.1 he
  have hkey := htree.key y e hy
  refine ⟨e, he, hheight, hx.between htree hdesc hex (by rw [hkey]; exact hy) (by omega)⟩

lemma mem_pathFrom (hkey : ∀ h e, b.getBlock h = some e → e.blockHash = h) {n : ℕ} {k : Bytes}
    {x : BlockIndexEntry} (hx : x ∈ b.pathFrom n k) : b.Indexed x ∧ b.Descends k x.blockHash := by
  induction n generalizing k with
  | zero => cases hx
  | succ n ih =>
    rw [pathFrom] at hx
    cases he : b.getBlock k with
    | none =>
      rw [he] at hx
      cases hx
    | some e =>
      rw [he] at hx
      rcases List.mem_cons.1 hx with rfl | hx
      · rw [hkey k x he, Indexed, hkey k x he]
        exact ⟨he, .refl⟩
      · obtain ⟨hindexed, hdesc⟩ := ih hx
        exact ⟨hindexed, .head (by simp [ParentHash, he]) hdesc⟩

lemma pairwise_pathFrom (htree : b.TreeShaped) (n : ℕ) (k : Bytes) :
    (b.pathFrom n k).Pairwise fun x y => y.height < x.height := by
  cases n with
  | zero => exact List.Pairwise.nil
  | succ n =>
    rw [pathFrom]
    cases he : b.getBlock k with
    | none => exact List.Pairwise.nil
    | some e =>
      have hkey := htree.key k e he
      simp only [cons_pathFrom]
      exact htree.forest.pairwise_height (by rw [Indexed, hkey]; exact he)

/-- The path to the root has a block at each height. -/
lemma Rooted.exists_mem_pathFrom (hroot : b.Rooted root aboveRoot) {n j : ℕ} {k : Bytes}
    {e : BlockIndexEntry} (he : b.getBlock k = some e) (hn : e.height < n) (hj : j ≤ e.height) :
    ∃ x ∈ b.pathFrom n k, x.height = j := by
  induction n generalizing k e with
  | zero => omega
  | succ n ih =>
    rw [pathFrom, he]
    by_cases heq : e.height = j
    · exact ⟨e, List.mem_cons_self .., heq⟩
    · have hk : k ≠ root := by
        rintro rfl
        obtain ⟨e', he', hzero, -⟩ := hroot.entry
        rw [he] at he'
        cases he'
        omega
      obtain ⟨p, hp⟩ := Option.ne_none_iff_exists'.1 (hroot.parent k e he hk)
      have hstep := hroot.tree.parent k e p he hp
      obtain ⟨x, hx, hheight⟩ := ih hp (by omega) (by omega)
      exact ⟨x, List.mem_cons_of_mem _ hx, hheight⟩

lemma foldl_chainMap_of_mem {path : List BlockIndexEntry} {x : BlockIndexEntry}
    (hpath : path.Pairwise fun x y => y.height < x.height) (hx : x ∈ path)
    (chain : ℕ → Option Bytes) :
    path.foldl (fun (chain : ℕ → Option Bytes) entry =>
      Function.update chain entry.height (some entry.blockHash)) chain x.height =
        some x.blockHash := by
  induction path generalizing chain with
  | nil => cases hx
  | cons e path ih =>
    obtain ⟨hhead, htail⟩ := List.pairwise_cons.1 hpath
    rw [List.foldl_cons]
    rcases List.mem_cons.1 hx with rfl | hx
    · rw [chainMap_apply_of_notMem fun y hy => (hhead y hy).ne, Function.update_self]
    · exact ih htail hx _

lemma Rooted.accepts (hroot : b.Rooted root aboveRoot) {k : Bytes} {e : BlockIndexEntry}
    (he : b.getBlock k = some e) : b.Accepts k := by
  refine ⟨by simp [he], ?_⟩
  rw [isBranchInvalid, List.any_eq_false]
  intro x hx
  obtain ⟨hindexed, -⟩ := mem_pathFrom hroot.tree.key hx
  simp [hroot.valid _ x hindexed]

/-- A chosen tip is shown with all its ancestors. -/
lemma Rooted.shows_tipped (hroot : b.Rooted root aboveRoot) {k : Bytes} {e : BlockIndexEntry}
    (he : b.getBlock k = some e) :
    (b.tipped k).Shows k (e.height + 1) ∧ (b.tipped k).bestHash = some k := by
  obtain ⟨tip, htip, heq⟩ := (hroot.accepts he).tipped
  rw [he] at htip
  cases htip
  have hshape : SameShape b (b.tipped k) := sameShape_tipped b k
  have hheights : (b.tipped k).heightIndex = chainMap (b.branch k) := by rw [heq]; rfl
  constructor
  · intro j hj
    obtain ⟨x, hx, hheight⟩ := hroot.exists_mem_pathFrom he (hroot.bound k e he) (j := j) (by omega)
    obtain ⟨hindexed, hdesc⟩ := mem_pathFrom hroot.tree.key hx
    obtain ⟨x', hx', hcore⟩ := hshape.getBlock hindexed
    have hhash : x'.blockHash = x.blockHash := congrArg (fun c => c.2.1) hcore
    have hheight' : x'.height = x.height := congrArg (fun c => c.1) hcore
    refine ⟨x', ?_, hheight'.trans hheight, ?_⟩
    · have hmap : chainMap (b.branch k) x.height = some x.blockHash :=
        foldl_chainMap_of_mem (pairwise_pathFrom hroot.tree _ k) hx _
      rw [getBlockByHeight, hheights, ← hheight, hmap]
      exact hx'
    · rw [hshape.descends, hhash]
      exact hdesc
  · rw [heq]
    exact congrArg some (hroot.tree.key k e he)

end tree

/-! A new block. -/

section grow
variable {b : BlockIndex} {k : Bytes} {header : BlockHeader} {height chainwork : ℕ}

lemma withBlock_getBlock (b : BlockIndex) (k : Bytes) (header : BlockHeader) (height chainwork : ℕ)
    (k₀ : Bytes) (hk : k₀ ≠ k) :
    (b.withBlock k header height chainwork).getBlock k₀ = b.getBlock k₀ := by
  unfold withBlock
  simp only
  split_ifs
  · simp [getBlock, hk]
  · simp [getBlock, hk]

lemma withBlock_self {p : BlockIndexEntry} (hp : b.getBlock header.prevBlockHash = some p) :
    ∃ e, (b.withBlock k header height chainwork).getBlock k = some e ∧
      e.core = (height, k, header, chainwork, p.isInvalid) := by
  have hentry : (b.newEntry k header height chainwork).core =
      (height, k, header, chainwork, p.isInvalid) := by
    simp only [newEntry, hp]
    split_ifs with hinvalid
    · simp [BlockIndexEntry.core, BlockIndexEntry.setStatus, BlockIndexEntry.isInvalid,
        BlockIndexEntry.hasStatus] at hinvalid ⊢
      exact hinvalid
    · simp [BlockIndexEntry.core, BlockIndexEntry.isInvalid, BlockIndexEntry.hasStatus]
        at hinvalid ⊢
      exact hinvalid
  unfold withBlock
  simp only
  split_ifs
  · exact ⟨_, by simp [getBlock], hentry⟩
  · refine ⟨(b.newEntry k header height chainwork).setStatus .SIDE_CHAIN, by simp [getBlock], ?_⟩
    rw [← hentry]
    simp [BlockIndexEntry.core, BlockIndexEntry.setStatus, BlockIndexEntry.isInvalid,
      BlockIndexEntry.hasStatus]

lemma withBlock_rest (b : BlockIndex) (k : Bytes) (header : BlockHeader) (height chainwork : ℕ) :
    (b.withBlock k header height chainwork).heightIndex = b.heightIndex ∧
      (b.withBlock k header height chainwork).bestHash = b.bestHash := by
  unfold withBlock
  simp only
  split_ifs <;> exact ⟨rfl, rfl⟩

lemma withBlock_size (hk : b.getBlock k = none) :
    (b.withBlock k header height chainwork).index.rows.length = b.index.rows.length + 1 := by
  have hnone : b.index.get? k = none := hk
  have hput := KeyedRows.length_put b.index k (b.newEntry k header height chainwork)
  rw [if_pos hnone] at hput
  unfold withBlock
  simp only
  split_ifs
  · exact hput
  · simpa [KeyedRows.update, KeyedRows.updateWhere] using hput

lemma Descends.withBlock {x y : Bytes} (hk : b.getBlock k = none) (h : b.Descends x y) :
    (b.withBlock k header height chainwork).Descends x y := by
  induction h with
  | refl => exact .refl
  | @tail y z _ hyz ih =>
    refine ih.tail ?_
    have hy : y ≠ k := by
      rintro rfl
      rw [ParentHash, hk] at hyz
      cases hyz
    rw [ParentHash, withBlock_getBlock b k header height chainwork y hy]
    exact hyz

lemma Shows.withBlock {tip : Bytes} {n : ℕ} (hk : b.getBlock k = none) (h : b.Shows tip n) :
    (b.withBlock k header height chainwork).Shows tip n := by
  intro j hj
  obtain ⟨e, he, hheight, hdesc⟩ := h j hj
  refine ⟨e, ?_, hheight, hdesc.withBlock hk⟩
  obtain ⟨x, hx, he⟩ := Option.bind_eq_some_iff.1 he
  have hxk : x ≠ k := by
    rintro rfl
    rw [hk] at he
    cases he
  rw [getBlockByHeight, (withBlock_rest b k header height chainwork).1, hx]
  exact (withBlock_getBlock b k header height chainwork x hxk).trans he

/-- No known block waits for a new one as its parent. -/
lemma Rooted.prev_ne {root aboveRoot : Bytes} (hroot : b.Rooted root aboveRoot) {x : Bytes}
    {e : BlockIndexEntry} (he : b.getBlock x = some e) (hk : b.getBlock k = none)
    (hne : k ≠ aboveRoot) : e.header.prevBlockHash ≠ k := by
  intro heq
  by_cases hx : x = root
  · obtain ⟨e', he', -, habove⟩ := hroot.entry
    rw [← hx, he] at he'
    cases he'
    exact hne (heq.symm.trans habove)
  · exact hroot.parent x e he hx (by rw [heq]; exact hk)

/-- A block on top of a known one keeps the tree. -/
lemma Rooted.withBlock {root aboveRoot : Bytes} (hroot : b.Rooted root aboveRoot)
    (hk : b.getBlock k = none) (hne : k ≠ aboveRoot) {p : BlockIndexEntry}
    (hp : b.getBlock header.prevBlockHash = some p) :
    (b.withBlock k header (p.height + 1) chainwork).Rooted root aboveRoot := by
  obtain ⟨new, hnew, hcore⟩ := @withBlock_self _ k _ (p.height + 1) chainwork _ hp
  simp only [BlockIndexEntry.core, Prod.mk.injEq] at hcore
  obtain ⟨hheight, hhash, hheader, -, hinvalid⟩ := hcore
  have hold : ∀ x, x ≠ k → (b.withBlock k header (p.height + 1) chainwork).getBlock x =
      b.getBlock x := withBlock_getBlock b k header (p.height + 1) chainwork
  have hprev : header.prevBlockHash ≠ k := by
    intro heq
    rw [heq, hk] at hp
    cases hp
  have hchild : ∀ x e, b.getBlock x = some e → e.header.prevBlockHash ≠ k :=
    fun x e he => hroot.prev_ne he hk hne
  have hcases : ∀ x e, (b.withBlock k header (p.height + 1) chainwork).getBlock x = some e →
      (x = k ∧ e = new) ∨ x ≠ k ∧ b.getBlock x = some e := by
    intro x e he
    by_cases hx : x = k
    · rw [hx, hnew] at he
      exact .inl ⟨hx, (Option.some.inj he).symm⟩
    · rw [hold x hx] at he
      exact .inr ⟨hx, he⟩
  refine ⟨⟨?_, ?_⟩, ?_, ?_, ?_, ?_, ?_⟩
  · intro x e he
    rcases hcases x e he with ⟨rfl, rfl⟩ | ⟨-, he⟩
    · exact hhash
    · exact hroot.tree.key x e he
  · intro x e q he hq
    rcases hcases x e he with ⟨rfl, rfl⟩ | ⟨-, he⟩
    · rw [hheader, hold _ hprev, hp] at hq
      cases hq
      exact hheight
    · rw [hold _ (hchild x e he)] at hq
      exact hroot.tree.parent x e q he hq
  · obtain ⟨e, he, hzero, habove⟩ := hroot.entry
    refine ⟨e, ?_, hzero, habove⟩
    rw [hold root, he]
    rintro rfl
    rw [hk] at he
    cases he
  · rw [hold _ hne.symm]
    exact hroot.noneAbove
  · intro x e he hx
    rcases hcases x e he with ⟨rfl, rfl⟩ | ⟨-, he⟩
    · rw [hheader, hold _ hprev, hp]
      simp
    · rw [hold _ (hchild x e he)]
      exact hroot.parent x e he hx
  · intro x e he
    rw [withBlock_size hk]
    rcases hcases x e he with ⟨rfl, rfl⟩ | ⟨-, he⟩
    · have hbound := hroot.bound _ p hp
      omega
    · have hbound := hroot.bound x e he
      omega
  · intro x e he
    rcases hcases x e he with ⟨rfl, rfl⟩ | ⟨-, he⟩
    · rw [hinvalid]
      exact hroot.valid _ p hp
    · exact hroot.valid x e he

/-- A new block is nobody's ancestor but its own. -/
lemma Rooted.descends_new {root aboveRoot : Bytes} (hroot : b.Rooted root aboveRoot)
    (hk : b.getBlock k = none) (hne : k ≠ aboveRoot) {p : BlockIndexEntry}
    (hp : b.getBlock header.prevBlockHash = some p) {x : Bytes}
    (h : (b.withBlock k header height chainwork).Descends x k) : x = k := by
  rcases h.cases_tail with heq | ⟨y, -, hyk⟩
  · exact heq.symm
  · obtain ⟨e, he, hprev⟩ := Option.map_eq_some_iff.1 hyk
    by_cases hy : y = k
    · obtain ⟨e', he', hcore⟩ := @withBlock_self _ k _ height chainwork _ hp
      have hheader : e'.header = header := congrArg (fun c => c.2.2.1) hcore
      rw [hy, he'] at he
      cases he
      rw [hheader] at hprev
      rw [hprev, hk] at hp
      cases hp
    · rw [withBlock_getBlock b k header height chainwork y hy] at he
      exact absurd hprev (hroot.prev_ne he hk hne)

/-- The ancestors of the other blocks are as they were. -/
lemma Rooted.descends_of_withBlock {root aboveRoot : Bytes} (hroot : b.Rooted root aboveRoot)
    (hk : b.getBlock k = none) (hne : k ≠ aboveRoot) {x y : Bytes} (hx : x ≠ k)
    (h : (b.withBlock k header height chainwork).Descends x y) : b.Descends x y := by
  induction h using Relation.ReflTransGen.head_induction_on with
  | refl => exact .refl
  | @head x p hxp _ ih =>
    rw [ParentHash, withBlock_getBlock b k header height chainwork x hx] at hxp
    obtain ⟨e, he, hprev⟩ := Option.map_eq_some_iff.1 hxp
    have hp : p ≠ k := hprev ▸ hroot.prev_ne he hk hne
    exact .head hxp (ih hp)

end grow
end BlockIndex
end BerzCoin
