import BerzCoin.ChainReorgReports
import BerzCoin.ChainTips
import BerzCoin.WhileLoop

/-! The loops over parent links of `BlockIndex` and `ReorgManager`. They end on every index whose
heights grow by one from parent to child, whatever its size, and visit the branch of the block they
start from. -/
namespace BerzCoin
open Database WhileLoop

namespace BlockIndex

/-- `current = self._index.get(current.header.prev_block_hash.hex())`. -/
def up (b : BlockIndex) (current : Option BlockIndexEntry) : Option BlockIndexEntry :=
  current.bind b.parentOf

/-- `while current is not None`, with the entries that the body has seen. -/
def walkLoop (b : BlockIndex) (n : ℕ) (blockHash : Bytes) : Option (List BlockIndexEntry) :=
  (run (fun s : List BlockIndexEntry × Option BlockIndexEntry => s.2.isSome)
    (fun s => (s.1 ++ s.2.toList, b.up s.2)) n ([], b.getBlock blockHash)).map Prod.fst

/-- `while block.height > height`, until there is no parent. -/
def climbLoop (b : BlockIndex) (n : ℕ) (entry : BlockIndexEntry) (height : ℕ) :
    Option (Option BlockIndexEntry) :=
  run (fun block : Option BlockIndexEntry => block.any (height < ·.height)) b.up n (some entry)

/-- `while block1 and block2 and block1.block_hash != block2.block_hash`. -/
def meetLoop (b : BlockIndex) (n : ℕ) (block1 block2 : BlockIndexEntry) :
    Option (Option BlockIndexEntry × Option BlockIndexEntry) :=
  run (fun s : Option BlockIndexEntry × Option BlockIndexEntry =>
      s.1.any fun x => s.2.any fun y => x.blockHash ≠ y.blockHash)
    (fun s => (b.up s.1, b.up s.2)) n (some block1, some block2)

/-- `block1 if block1 and block2 else None`. -/
def metAt (s : Option BlockIndexEntry × Option BlockIndexEntry) : Option BlockIndexEntry :=
  match s with
  | (some block1, some _) => some block1
  | _ => none

/-- `_find_common_ancestor`, with a number of turns for each of its loops. -/
def findCommonAncestorLoop (b : BlockIndex) (n : ℕ) (block1 block2 : BlockIndexEntry) :
    Option (Option BlockIndexEntry) := do
  match ← b.climbLoop n block1 block2.height with
  | none => return none
  | some block1 =>
    match ← b.climbLoop n block2 block1.height with
    | none => return none
    | some block2 =>
      return metAt (← b.meetLoop n block1 block2)

/-- `while current and current.height > fork_point.height`, with the entries that were appended. -/
def pathLoop (b : BlockIndex) (n : ℕ) (fork entry : BlockIndexEntry) :
    Option (List BlockIndexEntry) :=
  (run (fun s : List BlockIndexEntry × Option BlockIndexEntry => s.2.any (fork.height < ·.height))
    (fun s => (s.1 ++ s.2.toList, b.up s.2)) n ([], some entry)).map Prod.fst

/-! The branch of a block, one block at a time. -/
section branch
variable {b : BlockIndex}

lemma TreeShaped.keyed (htree : b.TreeShaped) : b.Keyed := htree.key

/-- Heights leave no room for a cycle. -/
lemma TreeShaped.noCycle (htree : b.TreeShaped) : b.Forest := by
  intro k hcycle
  obtain ⟨p, hp, hdesc⟩ := Relation.TransGen.head'_iff.1 hcycle
  obtain ⟨e, he, hprev⟩ := Option.map_eq_some_iff.1 hp
  cases hget : b.getBlock p with
  | none =>
    rcases hdesc.cases_head with rfl | ⟨q, hq, -⟩
    · rw [hget] at he
      cases he
    · rw [ParentHash, hget] at hq
      cases hq
  | some x =>
    have hstep := htree.parent k e x he (by rw [hprev]; exact hget)
    have hle := (descends_height htree hdesc he (by simp [getHeight, hget] : b.getHeight p = some x.height)).1
    omega

lemma branch_eq_nil {k : Bytes} (h : b.getBlock k = none) : b.branch k = [] := by
  rw [branch]
  cases b.index.rows.length with
  | zero => rfl
  | succ n => rw [pathFrom, h]

lemma TreeShaped.branch_eq_cons (htree : b.TreeShaped) {k : Bytes} {e : BlockIndexEntry}
    (h : b.getBlock k = some e) : b.branch k = e :: b.branch e.header.prevBlockHash := by
  have hlen := htree.noCycle.length_pathFrom_le htree.keyed (b.index.rows.length + 1) k
  have htake := b.pathFrom_take b.index.rows.length 1 k
  rw [List.take_of_length_le hlen, pathFrom, h] at htake
  exact htake.symm

lemma TreeShaped.ancestors_eq_cons (htree : b.TreeShaped) {e p : BlockIndexEntry}
    (h : b.parentOf e = some p) : b.ancestors e = e :: b.ancestors p := by
  rw [ancestors, htree.branch_eq_cons h, ancestors]

lemma ancestors_eq_singleton {e : BlockIndexEntry} (h : b.parentOf e = none) : b.ancestors e = [e] := by
  rw [ancestors, branch_eq_nil h]

lemma TreeShaped.parent_height (htree : b.TreeShaped) {e p : BlockIndexEntry} (he : b.Indexed e)
    (h : b.parentOf e = some p) : b.Indexed p ∧ e.height = p.height + 1 :=
  ⟨htree.forest.closed e p he h, htree.forest.step e p he h⟩

/-- The ancestors of a block are the indexed ones that it descends from. -/
lemma TreeShaped.mem_ancestors_iff (htree : b.TreeShaped) {e x : BlockIndexEntry} (he : b.Indexed e) :
    x ∈ b.ancestors e ↔ b.Indexed x ∧ b.Descends e.blockHash x.blockHash := by
  constructor
  · exact ReorgManager.mem_ancestors htree he
  · rintro ⟨hx, hdesc⟩
    have hmem := htree.noCycle.mem_branch htree.keyed hdesc hx
    rw [htree.branch_eq_cons he] at hmem
    exact hmem

lemma Indexed.eq_of_blockHash {e x : BlockIndexEntry} (he : b.Indexed e) (hx : b.Indexed x)
    (h : e.blockHash = x.blockHash) : e = x := by
  rw [Indexed, h, hx] at he
  exact (Option.some.inj he).symm

end branch

/-! What the loops compute. -/
section loops
variable {b : BlockIndex} {n : ℕ} {e x y : BlockIndexEntry}

lemma up_some (b : BlockIndex) (e : BlockIndexEntry) : b.up (some e) = b.parentOf e := rfl

@[simp] lemma up_none (b : BlockIndex) : b.up none = none := rfl

lemma walkLoop_from (htree : b.TreeShaped) (he : b.Indexed e) (hn : e.height + 1 < n)
    (seen : List BlockIndexEntry) :
    run (fun s : List BlockIndexEntry × Option BlockIndexEntry => s.2.isSome)
      (fun s => (s.1 ++ s.2.toList, b.up s.2)) n (seen, some e) =
        some (seen ++ b.ancestors e, none) := by
  induction n generalizing e seen with
  | zero => omega
  | succ n ih =>
    rw [run_step rfl, up_some]
    cases hp : b.parentOf e with
    | none =>
      obtain ⟨n, rfl⟩ : ∃ m, n = m + 1 := ⟨n - 1, by omega⟩
      rw [run_stop rfl, ancestors_eq_singleton hp]
      rfl
    | some p =>
      obtain ⟨hindexed, hheight⟩ := htree.parent_height he hp
      rw [ih hindexed (by omega), htree.ancestors_eq_cons hp]
      simp

/-- The walk over a branch ends, and has visited it. -/
lemma walkLoop_eq (htree : b.TreeShaped) {k : Bytes} (he : b.getBlock k = some e)
    (hn : e.height + 1 < n) : b.walkLoop n k = some (b.branch k) := by
  have hindexed : b.Indexed e := by rw [Indexed, htree.key k e he, he]
  rw [walkLoop, he, walkLoop_from htree hindexed hn, htree.branch_eq_cons he]
  rfl

lemma climbLoop_eq (htree : b.TreeShaped) (he : b.Indexed e) (hn : e.height + 1 < n) (h : ℕ) :
    b.climbLoop n e h = some (b.climb e h) := by
  rw [climbLoop, climb]
  induction n generalizing e with
  | zero => omega
  | succ n ih =>
    by_cases habove : h < e.height
    · rw [run_step (by simpa using habove), up_some]
      cases hp : b.parentOf e with
      | none =>
        obtain ⟨n, rfl⟩ : ∃ m, n = m + 1 := ⟨n - 1, by omega⟩
        rw [run_stop rfl, ancestors_eq_singleton hp]
        simp [habove]
      | some p =>
        obtain ⟨hindexed, hheight⟩ := htree.parent_height he hp
        rw [ih hindexed (by omega), htree.ancestors_eq_cons hp]
        simp [habove]
    · rw [run_stop (by simpa using habove)]
      simp [ancestors, not_lt.1 habove]

lemma pathLoop_from (htree : b.TreeShaped) (fork : BlockIndexEntry) (he : b.Indexed e)
    (hn : e.height + 1 < n) (seen : List BlockIndexEntry) :
    (run (fun s : List BlockIndexEntry × Option BlockIndexEntry => s.2.any (fork.height < ·.height))
      (fun s => (s.1 ++ s.2.toList, b.up s.2)) n (seen, some e)).map Prod.fst =
        some (seen ++ b.pathAbove fork e) := by
  rw [pathAbove]
  induction n generalizing e seen with
  | zero => omega
  | succ n ih =>
    by_cases habove : fork.height < e.height
    · rw [run_step (by simpa using habove), up_some]
      cases hp : b.parentOf e with
      | none =>
        obtain ⟨n, rfl⟩ : ∃ m, n = m + 1 := ⟨n - 1, by omega⟩
        rw [run_stop rfl, ancestors_eq_singleton hp]
        simp [habove]
      | some p =>
        obtain ⟨hindexed, hheight⟩ := htree.parent_height he hp
        rw [ih hindexed (by omega), htree.ancestors_eq_cons hp]
        simp [habove]
    · rw [run_stop (by simpa using habove)]
      simp [ancestors, habove]

lemma pathLoop_eq (htree : b.TreeShaped) (fork : BlockIndexEntry) (he : b.Indexed e)
    (hn : e.height + 1 < n) : b.pathLoop n fork e = some (b.pathAbove fork e) :=
  pathLoop_from htree fork he hn []

lemma meetLoop_eq (htree : b.TreeShaped) (hx : b.Indexed x) (hy : b.Indexed y)
    (hn : x.height + 1 < n) : ∃ s, b.meetLoop n x y = some s ∧
      metAt s = (((b.ancestors x).zip (b.ancestors y)).find? fun p =>
        p.1.blockHash = p.2.blockHash).map Prod.fst ∧ ∀ a, metAt s = some a → s.2 = some a := by
  simp only [meetLoop]
  induction n generalizing x y with
  | zero => omega
  | succ n ih =>
    by_cases hsame : x.blockHash = y.blockHash
    · refine ⟨_, run_stop (by simpa using hsame), ?_⟩
      simp [metAt, ancestors, hx.eq_of_blockHash hy hsame]
    · rw [run_step (by simpa using hsame), up_some, up_some]
      obtain ⟨n, rfl⟩ : ∃ m, n = m + 1 := ⟨n - 1, by omega⟩
      cases hp : b.parentOf x with
      | none =>
        have hnil : b.branch x.header.prevBlockHash = [] := branch_eq_nil hp
        refine ⟨_, run_stop rfl, ?_⟩
        simp [metAt, ancestors, hsame, hnil]
      | some p =>
        cases hq : b.parentOf y with
        | none =>
          have hnil : b.branch y.header.prevBlockHash = [] := branch_eq_nil hq
          refine ⟨_, run_stop rfl, ?_⟩
          simp [metAt, ancestors, hsame, hnil]
        | some q =>
          obtain ⟨hindexed, hheight⟩ := htree.parent_height hx hp
          obtain ⟨hindexed', -⟩ := htree.parent_height hy hq
          obtain ⟨s, hs, hmet, hpair⟩ := ih hindexed hindexed' (by omega)
          refine ⟨s, hs, ?_, hpair⟩
          rw [hmet, htree.ancestors_eq_cons hp, htree.ancestors_eq_cons hq]
          simp [hsame]

end loops

/-! The common ancestor. -/
section common
variable {b : BlockIndex} {n : ℕ} {x y fork : BlockIndexEntry}

/-- A block that both descend from, as high as any other. -/
structure DeepestCommon (b : BlockIndex) (x y fork : BlockIndexEntry) : Prop where
  indexed : b.Indexed fork
  left : b.Descends x.blockHash fork.blockHash
  right : b.Descends y.blockHash fork.blockHash
  deepest : ∀ a, b.Indexed a → b.Descends x.blockHash a.blockHash →
    b.Descends y.blockHash a.blockHash → a.height ≤ fork.height

lemma findCommonAncestorLoop_eq (htree : b.TreeShaped) (hx : b.Indexed x) (hy : b.Indexed y)
    (hn : x.height + 1 < n) (hn' : y.height + 1 < n) :
    b.findCommonAncestorLoop n x y = some (b.findCommonAncestor x y) := by
  rw [findCommonAncestorLoop, findCommonAncestor, climbLoop_eq htree hx hn]
  cases hclimb : b.climb x y.height with
  | none => rfl
  | some x' =>
    have hmem : x' ∈ b.ancestors x := List.mem_of_find?_eq_some hclimb
    obtain ⟨hx', hdesc⟩ := (htree.mem_ancestors_iff hx).1 hmem
    have hle := (descends_height htree hdesc hx' hx.getHeight).1
    simp only [Option.bind_eq_bind, Option.bind_some]
    rw [climbLoop_eq htree hy hn']
    cases hclimb' : b.climb y x'.height with
    | none => rfl
    | some y' =>
      have hmem' : y' ∈ b.ancestors y := List.mem_of_find?_eq_some hclimb'
      obtain ⟨hy', -⟩ := (htree.mem_ancestors_iff hy).1 hmem'
      obtain ⟨s, hs, hmet, -⟩ := meetLoop_eq htree hx' hy' (n := n) (by omega)
      simp only [Option.bind_some, hs]
      rw [hmet]
      cases ((b.ancestors x').zip (b.ancestors y')).find? fun p => p.1.blockHash = p.2.blockHash <;> rfl

lemma findCommonAncestor_deepest (htree : b.TreeShaped) (hx : b.Indexed x) (hy : b.Indexed y)
    (h : b.findCommonAncestor x y = some fork) : b.DeepestCommon x y fork := by
  obtain ⟨hindexed, hleft, hright⟩ := ReorgManager.findCommonAncestor_descends htree hx hy h
  refine ⟨hindexed, hleft, hright, ?_⟩
  intro a ha hax hay
  rw [findCommonAncestor_eq_meet] at h
  apply htree.forest.height_le_meet hx hy h
  · rw [← ancestors_eq_path]
    exact (htree.mem_ancestors_iff hx).2 ⟨ha, hax⟩
  · rw [← ancestors_eq_path]
    exact (htree.mem_ancestors_iff hy).2 ⟨ha, hay⟩

lemma findCommonAncestor_eq_none_iff (htree : b.TreeShaped) (hx : b.Indexed x) (hy : b.Indexed y) :
    b.findCommonAncestor x y = none ↔
      ¬ ∃ a, b.Indexed a ∧ b.Descends x.blockHash a.blockHash ∧ b.Descends y.blockHash a.blockHash := by
  constructor
  · rintro hnone ⟨a, ha, hax, hay⟩
    have hmemx := (htree.mem_ancestors_iff hx).2 ⟨ha, hax⟩
    have hmemy := (htree.mem_ancestors_iff hy).2 ⟨ha, hay⟩
    rw [ancestors_eq_path] at hmemx hmemy
    rw [findCommonAncestor_eq_meet] at hnone
    exact htree.forest.meet_ne_none hx hy hmemx hmemy hnone
  · intro hnot
    by_contra hsome
    obtain ⟨fork, hfork⟩ := Option.ne_none_iff_exists'.1 hsome
    have hdeepest := findCommonAncestor_deepest htree hx hy hfork
    exact hnot ⟨fork, hdeepest.indexed, hdeepest.left, hdeepest.right⟩

end common

/-! The paths of a reorganisation. -/
section paths
variable {b : BlockIndex} {fork e : BlockIndexEntry}

/-- The blocks from `e` down to `fork`, without `fork`, each followed by its parent. -/
inductive BranchAbove (b : BlockIndex) (fork : BlockIndexEntry) :
    BlockIndexEntry → List BlockIndexEntry → Prop
  | fork : BranchAbove b fork fork []
  | child {e p : BlockIndexEntry} {path : List BlockIndexEntry} (parent : b.parentOf e = some p)
      (above : BranchAbove b fork p path) : BranchAbove b fork e (e :: path)

/-- A proper descendant has a parent, which is a descendant too. -/
lemma Descends.exists_parent (hdesc : b.Descends e.blockHash fork.blockHash) (he : b.Indexed e)
    (hfork : b.Indexed fork) (hne : e.blockHash ≠ fork.blockHash) (htree : b.TreeShaped) :
    ∃ p, b.parentOf e = some p ∧ b.Descends p.blockHash fork.blockHash := by
  rcases hdesc.cases_head with heq | ⟨k, hk, hrest⟩
  · exact absurd heq hne
  · have hget : b.getBlock e.blockHash = some e := he
    rw [ParentHash, hget, Option.map_some, Option.some.injEq] at hk
    subst hk
    cases hp : b.getBlock e.header.prevBlockHash with
    | none =>
      -- The walk ends where no block is stored, and `fork` is stored.
      rcases hrest.cases_head with heq | ⟨q, hq, -⟩
      · rw [Indexed, ← heq, hp] at hfork
        cases hfork
      · rw [ParentHash, hp] at hq
        cases hq
    | some p =>
      refine ⟨p, hp, ?_⟩
      rw [htree.key _ p hp]
      exact hrest

lemma pathAbove_eq_nil (h : e.height ≤ fork.height) : b.pathAbove fork e = [] := by
  simp [pathAbove, ancestors, h]

lemma TreeShaped.pathAbove_eq_cons (htree : b.TreeShaped) {p : BlockIndexEntry}
    (hp : b.parentOf e = some p) (h : fork.height < e.height) :
    b.pathAbove fork e = e :: b.pathAbove fork p := by
  rw [pathAbove, htree.ancestors_eq_cons hp, List.takeWhile_cons_of_pos (by simpa using h), pathAbove]

lemma branchAbove_pathAbove (htree : b.TreeShaped) (hfork : b.Indexed fork) (he : b.Indexed e)
    (hdesc : b.Descends e.blockHash fork.blockHash) : b.BranchAbove fork e (b.pathAbove fork e) := by
  induction hheight : e.height generalizing e with
  | zero =>
    obtain ⟨hle, heq⟩ := descends_height htree hdesc hfork he.getHeight
    have hsame := he.eq_of_blockHash hfork (heq (by omega)).symm
    rw [hsame, pathAbove_eq_nil le_rfl]
    exact .fork
  | succ h ih =>
    by_cases hsame : e.blockHash = fork.blockHash
    · rw [he.eq_of_blockHash hfork hsame, pathAbove_eq_nil le_rfl]
      exact .fork
    · obtain ⟨p, hp, hrest⟩ := hdesc.exists_parent he hfork hsame htree
      obtain ⟨hindexed, hstep⟩ := htree.parent_height he hp
      have hle := (descends_height htree hrest hfork hindexed.getHeight).1
      rw [htree.pathAbove_eq_cons hp (by omega)]
      exact .child hp (ih hindexed hrest (by omega))

/-- Each block of the path names the next one as its parent. -/
lemma BranchAbove.checkDisconnectPath (htree : b.TreeShaped) {path : List BlockIndexEntry}
    (h : b.BranchAbove fork e path) (child : Option BlockIndexEntry)
    (hchild : ∀ c ∈ child, b.parentOf c = some e) :
    ReorgManager.checkDisconnectPath child path = .ok () := by
  induction h generalizing child with
  | fork => rfl
  | @child e p path hp _ ih =>
    have hrest := ih (some e) (by simpa using hp)
    cases child with
    | none => exact hrest
    | some c =>
      have hkey : e.blockHash = c.header.prevBlockHash := htree.key _ e (hchild c rfl)
      rw [ReorgManager.checkDisconnectPath, if_neg (by simp [hkey])]
      exact hrest

lemma checkConnectPath_append {path path' : List BlockIndexEntry} {k k' : Bytes}
    (h : ReorgManager.checkConnectPath k path = .ok ())
    (hlast : ((path.getLast?).map BlockIndexEntry.blockHash).getD k = k')
    (h' : ReorgManager.checkConnectPath k' path' = .ok ()) :
    ReorgManager.checkConnectPath k (path ++ path') = .ok () := by
  induction path generalizing k with
  | nil =>
    rw [← hlast] at h'
    exact h'
  | cons e path ih =>
    rw [ReorgManager.checkConnectPath] at h
    rw [List.cons_append, ReorgManager.checkConnectPath]
    split_ifs at h ⊢ with hparent
    refine ih h ?_
    rw [← hlast]
    cases path with
    | nil => simp
    | cons x path => simp [List.getLast?_cons]

/-- From the fork up, each block names the one before as its parent. -/
lemma BranchAbove.checkConnectPath (htree : b.TreeShaped) (he : b.Indexed e)
    {path : List BlockIndexEntry} (h : b.BranchAbove fork e path) :
    ReorgManager.checkConnectPath fork.blockHash path.reverse = .ok () ∧
      ((path.reverse.getLast?).map BlockIndexEntry.blockHash).getD fork.blockHash = e.blockHash := by
  induction h with
  | fork => exact ⟨rfl, rfl⟩
  | @child e p path hp _ ih =>
    obtain ⟨hindexed, -⟩ := htree.parent_height he hp
    obtain ⟨hok, hlast⟩ := ih hindexed
    have hkey : p.blockHash = e.header.prevBlockHash := htree.key _ p hp
    rw [List.reverse_cons]
    refine ⟨checkConnectPath_append hok hlast ?_, by simp⟩
    rw [ReorgManager.checkConnectPath, if_neg (by simp [hkey])]
    rfl

lemma validateReorgPaths_ok (htree : b.TreeShaped) {newBest oldBest : BlockIndexEntry}
    (hnew : b.Indexed newBest) {path path' : List BlockIndexEntry}
    (hold : b.BranchAbove fork oldBest path) (h : b.BranchAbove fork newBest path') :
    ReorgManager.validateReorgPaths fork path path'.reverse = .ok () := by
  rw [ReorgManager.validateReorgPaths, hold.checkDisconnectPath htree none (by simp),
    (h.checkConnectPath htree hnew).1]
  rfl

/-- The search for the fork ends with the deepest common ancestor, or with nothing where there is
none, and the two paths built from it are the branches above it, which pass the check. -/
theorem findCommonAncestor_forks (b : BlockIndex) (htree : b.TreeShaped)
    (newBest oldBest : BlockIndexEntry) (hnew : b.Indexed newBest) (hold : b.Indexed oldBest) :
    (∀ n, newBest.height + 1 < n → oldBest.height + 1 < n →
      b.findCommonAncestorLoop n newBest oldBest = some (b.findCommonAncestor newBest oldBest)) ∧
    (b.findCommonAncestor newBest oldBest = none ↔ ¬ ∃ a, b.Indexed a ∧
      b.Descends newBest.blockHash a.blockHash ∧ b.Descends oldBest.blockHash a.blockHash) ∧
    ∀ fork, b.findCommonAncestor newBest oldBest = some fork →
      b.DeepestCommon newBest oldBest fork ∧
      (∀ n, oldBest.height + 1 < n → b.pathLoop n fork oldBest = some (b.pathAbove fork oldBest)) ∧
      (∀ n, newBest.height + 1 < n → b.pathLoop n fork newBest = some (b.pathAbove fork newBest)) ∧
      b.BranchAbove fork oldBest (b.pathAbove fork oldBest) ∧
      b.BranchAbove fork newBest (b.pathAbove fork newBest) ∧
      ReorgManager.validateReorgPaths fork (b.pathAbove fork oldBest)
        (b.pathAbove fork newBest).reverse = .ok () := by
  refine ⟨fun n hn hn' => findCommonAncestorLoop_eq htree hnew hold hn hn',
    findCommonAncestor_eq_none_iff htree hnew hold, ?_⟩
  intro fork hfork
  have hdeepest := findCommonAncestor_deepest htree hnew hold hfork
  have habove := branchAbove_pathAbove htree hdeepest.indexed hold hdeepest.right
  have habove' := branchAbove_pathAbove htree hdeepest.indexed hnew hdeepest.left
  exact ⟨hdeepest, fun n hn => pathLoop_eq htree fork hold hn,
    fun n hn => pathLoop_eq htree fork hnew hn, habove, habove',
    validateReorgPaths_ok htree hnew habove habove'⟩

end paths
end BlockIndex

/-! A chain of three blocks that is the main chain, and a block beside it on the first one. -/
namespace WalkExample

def entry (name parent : UInt8) (height : ℕ) (status : Finset BlockStatus) : BlockIndexEntry where
  height
  blockHash := [name]
  header :=
    { version := 1, prevBlockHash := [parent], merkleRoot := [], timestamp := 0, bits := 0, nonce := 0 }
  chainwork := height
  status

def root : BlockIndexEntry := entry 0 9 0 {.VALID, .MAIN_CHAIN}

def first : BlockIndexEntry := entry 1 0 1 {.VALID, .MAIN_CHAIN}

def second : BlockIndexEntry := entry 2 1 2 {.VALID, .MAIN_CHAIN}

def side : BlockIndexEntry := entry 3 0 1 {.VALID, .SIDE_CHAIN}

def index : BlockIndex where
  index := ⟨[root, first, second, side].map fun e => (e.blockHash, e), by decide⟩
  heightIndex h := [root.blockHash, first.blockHash, second.blockHash][h]?
  bestHeight := 2
  bestHash := some second.blockHash

lemma index_treeShaped : index.TreeShaped :=
  BlockIndex.treeShaped_of_rows (by decide) (by decide)

end WalkExample

open BlockIndex WalkExample in
theorem findCommonAncestor_forks_side :
    (∀ n, second.height + 1 < n → side.height + 1 < n →
      index.findCommonAncestorLoop n second side = some (some root)) ∧
    index.DeepestCommon second side root ∧ index.BranchAbove root second [second, first] ∧
      ReorgManager.validateReorgPaths root [side] [first, second] = .ok () := by
  have hfork : index.findCommonAncestor second side = some root := by decide
  have hpaths : index.pathAbove root side = [side] ∧ index.pathAbove root second = [second, first] := by
    decide
  obtain ⟨hloop, -, hforks⟩ :=
    findCommonAncestor_forks index index_treeShaped second side rfl rfl
  obtain ⟨hdeepest, -, -, -, habove, hok⟩ := hforks root hfork
  rw [hfork] at hloop
  rw [hpaths.2] at habove
  rw [hpaths.1, hpaths.2] at hok
  exact ⟨hloop, hdeepest, habove, hok⟩

end BerzCoin
