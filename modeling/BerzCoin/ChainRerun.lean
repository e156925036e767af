import BerzCoin.ChainTwins
import BerzCoin.ChainValidation
import BerzCoin.ChainWalks
import BerzCoin.StorageGrowth

/-! The real reorganisation after its dry run. The dry run leaves an index of the same shape and the
same UTXO set, undo rows and blocks, so what it tried goes through once more. -/
namespace BerzCoin
open Database BlockIndex

/-! The entries of two indexes of the same shape. -/
namespace BlockIndex
variable {b b' : BlockIndex} {e e' x x' y y' : BlockIndexEntry}

lemma SameShape.ancestors (h : SameShape b b') (he : e'.core = e.core) :
    (b'.ancestors e').map BlockIndexEntry.core = (b.ancestors e).map BlockIndexEntry.core := by
  have hheader : e'.header = e.header := congrArg (fun c => c.2.2.1) he
  rw [BlockIndex.ancestors, BlockIndex.ancestors, List.map_cons, List.map_cons, he, hheader, h.branch]

lemma core_height (h : e'.core = e.core) : e'.height = e.height := congrArg (fun c => c.1) h

lemma core_blockHash (h : e'.core = e.core) : e'.blockHash = e.blockHash :=
  congrArg (fun c => c.2.1) h

lemma SameShape.climb (h : SameShape b b') (he : e'.core = e.core) (height : ℕ) :
    (b'.climb e' height).map BlockIndexEntry.core = (b.climb e height).map BlockIndexEntry.core := by
  have hfind (l : List BlockIndexEntry) : (l.find? (·.height ≤ height)).map BlockIndexEntry.core =
      (l.map BlockIndexEntry.core).find? fun c => decide (c.1 ≤ height) := by
    rw [List.find?_map]
    rfl
  rw [BlockIndex.climb, BlockIndex.climb, hfind, hfind, h.ancestors he]

lemma SameShape.findCommonAncestor (h : SameShape b b') (hx : x'.core = x.core)
    (hy : y'.core = y.core) :
    (b'.findCommonAncestor x' y').map BlockIndexEntry.core =
      (b.findCommonAncestor x y).map BlockIndexEntry.core := by
  have hfirst := h.climb hx y.height
  unfold BlockIndex.findCommonAncestor
  rw [core_height hy]
  cases hc : b.climb x y.height with
  | none =>
    rw [hc, Option.map_none, Option.map_eq_none_iff] at hfirst
    rw [hfirst]
    rfl
  | some u =>
    rw [hc] at hfirst
    obtain ⟨u', hc', hu⟩ := Option.map_eq_some_iff.1 hfirst
    have hsecond := h.climb hy u.height
    simp only [hc', Option.bind_eq_bind, Option.bind_some, core_height hu]
    cases hd : b.climb y u.height with
    | none =>
      rw [hd, Option.map_none, Option.map_eq_none_iff] at hsecond
      rw [hsecond]
      rfl
    | some v =>
      rw [hd] at hsecond
      obtain ⟨v', hd', hv⟩ := Option.map_eq_some_iff.1 hsecond
      have hfind (l m : List BlockIndexEntry) :
          (((l.zip m).find? fun p => p.1.blockHash = p.2.blockHash).bind fun pair =>
              some pair.1).map BlockIndexEntry.core =
            (((l.map BlockIndexEntry.core).zip (m.map BlockIndexEntry.core)).find? fun p =>
              decide (p.1.2.1 = p.2.2.1)).map Prod.fst := by
        rw [List.zip_map, List.find?_map, Option.map_map]
        have hsame : ((fun p => decide (p.1.2.1 = p.2.2.1)) ∘
            Prod.map BlockIndexEntry.core BlockIndexEntry.core) =
            fun p : BlockIndexEntry × BlockIndexEntry => decide (p.1.blockHash = p.2.blockHash) := rfl
        rw [hsame]
        cases (l.zip m).find? fun p => p.1.blockHash = p.2.blockHash <;> rfl
      simp only [hd', Option.bind_some]
      refine (hfind _ _).trans (Eq.trans ?_ (hfind _ _).symm)
      rw [h.ancestors hu, h.ancestors hv]

end BlockIndex

namespace ReorgManager
variable {H : Hashlib} {maxReorgDepth : ℕ} {newBest oldBest newBest' oldBest' : BlockIndexEntry}
variable {b b' : BlockIndex} {disconnectEntries connectEntries : List BlockIndexEntry}

/-- The plan is made from the shape of the index. -/
lemma plan_core (h : SameShape b b') (htree : b.TreeShaped) (hnew : newBest'.core = newBest.core)
    (hold : oldBest'.core = oldBest.core) (hnewIn : b'.Indexed newBest') (holdIn : b'.Indexed oldBest')
    (hplan : plan maxReorgDepth newBest oldBest b = some (disconnectEntries, connectEntries)) :
    ∃ disconnectEntries' connectEntries',
      plan maxReorgDepth newBest' oldBest' b' = some (disconnectEntries', connectEntries') ∧
      disconnectEntries'.map BlockIndexEntry.core = disconnectEntries.map BlockIndexEntry.core ∧
      connectEntries'.map BlockIndexEntry.core = connectEntries.map BlockIndexEntry.core := by
  have htree' := h.treeShaped htree
  have hforks := h.findCommonAncestor hnew hold
  obtain ⟨fork, hfork, hdisc, hconn⟩ := plan_eq_some hplan
  rw [hfork] at hforks
  obtain ⟨fork', hfork', hcore⟩ := Option.map_eq_some_iff.1 hforks
  obtain ⟨hforkIn, hdescNew, hdescOld⟩ := findCommonAncestor_descends htree' hnewIn holdIn hfork'
  have hpaths := validateReorgPaths_ok htree' hnewIn
    (branchAbove_pathAbove htree' hforkIn holdIn hdescOld)
    (branchAbove_pathAbove htree' hforkIn hnewIn hdescNew)
  have hdepth : ¬ maxReorgDepth < oldBest'.height - fork'.height := by
    intro hlt
    rw [core_height hold, core_height hcore] at hlt
    simp only [plan, hfork, hlt, if_true] at hplan
    cases hplan
  have hpath (tip tip' : BlockIndexEntry) (htip : tip'.core = tip.core) :
      (b'.pathAbove fork' tip').map BlockIndexEntry.core =
        (b.pathAbove fork tip).map BlockIndexEntry.core := by
    unfold pathAbove
    rw [core_height hcore]
    have htake (l : List BlockIndexEntry) :
        (l.takeWhile (fork.height < ·.height)).map BlockIndexEntry.core =
          (l.map BlockIndexEntry.core).takeWhile fun c => decide (fork.height < c.1) := by
      rw [List.takeWhile_map]
      rfl
    rw [htake, htake, h.ancestors htip]
  refine ⟨b'.pathAbove fork' oldBest', (b'.pathAbove fork' newBest').reverse, ?_, ?_, ?_⟩
  · simp only [plan, hfork', hdepth, if_false, hpaths]
  · rw [hdisc, hpath _ _ hold]
  · rw [hconn, List.map_reverse, List.map_reverse, hpath _ _ hnew]

/-! Validation in two states that show the branch of the block. -/

/-- Validation that depends on the branch of the block and on what connecting looks at. -/
def ReadsOwnBranch (H : Hashlib) (v : Block → ℕ → Tables × BlockIndex → Except PyError Bool) : Prop :=
  ∀ block height d d', Alike d d' → OwnBranch H block height d.2 → OwnBranch H block height d'.2 →
    v block height d = v block height d'

open Classical in
/-- The same validation, made to answer alike in like states: it is asked in a state that shows the
branch of the block, if there is one. -/
noncomputable def settled (H : Hashlib) (v : Block → ℕ → Tables × BlockIndex → Except PyError Bool) :
    Block → ℕ → Tables × BlockIndex → Except PyError Bool := fun block height d =>
  if h : ∃ d₀, Alike d d₀ ∧ OwnBranch H block height d₀.2 then v block height h.choose
  else if d.2.TreeShaped then .ok true
  else v block height d

section settled
variable {v : Block → ℕ → Tables × BlockIndex → Except PyError Bool}

lemma settled_eq (hreads : ReadsOwnBranch H v) {block : Block} {height : ℕ}
    {d d₀ : Tables × BlockIndex} (h : Alike d d₀) (hown : OwnBranch H block height d₀.2) :
    settled H v block height d = v block height d₀ := by
  have hex : ∃ d₀, Alike d d₀ ∧ OwnBranch H block height d₀.2 := ⟨d₀, h, hown⟩
  rw [settled, dif_pos hex]
  exact hreads _ _ _ _ (hex.choose_spec.1.symm.trans h) hex.choose_spec.2 hown

lemma settled_agrees (hreads : ReadsOwnBranch H v) : AgreeOnBranch H v (settled H v) := by
  intro block height d hown
  by_cases htree : d.2.TreeShaped
  · exact (settled_eq hreads (.refl htree) hown).symm
  · have hno : ¬ ∃ d₀, Alike d d₀ ∧ OwnBranch H block height d₀.2 := by
      rintro ⟨d₀, h, -⟩
      exact htree h.tree
    rw [settled, dif_neg hno, if_neg htree]

lemma settled_blind (hreads : ReadsOwnBranch H v) (block : Block) (height : ℕ)
    (d d' : Tables × BlockIndex) (h : Alike d d') :
    settled H v block height d = settled H v block height d' := by
  by_cases hex : ∃ d₀, Alike d d₀ ∧ OwnBranch H block height d₀.2
  · obtain ⟨d₀, hd, hown⟩ := hex
    rw [settled_eq hreads hd hown, settled_eq hreads (h.symm.trans hd) hown]
  · have hex' : ¬ ∃ d₀, Alike d' d₀ ∧ OwnBranch H block height d₀.2 := by
      rintro ⟨d₀, hd, hown⟩
      exact hex ⟨d₀, h.trans hd, hown⟩
    rw [settled, settled, dif_neg hex, dif_neg hex', if_pos h.tree, if_pos h.symm.tree]

end settled

section rerun
variable {get : Bytes → Tables × BlockIndex → Except PyError (Option Block)}
variable {v : Block → ℕ → Tables × BlockIndex → Except PyError Bool}
variable {s t : Session Tables BlockIndex}

/-- What a dry run leaves is like what it found. -/
lemma canReorganize_alike (H : Hashlib) (calls : ReorgCallbacks) (maxReorgDepth : ℕ)
    (newBest oldBest : BlockIndexEntry) (htree : s.memory.TreeShaped) :
    Alike s.data ((canReorganize H calls maxReorgDepth newBest oldBest).final s).data := by
  have hblocks := @canReorganize_le H calls Prop _ _
    (Tables.steady_blocks fun rows => rows = s.conn.current.blocks) maxReorgDepth newBest oldBest s rfl
  have hshape : SameShape s.memory
      ((canReorganize H calls maxReorgDepth newBest oldBest).final s).memory := by
    rcases @canReorganize_memory H calls s maxReorgDepth newBest oldBest with hmem | ⟨b, hb, hmem⟩
    · rw [hmem]
      exact .refl _
    · rw [hmem]
      cases s.memory.bestHash with
      | none => exact hb
      | some best => exact hb.trans (sameShape_tipped b best)
  cases hplan : plan maxReorgDepth newBest oldBest s.memory with
  | none =>
    simp only [Db.final, canReorganize_of_plan_none hplan]
    exact .refl htree
  | some paths =>
    obtain ⟨-, hutxo, hundo⟩ := (@canReorganize_spec H calls _ _ _ s _ _ hplan).1
    exact ⟨htree, hshape, hutxo, hundo, hblocks⟩

/-- After a dry run that returns true, the real run succeeds in the state that it left. -/
lemma reorganize_after_canReorganize
    (hget : ∀ k d d', Alike d d' → get k d = get k d') (hreads : ReadsOwnBranch H v)
    (h : Prepared H get newBest oldBest s.memory) (h' : Prepared H get newBest' oldBest' t.memory)
    (hnew : newBest'.core = newBest.core) (hold : oldBest'.core = oldBest.core)
    (hcan : canReorganize H ⟨get, some v⟩ maxReorgDepth newBest oldBest s = .ok true t) :
    ∃ xs ys t', reorganize H ⟨get, some v⟩ maxReorgDepth newBest' oldBest' t = .ok (true, xs, ys) t' := by
  have hagree := settled_agrees hreads
  have hcalls : BlindCalls ⟨get, some (settled H v)⟩ := ⟨hget, settled_blind hreads⟩
  have halike := canReorganize_alike H ⟨get, some v⟩ maxReorgDepth newBest oldBest h.tree
  simp only [Db.final, hcan] at halike
  rw [canReorganize_congr h hagree] at hcan
  rw [reorganize_congr h' hagree]
  cases hplan : plan maxReorgDepth newBest oldBest s.memory with
  | none =>
    rw [canReorganize_of_plan_none hplan] at hcan
    cases hcan
  | some paths =>
    obtain ⟨disconnectEntries, connectEntries⟩ := paths
    obtain ⟨blocks, d, hsteps⟩ := (canReorganize_spec hplan).2.1 ⟨t, hcan⟩
    obtain ⟨disconnectEntries', connectEntries', hplan', hdisc, hconn⟩ :=
      plan_core halike.shape h.tree hnew hold h'.hnew h'.hold hplan
    have hpaired := (blind_steps (H := H) hcalls disconnectEntries connectEntries).paired _ _ halike
    rw [hsteps, ← steps_congr_core hdisc hconn] at hpaired
    obtain ⟨d', hsteps'⟩ : ∃ d', inside (steps H ⟨get, some (settled H v)⟩ disconnectEntries'
        connectEntries') t.data = .ok blocks d' := by
      generalize inside (steps H ⟨get, some (settled H v)⟩ disconnectEntries' connectEntries') t.data =
        r at hpaired ⊢
      cases hpaired with
      | ok _ _ => exact ⟨_, rfl⟩
    have hheight : ∀ x ∈ disconnectEntries' ++ connectEntries',
        t.memory.getHeight x.blockHash ≠ none := by
      intro x hx
      rw [(plan_indexed h'.tree h'.hnew h'.hold hplan' x hx).getHeight]
      simp
    have hassert := @steps_flags H ⟨get, some (settled H v)⟩ t.data _ _ _ h'.requested hheight
      (plan_disjoint h'.tree h'.hnew h'.hold hplan') _ hsteps'
    exact reorganize_true_iff.2 ⟨_, _, hplan', reorganizeBody_returns_iff.2 ⟨blocks, d', hsteps', hassert⟩⟩

end rerun
end ReorgManager

/-! `BlockValidator` reads the branch of the block only. -/
namespace BlockIndex
variable {b b' : BlockIndex}

/-- Where both indexes show the branch of one block, they give the same entries below its height. -/
lemma Shows.getBlockByHeight_core {tip : Bytes} {n k : ℕ} (hb : b.Shows tip n)
    (htree : b.TreeShaped) (h : SameShape b b') (hb' : b'.Shows tip n) (hk : k < n) :
    (b'.getBlockByHeight k).map BlockIndexEntry.core =
      (b.getBlockByHeight k).map BlockIndexEntry.core := by
  obtain ⟨e, he, hheight, hdesc⟩ := hb k hk
  obtain ⟨e', he', hheight', hdesc'⟩ := hb' k hk
  obtain ⟨x, -, hx⟩ := Option.bind_eq_some_iff.1 he
  obtain ⟨x', -, hx'⟩ := Option.bind_eq_some_iff.1 he'
  obtain ⟨f, hf, hcore⟩ := h.of_some hx'
  have hkey := htree.key x e hx
  have hkey' := (h.treeShaped htree).key x' e' hx'
  have hfheight : f.height = k := (core_height hcore).symm.trans hheight'
  rw [h.descends, hkey'] at hdesc'
  have hbetween := hdesc.between htree hdesc' (by rw [hkey]; exact hx) hf (by omega)
  have hsame := (descends_height htree hbetween hf (h := e.height) (by simp [getHeight, hkey, hx])).2
    (by omega)
  rw [hsame, hkey, hx] at hf
  cases hf
  rw [he, he']
  exact congrArg some hcore

end BlockIndex

namespace BlockValidator
variable {b b' : BlockIndex} {height : ℕ}

lemma headersFrom_core {n start count : ℕ}
    (h : ∀ k < n, (b'.getBlockByHeight k).map BlockIndexEntry.core =
      (b.getBlockByHeight k).map BlockIndexEntry.core)
    (hle : start + count ≤ n) : headersFrom b' start count = headersFrom b start count := by
  have hheader (c : BlockIndex) (k : ℕ) : (c.getBlockByHeight k).map BlockIndexEntry.header =
      ((c.getBlockByHeight k).map BlockIndexEntry.core).map fun p => p.2.2.1 := by
    rw [Option.map_map]
    rfl
  induction count generalizing start with
  | zero => rfl
  | succ count ih =>
    have hrest := @ih (start + 1) (by omega)
    unfold headersFrom at hrest ⊢
    rw [List.range'_succ, List.mapM_cons, List.mapM_cons, hheader, hheader b, h start (by omega), hrest]

lemma pastTimes_core (params : ConsensusParams)
    (h : ∀ k < height, (b'.getBlockByHeight k).map BlockIndexEntry.core =
      (b.getBlockByHeight k).map BlockIndexEntry.core) :
    pastTimes params b' height = pastTimes params b height := by
  unfold pastTimes
  simp only
  refine List.filterMap_congr ?_
  intro k hk
  have hrange := List.mem_range'_1.1 hk
  have htime (c : BlockIndex) : (c.getBlockByHeight k).map (fun e => e.header.timestamp.toNat) =
      ((c.getBlockByHeight k).map BlockIndexEntry.core).map fun p => p.2.2.1.timestamp.toNat := by
    rw [Option.map_map]
    rfl
  rw [htime, htime b, h k (by omega)]

/-- Two indexes of one shape that show the branch of a block give the same verdict on it. -/
lemma validateBlock_ownBranch {C : Script.Crypto} {params : ConsensusParams}
    {getUtxo : Outpoint → Option UtxoRow} {now : ℕ} {block : Block} (htree : b.TreeShaped)
    (h : SameShape b b') (hown : OwnBranch C.toHashlib block height b)
    (hown' : OwnBranch C.toHashlib block height b') :
    validateBlock C params getUtxo b now block height =
      validateBlock C params getUtxo b' now block height := by
  have htip : b'.parentHashOf C.toHashlib block = b.parentHashOf C.toHashlib block := by
    have hcore := h.core (block.header.hashHex C.toHashlib)
    unfold parentHashOf
    cases he : b.getBlock (block.header.hashHex C.toHashlib) with
    | none =>
      rw [he, Option.map_none, Option.map_eq_none_iff] at hcore
      rw [hcore]
    | some e =>
      obtain ⟨e', he', hcore'⟩ := h.getBlock he
      have hheader : e'.header = e.header := congrArg (fun c => c.2.2.1) hcore'
      rw [he']
      simp only [hheader]
  rw [OwnBranch, htip] at hown'
  have hentries : ∀ k < height, (b'.getBlockByHeight k).map BlockIndexEntry.core =
      (b.getBlockByHeight k).map BlockIndexEntry.core := fun k hk =>
    hown.getBlockByHeight_core htree h hown' hk
  have hbits (e e' : BlockIndexEntry) (hcore : e'.core = e.core) :
      expectedBitsForHeight params b' height e' = expectedBitsForHeight params b height e := by
    have hheader : e'.header = e.header := congrArg (fun c => c.2.2.1) hcore
    unfold expectedBitsForHeight
    simp only [hheader]
    split_ifs with hzero hkeep
    · rfl
    · rfl
    · rw [headersFrom_core hentries (by omega)]
  have hheader : validateHeader C params b block.header height =
      validateHeader C params b' block.header height := by
    unfold validateHeader
    have hprev := h.core block.header.prevBlockHash
    cases he : b.getBlock block.header.prevBlockHash with
    | none =>
      rw [he, Option.map_none, Option.map_eq_none_iff] at hprev
      rw [hprev]
    | some e =>
      obtain ⟨e', he', hcore⟩ := h.getBlock he
      rw [he']
      simp only [hbits e e' hcore]
  have htimes : validateTimestamps params b now block height =
      validateTimestamps params b' now block height := by
    unfold validateTimestamps medianTimePast
    rw [pastTimes_core params hentries]
  unfold validateBlock
  rw [hheader]
  simp only [htimes]

end BlockValidator
end BerzCoin
