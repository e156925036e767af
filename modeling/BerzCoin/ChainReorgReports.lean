import BerzCoin.ChainReorgContext

/-! The blocks that a reorganisation reports are those of its two paths, as they were read. -/
namespace BerzCoin
open Database BlockIndex

/-- What a block of a transaction returns is what its body returned. -/
lemma transaction_returns {σ ι α : Type} {body : Db σ ι α} {s s' : Session σ ι} {a : α}
    (h : transaction body s = .ok a s') :
    ∃ t t', body t = .ok a t' ∧ t.memory = s.memory ∧ t.conn.current = s.conn.current := by
  unfold transaction at h
  split_ifs at h
  · cases hbody : body s with
    | error e t => simp [hbody] at h
    | ok b t =>
      simp only [hbody] at h
      cases h
      exact ⟨s, _, hbody, rfl, rfl⟩
  · cases hbody : body { s with conn := s.conn.begin } with
    | error e t => simp [hbody] at h
    | ok b t =>
      simp only [hbody] at h
      cases h
      exact ⟨_, t, hbody, rfl, rfl⟩

lemma Database.Preserves.ok {σ ι α : Type} {P : ι → Prop} {x : Db σ ι α} {s s' : Session σ ι} {a : α}
    (hx : Preserves P x) (h : x s = .ok a s') (hs : P s.memory) : P s'.memory := by
  have hfinal := hx s hs
  rwa [Db.final, h] at hfinal

namespace ReorgManager
variable {H : Hashlib} {calls : ReorgCallbacks} {s s' : Session Tables BlockIndex}
variable {b₀ : BlockIndex} {entry : BlockIndexEntry} {block : Block}

/-- A step returns the block that it read, if that is the one that was asked for. -/
def StepReads (H : Hashlib) (b₀ : BlockIndex) (step : BlockIndexEntry → ChainDb Block) : Prop :=
  ∀ entry s block s', SameShape b₀ s.memory → step entry s = .ok block s' →
    block.header.hashHex H = entry.blockHash ∧ SameShape b₀ s'.memory

lemma sameShape_markMainChain (b₀ : BlockIndex) (k : Bytes) (isMain : Bool) :
    Preserves (SameShape b₀) (BlockIndex.markMainChain k isMain) :=
  markMainChain_preserves fun b h => h.trans (sameShape_marked b k isMain)

lemma markAndReturn_ok {k : Bytes} {isMain : Bool} {returned : Block} (hshape : SameShape b₀ s.memory)
    (h : (do BlockIndex.markMainChain k isMain; return block : ChainDb Block) s = .ok returned s') :
    returned = block ∧ SameShape b₀ s'.memory := by
  rw [Db.bind_apply] at h
  cases hmark : BlockIndex.markMainChain k isMain s with
  | error e t => simp [hmark] at h
  | ok u t =>
    simp only [hmark] at h
    cases h
    exact ⟨rfl, (sameShape_markMainChain b₀ k isMain).ok hmark hshape⟩

lemma disconnectStep_reads (hreq : RequestedOver H b₀ calls.getBlock) :
    StepReads H b₀ (disconnectStep H calls) := by
  intro entry s block s' hshape h
  simp only [disconnectStep, Db.bind_apply, consult_apply] at h
  cases hget : calls.getBlock entry.blockHash s.data with
  | error e => simp [hget] at h
  | ok found =>
    cases found with
    | none =>
      simp only [hget, Db.throw_apply] at h
      cases h
    | some found =>
      have hhash := hreq _ _ found hshape hget
      simp only [hget, Db.bind_apply] at h
      cases hd : disconnect H found s with
      | error e t => simp [hd] at h
      | ok ok t =>
        have hshape' : SameShape b₀ t.memory :=
          (disconnect_preserves (P := SameShape b₀)
            fun b h => h.trans (sameShape_marked b _ false)).ok hd hshape
        cases ok with
        | false =>
          simp only [hd, Bool.not_false, if_true, Db.bind_apply, Db.throw_apply] at h
          cases h
        | true =>
          simp only [hd, Bool.not_true, Bool.false_eq_true, if_false] at h
          obtain ⟨rfl, hend⟩ := markAndReturn_ok hshape' h
          exact ⟨hhash, hend⟩

lemma connectStep_reads (hreq : RequestedOver H b₀ calls.getBlock) :
    StepReads H b₀ (connectStep H calls) := by
  intro entry s block s' hshape h
  simp only [connectStep, Db.bind_apply, consult_apply] at h
  cases hget : calls.getBlock entry.blockHash s.data with
  | error e => simp [hget] at h
  | ok found =>
    cases found with
    | none =>
      simp only [hget, Db.throw_apply] at h
      cases h
    | some found =>
      have hhash := hreq _ _ found hshape hget
      simp only [hget, Db.bind_apply] at h
      cases hv : validated calls found entry.height s with
      | error e t => simp [hv] at h
      | ok valid t =>
        have hshape₁ : SameShape b₀ t.memory := (validated_preserves found entry.height).ok hv hshape
        cases valid with
        | false =>
          simp only [hv, Bool.not_false, if_true, Db.bind_apply, Db.throw_apply] at h
          cases h
        | true =>
          simp only [hv, Bool.not_true, Bool.false_eq_true, if_false, Db.bind_apply] at h
          cases hc : connectBlock H found t with
          | error e t' => simp [hc] at h
          | ok ok t' =>
            have hshape₂ : SameShape b₀ t'.memory :=
              (connect_preserves (P := SameShape b₀)
                fun b h => h.trans (sameShape_marked b _ true)).ok hc hshape₁
            cases ok with
            | false =>
              simp only [hc, Bool.not_false, if_true, Db.bind_apply, Db.throw_apply] at h
              cases h
            | true =>
              simp only [hc, Bool.not_true, Bool.false_eq_true, if_false] at h
              obtain ⟨rfl, hend⟩ := markAndReturn_ok hshape₂ h
              exact ⟨hhash, hend⟩

lemma StepReads.runSteps {step : BlockIndexEntry → ChainDb Block} (hstep : StepReads H b₀ step)
    {entries : List BlockIndexEntry} {blocks : List Block} (hshape : SameShape b₀ s.memory)
    (h : runSteps step entries s = .ok blocks s') :
    blocks.map (·.header.hashHex H) = entries.map (·.blockHash) ∧ SameShape b₀ s'.memory := by
  induction entries generalizing s blocks with
  | nil =>
    cases h
    exact ⟨rfl, hshape⟩
  | cons entry entries ih =>
    simp only [ReorgManager.runSteps, Db.bind_apply] at h
    cases hfirst : step entry s with
    | error e t => simp [hfirst] at h
    | ok block t =>
      obtain ⟨hhash, hshape'⟩ := hstep entry s block t hshape hfirst
      simp only [hfirst] at h
      cases hrest : ReorgManager.runSteps step entries t with
      | error e t' => simp [hrest] at h
      | ok blocks' t' =>
        simp only [hrest] at h
        cases h
        obtain ⟨hhashes, hend⟩ := ih hshape' hrest
        exact ⟨by simp [hhash, hhashes], hend⟩

lemma reorganizeBody_reads (hreq : RequestedOver H b₀ calls.getBlock)
    {disconnectEntries connectEntries : List BlockIndexEntry} {k : Bytes} {xs ys : List Block}
    (hshape : SameShape b₀ s.memory)
    (h : reorganizeBody H calls disconnectEntries connectEntries k s = .ok (xs, ys) s') :
    xs.map (·.header.hashHex H) = disconnectEntries.map (·.blockHash) ∧
      ys.map (·.header.hashHex H) = connectEntries.map (·.blockHash) := by
  simp only [reorganizeBody, Db.bind_apply] at h
  cases hd : runSteps (disconnectStep H calls) disconnectEntries s with
  | error e t => simp [hd] at h
  | ok disconnected t =>
    obtain ⟨hdisconnected, hshape'⟩ := (disconnectStep_reads hreq).runSteps hshape hd
    simp only [hd] at h
    cases hc : runSteps (connectStep H calls) connectEntries t with
    | error e t' => simp [hc] at h
    | ok connected t' =>
      obtain ⟨hconnected, -⟩ := (connectStep_reads hreq).runSteps hshape' hc
      simp only [hc, read_apply, id] at h
      cases hlift : (liftExcept (assertPostReorgInvariants t'.memory disconnectEntries
          connectEntries) : ChainDb Unit) t' with
      | error e t₃ => simp [hlift] at h
      | ok u t₃ =>
        simp only [hlift] at h
        cases htip : BlockIndex.setBestChainTip k t₃ with
        | error e t₄ => simp [htip] at h
        | ok u' t₄ =>
          simp only [htip] at h
          cases h
          exact ⟨hdisconnected, hconnected⟩

/-- A completed reorganisation ran its body, from the data that it found, over the two paths of its
plan. -/
lemma reorganize_body {maxReorgDepth : ℕ} {newBest oldBest : BlockIndexEntry} {xs ys : List Block}
    (h : reorganize H calls maxReorgDepth newBest oldBest s = .ok (true, xs, ys) s') :
    ∃ disconnectEntries connectEntries,
      plan maxReorgDepth newBest oldBest s.memory = some (disconnectEntries, connectEntries) ∧
        ∃ t t', reorganizeBody H calls disconnectEntries connectEntries newBest.blockHash t =
          .ok (xs, ys) t' ∧ t.memory = s.memory ∧ t.conn.current = s.conn.current := by
  simp only [reorganize, Db.bind_apply, read_apply, id, plan] at h ⊢
  cases hfork : s.memory.findCommonAncestor newBest oldBest with
  | none => simp [hfork, Db.pure_apply] at h
  | some fork =>
    simp only [hfork] at h ⊢
    by_cases hdepth : maxReorgDepth < oldBest.height - fork.height
    · simp [hdepth, Db.pure_apply] at h
    · simp only [hdepth, if_false] at h ⊢
      cases hpaths : validateReorgPaths fork (s.memory.pathAbove fork oldBest)
          (s.memory.pathAbove fork newBest).reverse with
      | error e =>
        obtain ⟨t, ht, -⟩ := rollBack_apply [] oldBest.blockHash s
        simp [hpaths, ht] at h
      | ok u =>
        simp only [hpaths, Db.tryCatch_apply, Db.bind_apply] at h
        cases htx : transaction (reorganizeBody H calls (s.memory.pathAbove fork oldBest)
            (s.memory.pathAbove fork newBest).reverse newBest.blockHash) s with
        | error e t =>
          obtain ⟨t', ht', -⟩ := rollBack_apply
            (s.memory.snapshotStatuses ((s.memory.pathAbove fork oldBest ++
              (s.memory.pathAbove fork newBest).reverse).map (·.blockHash))) oldBest.blockHash t
          simp only [htx, ht'] at h
          cases h
        | ok r t =>
          obtain ⟨xs', ys'⟩ := r
          simp only [htx] at h
          cases h
          exact ⟨_, _, rfl, transaction_returns htx⟩

lemma reorganize_reads (hreq : RequestedOver H s.memory calls.getBlock) {maxReorgDepth : ℕ}
    {newBest oldBest : BlockIndexEntry} {xs ys : List Block}
    (h : reorganize H calls maxReorgDepth newBest oldBest s = .ok (true, xs, ys) s') :
    ∃ disconnectEntries connectEntries,
      plan maxReorgDepth newBest oldBest s.memory = some (disconnectEntries, connectEntries) ∧
        xs.map (·.header.hashHex H) = disconnectEntries.map (·.blockHash) ∧
        ys.map (·.header.hashHex H) = connectEntries.map (·.blockHash) := by
  obtain ⟨disconnectEntries, connectEntries, hplan, t, t', hbody, hmem, -⟩ := reorganize_body h
  exact ⟨_, _, hplan, reorganizeBody_reads hreq (by rw [hmem]; exact .refl _) hbody⟩

/-- Something is connected where the new tip is not an ancestor of the old one. -/
lemma plan_connects {b : BlockIndex} (htree : b.TreeShaped) {newBest oldBest : BlockIndexEntry}
    (hnew : b.Indexed newBest) (hold : b.Indexed oldBest)
    (hside : ¬ b.Descends oldBest.blockHash newBest.blockHash) {maxReorgDepth : ℕ}
    {disconnectEntries connectEntries : List BlockIndexEntry}
    (hplan : plan maxReorgDepth newBest oldBest b = some (disconnectEntries, connectEntries)) :
    connectEntries ≠ [] := by
  obtain ⟨fork, hfork, -, rfl⟩ := plan_eq_some hplan
  obtain ⟨hindexed, hdescNew, hdescOld⟩ := findCommonAncestor_descends htree hnew hold hfork
  have hheight : b.getHeight newBest.blockHash = some newBest.height := by
    have hget : b.getBlock newBest.blockHash = some newBest := hnew
    simp [getHeight, hget]
  obtain ⟨hle, heq⟩ := descends_height htree hdescNew hindexed hheight
  intro hnil
  have hlow : ¬ fork.height < newBest.height := by
    simpa [pathAbove, ancestors] using hnil
  have hsame := heq (by omega)
  rw [hsame] at hdescOld
  exact hside hdescOld

/-! The blocks of the branch of the new tip: those that are connected, and those below the fork. -/
section branches
variable {b : BlockIndex} {root aboveRoot : Bytes} {newBest oldBest fork : BlockIndexEntry}

lemma mem_takeWhile_of_pairwise {α : Type} {f : α → ℕ} {n : ℕ} {l : List α} {x : α}
    (hl : l.Pairwise fun x y => f y < f x) (hx : x ∈ l) (hn : n < f x) :
    x ∈ l.takeWhile (n < f ·) := by
  induction l with
  | nil => cases hx
  | cons y l ih =>
    obtain ⟨hhead, htail⟩ := List.pairwise_cons.1 hl
    have hy : n < f y := by
      rcases List.mem_cons.1 hx with rfl | hx
      · exact hn
      · have hlt := hhead x hx
        omega
    rw [List.takeWhile_cons_of_pos (by simpa using hy)]
    rcases List.mem_cons.1 hx with rfl | hx
    · exact List.mem_cons_self
    · exact List.mem_cons_of_mem _ (ih htail hx)

lemma mem_pathAbove_descends (htree : b.TreeShaped) (hnew : b.Indexed newBest) {x : BlockIndexEntry}
    (hx : x ∈ b.pathAbove fork newBest) :
    b.Indexed x ∧ b.Descends newBest.blockHash x.blockHash ∧ fork.height < x.height := by
  obtain ⟨hindexed, hdesc⟩ := mem_ancestors htree hnew (List.takeWhile_subset _ hx)
  exact ⟨hindexed, hdesc, by simpa using List.mem_takeWhile_imp hx⟩

lemma descends_pathAbove (hroot : b.Rooted root aboveRoot) (hnew : b.Indexed newBest)
    (hfork : b.Indexed fork) (hdesc : b.Descends newBest.blockHash fork.blockHash) {k : Bytes}
    (hk : b.Descends newBest.blockHash k) :
    (∃ x ∈ b.pathAbove fork newBest, x.blockHash = k) ∨ b.Descends fork.blockHash k := by
  have htree := hroot.tree
  cases he : b.getBlock k with
  | none =>
    -- The walk ends at a hash that is not indexed, below every block of the branch.
    refine .inr ?_
    have hunique : Relator.RightUnique b.ParentHash := by
      intro x p q hp hq
      rw [ParentHash] at hp hq
      rw [hp] at hq
      exact Option.some.inj hq
    rcases Relation.ReflTransGen.total_of_right_unique hunique hdesc hk with h | h
    · exact h
    · rcases Relation.ReflTransGen.cases_head h with rfl | ⟨p, hp, -⟩
      · exact .refl
      · rw [ParentHash, he] at hp
        cases hp
  | some e =>
    by_cases hle : e.height ≤ fork.height
    · exact .inr (hdesc.between htree hk hfork he hle)
    · refine .inl ?_
      have hheight : b.getHeight newBest.blockHash = some newBest.height := by
        have hget : b.getBlock newBest.blockHash = some newBest := hnew
        simp [getHeight, hget]
      obtain ⟨hbelow, -⟩ := descends_height htree hk he hheight
      have hbound := hroot.bound newBest.blockHash newBest hnew
      obtain ⟨x, hx, hxheight⟩ := hroot.exists_mem_pathFrom (n := b.index.rows.length + 1) hnew
        (by omega) hbelow
      obtain ⟨hindexed, hxdesc⟩ := mem_pathFrom htree.key hx
      have hxk := hxdesc.between htree hk hindexed he (by omega)
      have hxget : b.getHeight x.blockHash = some x.height := by
        have hget : b.getBlock x.blockHash = some x := hindexed
        simp [getHeight, hget]
      obtain ⟨-, heq⟩ := descends_height htree hxk he hxget
      have hpath : b.ancestors newBest = b.pathFrom (b.index.rows.length + 1) newBest.blockHash := by
        have hget : b.getBlock newBest.blockHash = some newBest := hnew
        rw [pathFrom, hget]
        rfl
      refine ⟨x, mem_takeWhile_of_pairwise ?_ ?_ (by omega), (heq (by omega)).symm⟩
      · rw [hpath]
        exact pairwise_pathFrom htree _ _
      · rw [hpath]
        exact hx

end branches

end ReorgManager

end BerzCoin
