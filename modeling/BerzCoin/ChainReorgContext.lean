import BerzCoin.ChainAncestry

/-! What the height index shows while a chain is switched. Each block of the new branch is
validated when the index shows its own ancestors, so validation can be replaced by any other
function that agrees with it there. -/
namespace BerzCoin
open Database BlockIndex

namespace BlockIndex

/-- The parent of a block: as its entry names it, if there is one. -/
def parentHashOf (H : Hashlib) (b : BlockIndex) (block : Block) : Bytes :=
  match b.getBlock (block.header.hashHex H) with
  | some entry => entry.header.prevBlockHash
  | none => block.header.prevBlockHash

/-- At every height below `height` the index gives the ancestor of the block. -/
def OwnBranch (H : Hashlib) (block : Block) (height : ℕ) (b : BlockIndex) : Prop :=
  b.Shows (b.parentHashOf H block) height

lemma marked_heightIndex {b : BlockIndex} {k : Bytes} {h j : ℕ} (hk : b.getHeight k = some h)
    (hj : j ≠ h) (isMain : Bool) : (b.marked k isMain).heightIndex j = b.heightIndex j := by
  obtain ⟨e, he, rfl⟩ := Option.map_eq_some_iff.1 hk
  have hmarked : b.marked k isMain = b.withMainChain e k isMain := by simp [marked, he]
  rw [hmarked]
  unfold withMainChain
  split_ifs
  · exact Function.update_of_ne hj ..
  · exact Function.update_of_ne hj ..
  · rfl

end BlockIndex

namespace ReorgManager
variable {H : Hashlib} {calls calls' : ReorgCallbacks}
variable {s : Session Tables BlockIndex} {maxReorgDepth : ℕ} {newBest oldBest : BlockIndexEntry}

/-! The index that a dry run or a reorganisation leaves. -/
section memory

lemma steps_sameShape (disconnectEntries connectEntries : List BlockIndexEntry)
    (d : Tables × BlockIndex) :
    Ends (SameShape d.2) (inside (steps H calls disconnectEntries connectEntries) d) := by
  have hdisc := @runSteps_keeps (SameShape d.2) _ (disconnectStep_client H calls) disconnectEntries
      (fun e _ _ h => sameShape_keeps_disconnect d.2 e h) _ (.refl d.2)
  rw [inside_steps]
  cases hd : inside (runSteps (disconnectStep H calls) disconnectEntries) d with
  | error e d₁ =>
    rw [hd] at hdisc
    exact hdisc
  | ok blocks d₁ =>
    rw [hd] at hdisc
    exact runSteps_keeps (P := SameShape d.2) (connectStep_client H calls)
      (fun e _ _ h => sameShape_keeps_connect d.2 e h) hdisc

lemma canReorganize_memory :
    ((canReorganize H calls maxReorgDepth newBest oldBest).final s).memory = s.memory ∨
      ∃ b, SameShape s.memory b ∧
        ((canReorganize H calls maxReorgDepth newBest oldBest).final s).memory =
          retipped b s.memory.bestHash := by
  cases hplan : plan maxReorgDepth newBest oldBest s.memory with
  | none =>
    refine .inl ?_
    rw [Db.final, canReorganize_of_plan_none hplan]
  | some paths =>
    obtain ⟨disconnectEntries, connectEntries⟩ := paths
    obtain ⟨⟨hmem, -⟩, -⟩ := @canReorganize_spec H calls _ _ _ _ _ _ hplan
    have hends := @steps_sameShape H calls disconnectEntries connectEntries s.data
    refine .inr ⟨_, sameShape_restoreStatuses ?_ _, hmem⟩
    cases hr : inside (steps H calls disconnectEntries connectEntries) s.data with
    | ok blocks d =>
      rw [hr] at hends
      exact hends
    | error e d =>
      rw [hr] at hends
      exact hends

lemma reorganizeBody_ok_memory {disconnectEntries connectEntries : List BlockIndexEntry}
    {k : Bytes} {d d' : Tables × BlockIndex} {r : List Block × List Block}
    (h : inside (reorganizeBody H calls disconnectEntries connectEntries k) d = .ok r d') :
    ∃ b, SameShape d.2 b ∧ d'.2 = b.tipped k := by
  have hends := @steps_sameShape H calls disconnectEntries connectEntries d
  rw [inside_steps] at hends
  rw [reorganizeBody, inside_bind (runSteps_client (disconnectStep_client H calls) _) fun _ =>
    .bind (runSteps_client (connectStep_client H calls) _) fun _ =>
      .bind (read_client _) fun _ => .bind (liftExcept_client _) fun _ =>
        .bind (setBestChainTip_client _) fun _ => .ret _] at h
  cases hd : inside (runSteps (disconnectStep H calls) disconnectEntries) d with
  | error e d₁ => simp [hd] at h
  | ok disconnected d₁ =>
    simp only [hd] at h hends
    rw [inside_bind (runSteps_client (connectStep_client H calls) _) fun _ =>
      .bind (read_client _) fun _ => .bind (liftExcept_client _) fun _ =>
        .bind (setBestChainTip_client _) fun _ => .ret _] at h
    cases hc : inside (runSteps (connectStep H calls) connectEntries) d₁ with
    | error e d₂ => simp [hc] at h
    | ok connected d₂ =>
      simp only [hc] at h hends
      have hfinish := @finishReorganize_inside disconnectEntries connectEntries k disconnected
          connected d₂
      cases hassert : assertPostReorgInvariants d₂.2 disconnectEntries connectEntries with
      | error e =>
        simp only [hassert] at hfinish
        rw [hfinish] at h
        cases h
      | ok u =>
        simp only [hassert] at hfinish
        obtain ⟨d₃, h₃, hmem, -⟩ := hfinish
        rw [h₃] at h
        cases h
        exact ⟨d₂.2, hends, hmem⟩

/-- A reorganisation returns; at the end a tip has been chosen, unless nothing was done. -/
lemma reorganize_memory :
    ∃ ok xs ys s', reorganize H calls maxReorgDepth newBest oldBest s = .ok (ok, xs, ys) s' ∧
      ((ok = false ∧ s'.memory = s.memory) ∨ ∃ b, SameShape s.memory b ∧
        s'.memory = b.tipped (if ok then newBest.blockHash else oldBest.blockHash)) := by
  simp only [reorganize, Db.bind_apply, read_apply, id]
  cases hfork : s.memory.findCommonAncestor newBest oldBest with
  | none => exact ⟨false, [], [], s, rfl, .inl ⟨rfl, rfl⟩⟩
  | some fork =>
    simp only
    by_cases hdepth : maxReorgDepth < oldBest.height - fork.height
    · simp only [hdepth, if_true]
      exact ⟨false, [], [], s, rfl, .inl ⟨rfl, rfl⟩⟩
    · simp only [hdepth, if_false]
      cases hpaths : validateReorgPaths fork (s.memory.pathAbove fork oldBest)
          (s.memory.pathAbove fork newBest).reverse with
      | error e =>
        obtain ⟨t, ht, hmem, -⟩ := rollBack_apply [] oldBest.blockHash s
        exact ⟨false, [], [], t, ht, .inr ⟨s.memory, .refl _, hmem⟩⟩
      | ok u =>
        simp only [Db.tryCatch_apply, Db.bind_apply]
        have hclient := @reorganizeBody_client H calls (s.memory.pathAbove fork oldBest)
            (s.memory.pathAbove fork newBest).reverse newBest.blockHash
        cases htx : transaction (reorganizeBody H calls (s.memory.pathAbove fork oldBest)
            (s.memory.pathAbove fork newBest).reverse newBest.blockHash) s with
        | ok r t =>
          have hin := (transaction_ok_iff hclient (d := t.data)).2 ⟨t, htx, rfl⟩
          exact ⟨true, r.1, r.2, t, rfl, .inr (reorganizeBody_ok_memory hin)⟩
        | error e t =>
          obtain ⟨e', d', hin, hmem, -⟩ := transaction_error hclient htx
          obtain ⟨t', ht', hmem', -⟩ := rollBack_apply
            (s.memory.snapshotStatuses ((s.memory.pathAbove fork oldBest ++
              (s.memory.pathAbove fork newBest).reverse).map (·.blockHash))) oldBest.blockHash t
          rw [hmem] at hmem'
          exact ⟨false, [], [], t', ht', .inr ⟨_,
            sameShape_restoreStatuses (reorganizeBody_sameShape hin) _, hmem'⟩⟩

end memory
/-! The fork and the branch above it. -/
section fork
variable {b : BlockIndex} {disconnectEntries connectEntries : List BlockIndexEntry}

lemma mem_ancestors (htree : b.TreeShaped) {e x : BlockIndexEntry} (he : b.Indexed e)
    (hx : x ∈ b.ancestors e) : b.Indexed x ∧ b.Descends e.blockHash x.blockHash := by
  have hparent : b.ParentHash e.blockHash e.header.prevBlockHash := by
    have hget : b.getBlock e.blockHash = some e := he
    simp [ParentHash, hget]
  rcases List.mem_cons.1 hx with rfl | hx
  · exact ⟨he, .refl⟩
  · obtain ⟨hindexed, hdesc⟩ := mem_pathFrom htree.key hx
    exact ⟨hindexed, .head hparent hdesc⟩

lemma findCommonAncestor_descends (htree : b.TreeShaped) (hnew : b.Indexed newBest)
    (hold : b.Indexed oldBest) {fork : BlockIndexEntry}
    (h : b.findCommonAncestor newBest oldBest = some fork) :
    b.Indexed fork ∧ b.Descends newBest.blockHash fork.blockHash ∧
      b.Descends oldBest.blockHash fork.blockHash := by
  simp only [findCommonAncestor, Option.bind_eq_bind, Option.bind_eq_some_iff] at h
  obtain ⟨x, hx, y, hy, pair, hpair, hfork⟩ := h
  have hmem := List.mem_of_find?_eq_some hpair
  have hhash : pair.1.blockHash = pair.2.blockHash := by simpa using List.find?_some hpair
  obtain ⟨hx1, hx2⟩ := mem_ancestors htree hnew (List.mem_of_find?_eq_some hx)
  obtain ⟨hy1, hy2⟩ := mem_ancestors htree hold (List.mem_of_find?_eq_some hy)
  obtain ⟨h1, hdesc⟩ := mem_ancestors htree hx1 (List.of_mem_zip hmem).1
  obtain ⟨-, h2⟩ := mem_ancestors htree hy1 (List.of_mem_zip hmem).2
  cases hfork
  refine ⟨h1, hx2.trans hdesc, ?_⟩
  rw [hhash]
  exact hy2.trans h2

lemma plan_fork (htree : b.TreeShaped) (hnew : b.Indexed newBest) (hold : b.Indexed oldBest)
    (hplan : plan maxReorgDepth newBest oldBest b = some (disconnectEntries, connectEntries)) :
    ∃ fork, b.Indexed fork ∧ b.Descends oldBest.blockHash fork.blockHash ∧
      checkConnectPath fork.blockHash connectEntries = .ok () ∧
      ∀ x ∈ disconnectEntries, b.Indexed x ∧ fork.height < x.height := by
  unfold plan at hplan
  cases hfork : b.findCommonAncestor newBest oldBest with
  | none => simp [hfork] at hplan
  | some fork =>
    simp only [hfork] at hplan
    split_ifs at hplan
    obtain ⟨hindexed, -, hdesc⟩ := findCommonAncestor_descends htree hnew hold hfork
    cases hpaths : validateReorgPaths fork (b.pathAbove fork oldBest)
        (b.pathAbove fork newBest).reverse with
    | error e => simp [hpaths] at hplan
    | ok u =>
      simp only [hpaths, Option.some.injEq, Prod.mk.injEq] at hplan
      obtain ⟨rfl, rfl⟩ := hplan
      refine ⟨fork, hindexed, hdesc, ?_, ?_⟩
      · simp only [validateReorgPaths, bind, Except.bind] at hpaths
        cases hdisc : checkDisconnectPath none (b.pathAbove fork oldBest) with
        | error e => simp [hdisc] at hpaths
        | ok v => simpa [hdisc] using hpaths
      · intro x hx
        refine ⟨(mem_pathAbove htree hold hx).1, ?_⟩
        simpa using List.mem_takeWhile_imp hx

end fork

/-! The contexts in which a block is validated. -/
section context
variable {get : Bytes → Tables × BlockIndex → Except PyError (Option Block)}
variable {v v' : Block → ℕ → Tables × BlockIndex → Except PyError Bool}
variable {b₀ : BlockIndex} {entry : BlockIndexEntry}

/-- The blocks that are read are the ones that were asked for, as long as the index keeps its
shape. -/
def RequestedOver (H : Hashlib) (b₀ : BlockIndex)
    (get : Bytes → Tables × BlockIndex → Except PyError (Option Block)) : Prop :=
  ∀ k d block, SameShape b₀ d.2 → get k d = .ok (some block) → block.header.hashHex H = k

/-- Two validations that agree wherever the index shows the branch of the block. -/
def AgreeOnBranch (H : Hashlib) (v v' : Block → ℕ → Tables × BlockIndex → Except PyError Bool) :
    Prop :=
  ∀ block height d, OwnBranch H block height d.2 → v block height d = v' block height d

/-- What holds before a block is connected on top of `k`: the branch of `k` is shown, below
height `n`. -/
structure OnTopOf (b₀ : BlockIndex) (k : Bytes) (n : ℕ) (s : Session Tables BlockIndex) : Prop where
  isOpen : s.conn.inTransaction = true
  shape : SameShape b₀ s.memory
  shows : s.memory.Shows k n
  height : ∃ p, b₀.getBlock k = some p ∧ n = p.height + 1

lemma OnTopOf.entry_height {k : Bytes} {n : ℕ} (h : OnTopOf b₀ k n s) (htree : b₀.TreeShaped)
    (hindexed : b₀.Indexed entry) (hparent : entry.header.prevBlockHash = k) : entry.height = n := by
  obtain ⟨p, hp, hn⟩ := h.height
  rw [hn]
  exact htree.parent _ entry p hindexed (by rw [hparent]; exact hp)

lemma OnTopOf.ownBranch {k : Bytes} {n : ℕ} (h : OnTopOf b₀ k n s) (htree : b₀.TreeShaped)
    (hindexed : b₀.Indexed entry) (hparent : entry.header.prevBlockHash = k) {block : Block}
    (hblock : block.header.hashHex H = entry.blockHash) :
    OwnBranch H block entry.height s.memory := by
  obtain ⟨e, he, hcore⟩ := h.shape.getBlock hindexed
  have hheader : e.header = entry.header := congrArg (fun c => c.2.2.1) hcore
  have hparentOf : s.memory.parentHashOf H block = k := by
    simp only [parentHashOf, hblock, he, hheader, hparent]
  rw [OwnBranch, hparentOf, h.entry_height htree hindexed hparent]
  exact h.shows

/-- A connected block is shown on top of its branch. -/
lemma OnTopOf.connected {k : Bytes} {n : ℕ} (h : OnTopOf b₀ k n s) (htree : b₀.TreeShaped)
    (hreq : RequestedOver H b₀ calls.getBlock) (hindexed : b₀.Indexed entry)
    (hparent : entry.header.prevBlockHash = k) {block : Block} {s' : Session Tables BlockIndex}
    (hstep : connectStep H calls entry s = .ok block s') :
    OnTopOf b₀ entry.blockHash (entry.height + 1) s' := by
  have hclient := connectStep_client H calls entry
  have hin : inside (connectStep H calls entry) s.data = .ok block s'.data := by
    rw [← hclient.project_eq_inside h.isOpen, hstep]
    rfl
  have hsame := hclient.sameTransaction h.isOpen
  rw [Db.final, hstep] at hsame
  have hheight := h.entry_height htree hindexed hparent
  have hends := @connectStep_keeps H calls
      (fun b => SameShape b₀ b ∧ ∀ j < entry.height, b.heightIndex j = s.memory.heightIndex j)
      (· = entry.blockHash) (by
      rintro _ b rfl ⟨hshape, hindex⟩
      refine ⟨hshape.trans (sameShape_marked b _ true), ?_⟩
      intro j hj
      rw [marked_heightIndex (h := entry.height) ((hshape.getHeight _).trans hindexed.getHeight) hj.ne]
      exact hindex j hj) entry rfl s.data (fun block hget => hreq _ _ _ h.shape hget)
      ⟨h.shape, fun _ _ => rfl⟩
  rw [hin] at hends
  obtain ⟨hshape, hindex⟩ := hends
  have hshape' : SameShape s.memory s'.memory := h.shape.symm.trans hshape
  obtain ⟨b, hb, hmem⟩ := connectStep_ok hin
  have hself : s'.memory.heightIndex entry.height = some entry.blockHash := by
    have hmarked := marked_true_self (b := b) (k := entry.blockHash) (h := entry.height)
      (by rw [hb.getHeight, ← hindexed.getHeight]; exact h.shape.getHeight _)
    rw [← hmem] at hmarked
    exact hmarked
  obtain ⟨e', he', hcore⟩ := hshape.getBlock hindexed
  have hheader : e'.header = entry.header := congrArg (fun c => c.2.2.1) hcore
  have hheight' : e'.height = entry.height := congrArg (fun c => c.1) hcore
  have hhash : e'.blockHash = entry.blockHash := congrArg (fun c => c.2.1) hcore
  refine ⟨hsame.isOpen, hshape, ?_, entry, hindexed, rfl⟩
  intro j hj
  by_cases hlast : j = entry.height
  · refine ⟨e', ?_, hheight'.trans hlast.symm, ?_⟩
    · rw [getBlockByHeight, hlast, hself]
      exact he'
    · rw [hhash]
      exact .refl
  · have hshows : s'.memory.Shows k n := by
      refine h.shows.transfer hshape' ?_
      intro j hj
      exact hindex j (by omega)
    obtain ⟨x, hx, hxheight, hdesc⟩ := hshows j (by omega)
    have hstep : s'.memory.ParentHash entry.blockHash k := by
      have hget : s'.memory.getBlock entry.blockHash = some e' := he'
      simp [ParentHash, hget, hheader, hparent]
    exact ⟨x, hx, hxheight, .head hstep hdesc⟩

lemma connectStep_congr
    (h : ∀ block, get entry.blockHash s.data = .ok (some block) →
      v block entry.height s.data = v' block entry.height s.data) :
    connectStep H ⟨get, some v⟩ entry s = connectStep H ⟨get, some v'⟩ entry s := by
  simp only [connectStep, Db.bind_apply, consult_apply]
  cases hget : get entry.blockHash s.data with
  | error e => rfl
  | ok found =>
    cases found with
    | none => rfl
    | some block => simp only [validated, Db.bind_apply, consult_apply, h block hget]

/-- The steps of connecting a branch ask for validation on the branch of each block only. -/
lemma runSteps_connect_congr (htree : b₀.TreeShaped) (hagree : AgreeOnBranch H v v')
    (hreq : RequestedOver H b₀ get) {entries : List BlockIndexEntry}
    (hindexed : ∀ e ∈ entries, b₀.Indexed e) {k : Bytes} {n : ℕ} (hs : OnTopOf b₀ k n s)
    (hpath : checkConnectPath k entries = .ok ()) :
    runSteps (connectStep H ⟨get, some v⟩) entries s =
      runSteps (connectStep H ⟨get, some v'⟩) entries s := by
  induction entries generalizing s k n with
  | nil => rfl
  | cons e entries ih =>
    rw [checkConnectPath] at hpath
    split_ifs at hpath with hparent
    have he : b₀.Indexed e := hindexed e (List.mem_cons_self ..)
    have hparent : e.header.prevBlockHash = k := by simpa using hparent
    have hfirst := @connectStep_congr H s get v v' e fun block hget => hagree block e.height s.data
        (hs.ownBranch htree he hparent (hreq _ _ _ hs.shape hget))
    simp only [runSteps, Db.bind_apply, ← hfirst]
    cases hstep : connectStep H ⟨get, some v⟩ e s with
    | error err s' => rfl
    | ok block s' =>
      have hs' := hs.connected htree hreq he hparent hstep
      simp only [ih (fun x hx => hindexed x (List.mem_cons_of_mem _ hx)) hs' hpath]

lemma preflightConnect_cons_congr {entries : List BlockIndexEntry}
    (h : ∀ block, get entry.blockHash s.data = .ok (some block) →
      v block entry.height s.data = v' block entry.height s.data)
    (hrest : ∀ block s', connectStep H ⟨get, some v⟩ entry s = .ok block s' →
      preflightConnect H ⟨get, some v⟩ entries s' = preflightConnect H ⟨get, some v'⟩ entries s') :
    preflightConnect H ⟨get, some v⟩ (entry :: entries) s =
      preflightConnect H ⟨get, some v'⟩ (entry :: entries) s := by
  simp only [preflightConnect, Db.bind_apply, consult_apply]
  simp only [connectStep, Db.bind_apply, consult_apply] at hrest
  cases hget : get entry.blockHash s.data with
  | error e => rfl
  | ok found =>
    cases found with
    | none => rfl
    | some block =>
      simp only [hget, validated, Db.bind_apply, consult_apply, h block hget] at hrest ⊢
      cases hv : v' block entry.height s.data with
      | error e => rfl
      | ok ok =>
        cases ok with
        | false => rfl
        | true =>
          simp only [hv, Db.bind_apply, Bool.not_true, Bool.false_eq_true, if_false] at hrest ⊢
          cases hc : connectBlock H block s with
          | error e s₁ => rfl
          | ok ok s₁ =>
            cases ok with
            | false => rfl
            | true =>
              simp only [hc, Db.bind_apply, Bool.not_true, Bool.false_eq_true, if_false] at hrest ⊢
              cases hm : BlockIndex.markMainChain entry.blockHash true s₁ with
              | error e s₂ => rfl
              | ok u s₂ =>
                simp only [hm, Db.pure_apply] at hrest ⊢
                exact hrest block s₂ rfl

lemma preflightConnect_congr (htree : b₀.TreeShaped) (hagree : AgreeOnBranch H v v')
    (hreq : RequestedOver H b₀ get) {entries : List BlockIndexEntry}
    (hindexed : ∀ e ∈ entries, b₀.Indexed e) {k : Bytes} {n : ℕ} (hs : OnTopOf b₀ k n s)
    (hpath : checkConnectPath k entries = .ok ()) :
    preflightConnect H ⟨get, some v⟩ entries s = preflightConnect H ⟨get, some v'⟩ entries s := by
  induction entries generalizing s k n with
  | nil => rfl
  | cons e entries ih =>
    rw [checkConnectPath] at hpath
    split_ifs at hpath with hparent
    have he : b₀.Indexed e := hindexed e (List.mem_cons_self ..)
    have hparent : e.header.prevBlockHash = k := by simpa using hparent
    refine preflightConnect_cons_congr ?_ ?_
    · intro block hget
      exact hagree block e.height s.data (hs.ownBranch htree he hparent (hreq _ _ _ hs.shape hget))
    · intro block s' hstep
      exact ih (fun x hx => hindexed x (List.mem_cons_of_mem _ hx))
        (hs.connected htree hreq he hparent hstep) hpath

end context

/-! Before the new branch is connected the old one is disconnected down to the fork. -/
section disconnected
variable {b₀ : BlockIndex} {fork : BlockIndexEntry} {disconnectEntries : List BlockIndexEntry}

lemma disconnected_shows (hreq : RequestedOver H b₀ calls.getBlock) (htree : b₀.TreeShaped)
    (hfork : b₀.Indexed fork) {n : ℕ} (hshows : b₀.Shows oldBest.blockHash n)
    (hdesc : b₀.Descends oldBest.blockHash fork.blockHash) (hn : fork.height < n)
    (hdisc : ∀ x ∈ disconnectEntries, b₀.Indexed x ∧ fork.height < x.height)
    {d d' : Tables × BlockIndex} (hd : d.2 = b₀) {blocks : List Block}
    (h : inside (runSteps (disconnectStep H calls) disconnectEntries) d = .ok blocks d') :
    SameShape b₀ d'.2 ∧ d'.2.Shows fork.blockHash (fork.height + 1) := by
  have hends := @runSteps_keeps
      (fun b => SameShape b₀ b ∧ ∀ j < fork.height + 1, b.heightIndex j = b₀.heightIndex j)
      (disconnectStep H calls) (disconnectStep_client H calls) disconnectEntries (by
      intro x hx d₁ h₁
      obtain ⟨hindexed, habove⟩ := hdisc x hx
      refine disconnectStep_keeps (K := (· = x.blockHash)) ?_ rfl
        (fun block hget => hreq _ _ _ h₁.1 hget) h₁
      rintro _ b rfl ⟨hshape, hindex⟩
      refine ⟨hshape.trans (sameShape_marked b _ false), ?_⟩
      intro j hj
      rw [marked_heightIndex (h := x.height) ((hshape.getHeight _).trans hindexed.getHeight)
        (by omega)]
      exact hindex j hj) d (by rw [hd]; exact ⟨.refl _, fun _ _ => rfl⟩)
  rw [h] at hends
  obtain ⟨hshape, hindex⟩ := hends
  exact ⟨hshape, (hshows.below htree hdesc hfork hn).transfer hshape hindex⟩

end disconnected

section whole
variable {get : Bytes → Tables × BlockIndex → Except PyError (Option Block)}
variable {v v' : Block → ℕ → Tables × BlockIndex → Except PyError Bool}
variable {b₀ : BlockIndex} {disconnectEntries connectEntries : List BlockIndexEntry} {n : ℕ}

/-- What is shared by the dry run and the real one: a tree in which the old branch is shown. -/
structure Prepared (H : Hashlib) (get : Bytes → Tables × BlockIndex → Except PyError (Option Block))
    (newBest oldBest : BlockIndexEntry) (b : BlockIndex) : Prop where
  requested : RequestedOver H b get
  tree : b.TreeShaped
  hnew : b.Indexed newBest
  hold : b.Indexed oldBest
  shows : b.Shows oldBest.blockHash (oldBest.height + 1)

lemma Prepared.onTopOf (h : Prepared H get newBest oldBest b₀)
    (hplan : plan maxReorgDepth newBest oldBest b₀ = some (disconnectEntries, connectEntries))
    {t t' : Session Tables BlockIndex} (ht : t.memory = b₀)
    (hopen' : t'.conn.inTransaction = true) {blocks : List Block}
    (hdisc : inside (runSteps (disconnectStep H ⟨get, some v⟩) disconnectEntries) t.data =
      .ok blocks t'.data) :
    ∃ k n, OnTopOf b₀ k n t' ∧ checkConnectPath k connectEntries = .ok () := by
  obtain ⟨fork, hfork, hdesc, hpath, habove⟩ := plan_fork h.tree h.hnew h.hold hplan
  obtain ⟨hle, -⟩ := descends_height h.tree hdesc hfork h.hold.getHeight
  obtain ⟨hshape, hshows⟩ := disconnected_shows h.requested h.tree hfork h.shows hdesc
    (by omega) habove (d := t.data) ht hdisc
  exact ⟨fork.blockHash, fork.height + 1, ⟨hopen', hshape, hshows, fork, hfork, rfl⟩, hpath⟩

lemma reorganizeBody_congr (h : Prepared H get newBest oldBest b₀) (hagree : AgreeOnBranch H v v')
    (hplan : plan maxReorgDepth newBest oldBest b₀ = some (disconnectEntries, connectEntries))
    {t : Session Tables BlockIndex} (ht : t.memory = b₀) (hopen : t.conn.inTransaction = true) :
    reorganizeBody H ⟨get, some v⟩ disconnectEntries connectEntries newBest.blockHash t =
      reorganizeBody H ⟨get, some v'⟩ disconnectEntries connectEntries newBest.blockHash t := by
  have hsame : runSteps (disconnectStep H ⟨get, some v'⟩) disconnectEntries t =
      runSteps (disconnectStep H ⟨get, some v⟩) disconnectEntries t := rfl
  simp only [reorganizeBody, Db.bind_apply, hsame]
  cases hdisc : runSteps (disconnectStep H ⟨get, some v⟩) disconnectEntries t with
  | error e t' => rfl
  | ok disconnected t' =>
    have hclient := runSteps_client (disconnectStep_client H ⟨get, some v⟩) disconnectEntries
    have hopen' := hclient.sameTransaction hopen
    rw [Db.final, hdisc] at hopen'
    have hin := hclient.project_eq_inside hopen
    rw [hdisc] at hin
    obtain ⟨k, n, hon, hpath⟩ := h.onTopOf hplan ht hopen'.isOpen hin.symm
    have hindexed : ∀ e ∈ connectEntries, b₀.Indexed e := fun e he =>
      plan_indexed h.tree h.hnew h.hold hplan e (List.mem_append_right _ he)
    simp only [runSteps_connect_congr h.tree hagree h.requested hindexed hon hpath]

lemma preflight_congr (h : Prepared H get newBest oldBest b₀) (hagree : AgreeOnBranch H v v')
    (hplan : plan maxReorgDepth newBest oldBest b₀ = some (disconnectEntries, connectEntries))
    {t : Session Tables BlockIndex} (ht : t.memory = b₀) (hopen : t.conn.inTransaction = true) :
    preflight H ⟨get, some v⟩ disconnectEntries connectEntries t =
      preflight H ⟨get, some v'⟩ disconnectEntries connectEntries t := by
  have hsame : preflightDisconnect H ⟨get, some v'⟩ disconnectEntries =
      preflightDisconnect H ⟨get, some v⟩ disconnectEntries := by
    clear hplan
    induction disconnectEntries with
    | nil => rfl
    | cons e entries ih => simp only [preflightDisconnect, ih]
  simp only [preflight, Db.bind_apply, hsame]
  cases hdisc : preflightDisconnect H ⟨get, some v⟩ disconnectEntries t with
  | error e t' => rfl
  | ok ok t' =>
    cases ok with
    | false => rfl
    | true =>
      have hclient := preflightDisconnect_client H ⟨get, some v⟩ disconnectEntries
      have hopen' := hclient.sameTransaction hopen
      rw [Db.final, hdisc] at hopen'
      have hin := hclient.project_eq_inside hopen
      rw [hdisc] at hin
      -- The dry run goes through when the steps of the real one do, and to the same state.
      have hmirrors := @preflightDisconnect_mirrors H ⟨get, some v⟩ disconnectEntries t.data
      rw [← hin] at hmirrors
      obtain ⟨blocks, hsteps⟩ : ∃ blocks, inside (runSteps (disconnectStep H ⟨get, some v⟩)
          disconnectEntries) t.data = .ok blocks t'.data := by
        cases hr : inside (runSteps (disconnectStep H ⟨get, some v⟩) disconnectEntries) t.data with
        | error e d =>
          rw [hr] at hmirrors
          rcases hmirrors with hm | hm <;> cases hm
        | ok blocks d =>
          rw [hr] at hmirrors
          cases hmirrors
          exact ⟨blocks, rfl⟩
      obtain ⟨k, n, hon, hpath⟩ := h.onTopOf hplan ht hopen'.isOpen hsteps
      have hindexed : ∀ e ∈ connectEntries, b₀.Indexed e := fun e he =>
        plan_indexed h.tree h.hnew h.hold hplan e (List.mem_append_right _ he)
      exact preflightConnect_congr h.tree hagree h.requested hindexed hon hpath

lemma reorganize_congr (h : Prepared H get newBest oldBest s.memory) (hagree : AgreeOnBranch H v v') :
    reorganize H ⟨get, some v⟩ maxReorgDepth newBest oldBest s =
      reorganize H ⟨get, some v'⟩ maxReorgDepth newBest oldBest s := by
  simp only [reorganize, Db.bind_apply, read_apply, id]
  cases hfork : s.memory.findCommonAncestor newBest oldBest with
  | none => rfl
  | some fork =>
    simp only
    by_cases hdepth : maxReorgDepth < oldBest.height - fork.height
    · simp only [hdepth, if_true]
    · simp only [hdepth, if_false]
      cases hpaths : validateReorgPaths fork (s.memory.pathAbove fork oldBest)
          (s.memory.pathAbove fork newBest).reverse with
      | error e => rfl
      | ok u =>
        have hplan : plan maxReorgDepth newBest oldBest s.memory =
            some (s.memory.pathAbove fork oldBest, (s.memory.pathAbove fork newBest).reverse) := by
          simp [plan, hfork, hdepth, hpaths]
        have htx : transaction (reorganizeBody H ⟨get, some v⟩ (s.memory.pathAbove fork oldBest)
              (s.memory.pathAbove fork newBest).reverse newBest.blockHash) s =
            transaction (reorganizeBody H ⟨get, some v'⟩ (s.memory.pathAbove fork oldBest)
              (s.memory.pathAbove fork newBest).reverse newBest.blockHash) s := by
          unfold transaction
          split_ifs with hopen
          · rw [reorganizeBody_congr h hagree hplan rfl hopen]
          · rw [reorganizeBody_congr (t := { s with conn := s.conn.begin }) h hagree hplan rfl rfl]
        simp only [Db.tryCatch_apply, Db.bind_apply, htx]

lemma canReorganize_congr (h : Prepared H get newBest oldBest s.memory)
    (hagree : AgreeOnBranch H v v') :
    canReorganize H ⟨get, some v⟩ maxReorgDepth newBest oldBest s =
      canReorganize H ⟨get, some v'⟩ maxReorgDepth newBest oldBest s := by
  cases hplan : plan maxReorgDepth newBest oldBest s.memory with
  | none => rw [canReorganize_of_plan_none hplan, canReorganize_of_plan_none hplan]
  | some paths =>
    obtain ⟨disconnectEntries, connectEntries⟩ := paths
    have hpre := preflight_congr (t := { s with conn := s.conn.savepoint savepointName }) h hagree
      hplan rfl (savepoint_inTransaction _ _)
    rw [canReorganize_of_plan hplan, canReorganize_of_plan hplan]
    simp only [andFinally, hpre]

end whole

end ReorgManager
end BerzCoin
