import BerzCoin.ChainReorgAtomic

/-! The dry run of a reorganisation. It goes through the same steps as the real one, but
returns `False` where the real one raises, and undoes everything at the end. -/
namespace BerzCoin
open Database BlockIndex

namespace ReorgManager
variable {H : Hashlib} {calls : ReorgCallbacks}

/-- The dry run comes to the same data, and returns `True` just when the steps go through. -/
def Mirrors : EStateM.Result PyError (Tables × BlockIndex) (List Block) →
    EStateM.Result PyError (Tables × BlockIndex) Bool → Prop
  | .ok _ d, r => r = .ok true d
  | .error e d, r => r = .ok false d ∨ r = .error e d

section mirrors

lemma preflightDisconnect_cons (entry : BlockIndexEntry) (entries : List BlockIndexEntry)
    (d : Tables × BlockIndex) :
    inside (preflightDisconnect H calls (entry :: entries)) d =
      match calls.getBlock entry.blockHash d with
      | .error e => .error e d
      | .ok none => .ok false d
      | .ok (some block) =>
        match inside (disconnect H block) d with
        | .ok true d' => inside (preflightDisconnect H calls entries) (markMain entry.blockHash false d')
        | .ok false d' => .ok false d'
        | .error e d' => .error e d' := by
  have hlast (ok : Bool) : Client (do
      if !ok then return false
      BlockIndex.markMainChain entry.blockHash false
      preflightDisconnect H calls entries) := by
    split
    · exact .ret _
    · exact .bind (markMainChain_client _ _) fun _ => preflightDisconnect_client H calls _
  rw [preflightDisconnect, inside_bind (consult_client _) fun found => ?_, inside_consult]
  · cases calls.getBlock entry.blockHash d with
    | error e => rfl
    | ok found =>
      cases found with
      | none => rfl
      | some block =>
        simp only
        rw [inside_bind (disconnect_client H block) hlast]
        cases inside (disconnect H block) d with
        | error e d' => rfl
        | ok ok d' =>
          cases ok with
          | false => rfl
          | true =>
            simp only [Bool.not_true, Bool.false_eq_true, if_false]
            rw [inside_bind (markMainChain_client ..) fun _ => preflightDisconnect_client H calls _,
              markMainChain_inside]
  · cases found with
    | none => exact .ret _
    | some block => exact .bind (disconnect_client H block) hlast

lemma preflightDisconnect_mirrors (entries : List BlockIndexEntry) (d : Tables × BlockIndex) :
    Mirrors (inside (runSteps (disconnectStep H calls) entries) d)
      (inside (preflightDisconnect H calls entries) d) := by
  induction entries generalizing d with
  | nil => rfl
  | cons entry entries ih =>
    rw [inside_runSteps_cons (disconnectStep_client H calls), inside_disconnectStep,
      preflightDisconnect_cons]
    cases calls.getBlock entry.blockHash d with
    | error e => exact .inr rfl
    | ok found =>
      cases found with
      | none => exact .inl rfl
      | some block =>
        simp only
        cases inside (disconnect H block) d with
        | error e d' => exact .inr rfl
        | ok ok d' =>
          cases ok with
          | false => exact .inl rfl
          | true =>
            have hrest := ih (markMain entry.blockHash false d')
            simp only
            cases hr : inside (runSteps (disconnectStep H calls) entries)
                (markMain entry.blockHash false d') with
            | ok blocks d'' =>
              rw [hr] at hrest
              exact hrest
            | error e d'' =>
              rw [hr] at hrest
              exact hrest

lemma preflightConnect_cons (entry : BlockIndexEntry) (entries : List BlockIndexEntry)
    (d : Tables × BlockIndex) :
    inside (preflightConnect H calls (entry :: entries)) d =
      match calls.getBlock entry.blockHash d with
      | .error e => .error e d
      | .ok none => .ok false d
      | .ok (some block) =>
        match calls.check block entry.height d with
        | .error e => .error e d
        | .ok false => .ok false d
        | .ok true =>
          match inside (connectBlock H block) d with
          | .ok true d' => inside (preflightConnect H calls entries) (markMain entry.blockHash true d')
          | .ok false d' => .ok false d'
          | .error e d' => .error e d' := by
  have hconn (block : Block) : Client (connectBlock H block) := connect_client H .mainnet block
  have hlast (ok : Bool) : Client (do
      if !ok then return false
      BlockIndex.markMainChain entry.blockHash true
      preflightConnect H calls entries) := by
    split
    · exact .ret _
    · exact .bind (markMainChain_client _ _) fun _ => preflightConnect_client H calls _
  have hrest (block : Block) (ok : Bool) : Client (do
      if !ok then return false
      if !(← connectBlock H block) then return false
      BlockIndex.markMainChain entry.blockHash true
      preflightConnect H calls entries) := by
    split
    · exact .ret _
    · exact .bind (hconn block) hlast
  rw [preflightConnect, inside_bind (consult_client _) fun found => ?_, inside_consult]
  · cases calls.getBlock entry.blockHash d with
    | error e => rfl
    | ok found =>
      cases found with
      | none => rfl
      | some block =>
        simp only
        rw [inside_bind (validated_client calls block _) (hrest block), inside_validated]
        cases calls.check block entry.height d with
        | error e => rfl
        | ok ok =>
          cases ok with
          | false => rfl
          | true =>
            simp only [Bool.not_true, Bool.false_eq_true, if_false]
            rw [inside_bind (hconn block) hlast]
            cases inside (connectBlock H block) d with
            | error e d' => rfl
            | ok ok d' =>
              cases ok with
              | false => rfl
              | true =>
                simp only [Bool.not_true, Bool.false_eq_true, if_false]
                rw [inside_bind (markMainChain_client ..) fun _ => preflightConnect_client H calls _,
                  markMainChain_inside]
  · cases found with
    | none => exact .ret _
    | some block => exact .bind (validated_client calls block _) (hrest block)

lemma preflightConnect_mirrors (entries : List BlockIndexEntry) (d : Tables × BlockIndex) :
    Mirrors (inside (runSteps (connectStep H calls) entries) d)
      (inside (preflightConnect H calls entries) d) := by
  induction entries generalizing d with
  | nil => rfl
  | cons entry entries ih =>
    rw [inside_runSteps_cons (connectStep_client H calls), inside_connectStep, preflightConnect_cons]
    cases calls.getBlock entry.blockHash d with
    | error e => exact .inr rfl
    | ok found =>
      cases found with
      | none => exact .inl rfl
      | some block =>
        simp only
        cases calls.check block entry.height d with
        | error e => exact .inr rfl
        | ok ok =>
          cases ok with
          | false => exact .inl rfl
          | true =>
            simp only
            cases inside (connectBlock H block) d with
            | error e d' => exact .inr rfl
            | ok ok d' =>
              cases ok with
              | false => exact .inl rfl
              | true =>
                have hrest := ih (markMain entry.blockHash true d')
                simp only
                cases hr : inside (runSteps (connectStep H calls) entries)
                    (markMain entry.blockHash true d') with
                | ok blocks d'' =>
                  rw [hr] at hrest
                  exact hrest
                | error e d'' =>
                  rw [hr] at hrest
                  exact hrest

/-- The two loops of a reorganisation. -/
def steps (H : Hashlib) (calls : ReorgCallbacks) (disconnectEntries connectEntries : List BlockIndexEntry) :
    ChainDb (List Block) := do
  let _ ← runSteps (disconnectStep H calls) disconnectEntries
  runSteps (connectStep H calls) connectEntries

lemma inside_steps (disconnectEntries connectEntries : List BlockIndexEntry)
    (d : Tables × BlockIndex) :
    inside (steps H calls disconnectEntries connectEntries) d =
      match inside (runSteps (disconnectStep H calls) disconnectEntries) d with
      | .ok _ d' => inside (runSteps (connectStep H calls) connectEntries) d'
      | .error e d' => .error e d' := by
  rw [steps, inside_bind (runSteps_client (disconnectStep_client H calls) _)
    fun _ => runSteps_client (connectStep_client H calls) _]
  cases inside (runSteps (disconnectStep H calls) disconnectEntries) d <;> rfl

theorem preflight_mirrors (disconnectEntries connectEntries : List BlockIndexEntry)
    (d : Tables × BlockIndex) :
    Mirrors (inside (steps H calls disconnectEntries connectEntries) d)
      (inside (preflight H calls disconnectEntries connectEntries) d) := by
  have hlast (ok : Bool) : Client (do
      if !ok then return false
      preflightConnect H calls connectEntries) := by
    split
    · exact .ret _
    · exact preflightConnect_client H calls _
  have hdisc := @preflightDisconnect_mirrors H calls disconnectEntries d
  rw [inside_steps, preflight, inside_bind (preflightDisconnect_client H calls _) hlast]
  cases hr : inside (runSteps (disconnectStep H calls) disconnectEntries) d with
  | ok blocks d' =>
    rw [hr] at hdisc
    have hp : inside (preflightDisconnect H calls disconnectEntries) d = .ok true d' := hdisc
    simp only [hp, Bool.not_true, Bool.false_eq_true, if_false]
    exact preflightConnect_mirrors connectEntries d'
  | error e d' =>
    rw [hr] at hdisc
    rcases hdisc with hp | hp
    · rw [hp]
      exact .inl rfl
    · rw [hp]
      exact .inr rfl

end mirrors

section flags
variable {b : BlockIndex} {k k₀ : Bytes}

/-- The block is in the index and on the main chain. -/
def OnMain (k : Bytes) (b : BlockIndex) : Prop :=
  (b.getBlock k).map BlockIndexEntry.isMainChain = some true

/-- The block is in the index and not on the main chain. -/
def OffMain (k : Bytes) (b : BlockIndex) : Prop :=
  (b.getBlock k).map BlockIndexEntry.isMainChain = some false

lemma isMainChain_markedMain (e : BlockIndexEntry) : (markedMain e).isMainChain = true := by
  simp [markedMain, BlockIndexEntry.isMainChain, BlockIndexEntry.hasStatus,
    BlockIndexEntry.setStatus, BlockIndexEntry.clearStatus]

lemma isMainChain_markedSide (e : BlockIndexEntry) : (markedSide e).isMainChain = false := by
  simp [markedSide, BlockIndexEntry.isMainChain, BlockIndexEntry.hasStatus,
    BlockIndexEntry.setStatus, BlockIndexEntry.clearStatus]

lemma getBlock_marked (b : BlockIndex) (k k₀ : Bytes) (isMain : Bool) :
    (b.marked k isMain).getBlock k₀ =
      if k₀ = k then (b.getBlock k₀).map (if isMain then markedMain else markedSide)
      else b.getBlock k₀ := by
  unfold marked
  cases he : b.getBlock k with
  | none =>
    by_cases hk : k₀ = k
    · subst hk
      simp [he]
    · simp [hk]
  | some e =>
    cases isMain with
    | true => simp [withMainChain, getBlock]
    | false => simp [withMainChain, getBlock]

lemma onMain_marked (h : b.getHeight k ≠ none) : OnMain k (b.marked k true) := by
  obtain ⟨n, hn⟩ := Option.ne_none_iff_exists'.1 h
  obtain ⟨e, he, -⟩ := Option.map_eq_some_iff.1 hn
  simp [OnMain, getBlock_marked, he, isMainChain_markedMain]

lemma offMain_marked (h : b.getHeight k ≠ none) : OffMain k (b.marked k false) := by
  obtain ⟨n, hn⟩ := Option.ne_none_iff_exists'.1 h
  obtain ⟨e, he, -⟩ := Option.map_eq_some_iff.1 hn
  simp [OffMain, getBlock_marked, he, isMainChain_markedSide]

lemma OnMain.marked (h : OnMain k₀ b) : OnMain k₀ (b.marked k true) := by
  unfold OnMain at h ⊢
  rw [getBlock_marked]
  by_cases hk : k₀ = k
  · subst hk
    obtain ⟨e, he, -⟩ := Option.map_eq_some_iff.1 h
    simp [he, isMainChain_markedMain]
  · simpa [hk] using h

lemma OffMain.marked_side (h : OffMain k₀ b) : OffMain k₀ (b.marked k false) := by
  unfold OffMain at h ⊢
  rw [getBlock_marked]
  by_cases hk : k₀ = k
  · subst hk
    obtain ⟨e, he, -⟩ := Option.map_eq_some_iff.1 h
    simp [he, isMainChain_markedSide]
  · simpa [hk] using h

lemma OffMain.marked_main (hk : k ≠ k₀) (h : OffMain k₀ b) : OffMain k₀ (b.marked k true) := by
  unfold OffMain at h ⊢
  rw [getBlock_marked, if_neg hk.symm]
  exact h

end flags

section establish
variable {step : BlockIndexEntry → ChainDb Block} {P : BlockIndexEntry → BlockIndex → Prop}

/-- What each step brings about for its own entry, and every later step keeps, holds for all
entries after the loop. -/
lemma runSteps_establish (hclient : ∀ e, Client (step e)) {entries : List BlockIndexEntry}
    {I : BlockIndex → Prop}
    (hinv : ∀ e ∈ entries, ∀ d, I d.2 → Ends I (inside (step e) d))
    (hown : ∀ e ∈ entries, ∀ d block d', I d.2 → inside (step e) d = .ok block d' → P e d'.2)
    (hkeep : ∀ e ∈ entries, ∀ x, ∀ d, P x d.2 → Ends (P x) (inside (step e) d))
    {d d' : Tables × BlockIndex} {blocks : List Block} (hI : I d.2)
    (h : inside (runSteps step entries) d = .ok blocks d') : ∀ x ∈ entries, P x d'.2 := by
  induction entries generalizing d blocks with
  | nil =>
    intro x hx
    cases hx
  | cons entry entries ih =>
    rw [inside_runSteps_cons hclient] at h
    have hmem : entry ∈ entry :: entries := List.mem_cons_self ..
    have hI₁ := hinv entry hmem d hI
    cases hs : inside (step entry) d with
    | error e d₁ => simp [hs] at h
    | ok block d₁ =>
      rw [hs] at hI₁
      simp only [hs] at h
      cases hr : inside (runSteps step entries) d₁ with
      | error e d₂ => simp [hr] at h
      | ok rest d₂ =>
        simp only [hr] at h
        cases h
        have hown₁ := hown entry hmem d block d₁ hI hs
        intro x hx
        rcases List.mem_cons.1 hx with rfl | hx
        · have hends := runSteps_keeps hclient (P := P x)
            (fun e he d => hkeep e (List.mem_cons_of_mem _ he) x d) hown₁
          rw [hr] at hends
          exact hends
        · exact ih (fun e he => hinv e (List.mem_cons_of_mem _ he))
            (fun e he => hown e (List.mem_cons_of_mem _ he))
            (fun e he => hkeep e (List.mem_cons_of_mem _ he)) hI₁ hr x hx

end establish

section agreement
variable {d d' : Tables × BlockIndex} {disconnectEntries connectEntries : List BlockIndexEntry}

lemma assertPostReorgInvariants_ok {b : BlockIndex}
    (hoff : ∀ x ∈ disconnectEntries, OffMain x.blockHash b)
    (hon : ∀ x ∈ connectEntries, OnMain x.blockHash b) :
    assertPostReorgInvariants b disconnectEntries connectEntries = .ok () := by
  have hdisc : disconnectEntries.any (fun e =>
      ((b.getBlock e.blockHash).map (·.isMainChain)).getD false) = false := by
    rw [List.any_eq_false]
    intro x hx
    have h : (b.getBlock x.blockHash).map (·.isMainChain) = some false := hoff x hx
    simp [h]
  have hconn : connectEntries.any (fun e =>
      ((b.getBlock e.blockHash).map fun current => !current.isMainChain).getD false) = false := by
    rw [List.any_eq_false]
    intro x hx
    obtain ⟨e, he, hmain⟩ := Option.map_eq_some_iff.1 (hon x hx)
    simp [he, hmain]
  simp only [assertPostReorgInvariants, hdisc, hconn, Bool.false_eq_true, if_false]

lemma sameShape_keeps_disconnect (b₀ : BlockIndex) (entry : BlockIndexEntry)
    (h : SameShape b₀ d.2) : Ends (SameShape b₀) (inside (disconnectStep H calls entry) d) :=
  disconnectStep_keeps (K := fun _ => True) (fun _ b _ hb => hb.trans (sameShape_marked b _ _)) trivial
    (fun _ _ => trivial) h

lemma sameShape_keeps_connect (b₀ : BlockIndex) (entry : BlockIndexEntry)
    (h : SameShape b₀ d.2) : Ends (SameShape b₀) (inside (connectStep H calls entry) d) :=
  connectStep_keeps (K := fun _ => True) (fun _ b _ hb => hb.trans (sameShape_marked b _ _)) trivial
    (fun _ _ => trivial) h

/-- After the loops the flags are what the assertion asks for, where the blocks that are read are the
ones that were asked for. -/
lemma steps_flags
    (hreq : ∀ k d₁ block, SameShape d.2 d₁.2 → calls.getBlock k d₁ = .ok (some block) →
      block.header.hashHex H = k)
    (hheight : ∀ x ∈ disconnectEntries ++ connectEntries, d.2.getHeight x.blockHash ≠ none)
    (hne : ∀ x ∈ connectEntries, ∀ y ∈ disconnectEntries, x.blockHash ≠ y.blockHash)
    {blocks : List Block}
    (h : inside (steps H calls disconnectEntries connectEntries) d = .ok blocks d') :
    assertPostReorgInvariants d'.2 disconnectEntries connectEntries = .ok () := by
  have hmark (k : Bytes) (isMain : Bool) (c : BlockIndex) (hc : SameShape d.2 c) :
      SameShape d.2 (c.marked k isMain) := hc.trans (sameShape_marked c k isMain)
  rw [inside_steps] at h
  cases hd : inside (runSteps (disconnectStep H calls) disconnectEntries) d with
  | error e d₁ => simp [hd] at h
  | ok disconnected d₁ =>
    simp only [hd] at h
    have hshape : SameShape d.2 d₁.2 := by
      have hends := @runSteps_keeps (SameShape d.2) _ (disconnectStep_client H calls)
          disconnectEntries (fun e _ _ h₁ => sameShape_keeps_disconnect d.2 e h₁) _ (.refl _)
      rw [hd] at hends
      exact hends
    refine assertPostReorgInvariants_ok ?_ ?_
    · intro y hy
      have hoff : OffMain y.blockHash d₁.2 := by
        refine runSteps_establish (P := fun x => OffMain x.blockHash) (I := SameShape d.2)
          (disconnectStep_client H calls) (fun e _ _ h₁ => sameShape_keeps_disconnect d.2 e h₁)
          ?_ ?_ (.refl _) hd y hy
        · intro e he d₂ block d₃ hs₂ hstep
          obtain ⟨b, hb, hmem⟩ := disconnectStep_ok hstep
          rw [hmem]
          refine offMain_marked ?_
          rw [(hs₂.trans hb).getHeight]
          exact hheight e (List.mem_append_left _ he)
        · intro e _ x d₂ h₂
          exact disconnectStep_keeps (K := fun _ => True) (fun _ _ _ hb => hb.marked_side) trivial
            (fun _ _ => trivial) h₂
      -- The blocks that are connected later are others, as long as the index keeps its shape.
      have hkeep := @runSteps_keeps (fun c => SameShape d.2 c ∧ OffMain y.blockHash c) _
          (connectStep_client H calls) connectEntries ?_ _ ⟨hshape, hoff⟩
      · rw [h] at hkeep
        exact hkeep.2
      · intro x hx d₂ h₂
        refine connectStep_keeps (K := (· ≠ y.blockHash))
          (fun k c hk hc => ⟨hmark k true c hc.1, hc.2.marked_main hk⟩) (hne x hx y hy) ?_ h₂
        intro block hget
        rw [hreq _ _ _ h₂.1 hget]
        exact hne x hx y hy
    · refine runSteps_establish (P := fun x => OnMain x.blockHash) (I := SameShape d.2)
        (connectStep_client H calls) (fun e _ _ h₁ => sameShape_keeps_connect d.2 e h₁) ?_ ?_ hshape h
      · intro e he d₂ block d₃ hs₂ hstep
        obtain ⟨b, hb, hmem⟩ := connectStep_ok hstep
        rw [hmem]
        refine onMain_marked ?_
        rw [(hs₂.trans hb).getHeight]
        exact hheight e (List.mem_append_right _ he)
      · intro e _ x d₂ h₂
        exact connectStep_keeps (K := fun _ => True) (fun _ _ _ hb => hb.marked) trivial
          (fun _ _ => trivial) h₂

/-- The body of a reorganisation returns when its loops go through and the assertion holds. -/
lemma reorganizeBody_returns_iff {newBest : Bytes} :
    (∃ r d', inside (reorganizeBody H calls disconnectEntries connectEntries newBest) d = .ok r d') ↔
      ∃ blocks d', inside (steps H calls disconnectEntries connectEntries) d = .ok blocks d' ∧
        assertPostReorgInvariants d'.2 disconnectEntries connectEntries = .ok () := by
  rw [inside_steps, reorganizeBody,
    inside_bind (runSteps_client (disconnectStep_client H calls) _) fun _ =>
      .bind (runSteps_client (connectStep_client H calls) _) fun _ =>
        .bind (read_client _) fun _ => .bind (liftExcept_client _) fun _ =>
          .bind (setBestChainTip_client _) fun _ => .ret _]
  cases hd : inside (runSteps (disconnectStep H calls) disconnectEntries) d with
  | error e d₁ => simp
  | ok disconnected d₁ =>
    simp only
    rw [inside_bind (runSteps_client (connectStep_client H calls) _) fun _ =>
      .bind (read_client _) fun _ => .bind (liftExcept_client _) fun _ =>
        .bind (setBestChainTip_client _) fun _ => .ret _]
    cases hc : inside (runSteps (connectStep H calls) connectEntries) d₁ with
    | error e d₂ => simp
    | ok connected d₂ =>
      have hfinish := @finishReorganize_inside disconnectEntries connectEntries newBest disconnected
          connected d₂
      simp only
      cases hassert : assertPostReorgInvariants d₂.2 disconnectEntries connectEntries with
      | error e =>
        simp only [hassert] at hfinish
        rw [hfinish]
        constructor
        · rintro ⟨r, d', h⟩
          cases h
        · rintro ⟨blocks, d', h, hok⟩
          cases h
          rw [hassert] at hok
          cases hok
      | ok u =>
        simp only [hassert] at hfinish
        obtain ⟨d₃, h₃, -⟩ := hfinish
        rw [h₃]
        exact ⟨fun _ => ⟨connected, d₂, rfl, hassert⟩, fun _ => ⟨_, d₃, rfl⟩⟩

end agreement

section paths
variable {b : BlockIndex} {maxReorgDepth : ℕ} {newBest oldBest : BlockIndexEntry}
variable {disconnectEntries connectEntries : List BlockIndexEntry}

lemma plan_eq_some
    (h : plan maxReorgDepth newBest oldBest b = some (disconnectEntries, connectEntries)) :
    ∃ fork, b.findCommonAncestor newBest oldBest = some fork ∧
      disconnectEntries = b.pathAbove fork oldBest ∧
      connectEntries = (b.pathAbove fork newBest).reverse := by
  unfold plan at h
  cases hfork : b.findCommonAncestor newBest oldBest with
  | none => simp [hfork] at h
  | some fork =>
    simp only [hfork] at h
    split_ifs at h
    cases hpaths : validateReorgPaths fork (b.pathAbove fork oldBest)
        (b.pathAbove fork newBest).reverse with
    | error e => simp [hpaths] at h
    | ok u =>
      simp only [hpaths, Option.some.injEq, Prod.mk.injEq] at h
      exact ⟨fork, rfl, h.1.symm, h.2.symm⟩

lemma mem_pathAbove (htree : b.TreeShaped) {fork tip x : BlockIndexEntry} (htip : b.Indexed tip)
    (hx : x ∈ b.pathAbove fork tip) : b.Indexed x ∧ x ∈ b.ancestors tip := by
  have hmem : x ∈ b.ancestors tip := List.takeWhile_subset _ hx
  rw [ancestors_eq_path] at hmem
  obtain ⟨i, hi⟩ := List.mem_iff_getElem?.1 hmem
  refine ⟨(htree.forest.height_getElem? htip hi).1, ?_⟩
  rw [ancestors_eq_path]
  exact hmem

variable (htree : b.TreeShaped) (hnew : b.Indexed newBest) (hold : b.Indexed oldBest)
  (hplan : plan maxReorgDepth newBest oldBest b = some (disconnectEntries, connectEntries))
include htree hnew hold hplan

lemma plan_indexed : ∀ x ∈ disconnectEntries ++ connectEntries, b.Indexed x := by
  obtain ⟨fork, hfork, rfl, rfl⟩ := plan_eq_some hplan
  intro x hx
  rcases List.mem_append.1 hx with hx | hx
  · exact (mem_pathAbove htree hold hx).1
  · exact (mem_pathAbove htree hnew (List.mem_reverse.1 hx)).1

lemma plan_disjoint : ∀ x ∈ connectEntries, ∀ y ∈ disconnectEntries, x.blockHash ≠ y.blockHash := by
  obtain ⟨fork, hfork, rfl, rfl⟩ := plan_eq_some hplan
  intro x hx y hy heq
  obtain ⟨hindexed, -, hanc⟩ := connectEntries_ne htree hnew hold hfork hx
  obtain ⟨hy', hyanc⟩ := mem_pathAbove htree hold hy
  rw [Indexed, heq, hy'] at hindexed
  rw [Option.some.inj hindexed] at hyanc
  exact hanc hyanc

end paths

section agree
variable {maxReorgDepth : ℕ} {newBest oldBest : BlockIndexEntry} {s : Session Tables BlockIndex}

/-- The real run returns `True` when its body does. -/
lemma reorganize_true_iff :
    (∃ xs ys s', reorganize H calls maxReorgDepth newBest oldBest s = .ok (true, xs, ys) s') ↔
      ∃ disconnectEntries connectEntries,
        plan maxReorgDepth newBest oldBest s.memory = some (disconnectEntries, connectEntries) ∧
        ∃ r d', inside (reorganizeBody H calls disconnectEntries connectEntries newBest.blockHash)
          s.data = .ok r d' := by
  simp only [reorganize, Db.bind_apply, read_apply, id, plan]
  cases hfork : s.memory.findCommonAncestor newBest oldBest with
  | none => simp [Db.pure_apply]
  | some fork =>
    simp only
    by_cases hdepth : maxReorgDepth < oldBest.height - fork.height
    · simp [hdepth, Db.pure_apply]
    · simp only [hdepth, if_false]
      cases hpaths : validateReorgPaths fork (s.memory.pathAbove fork oldBest)
          (s.memory.pathAbove fork newBest).reverse with
      | error e =>
        obtain ⟨t, ht, -⟩ := rollBack_apply [] oldBest.blockHash s
        simp [ht]
      | ok u =>
        simp only [Db.tryCatch_apply, Db.bind_apply, Option.some.injEq, Prod.mk.injEq]
        have hclient := @reorganizeBody_client H calls (s.memory.pathAbove fork oldBest)
            (s.memory.pathAbove fork newBest).reverse newBest.blockHash
        cases htx : transaction (reorganizeBody H calls (s.memory.pathAbove fork oldBest)
            (s.memory.pathAbove fork newBest).reverse newBest.blockHash) s with
        | ok r t =>
          have hin := (transaction_ok_iff hclient (d := t.data)).2 ⟨t, htx, rfl⟩
          constructor
          · intro _
            exact ⟨_, _, ⟨rfl, rfl⟩, r, t.data, hin⟩
          · intro _
            exact ⟨r.1, r.2, t, rfl⟩
        | error e t =>
          obtain ⟨t', ht', -⟩ := rollBack_apply
            (s.memory.snapshotStatuses ((s.memory.pathAbove fork oldBest ++
              (s.memory.pathAbove fork newBest).reverse).map (·.blockHash))) oldBest.blockHash t
          simp only [ht']
          constructor
          · rintro ⟨xs, ys, s', h⟩
            cases h
          · rintro ⟨_, _, ⟨rfl, rfl⟩, r, d', hin⟩
            obtain ⟨s', hs', -⟩ := (transaction_ok_iff hclient).1 hin
            rw [htx] at hs'
            cases hs'

/-- Choosing the former best tip again, if there was one. -/
def retipped (b : BlockIndex) : Option Bytes → BlockIndex
  | none => b
  | some best => b.tipped best

lemma savepoint_current (name : String) (c : SqlConnection Tables) :
    (c.savepoint name).current = c.current := by
  obtain ⟨file, _ | t⟩ := c <;> rfl

lemma savepoint_inTransaction (name : String) (c : SqlConnection Tables) :
    (c.savepoint name).inTransaction = true := by
  obtain ⟨file, _ | t⟩ := c <;> rfl

/-- The cleaning up does not raise, undoes the tables and chooses the former tip again. -/
lemma leavePreflight_apply {c : SqlConnection Tables} {t : Session Tables BlockIndex}
    (h : SameTransaction (c.savepoint savepointName) t.conn)
    (snapshot : List (Bytes × Option (Finset BlockStatus))) (best : Option Bytes) :
    ∃ t', leavePreflight snapshot best t = .ok () t' ∧
      t'.memory = retipped (t.memory.restoreStatuses snapshot) best ∧
      t'.conn.current.utxo = c.current.utxo ∧ t'.conn.current.blockUndo = c.current.blockUndo := by
  obtain ⟨c₁, h₁, h₂⟩ := release_rollbackTo h
  have hmodify (s : Session Tables BlockIndex) (f : BlockIndex → BlockIndex) :
      BlockIndex.modify f s = .ok () (Database.put s s.conn.current (f s.memory)) :=
    onMemory_apply s _
  cases best with
  | none =>
    refine ⟨Database.put ⟨c, t.memory⟩ c.current (t.memory.restoreStatuses snapshot), ?_, rfl, ?_, ?_⟩
    · simp only [leavePreflight, andFinally, onConnection, h₁, Db.bind_apply, h₂, hmodify]
      rfl
    · simp
    · simp
  | some best =>
    obtain ⟨t', ht', hmem, hutxo, hundo⟩ := setBestChainTip_apply best
      (Database.put ⟨c, t.memory⟩ c.current (t.memory.restoreStatuses snapshot))
    refine ⟨t', ?_, hmem, ?_, ?_⟩
    · simp only [leavePreflight, andFinally, onConnection, h₁, Db.bind_apply, h₂, hmodify, ht']
    · rw [hutxo, put_current]
    · rw [hundo, put_current]

/-- The data in which a run ends. -/
def endOf {α : Type} : EStateM.Result PyError (Tables × BlockIndex) α → Tables × BlockIndex
  | .ok _ d => d
  | .error _ d => d

lemma Mirrors.endOf_eq {r : EStateM.Result PyError (Tables × BlockIndex) (List Block)}
    {r' : EStateM.Result PyError (Tables × BlockIndex) Bool} (h : Mirrors r r') :
    endOf r' = endOf r := by
  cases r with
  | ok blocks d =>
    have hr' : r' = .ok true d := h
    rw [hr']
    rfl
  | error e d =>
    rcases h with h | h
    · rw [h]
      rfl
    · rw [h]
      rfl

lemma Mirrors.true_iff {r : EStateM.Result PyError (Tables × BlockIndex) (List Block)}
    {r' : EStateM.Result PyError (Tables × BlockIndex) Bool} (h : Mirrors r r') :
    (∃ d, r' = .ok true d) ↔ ∃ blocks d, r = .ok blocks d := by
  cases r with
  | ok blocks d => exact ⟨fun _ => ⟨blocks, d, rfl⟩, fun _ => ⟨d, h⟩⟩
  | error e d =>
    constructor
    · rintro ⟨d', h'⟩
      rcases h with h | h
      · rw [h] at h'
        cases h'
      · rw [h] at h'
        cases h'
    · rintro ⟨blocks, d', h'⟩
      cases h'

/-- Up to the savepoint the paths are computed; they are the ones of the plan. -/
lemma canReorganize_of_plan {disconnectEntries connectEntries : List BlockIndexEntry}
    (hplan : plan maxReorgDepth newBest oldBest s.memory = some (disconnectEntries, connectEntries)) :
    canReorganize H calls maxReorgDepth newBest oldBest s =
      andFinally (preflight H calls disconnectEntries connectEntries)
        (leavePreflight (s.memory.snapshotStatuses
          ((disconnectEntries ++ connectEntries).map (·.blockHash))) s.memory.bestHash)
        { s with conn := s.conn.savepoint savepointName } := by
  simp only [canReorganize, Db.bind_apply, read_apply, id]
  unfold plan at hplan
  cases hfork : s.memory.findCommonAncestor newBest oldBest with
  | none => simp [hfork] at hplan
  | some fork =>
    simp only [hfork] at hplan
    split_ifs at hplan with hdepth
    cases hpaths : validateReorgPaths fork (s.memory.pathAbove fork oldBest)
        (s.memory.pathAbove fork newBest).reverse with
    | error e => simp [hpaths] at hplan
    | ok u =>
      simp only [hpaths, Option.some.injEq, Prod.mk.injEq] at hplan
      obtain ⟨rfl, rfl⟩ := hplan
      simp only [hdepth, if_false, hpaths]
      rfl

/-- What the dry run returns and leaves behind once its paths are accepted. -/
lemma canReorganize_spec {disconnectEntries connectEntries : List BlockIndexEntry}
    (hplan : plan maxReorgDepth newBest oldBest s.memory = some (disconnectEntries, connectEntries)) :
    let r := inside (steps H calls disconnectEntries connectEntries) s.data
    let snapshot := s.memory.snapshotStatuses
      ((disconnectEntries ++ connectEntries).map (·.blockHash))
    let s' := (canReorganize H calls maxReorgDepth newBest oldBest).final s
    (s'.memory = retipped ((endOf r).2.restoreStatuses snapshot) s.memory.bestHash ∧
      s'.conn.current.utxo = s.conn.current.utxo ∧
      s'.conn.current.blockUndo = s.conn.current.blockUndo) ∧
    ((∃ t, canReorganize H calls maxReorgDepth newBest oldBest s = .ok true t) ↔
      ∃ blocks d, r = .ok blocks d) := by
  intro r snapshot s'
  let s₁ : Session Tables BlockIndex := { s with conn := s.conn.savepoint savepointName }
  have hclient := preflight_client H calls disconnectEntries connectEntries
  have hopen : s₁.conn.inTransaction = true := savepoint_inTransaction _ _
  have hdata : s₁.data = s.data := by
    simp only [Session.data, s₁, savepoint_current]
  have hproj := hclient.project_eq_inside hopen
  have hsame := hclient.sameTransaction hopen
  rw [hdata] at hproj
  have hmirrors := @preflight_mirrors H calls disconnectEntries connectEntries s.data
  have hend := hmirrors.endOf_eq
  have htrue := hmirrors.true_iff
  have hrun : canReorganize H calls maxReorgDepth newBest oldBest s =
      andFinally (preflight H calls disconnectEntries connectEntries)
        (leavePreflight snapshot s.memory.bestHash) s₁ := canReorganize_of_plan hplan
  cases hp : preflight H calls disconnectEntries connectEntries s₁ with
  | ok ok t =>
    simp only [Db.final, hp] at hsame
    rw [hp] at hproj
    obtain ⟨t', ht', hmem, hutxo, hundo⟩ := leavePreflight_apply hsame snapshot s.memory.bestHash
    have hres : canReorganize H calls maxReorgDepth newBest oldBest s = .ok ok t' := by
      rw [hrun]
      simp only [andFinally, hp, ht']
    have hs' : s' = t' := by simp only [s', Db.final, hres]
    rw [← hproj] at hend htrue
    rw [hres, hs']
    refine ⟨⟨?_, hutxo, hundo⟩, ?_⟩
    · rw [hmem, ← hend]
      rfl
    · rw [← htrue]
      constructor
      · rintro ⟨_, h⟩
        cases h
        exact ⟨_, rfl⟩
      · rintro ⟨_, h⟩
        cases h
        exact ⟨_, rfl⟩
  | error e t =>
    simp only [Db.final, hp] at hsame
    rw [hp] at hproj
    obtain ⟨t', ht', hmem, hutxo, hundo⟩ := leavePreflight_apply hsame snapshot s.memory.bestHash
    have hres : canReorganize H calls maxReorgDepth newBest oldBest s = .error e t' := by
      rw [hrun]
      simp only [andFinally, hp, ht']
    have hs' : s' = t' := by simp only [s', Db.final, hres]
    rw [← hproj] at hend htrue
    rw [hres, hs']
    refine ⟨⟨?_, hutxo, hundo⟩, ?_⟩
    · rw [hmem, ← hend]
      rfl
    · rw [← htrue]
      constructor
      · rintro ⟨_, h⟩
        cases h
      · rintro ⟨_, h⟩
        cases h

/-- A dry run that refuses its paths has done nothing. -/
lemma canReorganize_of_plan_none (hplan : plan maxReorgDepth newBest oldBest s.memory = none) :
    canReorganize H calls maxReorgDepth newBest oldBest s = .ok false s := by
  simp only [canReorganize, Db.bind_apply, read_apply, id]
  unfold plan at hplan
  cases hfork : s.memory.findCommonAncestor newBest oldBest with
  | none => rfl
  | some fork =>
    simp only [hfork] at hplan
    simp only
    split_ifs with hdepth
    · rfl
    · simp only [hdepth, if_false] at hplan
      cases hpaths : validateReorgPaths fork (s.memory.pathAbove fork oldBest)
          (s.memory.pathAbove fork newBest).reverse with
      | error e => rfl
      | ok u => simp [hpaths] at hplan

/-- Both return `True` for the same arguments in the same state. -/
theorem canReorganize_agrees (hreq : ReturnsRequested H calls) (htree : s.memory.TreeShaped)
    (hnew : s.memory.Indexed newBest) (hold : s.memory.Indexed oldBest) :
    (∃ t, canReorganize H calls maxReorgDepth newBest oldBest s = .ok true t) ↔
      ∃ xs ys s', reorganize H calls maxReorgDepth newBest oldBest s = .ok (true, xs, ys) s' := by
  rw [reorganize_true_iff]
  cases hplan : plan maxReorgDepth newBest oldBest s.memory with
  | none =>
    rw [canReorganize_of_plan_none hplan]
    simp
  | some paths =>
    obtain ⟨disconnectEntries, connectEntries⟩ := paths
    rw [(canReorganize_spec hplan).2]
    have hheight : ∀ x ∈ disconnectEntries ++ connectEntries,
        s.memory.getHeight x.blockHash ≠ none := by
      intro x hx
      rw [(plan_indexed htree hnew hold hplan x hx).getHeight]
      simp
    constructor
    · rintro ⟨blocks, d, h⟩
      have hassert := steps_flags (fun k d₁ block _ hget => hreq k d₁ block hget) hheight
        (plan_disjoint htree hnew hold hplan) h
      exact ⟨_, _, rfl, reorganizeBody_returns_iff.2 ⟨blocks, d, h, hassert⟩⟩
    · rintro ⟨_, _, h, hbody⟩
      cases h
      obtain ⟨blocks, d, hsteps, -⟩ := reorganizeBody_returns_iff.1 hbody
      exact ⟨blocks, d, hsteps⟩

end agree

end ReorgManager
end BerzCoin
