import BerzCoin.ChainReorgPreflight

/-! What the dry run leaves of the block index. The flags are restored one by one; the height
index is rebuilt from the best tip, and otherwise stays as the steps have left it. -/
namespace BerzCoin
open Database BlockIndex

namespace ReorgManager
variable {H : Hashlib} {calls : ReorgCallbacks}

/-- No block that is connected moves the height index: each is in it already. -/
def ConnectsUnmoved (H : Hashlib) (calls : ReorgCallbacks) :
    List BlockIndexEntry → Tables × BlockIndex → Prop
  | [], _ => True
  | entry :: entries, d =>
    (ConnectMarks H calls entry d → d.2.heightIndex entry.height = some entry.blockHash) ∧
      ∀ block d', inside (connectStep H calls entry) d = .ok block d' →
        ConnectsUnmoved H calls entries d'

/-- No step that goes through moves the height index: no disconnected block is in it. -/
def Unmoved (H : Hashlib) (calls : ReorgCallbacks) (connectEntries : List BlockIndexEntry) :
    List BlockIndexEntry → Tables × BlockIndex → Prop
  | [], d => ConnectsUnmoved H calls connectEntries d
  | entry :: entries, d =>
    ∀ block d', inside (disconnectStep H calls entry) d = .ok block d' →
      d.2.heightIndex entry.height ≠ some entry.blockHash ∧
        Unmoved H calls connectEntries entries d'

section unmoved
variable {b₀ : BlockIndex} {d : Tables × BlockIndex}

lemma marked_true_heightIndex {b : BlockIndex} {k : Bytes} {h : ℕ} (hheight : b.getHeight k = some h) :
    (b.marked k true).heightIndex = Function.update b.heightIndex h (some k) := by
  obtain ⟨e, he, rfl⟩ := Option.map_eq_some_iff.1 hheight
  simp [marked, he, withMainChain]

lemma marked_false_heightIndex {b : BlockIndex} {k : Bytes} {h : ℕ} (hheight : b.getHeight k = some h)
    (hne : b.heightIndex h ≠ some k) : (b.marked k false).heightIndex = b.heightIndex := by
  obtain ⟨e, he, rfl⟩ := Option.map_eq_some_iff.1 hheight
  simp [marked, he, withMainChain, hne]

variable (hreq : ReturnsRequested H calls) {entry : BlockIndexEntry}
  (hentry : b₀.getHeight entry.blockHash = some entry.height)
include hreq hentry

lemma connectStep_unmoved (hshape : SameShape b₀ d.2)
    (h : d.2.heightIndex entry.height = some entry.blockHash) :
    Ends (fun b => SameShape b₀ b ∧ b.heightIndex = d.2.heightIndex)
      (inside (connectStep H calls entry) d) := by
  refine connectStep_keeps (K := (· = entry.blockHash)) ?_ rfl (fun block hget => hreq _ _ _ hget)
    ⟨hshape, rfl⟩
  rintro k b rfl ⟨hb, hindex⟩
  refine ⟨hb.trans (sameShape_marked b _ _), ?_⟩
  rw [marked_true_heightIndex ((hb.getHeight _).trans hentry), hindex, ← h, Function.update_eq_self]

lemma disconnectStep_unmoved (hshape : SameShape b₀ d.2)
    (h : d.2.heightIndex entry.height ≠ some entry.blockHash) :
    Ends (fun b => SameShape b₀ b ∧ b.heightIndex = d.2.heightIndex)
      (inside (disconnectStep H calls entry) d) := by
  refine disconnectStep_keeps (K := (· = entry.blockHash)) ?_ rfl (fun block hget => hreq _ _ _ hget)
    ⟨hshape, rfl⟩
  rintro k b rfl ⟨hb, hindex⟩
  refine ⟨hb.trans (sameShape_marked b _ _), ?_⟩
  rw [marked_false_heightIndex ((hb.getHeight _).trans hentry) (hindex ▸ h), hindex]

/-- Connecting a block of another height keeps an entry of the height index. -/
lemma connectStep_keeps_height {h : ℕ} {k₀ : Bytes} (hne : entry.height ≠ h)
    (hd : SameShape b₀ d.2 ∧ d.2.heightIndex h = some k₀) :
    Ends (fun b => SameShape b₀ b ∧ b.heightIndex h = some k₀)
      (inside (connectStep H calls entry) d) := by
  refine connectStep_keeps (K := (· = entry.blockHash)) ?_ rfl (fun block hget => hreq _ _ _ hget) hd
  rintro k b rfl ⟨hb, hindex⟩
  refine ⟨hb.trans (sameShape_marked b _ _), ?_⟩
  rw [marked_true_heightIndex ((hb.getHeight _).trans hentry), Function.update_of_ne hne.symm]
  exact hindex

end unmoved

section moved
variable {b₀ : BlockIndex} {d : Tables × BlockIndex}

lemma endOf_runSteps_cons {step : BlockIndexEntry → ChainDb Block} (hstep : ∀ e, Client (step e))
    (entry : BlockIndexEntry) (entries : List BlockIndexEntry) (d : Tables × BlockIndex) :
    endOf (inside (runSteps step (entry :: entries)) d) = match inside (step entry) d with
      | .error _ d' => d'
      | .ok _ d' => endOf (inside (runSteps step entries) d') := by
  rw [inside_runSteps_cons hstep]
  cases inside (step entry) d with
  | error e d' => rfl
  | ok block d' =>
    simp only
    cases inside (runSteps step entries) d' <;> rfl

lemma forall_ok_iff {P : Tables × BlockIndex → Prop} (block : Block) (d' : Tables × BlockIndex) :
    (∀ block' d'', (.ok block d' : EStateM.Result PyError (Tables × BlockIndex) Block) =
      .ok block' d'' → P d'') ↔ P d' := by
  constructor
  · intro h
    exact h block d' rfl
  · intro h block' d'' heq
    cases heq
    exact h

lemma ends_endOf {α : Type} {P : BlockIndex → Prop}
    {r : EStateM.Result PyError (Tables × BlockIndex) α} (h : Ends P r) : P (endOf r).2 := by
  cases r with
  | ok a d => exact h
  | error e d => exact h

variable (hreq : ReturnsRequested H calls)
include hreq

theorem connects_heightIndex_iff {entries : List BlockIndexEntry}
    (hentries : ∀ x ∈ entries, b₀.getHeight x.blockHash = some x.height)
    (hdistinct : entries.Pairwise fun x y => y.height ≠ x.height) (hshape : SameShape b₀ d.2) :
    (endOf (inside (runSteps (connectStep H calls) entries) d)).2.heightIndex = d.2.heightIndex ↔
      ConnectsUnmoved H calls entries d := by
  induction entries generalizing d with
  | nil => exact ⟨fun _ => trivial, fun _ => rfl⟩
  | cons entry entries ih =>
    obtain ⟨hfirst, hrest⟩ := List.pairwise_cons.1 hdistinct
    have hentry := hentries entry (List.mem_cons_self ..)
    have hentries' : ∀ x ∈ entries, b₀.getHeight x.blockHash = some x.height :=
      fun x hx => hentries x (List.mem_cons_of_mem _ hx)
    have hheight : d.2.getHeight entry.blockHash = some entry.height :=
      (hshape.getHeight _).trans hentry
    have hmarks := @connectStep_marks _ _ _ entry hreq hheight
    have hkeep := connectStep_unmoved hreq hentry hshape
    have hshape' := @sameShape_keeps_connect H calls _ b₀ entry hshape
    rw [endOf_runSteps_cons (connectStep_client H calls), ConnectsUnmoved]
    cases hs : inside (connectStep H calls entry) d with
    | error e d' =>
      rw [hs] at hmarks hkeep
      simp only [reduceCtorEq, false_implies, implies_true, and_true]
      constructor
      · intro heq hm
        rw [← heq]
        exact hmarks hm
      · intro hm
        by_cases hc : ConnectMarks H calls entry d
        · exact (hkeep (hm hc)).2
        · rw [connectStep_error_memory hs]
          intro block hget hcheck htxs
          exact hc (.inr ⟨block, hget, hcheck, htxs⟩)
    | ok block d' =>
      rw [hs] at hmarks hkeep hshape'
      have hc : ConnectMarks H calls entry d := .inl ⟨block, d', hs⟩
      simp only [hc, true_implies, forall_ok_iff]
      by_cases hm : d.2.heightIndex entry.height = some entry.blockHash
      · simp only [hm, true_and]
        rw [← (hkeep hm).2]
        exact ih hentries' hrest hshape'
      · simp only [hm, false_and, iff_false]
        intro heq
        -- The later blocks have other heights.
        have hends := @runSteps_keeps
            (fun b => SameShape b₀ b ∧ b.heightIndex entry.height = some entry.blockHash) _
            (connectStep_client H calls) entries
            (fun x hx d₂ h₂ => connectStep_keeps_height hreq (hentries' x hx) (hfirst x hx) h₂) _
            ⟨hshape', hmarks hc⟩
        have hend := (ends_endOf hends).2
        rw [heq] at hend
        exact hm hend

theorem steps_heightIndex_iff {disconnectEntries connectEntries : List BlockIndexEntry}
    (hentries : ∀ x ∈ disconnectEntries ++ connectEntries, b₀.getHeight x.blockHash = some x.height)
    (hdistinct : connectEntries.Pairwise fun x y => y.height ≠ x.height)
    (hne : ∀ x ∈ connectEntries, ∀ y ∈ disconnectEntries, x.blockHash ≠ y.blockHash)
    (hshape : SameShape b₀ d.2) :
    (endOf (inside (steps H calls disconnectEntries connectEntries) d)).2.heightIndex =
        d.2.heightIndex ↔ Unmoved H calls connectEntries disconnectEntries d := by
  induction disconnectEntries generalizing d with
  | nil =>
    have hsteps : inside (steps H calls [] connectEntries) d =
        inside (runSteps (connectStep H calls) connectEntries) d := by
      rw [inside_steps]
      rfl
    rw [hsteps]
    exact connects_heightIndex_iff hreq hentries hdistinct hshape
  | cons entry entries ih =>
    have hentry := hentries entry (by simp)
    have hheight : d.2.getHeight entry.blockHash = some entry.height :=
      (hshape.getHeight _).trans hentry
    have hkeep := disconnectStep_unmoved hreq hentry hshape
    have hshape' := @sameShape_keeps_disconnect H calls _ b₀ entry hshape
    have hcons : endOf (inside (steps H calls (entry :: entries) connectEntries) d) =
        match inside (disconnectStep H calls entry) d with
        | .error _ d' => d'
        | .ok _ d' => endOf (inside (steps H calls entries connectEntries) d') := by
      rw [inside_steps, inside_runSteps_cons (disconnectStep_client H calls)]
      cases inside (disconnectStep H calls entry) d with
      | error e d' => rfl
      | ok block d' =>
        simp only [inside_steps]
        cases inside (runSteps (disconnectStep H calls) entries) d' <;> rfl
    rw [hcons, Unmoved]
    cases hs : inside (disconnectStep H calls entry) d with
    | error e d' => simp [disconnectStep_error_memory hs]
    | ok block d' =>
      rw [hs] at hkeep hshape'
      rw [forall_ok_iff (P := fun d' => d.2.heightIndex entry.height ≠ some entry.blockHash ∧
        Unmoved H calls connectEntries entries d')]
      by_cases hm : d.2.heightIndex entry.height = some entry.blockHash
      · simp only [hm, ne_eq, not_true_eq_false, false_and, iff_false]
        intro heq
        -- No later step puts the block back.
        have hmoved := disconnectStep_ok hs
        obtain ⟨b, hb, hmem⟩ := hmoved
        have hgone : d'.2.heightIndex entry.height ≠ some entry.blockHash := by
          rw [hmem]
          exact marked_false_self ((hb.getHeight _).trans hheight)
        have hends : Ends (fun b => b.heightIndex entry.height ≠ some entry.blockHash)
            (inside (steps H calls entries connectEntries) d') := by
          rw [inside_steps]
          have hdisc := @runSteps_keeps (fun b => b.heightIndex entry.height ≠ some entry.blockHash)
              _ (disconnectStep_client H calls) entries
              (fun x _ d₂ h₂ => disconnectStep_keeps (K := fun _ => True)
              (fun _ _ _ hb => marked_false_keeps hb) trivial (fun _ _ => trivial) h₂) _ hgone
          cases hd : inside (runSteps (disconnectStep H calls) entries) d' with
          | error e d₂ =>
            rw [hd] at hdisc
            exact hdisc
          | ok blocks d₂ =>
            rw [hd] at hdisc
            refine runSteps_keeps (connectStep_client H calls) ?_ hdisc
            intro x hx d₃ h₃
            have hxne := hne x hx entry (by simp)
            refine connectStep_keeps (K := (· ≠ entry.blockHash))
              (fun _ _ hk hb => marked_true_keeps hk hb) hxne ?_ h₃
            intro block hget
            rw [hreq _ _ _ hget]
            exact hxne
        have hend := ends_endOf hends
        rw [heq] at hend
        exact hend hm
      · simp only [hm, ne_eq, not_false_eq_true, true_and]
        rw [← (hkeep hm).2]
        refine ih ?_ ?_ hshape'
        · intro x hx
          exact hentries x (by simp at hx ⊢; tauto)
        · intro x hx y hy
          exact hne x hx y (List.mem_cons_of_mem _ hy)

end moved

section touched
variable {b₀ : BlockIndex} {d : Tables × BlockIndex} {hashes : List Bytes}

/-- The index differs in the flags of the given blocks and in the height index at most. -/
structure Touches (hashes : List Bytes) (b₀ b : BlockIndex) : Prop where
  shape : SameShape b₀ b
  bestHash : b.bestHash = b₀.bestHash
  bestHeight : b.bestHeight = b₀.bestHeight
  others : ∀ h ∉ hashes, b.getBlock h = b₀.getBlock h

lemma Touches.refl (hashes : List Bytes) (b : BlockIndex) : Touches hashes b b :=
  ⟨.refl b, rfl, rfl, fun _ _ => rfl⟩

lemma Touches.marked {b : BlockIndex} {k : Bytes} (isMain : Bool) (hk : k ∈ hashes)
    (h : Touches hashes b₀ b) : Touches hashes b₀ (b.marked k isMain) := by
  have hbest : (b.marked k isMain).bestHash = b.bestHash ∧
      (b.marked k isMain).bestHeight = b.bestHeight := by
    unfold BlockIndex.marked
    cases b.getBlock k with
    | none => exact ⟨rfl, rfl⟩
    | some e =>
      cases isMain with
      | true => exact ⟨rfl, rfl⟩
      | false => exact ⟨rfl, rfl⟩
  refine ⟨h.shape.trans (sameShape_marked b k isMain), hbest.1.trans h.bestHash,
    hbest.2.trans h.bestHeight, ?_⟩
  intro h' hh'
  have hne : h' ≠ k := by
    rintro rfl
    exact hh' hk
  rw [getBlock_marked, if_neg hne]
  exact h.others h' hh'

lemma steps_touches (hreq : ReturnsRequested H calls)
    {disconnectEntries connectEntries : List BlockIndexEntry} (d : Tables × BlockIndex) :
    Ends (Touches ((disconnectEntries ++ connectEntries).map (·.blockHash)) d.2)
      (inside (steps H calls disconnectEntries connectEntries) d) := by
  have hmem (x : BlockIndexEntry) (hx : x ∈ disconnectEntries ++ connectEntries) :
      x.blockHash ∈ (disconnectEntries ++ connectEntries).map (·.blockHash) :=
    List.mem_map_of_mem hx
  have hget (x : BlockIndexEntry) (hx : x ∈ disconnectEntries ++ connectEntries)
      (d' : Tables × BlockIndex) (block : Block)
      (h : calls.getBlock x.blockHash d' = .ok (some block)) : block.header.hashHex H ∈
        (disconnectEntries ++ connectEntries).map (·.blockHash) := by
    rw [hreq _ _ _ h]
    exact hmem x hx
  rw [inside_steps]
  have hdisc := @runSteps_keeps
      (Touches ((disconnectEntries ++ connectEntries).map (·.blockHash)) d.2) _
      (disconnectStep_client H calls) disconnectEntries ?_ _ (Touches.refl _ d.2)
  · cases hd : inside (runSteps (disconnectStep H calls) disconnectEntries) d with
    | error e d₁ =>
      rw [hd] at hdisc
      exact hdisc
    | ok blocks d₁ =>
      rw [hd] at hdisc
      refine runSteps_keeps (connectStep_client H calls) ?_ hdisc
      intro x hx d₂ h₂
      have hx' := List.mem_append_right disconnectEntries hx
      exact connectStep_keeps (fun _ _ hk hb => hb.marked true hk) (hmem x hx') (hget x hx' d₂) h₂
  · intro x hx d₂ h₂
    have hx' := List.mem_append_left connectEntries hx
    exact disconnectStep_keeps (fun _ _ hk hb => hb.marked false hk) (hmem x hx') (hget x hx' d₂) h₂

end touched

section unchanged
variable {maxReorgDepth : ℕ} {newBest oldBest : BlockIndexEntry}

lemma plan_heights {b : BlockIndex} {disconnectEntries connectEntries : List BlockIndexEntry}
    (htree : b.TreeShaped) (hnew : b.Indexed newBest)
    (hplan : plan maxReorgDepth newBest oldBest b = some (disconnectEntries, connectEntries)) :
    connectEntries.Pairwise fun x y => y.height ≠ x.height := by
  obtain ⟨fork, -, -, rfl⟩ := plan_eq_some hplan
  have hdown : (b.ancestors newBest).Pairwise fun x y => y.height < x.height := by
    rw [ancestors_eq_path]
    exact htree.forest.pairwise_height hnew
  rw [List.pairwise_reverse]
  refine (hdown.sublist (List.takeWhile_sublist _)).imp ?_
  intro x y h
  omega

/-- The best tip is chosen on a valid branch, and the height index and the flags are those of
the branch; or the index has no such tip, but the dry run moves nothing in the height index. -/
def Restorable (H : Hashlib) (calls : ReorgCallbacks)
    (disconnectEntries connectEntries : List BlockIndexEntry) (d : Tables × BlockIndex) : Prop :=
  (∃ tip, d.2.ActiveTip tip ∧ d.2.isBranchInvalid tip.blockHash = false) ∨
    (∀ k, d.2.bestHash = some k → ¬ d.2.Accepts k) ∧
      Unmoved H calls connectEntries disconnectEntries d

lemma retipped_sameActive_iff {b₀ b : BlockIndex} {k : Bytes} (htree : b₀.TreeShaped)
    (hshape : SameShape b₀ b) (hbest : b₀.bestHash = some k) (haccepts : b₀.Accepts k) :
    SameActive b₀ (b.tipped k) ↔
      ∃ tip, b₀.ActiveTip tip ∧ b₀.isBranchInvalid tip.blockHash = false := by
  constructor
  · intro h
    have hsame := h.trans (sameActive_tipped_tipped hshape haccepts).symm
    obtain ⟨tip, hactive, rfl⟩ := activeTip_of_sameActive htree haccepts hsame
    exact ⟨tip, hactive, haccepts.2⟩
  · rintro ⟨tip, hactive, hvalid⟩
    have hk : tip.blockHash = k := Option.some.inj (hactive.bestHash.symm.trans hbest)
    rw [← hk]
    exact sameActive_tipped hshape hactive hvalid

lemma canReorganize_sameActive_iff {s : Session Tables BlockIndex} (hreq : ReturnsRequested H calls)
    (htree : s.memory.TreeShaped) (hnew : s.memory.Indexed newBest)
    (hold : s.memory.Indexed oldBest) :
    SameActive s.memory ((canReorganize H calls maxReorgDepth newBest oldBest).final s).memory ↔
      ∀ disconnectEntries connectEntries,
        plan maxReorgDepth newBest oldBest s.memory = some (disconnectEntries, connectEntries) →
          Restorable H calls disconnectEntries connectEntries s.data := by
  cases hplan : plan maxReorgDepth newBest oldBest s.memory with
  | none =>
    simp only [Db.final, canReorganize_of_plan_none hplan, reduceCtorEq, false_implies, implies_true,
      iff_true]
    exact .refl _
  | some paths =>
    obtain ⟨disconnectEntries, connectEntries⟩ := paths
    have htouches := ends_endOf (@steps_touches _ _ hreq disconnectEntries connectEntries s.data)
    have hheights : ∀ x ∈ disconnectEntries ++ connectEntries,
        s.memory.getHeight x.blockHash = some x.height := fun x hx =>
      (plan_indexed htree hnew hold hplan x hx).getHeight
    have hindex := steps_heightIndex_iff (d := s.data) hreq hheights
      (plan_heights htree hnew hplan) (plan_disjoint htree hnew hold hplan) (.refl _)
    have hrestored := sameActive_restored_iff htouches.shape htouches.bestHash htouches.bestHeight
      fun h hh => congrArg (Option.map BlockIndexEntry.status) (htouches.others h hh)
    have hshape := sameShape_restoreStatuses htouches.shape
      ((disconnectEntries ++ connectEntries).map (·.blockHash))
    have hmem : s.data.2 = s.memory := rfl
    rw [hmem] at hrestored hindex hshape
    rw [(canReorganize_spec hplan).1.1]
    have hone (P : List BlockIndexEntry → List BlockIndexEntry → Prop) :
        (∀ ds cs, some (disconnectEntries, connectEntries) = some (ds, cs) → P ds cs) ↔
          P disconnectEntries connectEntries := by
      constructor
      · intro h
        exact h _ _ rfl
      · intro h ds cs heq
        cases heq
        exact h
    rw [hone]
    have hnoTip (h : ∀ k, s.memory.bestHash = some k → ¬ s.memory.Accepts k) :
        ¬ ∃ tip, s.memory.ActiveTip tip ∧ s.memory.isBranchInvalid tip.blockHash = false := by
      rintro ⟨tip, hactive, hvalid⟩
      exact h _ hactive.bestHash ⟨by simp [hactive.entry], hvalid⟩
    cases hbest : s.memory.bestHash with
    | none =>
      have hno : ∀ k, s.memory.bestHash = some k → ¬ s.memory.Accepts k := by
        intro k hk
        rw [hbest] at hk
        cases hk
      rw [retipped, Restorable, hmem, or_iff_right (hnoTip hno), and_iff_right hno]
      exact hrestored.trans hindex
    | some k =>
      rw [retipped]
      by_cases haccepts : s.memory.Accepts k
      · have hnot : ¬ ∀ k, s.memory.bestHash = some k → ¬ s.memory.Accepts k :=
          fun h => h k hbest haccepts
        rw [Restorable, hmem, or_iff_left fun h => hnot h.1]
        exact retipped_sameActive_iff htree hshape hbest haccepts
      · have hno : ∀ k, s.memory.bestHash = some k → ¬ s.memory.Accepts k := by
          intro k' hk'
          rw [hbest] at hk'
          cases hk'
          exact haccepts
        have hsame := tipped_of_not_accepts fun h => haccepts ((hshape.accepts k).1 h)
        rw [hsame, Restorable, hmem, or_iff_right (hnoTip hno), and_iff_right hno]
        exact hrestored.trans hindex

end unchanged

/-- The dry run always returns `True` when the real run does, and leaves UTXO set and undo rows
alone. It leaves the best tip, the height index and the main-chain flags alone exactly when it
refuses its paths, or the tip that it chooses again is the active one and on a valid branch, or
there is no tip to choose and no step moves the height index. -/
theorem canReorganize_agrees_unchanged_iff (H : Hashlib) (calls : ReorgCallbacks)
    (maxReorgDepth : ℕ) (newBest oldBest : BlockIndexEntry) (s : Session Tables BlockIndex)
    (hreq : ReturnsRequested H calls) (htree : s.memory.TreeShaped)
    (hnew : s.memory.Indexed newBest) (hold : s.memory.Indexed oldBest) :
    let s' := (canReorganize H calls maxReorgDepth newBest oldBest).final s
    (s'.conn.current.utxo = s.conn.current.utxo ∧
        s'.conn.current.blockUndo = s.conn.current.blockUndo ∧ SameActive s.memory s'.memory ∧
        ((∃ t, canReorganize H calls maxReorgDepth newBest oldBest s = .ok true t) ↔
          ∃ xs ys t, reorganize H calls maxReorgDepth newBest oldBest s = .ok (true, xs, ys) t)) ↔
      ∀ disconnectEntries connectEntries,
        plan maxReorgDepth newBest oldBest s.memory = some (disconnectEntries, connectEntries) →
          Restorable H calls disconnectEntries connectEntries s.data := by
  intro s'
  have htables : s'.conn.current.utxo = s.conn.current.utxo ∧
      s'.conn.current.blockUndo = s.conn.current.blockUndo := by
    cases hplan : plan maxReorgDepth newBest oldBest s.memory with
    | none =>
      simp only [s', Db.final, canReorganize_of_plan_none hplan, and_self]
    | some paths =>
      obtain ⟨disconnectEntries, connectEntries⟩ := paths
      exact (canReorganize_spec hplan).1.2
  rw [← canReorganize_sameActive_iff hreq htree hnew hold]
  have hagrees := @canReorganize_agrees _ _ maxReorgDepth _ _ _ hreq htree hnew hold
  exact ⟨fun h => h.2.2.1, fun h => ⟨htables.1, htables.2, h, hagrees⟩⟩

namespace ReorgExample
open BlockExample

/-- The genesis block is valid here, so that the active tip is on a valid branch. -/
def validSession : Session Tables BlockIndex where
  conn := ⟨Tables.empty, none⟩
  memory := indexWith {.MAIN_CHAIN}

def stored : List Block := [blockA, blockB, blockB2]

def tried : Session Tables BlockIndex :=
  (canReorganize hashlib (callbacks [blockA]) 144 entryB2 entryA).final session

end ReorgExample

open ReorgExample BlockExample in
theorem canReorganize_agrees_unchanged_iff_example :
    (∃ t, canReorganize hashlib (callbacks stored) 144 entryB2 entryA validSession = .ok true t) ∧
      ∃ xs ys t, reorganize hashlib (callbacks stored) 144 entryB2 entryA validSession =
        .ok (true, xs, ys) t := by
  have htree : validSession.memory.TreeShaped :=
    treeShaped_of_rows (by decide +kernel) (by decide +kernel)
  have hnew : validSession.memory.Indexed entryB2 := by
    rw [Indexed]
    decide +kernel
  have hactive : validSession.memory.ActiveTip entryA := by
    have hbranch : validSession.memory.branch entryA.blockHash =
        [entryA, entryOf genesis 0 {.MAIN_CHAIN}] := by decide +kernel
    refine activeTip_of_rows (by decide +kernel) rfl rfl ?_ (by decide +kernel)
    rw [hbranch]
    rfl
  have htrue : ∃ t, canReorganize hashlib (callbacks stored) 144 entryB2 entryA validSession =
      .ok true t := ⟨_, Db.eq_ok_of_returns (by decide +kernel)⟩
  have hvalid : validSession.memory.isBranchInvalid entryA.blockHash = false := by decide +kernel
  have h := (canReorganize_agrees_unchanged_iff hashlib (callbacks stored) 144 entryB2 entryA
    validSession (callbacks_returnsRequested _) htree hnew hactive.entry).2
    fun _ _ _ => .inl ⟨entryA, hactive, hvalid⟩
  exact ⟨htrue, h.2.2.2.1 htrue⟩

open ReorgExample BlockExample in
/-- The dry run takes the old tip out of the height index, and choosing it again is refused. -/
theorem canReorganize_loses_height :
    session.memory.TreeShaped ∧ session.memory.ActiveTip entryA ∧ session.memory.Indexed entryB2 ∧
      tried = (canReorganize hashlib (callbacks [blockA]) 144 entryB2 entryA).final session ∧
      session.memory.heightIndex 1 = some entryA.blockHash ∧ tried.memory.heightIndex 1 = none :=
  ⟨session_treeShaped, session_activeTip, session_indexed, rfl, by decide +kernel,
    by decide +kernel⟩

end ReorgManager
end BerzCoin
