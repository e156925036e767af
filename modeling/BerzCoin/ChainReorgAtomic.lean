import BerzCoin.ChainReorgSteps

/-! What a failed reorganisation leaves behind. The transaction undoes the tables; the index is
restored by choosing the old tip again, which `set_best_chain_tip` refuses when the branch of
the old tip holds an invalid block. -/
namespace BerzCoin
open Database BlockIndex

section tip

lemma persistAll_apply (rows : List (Bytes × BlockIndexEntry)) (s : Session Tables BlockIndex) :
    ∃ s', persistAll rows s = .ok () s' ∧ s'.memory = s.memory ∧
      s'.conn.current.utxo = s.conn.current.utxo ∧
      s'.conn.current.blockUndo = s.conn.current.blockUndo := by
  induction rows generalizing s with
  | nil => exact ⟨s, rfl, rfl, rfl, rfl⟩
  | cons row rows ih =>
    obtain ⟨k, entry⟩ := row
    obtain ⟨s1, h1, hcur, -, hmem⟩ := change_opens s fun tables : Tables => { tables with
      blockHeaders := tables.blockHeaders.update entry.blockHash fun row =>
        { row with isValid := !entry.isInvalid, statusFlags := entry.status } }
    obtain ⟨s', h', hmem', hutxo, hundo⟩ := ih s1
    refine ⟨s', ?_, hmem'.trans hmem, ?_, ?_⟩
    · simp only [persistAll, Db.bind_apply, persistStatus, persistStatement, h1]
      exact h'
    · rw [hutxo, hcur]
    · rw [hundo, hcur]

lemma setBestChainTip_apply (k : Bytes) (s : Session Tables BlockIndex) :
    ∃ s', setBestChainTip k s = .ok () s' ∧ s'.memory = s.memory.tipped k ∧
      s'.conn.current.utxo = s.conn.current.utxo ∧
      s'.conn.current.blockUndo = s.conn.current.blockUndo := by
  simp only [setBestChainTip, Db.bind_apply, read_apply, tipped]
  cases s.memory.getBlock k with
  | none => exact ⟨s, rfl, rfl, rfl, rfl⟩
  | some tip =>
    simp only [Db.bind_apply, read_apply]
    split_ifs with hinvalid
    · exact ⟨s, rfl, rfl, rfl, rfl⟩
    · simp only [Db.bind_apply, BlockIndex.modify, onMemory_apply, read_apply]
      obtain ⟨s', h', hmem, hutxo, hundo⟩ := persistAll_apply
        (s.memory.withBestChainTip tip k).index.rows
        (Database.put s s.conn.current (s.memory.withBestChainTip tip k))
      refine ⟨s', h', hmem, ?_, ?_⟩
      · rw [hutxo, put_current]
      · rw [hundo, put_current]

lemma sameShape_tipped (b : BlockIndex) (k : Bytes) : SameShape b (b.tipped k) := by
  unfold tipped
  cases b.getBlock k with
  | none => exact .refl b
  | some tip =>
    simp only
    split_ifs
    · exact .refl b
    · exact .mapValues (core_rebuildStatus _) rfl

end tip

namespace ReorgManager
variable {H : Hashlib} {calls : ReorgCallbacks}

lemma rollBack_apply (snapshot : List (Bytes × Option (Finset BlockStatus))) (k : Bytes)
    (s : Session Tables BlockIndex) :
    ∃ s', rollBack snapshot k s = .ok (false, [], []) s' ∧
      s'.memory = (s.memory.restoreStatuses snapshot).tipped k ∧
      s'.conn.current.utxo = s.conn.current.utxo ∧
      s'.conn.current.blockUndo = s.conn.current.blockUndo := by
  obtain ⟨s', h', hmem, hutxo, hundo⟩ := setBestChainTip_apply k
    (Database.put s s.conn.current (s.memory.restoreStatuses snapshot))
  refine ⟨s', ?_, hmem, ?_, ?_⟩
  · simp only [rollBack, Db.bind_apply, Db.tryCatch_apply, BlockIndex.modify, onMemory_apply, h']
    rfl
  · rw [hutxo, put_current]
  · rw [hundo, put_current]

section keeps
variable {P : BlockIndex → Prop}

lemma markMain_keeps {k : Bytes} {isMain : Bool} (hmark : ∀ b, P b → P (b.marked k isMain))
    {d : Tables × BlockIndex} (h : P d.2) : P (markMain k isMain d).2 := by
  rw [markMain_snd]
  exact hmark _ h

lemma disconnectStep_keeps {K : Bytes → Prop} (hmark : ∀ k b, K k → P b → P (b.marked k false))
    {entry : BlockIndexEntry} (hentry : K entry.blockHash) {d : Tables × BlockIndex}
    (hget : ∀ block, calls.getBlock entry.blockHash d = .ok (some block) →
      K (block.header.hashHex H))
    (h : P d.2) : Ends P (inside (disconnectStep H calls entry) d) := by
  rw [inside_disconnectStep]
  cases hfound : calls.getBlock entry.blockHash d with
  | error e => exact h
  | ok found =>
    cases found with
    | none => exact h
    | some block =>
      have hk := hget block hfound
      have hdisc := (@disconnect_preserves _ H block (fun b => hmark _ b hk)).inside h
      simp only
      cases hd : inside (disconnect H block) d with
      | error e d' =>
        rw [hd] at hdisc
        exact hdisc
      | ok ok d' =>
        rw [hd] at hdisc
        cases ok with
        | false => exact hdisc
        | true => exact markMain_keeps (fun b => hmark _ b hentry) hdisc

lemma connectStep_keeps {K : Bytes → Prop} (hmark : ∀ k b, K k → P b → P (b.marked k true))
    {entry : BlockIndexEntry} (hentry : K entry.blockHash) {d : Tables × BlockIndex}
    (hget : ∀ block, calls.getBlock entry.blockHash d = .ok (some block) →
      K (block.header.hashHex H))
    (h : P d.2) : Ends P (inside (connectStep H calls entry) d) := by
  rw [inside_connectStep]
  cases hfound : calls.getBlock entry.blockHash d with
  | error e => exact h
  | ok found =>
    cases found with
    | none => exact h
    | some block =>
      simp only
      cases calls.check block entry.height d with
      | error e => exact h
      | ok ok =>
        cases ok with
        | false => exact h
        | true =>
          have hk := hget block hfound
          have hconn := (@connect_preserves _ H .mainnet block (fun b => hmark _ b hk)).inside h
          simp only [connectBlock]
          cases hc : inside (connect H .mainnet block) d with
          | error e d' =>
            rw [hc] at hconn
            exact hconn
          | ok ok d' =>
            rw [hc] at hconn
            cases ok with
            | false => exact hconn
            | true => exact markMain_keeps (fun b => hmark _ b hentry) hconn

lemma runSteps_cons_keeps {step : BlockIndexEntry → ChainDb Block} (hclient : ∀ e, Client (step e))
    {entry : BlockIndexEntry} {entries : List BlockIndexEntry} {d : Tables × BlockIndex}
    (hfirst : Ends P (inside (step entry) d))
    (hrest : ∀ d', P d'.2 → Ends P (inside (runSteps step entries) d')) :
    Ends P (inside (runSteps step (entry :: entries)) d) := by
  rw [inside_runSteps_cons hclient]
  cases hs : inside (step entry) d with
  | error e d' =>
    rw [hs] at hfirst
    exact hfirst
  | ok block d' =>
    rw [hs] at hfirst
    have h := hrest d' hfirst
    simp only
    cases hr : inside (runSteps step entries) d' with
    | error e d'' =>
      rw [hr] at h
      exact h
    | ok blocks d'' =>
      rw [hr] at h
      exact h

lemma runSteps_keeps {step : BlockIndexEntry → ChainDb Block} (hclient : ∀ e, Client (step e))
    {entries : List BlockIndexEntry}
    (hstep : ∀ e ∈ entries, ∀ d, P d.2 → Ends P (inside (step e) d)) {d : Tables × BlockIndex}
    (h : P d.2) : Ends P (inside (runSteps step entries) d) := by
  induction entries generalizing d with
  | nil => exact h
  | cons entry entries ih =>
    refine runSteps_cons_keeps hclient (hstep entry (List.mem_cons_self ..) d h) ?_
    intro d' h'
    exact ih (fun e he => hstep e (List.mem_cons_of_mem _ he)) h'

end keeps

section body
variable {d d' : Tables × BlockIndex} {e : PyError}
variable {disconnectEntries connectEntries : List BlockIndexEntry} {newBest : Bytes}

lemma reorganizeBody_client (disconnectEntries connectEntries : List BlockIndexEntry)
    (newBest : Bytes) :
    Client (reorganizeBody H calls disconnectEntries connectEntries newBest) :=
  .bind (runSteps_client (disconnectStep_client H calls) _) fun _ =>
    .bind (runSteps_client (connectStep_client H calls) _) fun _ =>
      .bind (.memory _) fun _ => .bind (liftExcept_client _) fun _ =>
        .bind (setBestChainTip_client _) fun _ => .ret _

/-- The body after its steps. Choosing the new tip does not fail. -/
lemma finishReorganize_inside (disconnected connected : List Block) (d : Tables × BlockIndex) :
    match assertPostReorgInvariants d.2 disconnectEntries connectEntries with
    | .error e => inside (do
        liftExcept (assertPostReorgInvariants (← BlockIndex.read id) disconnectEntries connectEntries)
        BlockIndex.setBestChainTip newBest
        return (disconnected, connected) : ChainDb (List Block × List Block)) d = .error e d
    | .ok _ => ∃ d', inside (do
        liftExcept (assertPostReorgInvariants (← BlockIndex.read id) disconnectEntries connectEntries)
        BlockIndex.setBestChainTip newBest
        return (disconnected, connected)) d = .ok (disconnected, connected) d' ∧
          d'.2 = d.2.tipped newBest ∧ d'.1.utxo = d.1.utxo ∧ d'.1.blockUndo = d.1.blockUndo := by
  obtain ⟨s', hs', hmem, hutxo, hundo⟩ := setBestChainTip_apply newBest (openSession d)
  have hrest : Client (do BlockIndex.setBestChainTip newBest; return (disconnected, connected)) :=
    .bind (setBestChainTip_client _) fun _ => .ret _
  rw [inside_bind (read_client _) fun _ => .bind (liftExcept_client _) fun _ => hrest, inside_read,
    id]
  simp only
  rw [inside_bind (liftExcept_client _) fun _ => hrest, inside_liftExcept]
  cases assertPostReorgInvariants d.2 disconnectEntries connectEntries with
  | error e => rfl
  | ok u =>
    refine ⟨s'.data, ?_, hmem, hutxo, hundo⟩
    simp only [inside, Db.bind_apply, hs']
    rfl

lemma reorganizeBody_error
    (h : inside (reorganizeBody H calls disconnectEntries connectEntries newBest) d = .error e d') :
    inside (runSteps (disconnectStep H calls) disconnectEntries) d = .error e d' ∨
      ∃ disconnected d₁,
        inside (runSteps (disconnectStep H calls) disconnectEntries) d = .ok disconnected d₁ ∧
        (inside (runSteps (connectStep H calls) connectEntries) d₁ = .error e d' ∨
          ∃ connected, inside (runSteps (connectStep H calls) connectEntries) d₁ =
            .ok connected d') := by
  rw [reorganizeBody, inside_bind (runSteps_client (disconnectStep_client H calls) _) fun _ =>
    .bind (runSteps_client (connectStep_client H calls) _) fun _ =>
      .bind (read_client _) fun _ => .bind (liftExcept_client _) fun _ =>
        .bind (setBestChainTip_client _) fun _ => .ret _] at h
  cases hd : inside (runSteps (disconnectStep H calls) disconnectEntries) d with
  | error e' d₁ =>
    rw [hd] at h
    cases h
    exact .inl rfl
  | ok disconnected d₁ =>
    rw [hd] at h
    refine .inr ⟨disconnected, d₁, rfl, ?_⟩
    simp only at h
    rw [inside_bind (runSteps_client (connectStep_client H calls) _) fun _ =>
      .bind (read_client _) fun _ => .bind (liftExcept_client _) fun _ => .bind (setBestChainTip_client _) fun _ =>
        .ret _] at h
    cases hc : inside (runSteps (connectStep H calls) connectEntries) d₁ with
    | error e' d₂ =>
      rw [hc] at h
      cases h
      exact .inl rfl
    | ok connected d₂ =>
      rw [hc] at h
      have hfinish := @finishReorganize_inside disconnectEntries connectEntries newBest disconnected
          connected d₂
      simp only at h
      cases hassert : assertPostReorgInvariants d₂.2 disconnectEntries connectEntries with
      | error e' =>
        simp only [hassert] at hfinish
        rw [hfinish] at h
        cases h
        exact .inr ⟨connected, rfl⟩
      | ok u =>
        simp only [hassert] at hfinish
        obtain ⟨d₃, h₃, -⟩ := hfinish
        rw [h₃] at h
        cases h

/-- What holds after the steps of disconnecting and is kept by those of connecting. -/
lemma reorganizeBody_error_ends {P : BlockIndex → Prop}
    (hdisconnect : Ends P (inside (runSteps (disconnectStep H calls) disconnectEntries) d))
    (hconnect : ∀ d, P d.2 → Ends P (inside (runSteps (connectStep H calls) connectEntries) d))
    (h : inside (reorganizeBody H calls disconnectEntries connectEntries newBest) d = .error e d') :
    P d'.2 := by
  rcases reorganizeBody_error h with h | ⟨disconnected, d₁, h₁, h⟩
  · rw [h] at hdisconnect
    exact hdisconnect
  · rw [h₁] at hdisconnect
    have hc := hconnect d₁ hdisconnect
    rcases h with h | ⟨connected, h⟩
    · rw [h] at hc
      exact hc
    · rw [h] at hc
      exact hc

lemma reorganizeBody_sameShape
    (h : inside (reorganizeBody H calls disconnectEntries connectEntries newBest) d = .error e d') :
    SameShape d.2 d'.2 := by
  have hmark (k : Bytes) (isMain : Bool) (b : BlockIndex) (hb : SameShape d.2 b) :
      SameShape d.2 (b.marked k isMain) := hb.trans (sameShape_marked b k isMain)
  refine reorganizeBody_error_ends (P := SameShape d.2) ?_ ?_ h
  · refine runSteps_keeps (disconnectStep_client H calls) ?_ (.refl _)
    intro x _ d₁ h₁
    exact disconnectStep_keeps (K := fun _ => True) (fun k b _ hb => hmark k false b hb) trivial
      (fun _ _ => trivial) h₁
  · intro d₁ h₁
    refine runSteps_keeps (connectStep_client H calls) ?_ h₁
    intro x _ d₂ h₂
    exact connectStep_keeps (K := fun _ => True) (fun k b _ hb => hmark k true b hb) trivial
      (fun _ _ => trivial) h₂

end body

/-- The paths that both `reorganize` and `can_reorganize` compute before they start. -/
def plan (maxReorgDepth : ℕ) (newBest oldBest : BlockIndexEntry) (b : BlockIndex) :
    Option (List BlockIndexEntry × List BlockIndexEntry) :=
  match b.findCommonAncestor newBest oldBest with
  | none => none
  | some fork =>
    if maxReorgDepth < oldBest.height - fork.height then none
    else
      match validateReorgPaths fork (b.pathAbove fork oldBest)
        (b.pathAbove fork newBest).reverse with
      | .error _ => none
      | .ok _ => some (b.pathAbove fork oldBest, (b.pathAbove fork newBest).reverse)

/-- The first step of a reorganisation fails, and before it marks its block. (A block without
transactions is marked before `connect` fails on it.) -/
def FirstStepFails (H : Hashlib) (calls : ReorgCallbacks) (d : Tables × BlockIndex) :
    List BlockIndexEntry → List BlockIndexEntry → Prop
  | entry :: _, _ => ∃ e d', inside (disconnectStep H calls entry) d = .error e d'
  | [], entry :: _ =>
    (∃ e d', inside (connectStep H calls entry) d = .error e d') ∧
      ∀ block, calls.getBlock entry.blockHash d = .ok (some block) →
        calls.check block entry.height d = .ok true → block.transactions ≠ []
  | [], [] => True

lemma disconnectStep_error_memory {entry : BlockIndexEntry} {d d' : Tables × BlockIndex}
    {e : PyError} (h : inside (disconnectStep H calls entry) d = .error e d') : d'.2 = d.2 := by
  rw [inside_disconnectStep] at h
  cases hget : calls.getBlock entry.blockHash d with
  | error e' =>
    simp only [hget] at h
    cases h
    rfl
  | ok found =>
    cases found with
    | none =>
      simp only [hget] at h
      cases h
      rfl
    | some block =>
      simp only [hget] at h
      cases hd : inside (disconnect H block) d with
      | error e' d₁ =>
        rw [inside_disconnect] at hd
        split at hd
        · cases hd
        · split at hd <;> cases hd
      | ok ok d₁ =>
        cases ok with
        | true => simp [hd] at h
        | false =>
          simp only [hd] at h
          cases h
          exact disconnect_false_memory hd

lemma connectStep_error_memory {entry : BlockIndexEntry} {d d' : Tables × BlockIndex}
    {e : PyError} (h : inside (connectStep H calls entry) d = .error e d')
    (hne : ∀ block, calls.getBlock entry.blockHash d = .ok (some block) →
      calls.check block entry.height d = .ok true → block.transactions ≠ []) : d'.2 = d.2 := by
  rw [inside_connectStep] at h
  cases hget : calls.getBlock entry.blockHash d with
  | error e' =>
    simp only [hget] at h
    cases h
    rfl
  | ok found =>
    cases found with
    | none =>
      simp only [hget] at h
      cases h
      rfl
    | some block =>
      simp only [hget] at h
      cases hcheck : calls.check block entry.height d with
      | error e' =>
        simp only [hcheck] at h
        cases h
        rfl
      | ok ok =>
        cases ok with
        | false =>
          simp only [hcheck] at h
          cases h
          rfl
        | true =>
          simp only [hcheck, connectBlock] at h
          cases hc : inside (connect H .mainnet block) d with
          | error e' d₁ =>
            rw [inside_connect] at hc
            split at hc
            · cases hc
            · split at hc <;> cases hc
          | ok ok d₁ =>
            cases ok with
            | true => simp [hc] at h
            | false =>
              simp only [hc] at h
              cases h
              exact connect_false_memory (hne block hget hcheck) hc

/-- Nothing of the index has changed where the first step fails. -/
lemma firstStepFails_memory {d d' : Tables × BlockIndex} {e : PyError}
    {disconnectEntries connectEntries : List BlockIndexEntry} {newBest : Bytes}
    (hfails : FirstStepFails H calls d disconnectEntries connectEntries)
    (h : inside (reorganizeBody H calls disconnectEntries connectEntries newBest) d = .error e d') :
    d'.2 = d.2 := by
  have herr := reorganizeBody_error h
  cases disconnectEntries with
  | cons entry entries =>
    obtain ⟨e₁, d₁, h₁⟩ := hfails
    simp only [inside_runSteps_cons (disconnectStep_client H calls), h₁] at herr
    rcases herr with herr | ⟨_, _, herr, -⟩
    · cases herr
      exact disconnectStep_error_memory h₁
    · cases herr
  | nil =>
    have hnil (d : Tables × BlockIndex) :
        inside (runSteps (disconnectStep H calls) []) d = .ok [] d := rfl
    rw [hnil] at herr
    rcases herr with herr | ⟨_, d₁, hd₁, herr⟩
    · cases herr
    · cases hd₁
      cases connectEntries with
      | nil =>
        rcases herr with herr | ⟨_, herr⟩
        · cases herr
        · cases herr
          rfl
      | cons entry entries =>
        obtain ⟨⟨e₁, d₁, h₁⟩, hne⟩ := hfails
        simp only [inside_runSteps_cons (connectStep_client H calls), h₁] at herr
        rcases herr with herr | ⟨_, herr⟩
        · cases herr
          exact connectStep_error_memory h₁ hne
        · cases herr

section moved
variable {b : BlockIndex} {k k₀ : Bytes} {h : ℕ}

lemma marked_false_keeps (hne : b.heightIndex h ≠ some k₀) :
    (b.marked k false).heightIndex h ≠ some k₀ := by
  unfold marked
  cases b.getBlock k with
  | none => exact hne
  | some e =>
    simp only [withMainChain, Bool.false_eq_true, if_false]
    split_ifs
    · by_cases hh : h = e.height
      · simp [hh]
      · rw [Function.update_of_ne hh]
        exact hne
    · exact hne

lemma marked_true_keeps (hk : k ≠ k₀) (hne : b.heightIndex h ≠ some k₀) :
    (b.marked k true).heightIndex h ≠ some k₀ := by
  unfold marked
  cases b.getBlock k with
  | none => exact hne
  | some e =>
    simp only [withMainChain, if_true]
    by_cases hh : h = e.height
    · simpa [hh] using hk
    · rw [Function.update_of_ne hh]
      exact hne

lemma marked_true_keeps_some (hne : b.heightIndex h ≠ none) :
    (b.marked k true).heightIndex h ≠ none := by
  unfold marked
  cases b.getBlock k with
  | none => exact hne
  | some e =>
    simp only [withMainChain, if_true]
    by_cases hh : h = e.height
    · simp [hh]
    · rw [Function.update_of_ne hh]
      exact hne

lemma marked_false_self (hheight : b.getHeight k = some h) :
    (b.marked k false).heightIndex h ≠ some k := by
  obtain ⟨e, he, rfl⟩ := Option.map_eq_some_iff.1 hheight
  have hmarked : b.marked k false = b.withMainChain e k false := by simp [marked, he]
  rw [hmarked]
  simp only [withMainChain, Bool.false_eq_true, if_false]
  split_ifs with hindex
  · simp
  · exact hindex

lemma marked_true_self (hheight : b.getHeight k = some h) :
    (b.marked k true).heightIndex h = some k := by
  obtain ⟨e, he, rfl⟩ := Option.map_eq_some_iff.1 hheight
  have hmarked : b.marked k true = b.withMainChain e k true := by simp [marked, he]
  rw [hmarked]
  simp [withMainChain]

end moved

section first
variable {d : Tables × BlockIndex} {entry : BlockIndexEntry}

/-- A step that goes through ends with the flag of its block. -/
lemma disconnectStep_ok {block : Block} {d' : Tables × BlockIndex}
    (h : inside (disconnectStep H calls entry) d = .ok block d') :
    ∃ b, SameShape d.2 b ∧ d'.2 = b.marked entry.blockHash false := by
  rw [inside_disconnectStep] at h
  cases hget : calls.getBlock entry.blockHash d with
  | error e => simp [hget] at h
  | ok found =>
    cases found with
    | none => simp [hget] at h
    | some block' =>
      simp only [hget] at h
      have hshape := (@disconnect_preserves (SameShape d.2) H block'
          (fun b hb => hb.trans (sameShape_marked b _ _))).inside (d := d) (.refl _)
      cases hd : inside (disconnect H block') d with
      | error e d₁ => simp [hd] at h
      | ok ok d₁ =>
        rw [hd] at hshape
        cases ok with
        | false => simp [hd] at h
        | true =>
          simp only [hd] at h
          cases h
          exact ⟨d₁.2, hshape, markMain_snd ..⟩

lemma connectStep_ok {block : Block} {d' : Tables × BlockIndex}
    (h : inside (connectStep H calls entry) d = .ok block d') :
    ∃ b, SameShape d.2 b ∧ d'.2 = b.marked entry.blockHash true := by
  rw [inside_connectStep] at h
  cases hget : calls.getBlock entry.blockHash d with
  | error e => simp [hget] at h
  | ok found =>
    cases found with
    | none => simp [hget] at h
    | some block' =>
      simp only [hget] at h
      cases hcheck : calls.check block' entry.height d with
      | error e => simp [hcheck] at h
      | ok ok =>
        cases ok with
        | false => simp [hcheck] at h
        | true =>
          simp only [hcheck, connectBlock] at h
          have hshape := (@connect_preserves (SameShape d.2) H .mainnet block'
              (fun b hb => hb.trans (sameShape_marked b _ _))).inside
            (d := d) (.refl _)
          cases hc : inside (connect H .mainnet block') d with
          | error e d₁ => simp [hc] at h
          | ok ok d₁ =>
            rw [hc] at hshape
            cases ok with
            | false => simp [hc] at h
            | true =>
              simp only [hc] at h
              cases h
              exact ⟨d₁.2, hshape, markMain_snd ..⟩

/-- A first step that goes through takes the old tip out of the height index. -/
lemma disconnectStep_moves (hentry : d.2.Indexed entry)
    (hok : ¬ ∃ e d', inside (disconnectStep H calls entry) d = .error e d') :
    Ends (fun b => b.heightIndex entry.height ≠ some entry.blockHash)
      (inside (disconnectStep H calls entry) d) := by
  cases hs : inside (disconnectStep H calls entry) d with
  | error e d' => exact absurd ⟨e, d', hs⟩ hok
  | ok block d' =>
    obtain ⟨b, hshape, hmem⟩ := disconnectStep_ok hs
    simp only [Ends, hmem]
    refine marked_false_self ?_
    rw [hshape.getHeight]
    exact hentry.getHeight

/-- The step to connect a block has come to the block index: it goes through, or the block
has no transactions. -/
def ConnectMarks (H : Hashlib) (calls : ReorgCallbacks) (entry : BlockIndexEntry)
    (d : Tables × BlockIndex) : Prop :=
  (∃ block d', inside (connectStep H calls entry) d = .ok block d') ∨
    ∃ block, calls.getBlock entry.blockHash d = .ok (some block) ∧
      calls.check block entry.height d = .ok true ∧ block.transactions = []

lemma connectStep_marks (hreq : ReturnsRequested H calls)
    (hheight : d.2.getHeight entry.blockHash = some entry.height)
    (hmarks : ConnectMarks H calls entry d) :
    Ends (fun b => b.heightIndex entry.height = some entry.blockHash)
      (inside (connectStep H calls entry) d) := by
  rcases hmarks with ⟨block, d', hs⟩ | ⟨block, hget, hcheck, htxs⟩
  · obtain ⟨b, hshape, hmem⟩ := connectStep_ok hs
    rw [hs]
    simp only [Ends, hmem]
    refine marked_true_self ?_
    rw [hshape.getHeight]
    exact hheight
  · have hhash := hreq _ _ _ hget
    rw [inside_connectStep]
    simp only [hget, hcheck, connectBlock]
    cases hc : inside (connect H .mainnet block) d with
    | error e' d₁ =>
      rw [inside_connect] at hc
      split at hc
      · cases hc
      · split at hc <;> cases hc
    | ok ok d₁ =>
      obtain ⟨rfl, hmem⟩ := connect_empty_memory htxs (by rw [hhash, hheight]; simp) hc
      simp only [Ends, hmem, hhash]
      exact marked_true_self hheight

/-- A first block that is connected, or fails only after it was marked, is in the height
index. -/
lemma connectStep_moves (hreq : ReturnsRequested H calls) (hentry : d.2.Indexed entry)
    (hok : ¬ ((∃ e d', inside (connectStep H calls entry) d = .error e d') ∧
      ∀ block, calls.getBlock entry.blockHash d = .ok (some block) →
        calls.check block entry.height d = .ok true → block.transactions ≠ [])) :
    Ends (fun b => b.heightIndex entry.height ≠ none) (inside (connectStep H calls entry) d) := by
  have hmarks : ConnectMarks H calls entry d := by
    by_contra hnot
    refine hok ⟨?_, ?_⟩
    · cases hs : inside (connectStep H calls entry) d with
      | error e d' => exact ⟨e, d', rfl⟩
      | ok block d' => exact absurd (.inl ⟨block, d', hs⟩) hnot
    · intro block hget hcheck htxs
      exact hnot (.inr ⟨block, hget, hcheck, htxs⟩)
  have hends := connectStep_marks hreq hentry.getHeight hmarks
  cases hs : inside (connectStep H calls entry) d with
  | error e d' =>
    rw [hs] at hends
    simp only [Ends] at hends ⊢
    simp [hends]
  | ok block d' =>
    rw [hs] at hends
    simp only [Ends] at hends ⊢
    simp [hends]

end first

/-- The blocks of the new branch above the fork are not on the old one. -/
lemma connectEntries_ne {b : BlockIndex} (htree : b.TreeShaped) {newBest oldBest fork : BlockIndexEntry}
    (hnew : b.Indexed newBest) (hold : b.Indexed oldBest)
    (hfork : b.findCommonAncestor newBest oldBest = some fork) {x : BlockIndexEntry}
    (hx : x ∈ (b.pathAbove fork newBest).reverse) :
    b.Indexed x ∧ fork.height < x.height ∧ x ∉ b.ancestors oldBest := by
  rw [List.mem_reverse] at hx
  have hmem : x ∈ ParentPath.path b.parentOf b.index.rows.length newBest := by
    rw [← ancestors_eq_path]
    exact List.takeWhile_subset _ hx
  have habove : fork.height < x.height := by
    simpa using List.mem_takeWhile_imp hx
  obtain ⟨i, hi⟩ := List.mem_iff_getElem?.1 hmem
  refine ⟨(htree.forest.height_getElem? hnew hi).1, habove, ?_⟩
  intro hanc
  rw [ancestors_eq_path] at hanc
  rw [findCommonAncestor_eq_meet] at hfork
  have hle := htree.forest.height_le_meet hnew hold hfork hmem hanc
  omega

/-- Once a step has gone through, the height index is no longer that of the old tip. -/
lemma heightIndex_moved {d d' : Tables × BlockIndex} {newBest oldBest fork : BlockIndexEntry}
    {k : Bytes} {e : PyError} (hreq : ReturnsRequested H calls) (htree : d.2.TreeShaped)
    (hactive : d.2.ActiveTip oldBest) (hnew : d.2.Indexed newBest)
    (hfork : d.2.findCommonAncestor newBest oldBest = some fork)
    (hstep : ¬ FirstStepFails H calls d (d.2.pathAbove fork oldBest)
      (d.2.pathAbove fork newBest).reverse)
    (h : inside (reorganizeBody H calls (d.2.pathAbove fork oldBest)
      (d.2.pathAbove fork newBest).reverse k) d = .error e d') :
    d'.2.heightIndex ≠ d.2.heightIndex := by
  have hold : d.2.Indexed oldBest := hactive.entry
  obtain ⟨rest, hbranch, hbelow⟩ := htree.branch hold
  have hconnect : ∀ x ∈ (d.2.pathAbove fork newBest).reverse, d.2.Indexed x ∧
      fork.height < x.height ∧ x ≠ oldBest := by
    intro x hx
    obtain ⟨hindexed, habove, hanc⟩ := connectEntries_ne htree hnew hold hfork hx
    refine ⟨hindexed, habove, ?_⟩
    rintro rfl
    exact hanc (List.mem_cons_self ..)
  by_cases hdepth : fork.height < oldBest.height
  · have hpath : d.2.pathAbove fork oldBest = oldBest ::
        (d.2.branch oldBest.header.prevBlockHash).takeWhile (fork.height < ·.height) := by
      simp [pathAbove, ancestors, hdepth]
    rw [hpath] at h hstep
    have hmoved : d'.2.heightIndex oldBest.height ≠ some oldBest.blockHash := by
      refine reorganizeBody_error_ends
        (P := fun b => b.heightIndex oldBest.height ≠ some oldBest.blockHash) ?_ ?_ h
      · refine runSteps_cons_keeps (disconnectStep_client H calls) (disconnectStep_moves hold hstep) ?_
        intro d₁ h₁
        refine runSteps_keeps (disconnectStep_client H calls) ?_ h₁
        intro x _ d₂ h₂
        exact disconnectStep_keeps (K := fun _ => True) (fun _ _ _ hb => marked_false_keeps hb)
          trivial (fun _ _ => trivial) h₂
      · intro d₁ h₁
        refine runSteps_keeps (connectStep_client H calls) ?_ h₁
        intro x hx d₂ h₂
        have hne : x.blockHash ≠ oldBest.blockHash := by
          intro heq
          obtain ⟨hindexed, -, hxne⟩ := hconnect x hx
          rw [Indexed, heq, hold] at hindexed
          exact hxne (Option.some.inj hindexed).symm
        refine connectStep_keeps (K := (· ≠ oldBest.blockHash))
          (fun _ _ hk hb => marked_true_keeps hk hb) hne ?_ h₂
        intro block hget
        rw [hreq _ _ _ hget]
        exact hne
    intro heq
    rw [heq, hactive.heightIndex, hbranch, chainMap_head hbelow] at hmoved
    exact hmoved rfl
  · have hpath : d.2.pathAbove fork oldBest = [] := by
      simp [pathAbove, ancestors, hdepth]
    rw [hpath] at h hstep
    cases hnewPath : (d.2.pathAbove fork newBest).reverse with
    | nil =>
      rw [hnewPath] at hstep
      exact absurd trivial hstep
    | cons x xs =>
      rw [hnewPath] at h hstep hconnect
      obtain ⟨hindexed, habove, -⟩ := hconnect x (List.mem_cons_self ..)
      have hmoved : d'.2.heightIndex x.height ≠ none := by
        rcases reorganizeBody_error h with herr | ⟨_, d₁, hd₁, herr⟩
        · cases herr
        · cases hd₁
          have hdata : (openSession d : Session Tables BlockIndex).data = d := rfl
          rw [hdata] at herr
          have hends := @runSteps_cons_keeps (fun b => b.heightIndex x.height ≠ none) _
              (connectStep_client H calls) _ xs _ (connectStep_moves hreq hindexed hstep) ?_
          · rcases herr with herr | ⟨_, herr⟩
            · rw [herr] at hends
              exact hends
            · rw [herr] at hends
              exact hends
          · intro d₂ h₂
            refine runSteps_keeps (connectStep_client H calls) ?_ h₂
            intro y _ d₃ h₃
            exact connectStep_keeps (K := fun _ => True)
              (fun _ _ _ hb => marked_true_keeps_some hb) trivial (fun _ _ => trivial) h₃
      intro heq
      have hnone : chainMap (oldBest :: rest) x.height = none := by
        refine chainMap_above ?_
        intro y hy
        rcases List.mem_cons.1 hy with rfl | hy
        · omega
        · have hlt := hbelow y hy
          omega
      rw [heq, hactive.heightIndex, hbranch] at hmoved
      exact hmoved hnone

/-- The reorganisation fails before a block is marked. -/
def FailsAtOnce (H : Hashlib) (calls : ReorgCallbacks) (maxReorgDepth : ℕ)
    (newBest oldBest : BlockIndexEntry) (d : Tables × BlockIndex) : Prop :=
  ∀ disconnectEntries connectEntries,
    plan maxReorgDepth newBest oldBest d.2 = some (disconnectEntries, connectEntries) →
      FirstStepFails H calls d disconnectEntries connectEntries

/-- A failed reorganisation has either not started or failed in the body of its transaction. -/
lemma reorganize_false {maxReorgDepth : ℕ} {newBest oldBest : BlockIndexEntry}
    {s s' : Session Tables BlockIndex} {xs ys : List Block} (hclosed : s.conn.inTransaction = false)
    (h : reorganize H calls maxReorgDepth newBest oldBest s = .ok (false, xs, ys) s') :
    (s'.conn.current.utxo = s.conn.current.utxo ∧
      s'.conn.current.blockUndo = s.conn.current.blockUndo) ∧
    ((plan maxReorgDepth newBest oldBest s.memory = none ∧
        (s'.memory = s.memory ∨ s'.memory = s.memory.tipped oldBest.blockHash)) ∨
      ∃ fork e d', s.memory.findCommonAncestor newBest oldBest = some fork ∧
        plan maxReorgDepth newBest oldBest s.memory =
          some (s.memory.pathAbove fork oldBest, (s.memory.pathAbove fork newBest).reverse) ∧
        inside (reorganizeBody H calls (s.memory.pathAbove fork oldBest)
          (s.memory.pathAbove fork newBest).reverse newBest.blockHash) s.data = .error e d' ∧
        ∃ hashes, s'.memory = (d'.2.restoreStatuses (s.memory.snapshotStatuses hashes)).tipped
          oldBest.blockHash) := by
  simp only [reorganize, Db.bind_apply, read_apply, id] at h
  cases hfork : s.memory.findCommonAncestor newBest oldBest with
  | none =>
    simp only [hfork, Db.pure_apply] at h
    cases h
    exact ⟨⟨rfl, rfl⟩, .inl ⟨by simp [plan, hfork], .inl rfl⟩⟩
  | some fork =>
    simp only [hfork] at h
    by_cases hdepth : maxReorgDepth < oldBest.height - fork.height
    · simp only [hdepth, if_true, Db.pure_apply] at h
      cases h
      exact ⟨⟨rfl, rfl⟩, .inl ⟨by simp [plan, hfork, hdepth], .inl rfl⟩⟩
    · simp only [hdepth, if_false] at h
      cases hpaths : validateReorgPaths fork (s.memory.pathAbove fork oldBest)
          (s.memory.pathAbove fork newBest).reverse with
      | error e =>
        obtain ⟨t, ht, hmem, hutxo, hundo⟩ := rollBack_apply [] oldBest.blockHash s
        simp only [hpaths, ht] at h
        cases h
        exact ⟨⟨hutxo, hundo⟩, .inl ⟨by simp [plan, hfork, hdepth, hpaths], .inr hmem⟩⟩
      | ok u =>
        simp only [hpaths, Db.tryCatch_apply, Db.bind_apply] at h
        have hclient := @reorganizeBody_client H calls (s.memory.pathAbove fork oldBest)
            (s.memory.pathAbove fork newBest).reverse newBest.blockHash
        cases htx : transaction (reorganizeBody H calls (s.memory.pathAbove fork oldBest)
            (s.memory.pathAbove fork newBest).reverse newBest.blockHash) s with
        | ok r t => simp [htx, Db.pure_apply] at h
        | error e t =>
          obtain ⟨e', d', hin, hmem, -⟩ := transaction_error hclient htx
          have hconn := transaction_error_of_closed hclient hclosed htx
          obtain ⟨t', ht', hmem', hutxo, hundo⟩ := rollBack_apply
            (s.memory.snapshotStatuses ((s.memory.pathAbove fork oldBest ++
              (s.memory.pathAbove fork newBest).reverse).map (·.blockHash))) oldBest.blockHash t
          simp only [htx, ht'] at h
          cases h
          rw [hconn] at hutxo hundo
          rw [hmem] at hmem'
          refine ⟨⟨hutxo, hundo⟩, .inr ⟨fork, e', d', rfl, ?_, hin, _, hmem'⟩⟩
          simp [plan, hfork, hdepth, hpaths]

lemma tipped_of_invalid {b : BlockIndex} {k : Bytes} (h : b.isBranchInvalid k = true) :
    b.tipped k = b := by
  refine tipped_of_not_accepts ?_
  rintro ⟨-, hvalid⟩
  rw [h] at hvalid
  cases hvalid

/-- A reorganisation that is entered without an open transaction and returns `False` leaves
UTXO set, undo rows, best tip, height index and main-chain flags as they were exactly when no
block on the branch of the old tip is marked invalid, or it fails before it marks a block. -/
theorem reorganize_false_unchanged_iff (H : Hashlib) (calls : ReorgCallbacks) (maxReorgDepth : ℕ)
    (newBest oldBest : BlockIndexEntry) (s s' : Session Tables BlockIndex) (xs ys : List Block)
    (hclosed : s.conn.inTransaction = false) (htree : s.memory.TreeShaped)
    (hactive : s.memory.ActiveTip oldBest) (hnew : s.memory.Indexed newBest)
    (hreq : ReturnsRequested H calls)
    (h : reorganize H calls maxReorgDepth newBest oldBest s = .ok (false, xs, ys) s') :
    (s'.conn.current.utxo = s.conn.current.utxo ∧
      s'.conn.current.blockUndo = s.conn.current.blockUndo ∧ SameActive s.memory s'.memory) ↔
      s.memory.isBranchInvalid oldBest.blockHash = false ∨
        FailsAtOnce H calls maxReorgDepth newBest oldBest s.data := by
  obtain ⟨⟨hutxo, hundo⟩, hcases⟩ := reorganize_false hclosed h
  simp only [hutxo, hundo, true_and]
  rcases hcases with ⟨hplan, hmem⟩ | ⟨fork, e, d', hfork, hplan, hin, hashes, hmem⟩
  · -- The paths were refused, so at most the old tip has been chosen again.
    have hnoStep : FailsAtOnce H calls maxReorgDepth newBest oldBest s.data := by
      intro ds cs hsome
      rw [Session.data, hplan] at hsome
      cases hsome
    refine ⟨fun _ => .inr hnoStep, fun _ => ?_⟩
    rcases hmem with hmem | hmem
    · rw [hmem]
      exact .refl _
    · rw [hmem]
      cases hinvalid : s.memory.isBranchInvalid oldBest.blockHash with
      | true =>
        rw [tipped_of_invalid hinvalid]
        exact .refl _
      | false => exact sameActive_tipped (.refl _) hactive hinvalid
  · have hshape : SameShape s.memory (d'.2.restoreStatuses (s.memory.snapshotStatuses hashes)) :=
      sameShape_restoreStatuses (reorganizeBody_sameShape hin) hashes
    cases hinvalid : s.memory.isBranchInvalid oldBest.blockHash with
    | false =>
      rw [hmem]
      exact ⟨fun _ => .inl rfl, fun _ => sameActive_tipped hshape hactive hinvalid⟩
    | true =>
      rw [hmem, tipped_of_invalid ((hshape.isBranchInvalid _).trans hinvalid)]
      constructor
      · intro hsame
        refine .inr ?_
        intro ds cs hsome
        rw [Session.data, hplan] at hsome
        cases hsome
        by_contra hstep
        refine heightIndex_moved hreq htree hactive hnew hfork hstep hin ?_
        rw [← (restoreStatuses_rest d'.2 _).1]
        exact hsame.heightIndex
      · intro hor
        rcases hor with hfalse | hfails
        · cases hfalse
        · have hsame : d'.2 = s.memory := firstStepFails_memory (hfails _ _ hplan) hin
          rw [hsame]
          exact sameActive_restoreStatuses _ _

/-! `blockA` is the tip of the active chain, with the branch of `blockB` and `blockB2` beside it. -/
namespace ReorgExample
open BlockExample

def entryOf (block : Block) (height : ℕ) (flags : Finset BlockStatus) : BlockIndexEntry :=
  ⟨height, block.header.hashHex hashlib, block.header, 2 * (height + 1),
    {.HEADER, .BLOCK, .VALID} ∪ flags⟩

def entryA : BlockIndexEntry := entryOf blockA 1 {.MAIN_CHAIN}
def entryB : BlockIndexEntry := entryOf blockB 1 {.SIDE_CHAIN}
def entryB2 : BlockIndexEntry := entryOf blockB2 2 {.SIDE_CHAIN}

/-- The chain of `blockA` is active. The flags of the genesis block are given. -/
def indexWith (flags : Finset BlockStatus) : BlockIndex :=
  let entryG := entryOf genesis 0 flags
  { index := (((KeyedRows.empty.put entryG.blockHash entryG).put entryA.blockHash entryA).put
      entryB.blockHash entryB).put entryB2.blockHash entryB2
    heightIndex := chainMap [entryA, entryG]
    bestHeight := 1
    bestHash := some entryA.blockHash }

/-- Only some of the blocks can be read. -/
def callbacks (stored : List Block) : ReorgCallbacks where
  getBlock blockHash _ := .ok (stored.find? fun block => block.header.hashHex hashlib = blockHash)
  validate := none

lemma callbacks_returnsRequested (stored : List Block) :
    ReturnsRequested hashlib (callbacks stored) := by
  intro k d block h
  have hfind := Except.ok.inj h
  simpa using List.find?_some hfind

/-- The genesis block is marked invalid, as for a row with a corrupt chainwork. -/
def session : Session Tables BlockIndex where
  conn := ⟨Tables.empty, none⟩
  memory := indexWith {.MAIN_CHAIN, .INVALID, .FAILED_VALIDATION}

def failed : Session Tables BlockIndex :=
  (reorganize hashlib (callbacks [blockA]) 144 entryB2 entryA).final session

lemma session_activeTip : session.memory.ActiveTip entryA := by
  have hbranch : session.memory.branch entryA.blockHash =
      [entryA, entryOf genesis 0 {.MAIN_CHAIN, .INVALID, .FAILED_VALIDATION}] := by decide +kernel
  refine activeTip_of_rows (by decide +kernel) rfl rfl ?_ (by decide +kernel)
  rw [hbranch]
  rfl

lemma session_indexed : session.memory.Indexed entryB2 := by
  rw [Indexed]
  decide +kernel

lemma session_treeShaped : session.memory.TreeShaped :=
  treeShaped_of_rows (by decide +kernel) (by decide +kernel)

end ReorgExample

open ReorgExample BlockExample in
theorem reorganize_false_unchanged_iff_example :
    reorganize hashlib (callbacks [blockA]) 144 entryB2 entryA session =
        .ok (false, [], []) failed ∧
      ((failed.conn.current.utxo = session.conn.current.utxo ∧
        failed.conn.current.blockUndo = session.conn.current.blockUndo ∧
        SameActive session.memory failed.memory) ↔
        session.memory.isBranchInvalid entryA.blockHash = false ∨
          FailsAtOnce hashlib (callbacks [blockA]) 144 entryB2 entryA session.data) := by
  have hfalse : reorganize hashlib (callbacks [blockA]) 144 entryB2 entryA session =
      .ok (false, [], []) failed := Db.eq_ok_of_returns (by decide +kernel)
  exact ⟨hfalse, reorganize_false_unchanged_iff hashlib _ 144 entryB2 entryA session failed [] []
    rfl session_treeShaped session_activeTip session_indexed (callbacks_returnsRequested _) hfalse⟩

open ReorgExample BlockExample in
/-- The block of the new branch cannot be read, the old tip is refused as invalid when it is
chosen again, and its height stays empty. -/
theorem reorganize_false_loses_height :
    session.conn.inTransaction = false ∧ session.memory.TreeShaped ∧
      session.memory.ActiveTip entryA ∧
      reorganize hashlib (callbacks [blockA]) 144 entryB2 entryA session =
        .ok (false, [], []) failed ∧
      session.memory.heightIndex 1 = some entryA.blockHash ∧ failed.memory.heightIndex 1 = none :=
  ⟨rfl, session_treeShaped, session_activeTip, Db.eq_ok_of_returns (by decide +kernel),
    by decide +kernel, by decide +kernel⟩

end ReorgManager
end BerzCoin
