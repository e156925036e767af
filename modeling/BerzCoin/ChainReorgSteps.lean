import BerzCoin.ChainIndexShape

/-! The steps of a reorganisation inside its transaction, as equations. -/
namespace BerzCoin
open Database

section inside
variable {d : Tables × BlockIndex}

lemma read_client {α : Type} (f : BlockIndex → α) : Client (BlockIndex.read f) := .memory _

lemma inside_read {α : Type} (f : BlockIndex → α) (d : Tables × BlockIndex) :
    inside (BlockIndex.read f) d = .ok (f d.2) d := rfl

lemma inside_liftExcept {α : Type} (x : Except PyError α) (d : Tables × BlockIndex) :
    inside (liftExcept x : ChainDb α) d = match x with
      | .ok a => .ok a d
      | .error e => .error e d := by
  cases x <;> rfl

lemma inside_trueUnlessRaised {x : ChainDb Unit} (hx : Client x) (d : Tables × BlockIndex) :
    inside (trueUnlessRaised x) d = match inside x d with
      | .ok _ d' => .ok true d'
      | .error _ d' => .ok false d' := by
  rw [trueUnlessRaised, inside_tryCatch (.bind hx fun _ => .ret _) fun _ => .ret _,
    inside_bind hx fun _ => .ret _]
  cases inside x d <;> rfl

lemma inside_connect (H : Hashlib) (network : Network) (block : Block) (d : Tables × BlockIndex) :
    inside (connect H network block) d = match d.2.getHeight (block.header.hashHex H) with
      | none => .ok false d
      | some height =>
        match inside (connectBody H network (block.header.hashHex H) height block) d with
        | .ok _ d' => .ok true d'
        | .error _ d' => .ok false d' := by
  rw [connect, inside_bind (read_client _) fun height => ?_, inside_read]
  · cases hheight : d.2.getHeight (block.header.hashHex H) with
    | none => simp [inside_pure]
    | some height =>
      simp only
      rw [inside_trueUnlessRaised (.transaction (connectBody_client ..)), inside_transaction]
      cases inside (connectBody H network (block.header.hashHex H) height block) d <;> rfl
  · cases height with
    | none => exact .ret _
    | some height => exact trueUnlessRaised_client (.transaction (connectBody_client ..))

lemma inside_disconnect (H : Hashlib) (block : Block) (d : Tables × BlockIndex) :
    inside (disconnect H block) d = match d.2.getHeight (block.header.hashHex H) with
      | none => .ok false d
      | some _ =>
        match inside (disconnectBody H (block.header.hashHex H) block) d with
        | .ok _ d' => .ok true d'
        | .error _ d' => .ok false d' := by
  rw [disconnect, inside_bind (read_client _) fun height => ?_, inside_read]
  · cases hheight : d.2.getHeight (block.header.hashHex H) with
    | none => simp [inside_pure]
    | some height =>
      simp only
      rw [inside_trueUnlessRaised (.transaction (disconnectBody_client ..)), inside_transaction]
      cases inside (disconnectBody H (block.header.hashHex H) block) d <;> rfl
  · cases height with
    | none => exact .ret _
    | some height => exact trueUnlessRaised_client (.transaction (disconnectBody_client ..))

/-- A failed `disconnect` has not come to the block index. -/
lemma disconnect_false_memory {H : Hashlib} {block : Block} {d d' : Tables × BlockIndex}
    (h : inside (disconnect H block) d = .ok false d') : d'.2 = d.2 := by
  rw [inside_disconnect] at h
  cases hheight : d.2.getHeight (block.header.hashHex H) with
  | none =>
    simp only [hheight] at h
    cases h
    rfl
  | some height =>
    simp only [hheight] at h
    rw [disconnectBody, inside_bind (disconnectTxs_client ..) fun _ => finishDisconnect_client ..] at h
    have hkeep := Preserves.inside (d := d) (disconnectTxs_preserves (P := fun b => b = d.2) H
      (block.header.hashHex H) block.transactions.reverse) rfl
    cases htxs : inside (disconnectTxs H (block.header.hashHex H) block.transactions.reverse) d with
    | ok u d1 =>
      simp only [htxs, finishDisconnect_inside] at h
      cases h
    | error e d1 =>
      simp only [htxs] at h
      cases h
      rw [htxs] at hkeep
      exact hkeep

/-- A failed `connect` has come to the block index only if the block has no transactions. -/
lemma connect_false_memory {H : Hashlib} {network : Network} {block : Block}
    {d d' : Tables × BlockIndex} (hne : block.transactions ≠ [])
    (h : inside (connect H network block) d = .ok false d') : d'.2 = d.2 := by
  rw [inside_connect] at h
  cases hheight : d.2.getHeight (block.header.hashHex H) with
  | none =>
    simp only [hheight] at h
    cases h
    rfl
  | some height =>
    have hbody := connectBody_inside H network (block.header.hashHex H) height block d.1 d.2
    rcases happ : applyOps H network (block.header.hashHex H) height (blockOps H block.transactions)
      (withoutUndo (block.header.hashHex H) d.1) with ⟨tables', ok⟩
    rw [happ] at hbody
    simp only [hheight] at h
    cases ok with
    | false =>
      obtain ⟨e, he⟩ := hbody
      rw [he] at h
      cases h
      rfl
    | true =>
      simp only [finishConnect_inside] at hbody
      rw [hbody] at h
      cases htxs : block.transactions with
      | nil => exact absurd htxs hne
      | cons first txs => simp [htxs] at h

lemma connect_empty_memory {H : Hashlib} {network : Network} {block : Block}
    {d d' : Tables × BlockIndex} {ok : Bool} (hempty : block.transactions = [])
    (hheight : d.2.getHeight (block.header.hashHex H) ≠ none)
    (h : inside (connect H network block) d = .ok ok d') :
    ok = false ∧ d'.2 = d.2.marked (block.header.hashHex H) true := by
  obtain ⟨height, hheight⟩ := Option.ne_none_iff_exists'.1 hheight
  have hbody := connectBody_inside H network (block.header.hashHex H) height block d.1 d.2
  rw [inside_connect] at h
  simp only [hempty, blockOps, List.flatMap_nil, applyOps, finishConnect_inside] at hbody
  simp only [hheight, hbody] at h
  cases h
  exact ⟨rfl, markMain_snd ..⟩

end inside

/-- The validation callback as a function. -/
def ReorgCallbacks.check (calls : ReorgCallbacks) (block : Block) (height : ℕ)
    (d : Tables × BlockIndex) : Except PyError Bool :=
  match calls.validate with
  | none => .ok true
  | some validate => validate block height d

namespace ReorgManager
variable (H : Hashlib) (calls : ReorgCallbacks)

lemma inside_consult {α : Type} (f : Tables × BlockIndex → Except PyError α)
    (d : Tables × BlockIndex) :
    inside (consult f) d = match f d with
      | .ok a => .ok a d
      | .error e => .error e d := by
  have hdata : (openSession d : Session Tables BlockIndex).data = d := rfl
  simp only [inside, consult_apply, hdata]
  cases f d <;> rfl

lemma inside_validated (block : Block) (height : ℕ) (d : Tables × BlockIndex) :
    inside (validated calls block height) d = match calls.check block height d with
      | .ok ok => .ok ok d
      | .error e => .error e d := by
  unfold validated ReorgCallbacks.check
  cases calls.validate with
  | none => rfl
  | some validate =>
    simp only
    rw [inside_consult]
    cases validate block height d <;> rfl

lemma inside_disconnectStep (entry : BlockIndexEntry) (d : Tables × BlockIndex) :
    inside (disconnectStep H calls entry) d =
      match calls.getBlock entry.blockHash d with
      | .error e => .error e d
      | .ok none => .error (.runtimeError ("Failed to get block " ++ hex entry.blockHash)) d
      | .ok (some block) =>
        match inside (disconnect H block) d with
        | .ok true d' => .ok block (markMain entry.blockHash false d')
        | .ok false d' =>
          .error (.runtimeError ("Failed to disconnect block " ++ toString entry.height)) d'
        | .error e d' => .error e d' := by
  have hfirst : Client (consult (calls.getBlock entry.blockHash)) := consult_client _
  rw [disconnectStep, inside_bind hfirst fun found => ?_, inside_consult]
  · cases calls.getBlock entry.blockHash d with
    | error e => rfl
    | ok found =>
      cases found with
      | none => rfl
      | some block =>
        simp only
        rw [inside_bind (disconnect_client H block) fun ok => ?_]
        · cases inside (disconnect H block) d with
          | error e d' => rfl
          | ok ok d' =>
            cases ok with
            | false => rfl
            | true =>
              simp only [Bool.not_true, Bool.false_eq_true, if_false]
              rw [inside_bind (markMainChain_client ..) fun _ => .ret _, markMainChain_inside]
              rfl
        · split
          · exact .bind (.raise _) fun _ => .bind (markMainChain_client _ _) fun _ => .ret _
          · exact .bind (markMainChain_client _ _) fun _ => .ret _
  · cases found with
    | none => exact .raise _
    | some block =>
      refine .bind (disconnect_client H block) fun ok => ?_
      split
      · exact .bind (.raise _) fun _ => .bind (markMainChain_client _ _) fun _ => .ret _
      · exact .bind (markMainChain_client _ _) fun _ => .ret _

lemma inside_connectStep (entry : BlockIndexEntry) (d : Tables × BlockIndex) :
    inside (connectStep H calls entry) d =
      match calls.getBlock entry.blockHash d with
      | .error e => .error e d
      | .ok none => .error (.runtimeError ("Failed to get block " ++ hex entry.blockHash)) d
      | .ok (some block) =>
        match calls.check block entry.height d with
        | .error e => .error e d
        | .ok false =>
          .error (.runtimeError
            ("Stateful validation failed for reorg block " ++ toString entry.height)) d
        | .ok true =>
          match inside (connectBlock H block) d with
          | .ok true d' => .ok block (markMain entry.blockHash true d')
          | .ok false d' =>
            .error (.runtimeError ("Failed to connect block " ++ toString entry.height)) d'
          | .error e d' => .error e d' := by
  have hfirst : Client (consult (calls.getBlock entry.blockHash)) := consult_client _
  have hlast (block : Block) (ok : Bool) : Client (do
      if !ok then throw (.runtimeError ("Failed to connect block " ++ toString entry.height))
      BlockIndex.markMainChain entry.blockHash true
      return block) := by
    split
    · exact .bind (.raise _) fun _ => .bind (markMainChain_client _ _) fun _ => .ret _
    · exact .bind (markMainChain_client _ _) fun _ => .ret _
  have hconn (block : Block) : Client (connectBlock H block) := connect_client H .mainnet block
  have hrest (block : Block) (ok : Bool) : Client (do
      if !ok then
        throw (.runtimeError
          ("Stateful validation failed for reorg block " ++ toString entry.height))
      if !(← connectBlock H block) then
        throw (.runtimeError ("Failed to connect block " ++ toString entry.height))
      BlockIndex.markMainChain entry.blockHash true
      return block) := by
    split
    · exact .bind (.raise _) fun _ => .bind (hconn block) fun ok => hlast block ok
    · exact .bind (hconn block) fun ok => hlast block ok
  rw [connectStep, inside_bind hfirst fun found => ?_, inside_consult]
  · cases calls.getBlock entry.blockHash d with
    | error e => rfl
    | ok found =>
      cases found with
      | none => rfl
      | some block =>
        simp only
        rw [inside_bind (validated_client calls block _) (hrest block), inside_validated]
        cases calls.check block entry.height d with
        | error e => rfl
        | ok ok =>
          cases ok with
          | false => rfl
          | true =>
            simp only [Bool.not_true, Bool.false_eq_true, if_false]
            rw [inside_bind (hconn block) (hlast block)]
            cases inside (connectBlock H block) d with
            | error e d' => rfl
            | ok ok d' =>
              cases ok with
              | false => rfl
              | true =>
                simp only [Bool.not_true, Bool.false_eq_true, if_false]
                rw [inside_bind (markMainChain_client ..) fun _ => .ret _, markMainChain_inside]
                rfl
  · cases found with
    | none => exact .raise _
    | some block => exact .bind (validated_client calls block _) (hrest block)

lemma inside_runSteps_cons {step : BlockIndexEntry → ChainDb Block} (hstep : ∀ e, Client (step e))
    (entry : BlockIndexEntry) (entries : List BlockIndexEntry) (d : Tables × BlockIndex) :
    inside (runSteps step (entry :: entries)) d =
      match inside (step entry) d with
      | .error e d' => .error e d'
      | .ok block d' =>
        match inside (runSteps step entries) d' with
        | .error e d'' => .error e d''
        | .ok blocks d'' => .ok (block :: blocks) d'' := by
  rw [runSteps, inside_bind (hstep entry) fun _ => .bind (runSteps_client hstep _) fun _ => .ret _]
  cases inside (step entry) d with
  | error e d' => rfl
  | ok block d' =>
    simp only
    rw [inside_bind (runSteps_client hstep _) fun _ => .ret _]
    cases inside (runSteps step entries) d' <;> rfl

end ReorgManager
end BerzCoin
