import BerzCoin.ChainReorg
import BerzCoin.ValidationOps

/-! What the steps of a reorganisation can do to the block index: they set and clear flags and
move the height index, and nothing else. -/
namespace BerzCoin
open Database

section client
variable {α : Type}

lemma setBestChainTip_client (blockHash : Bytes) : Client (BlockIndex.setBestChainTip blockHash) := by
  have hall (rows : List (Bytes × BlockIndexEntry)) : Client (BlockIndex.persistAll rows) := by
    induction rows with
    | nil => exact .ret _
    | cons row rows ih => exact .bind (.execute _) fun _ => ih
  refine .bind (.memory _) fun tip => ?_
  cases tip with
  | none => exact .ret _
  | some tip =>
    refine .bind (.memory _) fun invalid => ?_
    split
    · exact .ret _
    · exact .bind (.memory _) fun _ => .bind (.memory _) fun _ => hall _

namespace ReorgManager
variable (H : Hashlib) (calls : ReorgCallbacks)

lemma consult_client (f : Tables × BlockIndex → Except PyError α) : Client (consult f) :=
  .bind (.memory _) fun _ => .bind (.execute _) fun _ => liftExcept_client _

lemma validated_client (block : Block) (height : ℕ) : Client (validated calls block height) := by
  unfold validated
  cases calls.validate with
  | none => exact .ret _
  | some validate => exact consult_client _

lemma disconnectStep_client (entry : BlockIndexEntry) : Client (disconnectStep H calls entry) := by
  refine .bind (consult_client _) fun block => ?_
  cases block with
  | none => exact .raise _
  | some block =>
    refine .bind (disconnect_client H block) fun ok => ?_
    split
    · exact .bind (.raise _) fun _ => .bind (markMainChain_client _ _) fun _ => .ret _
    · exact .bind (markMainChain_client _ _) fun _ => .ret _

lemma connectStep_client (entry : BlockIndexEntry) : Client (connectStep H calls entry) := by
  refine .bind (consult_client _) fun block => ?_
  cases block with
  | none => exact .raise _
  | some block =>
    have hrest : Client (do
        if !(← connectBlock H block) then
          throw (.runtimeError ("Failed to connect block " ++ toString entry.height))
        BlockIndex.markMainChain entry.blockHash true
        return block) := by
      refine .bind (connect_client H .mainnet block) fun ok => ?_
      split
      · exact .bind (.raise _) fun _ => .bind (markMainChain_client _ _) fun _ => .ret _
      · exact .bind (markMainChain_client _ _) fun _ => .ret _
    refine .bind (validated_client calls block _) fun ok => ?_
    split
    · exact .bind (.raise _) fun _ => hrest
    · exact hrest

lemma runSteps_client {step : BlockIndexEntry → ChainDb Block} (hstep : ∀ e, Client (step e))
    (entries : List BlockIndexEntry) : Client (runSteps step entries) := by
  induction entries with
  | nil => exact .ret _
  | cons entry entries ih => exact .bind (hstep entry) fun _ => .bind ih fun _ => .ret _

lemma preflightDisconnect_client (entries : List BlockIndexEntry) :
    Client (preflightDisconnect H calls entries) := by
  induction entries with
  | nil => exact .ret _
  | cons entry entries ih =>
    refine .bind (consult_client _) fun block => ?_
    cases block with
    | none => exact .ret _
    | some block =>
      refine .bind (disconnect_client H block) fun ok => ?_
      split
      · exact .ret _
      · exact .bind (markMainChain_client _ _) fun _ => ih

lemma preflightConnect_client (entries : List BlockIndexEntry) :
    Client (preflightConnect H calls entries) := by
  induction entries with
  | nil => exact .ret _
  | cons entry entries ih =>
    refine .bind (consult_client _) fun block => ?_
    cases block with
    | none => exact .ret _
    | some block =>
      refine .bind (validated_client calls block _) fun ok => ?_
      split
      · exact .ret _
      · refine .bind (connect_client H .mainnet block) fun ok => ?_
        split
        · exact .ret _
        · exact .bind (markMainChain_client _ _) fun _ => ih

lemma preflight_client (disconnectEntries connectEntries : List BlockIndexEntry) :
    Client (preflight H calls disconnectEntries connectEntries) := by
  refine .bind (preflightDisconnect_client H calls _) fun ok => ?_
  split
  · exact .ret _
  · exact preflightConnect_client H calls _

end ReorgManager
end client

/-- What `mark_main_chain` does to the index. -/
def BlockIndex.marked (b : BlockIndex) (blockHash : Bytes) (isMain : Bool) : BlockIndex :=
  match b.getBlock blockHash with
  | none => b
  | some entry => b.withMainChain entry blockHash isMain

lemma markMain_snd (blockHash : Bytes) (isMain : Bool) (d : Tables × BlockIndex) :
    (markMain blockHash isMain d).2 = d.2.marked blockHash isMain := by
  unfold markMain BlockIndex.marked
  cases d.2.getBlock blockHash <;> rfl

section preserves
variable {P : BlockIndex → Prop}

lemma read_preserves {α : Type} (f : BlockIndex → α) : Preserves P (BlockIndex.read f) :=
  .onMemory fun _ h => h

lemma liftExcept_preserves {α : Type} (x : Except PyError α) :
    Preserves P (liftExcept x : ChainDb α) := by
  cases x with
  | ok a => exact .ret a
  | error e => exact .raise e

lemma markMainChain_preserves {blockHash : Bytes} {isMain : Bool}
    (hmark : ∀ b, P b → P (b.marked blockHash isMain)) :
    Preserves P (BlockIndex.markMainChain blockHash isMain) := by
  intro s h
  have hmarked := hmark s.memory h
  unfold BlockIndex.marked at hmarked
  simp only [BlockIndex.markMainChain, Db.final_bind, read_apply]
  cases hb : s.memory.getBlock blockHash with
  | none => exact h
  | some entry =>
    simp only [hb] at hmarked
    simp only [BlockIndex.modify, Db.final_bind, onMemory_apply]
    refine Preserves.execute (P := P) _ _ ?_
    rw [put_memory]
    exact hmarked

section loops
variable (H : Hashlib) (network : Network) (blockHash : Bytes) (height : ℕ)

lemma spendUtxo_preserves (txid : Bytes) (index : ℕ) (by' : Bytes) (byIndex : ℕ) :
    Preserves P (UTXOStore.spendUtxo txid index by' byIndex : ChainDb Bool) := by
  refine .bind (.execute _) fun rowcount => ?_
  split
  · exact .bind (.execute _) fun _ => .ret _
  · exact .ret _

lemma UtxoOp.run_preserves (op : UtxoOp) : Preserves P (op.run H network blockHash height) := by
  cases op with
  | spend txid inIdx txin =>
    refine .bind (.execute _) fun row => ?_
    cases row with
    | none => exact .raise _
    | some row =>
      refine .bind (.execute _) fun _ => .bind (spendUtxo_preserves _ _ _ _) fun success => ?_
      split
      · exact .raise _
      · exact .ret _
  | add txid isCoinbase i txout =>
    unfold UtxoOp.run addOutput
    simp only
    split
    · exact .ret _
    · refine .bind (liftExcept_preserves _) fun address => .bind (.execute _) fun _ => ?_
      cases address with
      | none => exact .ret _
      | some address => exact .execute _

lemma runOps_preserves (ops : List UtxoOp) : Preserves P (runOps H network blockHash height ops) := by
  induction ops with
  | nil => exact .ret _
  | cons op ops ih => exact .bind (op.run_preserves H network blockHash height) fun _ => ih

lemma restoreInputs_preserves (txid : Bytes) (inIdx : ℕ) (vin : List TxIn) :
    Preserves P (restoreInputs blockHash txid inIdx vin) := by
  induction vin generalizing inIdx with
  | nil => exact .ret _
  | cons txin vin ih =>
    refine .bind ?_ fun _ => ih _
    refine .bind (.execute _) fun row => ?_
    cases row with
    | none => exact .raise _
    | some row => exact .bind (.execute _) fun _ => .bind (.execute _) fun _ => .execute _

lemma removeOutputs_preserves (txid : Bytes) (i n : ℕ) : Preserves P (removeOutputs txid i n) := by
  induction n generalizing i with
  | zero => exact .ret _
  | succ n ih =>
    exact .bind (.bind (.execute _) fun _ => .ret _) fun _ => .bind (.execute _) fun _ => ih _

lemma disconnectTxs_preserves (txs : List Transaction) :
    Preserves P (disconnectTxs H blockHash txs) := by
  induction txs with
  | nil => exact .ret _
  | cons tx txs ih =>
    refine .bind ?_ fun _ => ih
    unfold disconnectTx
    split
    · exact .bind (restoreInputs_preserves _ _ _ _) fun _ => removeOutputs_preserves _ _ _
    · exact removeOutputs_preserves _ _ _

end loops

lemma trueUnlessRaised_preserves {x : ChainDb Unit} (hx : Preserves P x) :
    Preserves P (trueUnlessRaised x) :=
  .handle (.bind hx fun _ => .ret _) fun _ => .ret _

lemma connect_preserves {H : Hashlib} {network : Network} {block : Block}
    (hmark : ∀ b, P b → P (b.marked (block.header.hashHex H) true)) :
    Preserves P (connect H network block) := by
  refine .bind (read_preserves _) fun height => ?_
  cases height with
  | none => exact .ret _
  | some height =>
    refine trueUnlessRaised_preserves (.transaction (.bind (.execute _) fun _ => .bind ?_ fun _ => ?_))
    · rw [connectTxs_eq_runOps]
      exact runOps_preserves _ _ _ _ _
    · refine .bind (markMainChain_preserves hmark) fun _ => ?_
      split
      · exact .raise _
      · exact .execute _

lemma disconnect_preserves {H : Hashlib} {block : Block}
    (hmark : ∀ b, P b → P (b.marked (block.header.hashHex H) false)) :
    Preserves P (disconnect H block) := by
  refine .bind (read_preserves _) fun height => ?_
  cases height with
  | none => exact .ret _
  | some height =>
    refine trueUnlessRaised_preserves (.transaction (.bind (disconnectTxs_preserves _ _ _) fun _ => ?_))
    exact .bind (markMainChain_preserves hmark) fun _ => .execute _

namespace ReorgManager
variable {H : Hashlib} {calls : ReorgCallbacks}

lemma consult_apply {α : Type} (f : Tables × BlockIndex → Except PyError α)
    (s : Session Tables BlockIndex) :
    consult f s = match f s.data with
      | .ok a => .ok a s
      | .error e => .error e s := by
  simp only [consult, Db.bind_apply, read_apply, query_apply, id, Session.data]
  cases f (s.conn.current, s.memory) <;> rfl

/-- The blocks that a callback returns are the ones that were asked for. -/
def ReturnsRequested (H : Hashlib) (calls : ReorgCallbacks) : Prop :=
  ∀ blockHash d block, calls.getBlock blockHash d = .ok (some block) →
    block.header.hashHex H = blockHash

lemma consult_preserves {α : Type} (f : Tables × BlockIndex → Except PyError α) :
    Preserves P (consult f) :=
  .bind (read_preserves _) fun _ => .bind (.execute _) fun _ => liftExcept_preserves _

lemma validated_preserves (block : Block) (height : ℕ) :
    Preserves P (validated calls block height) := by
  unfold validated
  cases calls.validate with
  | none => exact .ret _
  | some validate => exact consult_preserves _

end ReorgManager
end preserves
end BerzCoin
