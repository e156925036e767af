import BerzCoin.ChainReorgContext
import BerzCoin.StorageTwins

/-! What connecting and disconnecting look at: the UTXO set, the undo rows, the stored blocks and
the shape of the block index. Steps of a reorganisation do not tell states apart that agree there. -/
namespace BerzCoin
open Database BlockIndex

/-- Two states that connecting and disconnecting do not tell apart. -/
structure Alike (d d' : Tables × BlockIndex) : Prop where
  tree : d.2.TreeShaped
  shape : SameShape d.2 d'.2
  utxo : d'.1.utxo = d.1.utxo
  blockUndo : d'.1.blockUndo = d.1.blockUndo
  blocks : d'.1.blocks = d.1.blocks

namespace Alike
variable {d d' d'' : Tables × BlockIndex}

lemma refl (htree : d.2.TreeShaped) : Alike d d := ⟨htree, .refl _, rfl, rfl, rfl⟩

lemma symm (h : Alike d d') : Alike d' d :=
  ⟨h.shape.treeShaped h.tree, h.shape.symm, h.utxo.symm, h.blockUndo.symm, h.blocks.symm⟩

lemma trans (h : Alike d d') (h' : Alike d' d'') : Alike d d'' :=
  ⟨h.tree, h.shape.trans h'.shape, h'.utxo.trans h.utxo, h'.blockUndo.trans h.blockUndo,
    h'.blocks.trans h.blocks⟩

lemma markMain (h : Alike d d') (k : Bytes) (isMain : Bool) :
    Alike (BerzCoin.markMain k isMain d) (BerzCoin.markMain k isMain d') := by
  have hblocks (d : Tables × BlockIndex) : (BerzCoin.markMain k isMain d).1.blocks = d.1.blocks := by
    unfold BerzCoin.markMain
    cases d.2.getBlock k <;> rfl
  obtain ⟨hutxo, hundo, -⟩ := markMain_utxo k isMain d
  obtain ⟨hutxo', hundo', -⟩ := markMain_utxo k isMain d'
  have hshape := sameShape_marked d.2 k isMain
  refine ⟨?_, ?_, ?_, ?_, ?_⟩
  · rw [markMain_snd]
    exact hshape.treeShaped h.tree
  · rw [markMain_snd, markMain_snd]
    exact hshape.symm.trans (h.shape.trans (sameShape_marked d'.2 k isMain))
  · rw [hutxo, hutxo', h.utxo]
  · rw [hundo, hundo', h.blockUndo]
  · rw [hblocks, hblocks, h.blocks]

end Alike

/-! The statements of connecting and disconnecting. -/
section statements

lemma blind_change {f : Tables → Tables}
    (hf : ∀ tables tables', tables'.utxo = tables.utxo → tables'.blockUndo = tables.blockUndo →
      (f tables').utxo = (f tables).utxo ∧ (f tables').blockUndo = (f tables).blockUndo)
    (hblocks : ∀ tables, (f tables).blocks = tables.blocks) :
    Blind Alike (execute (.change f) : ChainDb Unit) := by
  refine .change fun d d' h => ?_
  obtain ⟨hutxo, hundo⟩ := hf d.1 d'.1 h.utxo h.blockUndo
  exact ⟨h.tree, h.shape, hutxo, hundo, by rw [hblocks, hblocks, h.blocks]⟩

/-- A statement on a table that is not looked at. -/
lemma blind_change_aside {f : Tables → Tables} (hutxo : ∀ tables, (f tables).utxo = tables.utxo)
    (hundo : ∀ tables, (f tables).blockUndo = tables.blockUndo)
    (hblocks : ∀ tables, (f tables).blocks = tables.blocks) :
    Blind Alike (execute (.change f) : ChainDb Unit) := by
  refine blind_change (fun tables tables' h h' => ⟨?_, ?_⟩) hblocks
  · rw [hutxo, hutxo, h]
  · rw [hundo, hundo, h']

lemma blind_liftExcept {α : Type} (x : Except PyError α) : Blind Alike (liftExcept x : ChainDb α) := by
  cases x with
  | ok a => exact .ret a
  | error e => exact .raise e

lemma blind_trueUnlessRaised {x : ChainDb Unit} (hx : Blind Alike x) :
    Blind Alike (trueUnlessRaised x) :=
  .handle (.bind hx fun _ => .ret _) fun _ => .ret _

lemma blind_markMainChain (k : Bytes) (isMain : Bool) :
    Blind Alike (BlockIndex.markMainChain k isMain) := by
  refine ⟨markMainChain_client k isMain, fun d d' h => ?_⟩
  rw [markMainChain_inside, markMainChain_inside]
  exact .ok _ (h.markMain k isMain)

lemma blind_addUtxo (txid : Bytes) (index value : ℕ) (scriptPubkey : Bytes) (height : ℕ)
    (isCoinbase : Bool) :
    Blind Alike (UTXOStore.addUtxo txid index value scriptPubkey height isCoinbase : ChainDb Unit) := by
  refine .execute fun d d' h => ?_
  simp only [UTXOStore.insertUtxo]
  cases bindInt value with
  | error e => exact .inl ⟨e, rfl, rfl⟩
  | ok value =>
    refine .inr ⟨(), _, _, rfl, rfl, h.tree, h.shape, ?_, h.blockUndo, h.blocks⟩
    simp only [h.utxo]

lemma blind_deleteUtxo (key : Outpoint) :
    Blind Alike (execute (UTXOStore.deleteUtxo key) : ChainDb ℕ) := by
  have hcount (d d' : Tables × BlockIndex) (h : Alike d d') :
      (if d.1.utxo.contains key then 1 else 0) = if d'.1.utxo.contains key then 1 else 0 := by
    rw [h.utxo]
  refine .execute fun d d' h => .inr ⟨_, _, { d'.1 with utxo := d'.1.utxo.delete key }, rfl, ?_,
    h.tree, h.shape, ?_, h.blockUndo, h.blocks⟩
  · simp only [UTXOStore.deleteUtxo, hcount d d' h]
  · simp only [h.utxo]

lemma blind_setAddress (key : Outpoint) (address : Option Text) :
    Blind Alike (execute (UTXOStore.setAddress key address) : ChainDb Unit) :=
  blind_change (fun tables tables' h h' => ⟨by simp only [h], h'⟩) fun _ => rfl

lemma blind_spendUtxo (txid : Bytes) (index : ℕ) (by' : Bytes) (byIndex : ℕ) :
    Blind Alike (UTXOStore.spendUtxo txid index by' byIndex : ChainDb Bool) := by
  refine .bind (blind_deleteUtxo _) fun rowcount => ?_
  split
  · exact .bind (blind_change_aside (fun _ => rfl) (fun _ => rfl) fun _ => rfl) fun _ => .ret _
  · exact .ret _

lemma blind_getUtxo (txid : Bytes) (index : ℕ) :
    Blind Alike (UTXOStore.getUtxo txid index : ChainDb (Option UtxoRow)) :=
  .query fun d d' h => by rw [h.utxo]

end statements

/-! Connecting. -/
section connect
variable (H : Hashlib) (network : Network) (blockHash : Bytes) (height : ℕ)

lemma blind_spendInputs (txid : Bytes) (inIdx : ℕ) (vin : List TxIn) :
    Blind Alike (spendInputs blockHash txid inIdx vin) := by
  induction vin generalizing inIdx with
  | nil => exact .ret _
  | cons txin vin ih =>
    refine .bind (.bind (blind_getUtxo _ _) fun row => ?_) fun _ => ih _
    cases row with
    | none => exact .raise _
    | some row =>
      refine .bind (blind_change (fun tables tables' h h' => ⟨h, by simp only [h']⟩) fun _ => rfl)
        fun _ => .bind (blind_spendUtxo _ _ _ _) fun success => ?_
      split
      · exact .raise _
      · exact .ret _

lemma blind_addOutputs (txid : Bytes) (isCoinbase : Bool) (i : ℕ) (vout : List TxOut) :
    Blind Alike (addOutputs H network height txid isCoinbase i vout) := by
  induction vout generalizing i with
  | nil => exact .ret _
  | cons txout vout ih =>
    refine .bind ?_ fun _ => ih _
    unfold addOutput
    split
    · exact .ret _
    · refine .bind (blind_liftExcept _) fun address => .bind (blind_addUtxo _ _ _ _ _ _) fun _ => ?_
      cases address with
      | none => exact .ret _
      | some address => exact blind_setAddress _ _

lemma blind_connectTxs (txs : List Transaction) :
    Blind Alike (connectTxs H network blockHash height txs) := by
  induction txs with
  | nil => exact .ret _
  | cons tx txs ih =>
    refine .bind ?_ fun _ => ih
    unfold connectTx
    split
    · exact .bind (blind_spendInputs _ _ _ _) fun _ => blind_addOutputs H network height _ _ _ _
    · exact blind_addOutputs H network height _ _ _ _

lemma blind_connectBody (block : Block) :
    Blind Alike (connectBody H network blockHash height block) := by
  refine .bind (blind_change (fun tables tables' h h' => ⟨h, by simp only [h']⟩) fun _ => rfl)
    fun _ => .bind (blind_connectTxs H network blockHash height _) fun _ =>
      .bind (blind_markMainChain _ _) fun _ => ?_
  cases block.transactions with
  | nil => exact .raise _
  | cons first txs => exact blind_change_aside (fun _ => rfl) (fun _ => rfl) fun _ => rfl

lemma blind_getHeight (k : Bytes) : Blind Alike (BlockIndex.read (·.getHeight k)) :=
  .memory fun _ _ h => ⟨(h.shape.getHeight k).symm, h⟩

lemma blind_connect (block : Block) : Blind Alike (connect H network block) := by
  refine .bind (blind_getHeight _) fun height => ?_
  cases height with
  | none => exact .ret _
  | some height => exact blind_trueUnlessRaised (.transaction (blind_connectBody H network _ _ _))

end connect

/-! Disconnecting. -/
section disconnect
variable (H : Hashlib) (blockHash : Bytes)

lemma blind_clearSpent (key : Outpoint) : Blind Alike (execute (clearSpent key) : ChainDb Unit) :=
  blind_change_aside (fun _ => rfl) (fun _ => rfl) fun _ => rfl

lemma blind_restoreInputs (txid : Bytes) (inIdx : ℕ) (vin : List TxIn) :
    Blind Alike (restoreInputs blockHash txid inIdx vin) := by
  induction vin generalizing inIdx with
  | nil => exact .ret _
  | cons txin vin ih =>
    refine .bind (.bind (.query fun d d' h => by rw [h.blockUndo]) fun row => ?_) fun _ => ih _
    cases row with
    | none => exact .raise _
    | some row =>
      exact .bind (blind_addUtxo _ _ _ _ _ _) fun _ => .bind (blind_setAddress _ _) fun _ =>
        blind_clearSpent _

lemma blind_removeOutputs (txid : Bytes) (i n : ℕ) : Blind Alike (removeOutputs txid i n) := by
  induction n generalizing i with
  | zero => exact .ret _
  | succ n ih =>
    exact .bind (.bind (blind_deleteUtxo _) fun _ => .ret _) fun _ =>
      .bind (blind_clearSpent _) fun _ => ih _

lemma blind_disconnectTxs (txs : List Transaction) : Blind Alike (disconnectTxs H blockHash txs) := by
  induction txs with
  | nil => exact .ret _
  | cons tx txs ih =>
    refine .bind ?_ fun _ => ih
    unfold disconnectTx
    split
    · exact .bind (blind_restoreInputs _ _ _ _) fun _ => blind_removeOutputs _ _ _
    · exact blind_removeOutputs _ _ _

lemma blind_disconnect (block : Block) : Blind Alike (disconnect H block) := by
  refine .bind (blind_getHeight _) fun height => ?_
  cases height with
  | none => exact .ret _
  | some height =>
    refine blind_trueUnlessRaised (.transaction (.bind (blind_disconnectTxs H _ _) fun _ =>
      .bind (blind_markMainChain _ _) fun _ => blind_change ?_ fun _ => rfl))
    exact fun tables tables' h h' => ⟨h, by simp only [h']⟩

end disconnect

/-! The steps of a reorganisation. -/
namespace ReorgManager
variable {H : Hashlib} {calls : ReorgCallbacks}

/-- Callbacks that look at no more than connecting does. -/
structure BlindCalls (calls : ReorgCallbacks) : Prop where
  getBlock : ∀ k d d', Alike d d' → calls.getBlock k d = calls.getBlock k d'
  check : ∀ block height d d', Alike d d' → calls.check block height d = calls.check block height d'

lemma blind_consult {α : Type} {f : Tables × BlockIndex → Except PyError α}
    (hf : ∀ d d', Alike d d' → f d = f d') : Blind Alike (consult f) := by
  refine ⟨consult_client f, fun d d' h => ?_⟩
  rw [inside_consult, inside_consult, ← hf d d' h]
  cases f d with
  | ok a => exact .ok a h
  | error e => exact .error e h

lemma blind_validated (hcalls : BlindCalls calls) (block : Block) (height : ℕ) :
    Blind Alike (validated calls block height) := by
  refine ⟨validated_client calls block height, fun d d' h => ?_⟩
  rw [inside_validated, inside_validated, ← hcalls.check block height d d' h]
  cases calls.check block height d with
  | ok ok => exact .ok ok h
  | error e => exact .error e h

lemma blind_disconnectStep (hcalls : BlindCalls calls) (entry : BlockIndexEntry) :
    Blind Alike (disconnectStep H calls entry) := by
  refine .bind (blind_consult (hcalls.getBlock _)) fun found => ?_
  cases found with
  | none => exact .raise _
  | some block =>
    refine .bind (blind_disconnect H block) fun ok => ?_
    split
    · exact .bind (.raise _) fun _ => .bind (blind_markMainChain _ _) fun _ => .ret _
    · exact .bind (blind_markMainChain _ _) fun _ => .ret _

lemma blind_connectStep (hcalls : BlindCalls calls) (entry : BlockIndexEntry) :
    Blind Alike (connectStep H calls entry) := by
  refine .bind (blind_consult (hcalls.getBlock _)) fun found => ?_
  cases found with
  | none => exact .raise _
  | some block =>
    refine .bind (blind_validated hcalls _ _) fun ok => ?_
    have hconnect : Blind Alike (do
        if !(← connectBlock H block) then
          throw (.runtimeError ("Failed to connect block " ++ toString entry.height))
        BlockIndex.markMainChain entry.blockHash true
        return block) := by
      refine .bind (blind_connect H .mainnet block) fun ok => ?_
      split
      · exact .bind (.raise _) fun _ => .bind (blind_markMainChain _ _) fun _ => .ret _
      · exact .bind (blind_markMainChain _ _) fun _ => .ret _
    split
    · exact .bind (.raise _) fun _ => hconnect
    · exact hconnect

lemma blind_runSteps {step : BlockIndexEntry → ChainDb Block} (hstep : ∀ e, Blind Alike (step e))
    (entries : List BlockIndexEntry) : Blind Alike (runSteps step entries) := by
  induction entries with
  | nil => exact .ret _
  | cons entry entries ih => exact .bind (hstep entry) fun _ => .bind ih fun _ => .ret _

/-- The loops of a reorganisation go through in one of two like states when they do in the other. -/
lemma blind_steps (hcalls : BlindCalls calls) (disconnectEntries connectEntries : List BlockIndexEntry) :
    Blind Alike (steps H calls disconnectEntries connectEntries) :=
  .bind (blind_runSteps (blind_disconnectStep hcalls) _) fun _ =>
    blind_runSteps (blind_connectStep hcalls) _

/-- A step looks at the parts of its entry that flags leave alone. -/
lemma steps_congr_core {disconnectEntries disconnectEntries' connectEntries connectEntries' :
      List BlockIndexEntry}
    (hdisc : disconnectEntries'.map BlockIndexEntry.core = disconnectEntries.map BlockIndexEntry.core)
    (hconn : connectEntries'.map BlockIndexEntry.core = connectEntries.map BlockIndexEntry.core) :
    steps H calls disconnectEntries' connectEntries' = steps H calls disconnectEntries connectEntries := by
  have hrun (step : BlockIndexEntry → ChainDb Block)
      (hstep : ∀ e e' : BlockIndexEntry, e'.core = e.core → step e' = step e) :
      ∀ entries entries' : List BlockIndexEntry,
        entries'.map BlockIndexEntry.core = entries.map BlockIndexEntry.core →
          runSteps step entries' = runSteps step entries := by
    intro entries
    induction entries with
    | nil =>
      intro entries' h
      rw [List.map_nil, List.map_eq_nil_iff] at h
      rw [h]
    | cons e entries ih =>
      intro entries' h
      cases entries' with
      | nil => cases h
      | cons e' entries' =>
        simp only [List.map_cons, List.cons.injEq] at h
        rw [runSteps, runSteps, hstep e e' h.1, ih entries' h.2]
  have hparts (e e' : BlockIndexEntry) (h : e'.core = e.core) :
      e'.blockHash = e.blockHash ∧ e'.height = e.height :=
    ⟨congrArg (fun c => c.2.1) h, congrArg (fun c => c.1) h⟩
  unfold steps
  rw [hrun (disconnectStep H calls) ?_ _ _ hdisc, hrun (connectStep H calls) ?_ _ _ hconn]
  · intro e e' h
    obtain ⟨hhash, hheight⟩ := hparts e e' h
    rw [connectStep, connectStep, hhash, hheight]
  · intro e e' h
    obtain ⟨hhash, hheight⟩ := hparts e e' h
    rw [disconnectStep, disconnectStep, hhash, hheight]

end ReorgManager
end BerzCoin
