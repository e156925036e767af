import BerzCoin.ValidationEffects

/-! The nested loops of `connect` as one loop over a list of operations on the UTXO set. -/
namespace BerzCoin
open Database UTXOStore

inductive UtxoOp
  | spend (txid : Bytes) (inIdx : ℕ) (txin : TxIn)
  | add (txid : Bytes) (isCoinbase : Bool) (i : ℕ) (txout : TxOut)
  deriving DecidableEq, Repr

def spendOps (txid : Bytes) : ℕ → List TxIn → List UtxoOp
  | _, [] => []
  | inIdx, txin :: vin => .spend txid inIdx txin :: spendOps txid (inIdx + 1) vin

def addOps (txid : Bytes) (isCoinbase : Bool) : ℕ → List TxOut → List UtxoOp
  | _, [] => []
  | i, txout :: vout =>
    if txout.isOpReturn then addOps txid isCoinbase (i + 1) vout
    else .add txid isCoinbase i txout :: addOps txid isCoinbase (i + 1) vout

def txOps (H : Hashlib) (tx : Transaction) : List UtxoOp :=
  (if tx.isCoinbase then [] else spendOps (tx.txid H) 0 tx.vin) ++
    addOps (tx.txid H) tx.isCoinbase 0 tx.vout

def blockOps (H : Hashlib) (txs : List Transaction) : List UtxoOp := txs.flatMap (txOps H)

/-- The operation belongs to this transaction. -/
def UtxoOp.Of (H : Hashlib) (tx : Transaction) : UtxoOp → Prop
  | .spend txid _ _ => txid = tx.txid H
  | .add txid _ _ txout => txid = tx.txid H ∧ txout ∈ tx.vout ∧ txout.isOpReturn = false

lemma mem_spendOps {txid : Bytes} {inIdx : ℕ} {vin : List TxIn} {op : UtxoOp}
    (h : op ∈ spendOps txid inIdx vin) : ∃ i txin, op = .spend txid i txin := by
  induction vin generalizing inIdx with
  | nil => exact (List.not_mem_nil h).elim
  | cons txin vin ih =>
    rcases List.mem_cons.1 h with rfl | h
    · exact ⟨inIdx, txin, rfl⟩
    · exact ih h

lemma mem_addOps {txid : Bytes} {isCoinbase : Bool} {i : ℕ} {vout : List TxOut} {op : UtxoOp}
    (h : op ∈ addOps txid isCoinbase i vout) :
    ∃ j, ∃ txout ∈ vout, txout.isOpReturn = false ∧ op = .add txid isCoinbase j txout := by
  induction vout generalizing i with
  | nil => exact (List.not_mem_nil h).elim
  | cons txout vout ih =>
    by_cases hret : txout.isOpReturn = true
    · simp only [addOps, hret, if_true] at h
      obtain ⟨j, txout', hmem, hop⟩ := ih h
      exact ⟨j, txout', List.mem_cons_of_mem _ hmem, hop⟩
    · simp only [addOps, hret] at h
      rcases List.mem_cons.1 h with rfl | h
      · exact ⟨i, txout, List.mem_cons_self .., by simpa using hret, rfl⟩
      · obtain ⟨j, txout', hmem, hop⟩ := ih h
        exact ⟨j, txout', List.mem_cons_of_mem _ hmem, hop⟩

lemma mem_blockOps {H : Hashlib} {txs : List Transaction} {op : UtxoOp} (h : op ∈ blockOps H txs) :
    ∃ tx ∈ txs, op.Of H tx := by
  obtain ⟨tx, htx, hop⟩ := List.mem_flatMap.1 h
  refine ⟨tx, htx, ?_⟩
  rcases List.mem_append.1 hop with hop | hop
  · split_ifs at hop
    · exact (List.not_mem_nil hop).elim
    · obtain ⟨i, txin, rfl⟩ := mem_spendOps hop
      rfl
  · obtain ⟨i, txout, hmem, hret, rfl⟩ := mem_addOps hop
    exact ⟨rfl, hmem, hret⟩

section run
variable (H : Hashlib) (network : Network) (blockHash : Bytes) (height : ℕ)

def UtxoOp.run : UtxoOp → ChainDb Unit
  | .spend txid inIdx txin => spendInput blockHash txid inIdx txin
  | .add txid isCoinbase i txout => addOutput H network height txid isCoinbase i txout

def runOps : List UtxoOp → ChainDb Unit
  | [] => return ()
  | op :: ops => do
      op.run H network blockHash height
      runOps ops

lemma runOps_append (ops ops' : List UtxoOp) :
    runOps H network blockHash height (ops ++ ops') =
      (do runOps H network blockHash height ops; runOps H network blockHash height ops') := by
  induction ops with
  | nil => simp [runOps]
  | cons op ops ih => simp only [List.cons_append, runOps, ih, bind_assoc]

lemma spendInputs_eq_runOps (txid : Bytes) (inIdx : ℕ) (vin : List TxIn) :
    spendInputs blockHash txid inIdx vin =
      runOps H network blockHash height (spendOps txid inIdx vin) := by
  induction vin generalizing inIdx with
  | nil => rfl
  | cons txin vin ih => simp only [spendInputs, spendOps, runOps, UtxoOp.run, ih]

lemma addOutputs_eq_runOps (txid : Bytes) (isCoinbase : Bool) (i : ℕ) (vout : List TxOut) :
    addOutputs H network height txid isCoinbase i vout =
      runOps H network blockHash height (addOps txid isCoinbase i vout) := by
  induction vout generalizing i with
  | nil => rfl
  | cons txout vout ih =>
    simp only [addOutputs, addOps, ih]
    by_cases hret : txout.isOpReturn = true
    · simp [hret, addOutput]
    · simp [hret, runOps, UtxoOp.run]

lemma connectTx_eq_runOps (tx : Transaction) :
    connectTx H network blockHash height tx =
      runOps H network blockHash height (txOps H tx) := by
  rw [connectTx, txOps, runOps_append, addOutputs_eq_runOps H network blockHash]
  by_cases hcb : tx.isCoinbase = true
  · simp [hcb, runOps]
  · simp [hcb, spendInputs_eq_runOps H network blockHash height]

lemma connectTxs_eq_runOps (txs : List Transaction) :
    connectTxs H network blockHash height txs =
      runOps H network blockHash height (blockOps H txs) := by
  induction txs with
  | nil => rfl
  | cons tx txs ih =>
    rw [connectTxs, blockOps, List.flatMap_cons, runOps_append, ← connectTx_eq_runOps, ih]
    rfl

/-- The effect of one operation on the tables; `none` where it raises. -/
def UtxoOp.apply (tables : Tables) : UtxoOp → Option Tables
  | .spend txid inIdx txin =>
    (tables.utxo.get? txin.outpoint).map (tables.spend (blockHash, txid, inIdx) txin.outpoint)
  | .add txid isCoinbase i txout =>
    if txout.isOpReturn then some tables
    else
      match outputRow H network height isCoinbase txout with
      | .ok row => some (tables.add (txid, i) row)
      | .error _ => none

/-- The tables that a list of operations leaves, and whether it went through. -/
def applyOps : List UtxoOp → Tables → Tables × Bool
  | [], tables => (tables, true)
  | op :: ops, tables =>
    match op.apply H network blockHash height tables with
    | none => (tables, false)
    | some tables' => applyOps ops tables'

/-- What every operation keeps, a list of operations keeps, also one that stops. -/
lemma applyOps_keeps {H : Hashlib} {network : Network} {blockHash : Bytes} {height : ℕ}
    {P : Tables → Prop} {ops : List UtxoOp}
    (hstep : ∀ op ∈ ops, ∀ tables tables', op.apply H network blockHash height tables = some tables' →
      P tables → P tables') {tables : Tables} (h : P tables) :
    P (applyOps H network blockHash height ops tables).1 := by
  induction ops generalizing tables with
  | nil => exact h
  | cons op ops ih =>
    rw [applyOps]
    cases happ : op.apply H network blockHash height tables with
    | none => exact h
    | some tables' =>
      refine ih (fun op' hop' => hstep op' (List.mem_cons_of_mem _ hop')) ?_
      exact hstep op (List.mem_cons_self ..) tables tables' happ h

lemma UtxoOp.run_client (op : UtxoOp) : Client (op.run H network blockHash height) := by
  cases op with
  | spend txid inIdx txin => exact spendInput_client ..
  | add txid isCoinbase i txout => exact addOutput_client ..

lemma runOps_client (ops : List UtxoOp) : Client (runOps H network blockHash height ops) := by
  induction ops with
  | nil => exact .ret _
  | cons op ops ih => exact .bind (op.run_client H network blockHash height) fun _ => ih

lemma UtxoOp.run_inside (op : UtxoOp) (tables : Tables) (b : BlockIndex) :
    match op.apply H network blockHash height tables with
    | none => ∃ e, inside (op.run H network blockHash height) (tables, b) = .error e (tables, b)
    | some tables' =>
      inside (op.run H network blockHash height) (tables, b) = .ok () (tables', b) := by
  cases op with
  | spend txid inIdx txin =>
    have hspend := spendInput_apply (s := openSession (tables, b)) blockHash rfl txid inIdx txin
    have hcur : (openSession (tables, b)).conn.current = tables := rfl
    rw [hcur] at hspend
    simp only [UtxoOp.apply, UtxoOp.run]
    cases hrow : tables.utxo.get? txin.outpoint with
    | none =>
      simp only [hrow] at hspend
      obtain ⟨e, he⟩ := hspend
      refine ⟨e, ?_⟩
      simp only [inside, he, Db.project]
      rfl
    | some row =>
      simp only [hrow] at hspend
      simp only [Option.map_some, inside, hspend, Db.project, put_data]
      rfl
  | add txid isCoinbase i txout =>
    have hadd := addOutput_apply (s := openSession (tables, b)) H network height rfl txid isCoinbase
      i txout
    have hcur : (openSession (tables, b)).conn.current = tables := rfl
    rw [hcur] at hadd
    simp only [UtxoOp.apply, UtxoOp.run]
    by_cases hret : txout.isOpReturn = true
    · simp only [hret, if_true] at hadd ⊢
      simp only [inside, hadd, Db.project]
      rfl
    · simp only [hret] at hadd ⊢
      cases hrow : outputRow H network height isCoinbase txout with
      | error e =>
        simp only [hrow] at hadd
        refine ⟨e, ?_⟩
        simp only [inside, hadd, Db.project]
        rfl
      | ok row =>
        simp only [hrow] at hadd
        simp only [inside, hadd, Db.project]
        rfl

lemma runOps_inside (ops : List UtxoOp) (tables : Tables) (b : BlockIndex) :
    match applyOps H network blockHash height ops tables with
    | (tables', true) =>
      inside (runOps H network blockHash height ops) (tables, b) = .ok () (tables', b)
    | (tables', false) =>
      ∃ e, inside (runOps H network blockHash height ops) (tables, b) = .error e (tables', b) := by
  induction ops generalizing tables with
  | nil => rfl
  | cons op ops ih =>
    have hop := op.run_inside H network blockHash height tables b
    rw [runOps, inside_bind (op.run_client ..) fun _ => runOps_client .., applyOps]
    cases happ : op.apply H network blockHash height tables with
    | none =>
      simp only [happ] at hop
      obtain ⟨e, he⟩ := hop
      exact ⟨e, by rw [he]⟩
    | some tables' =>
      simp only [happ] at hop
      rw [hop]
      exact ih tables'

/-- The tables after the old undo rows of the block are gone. -/
def withoutUndo (tables : Tables) : Tables :=
  { tables with blockUndo := tables.blockUndo.deleteWhere fun key => key.1 = blockHash }

/-- What the body of `connect` does before it marks the block. -/
lemma connectBody_inside (block : Block) (tables : Tables) (b : BlockIndex) :
    match applyOps H network blockHash height (blockOps H block.transactions)
      (withoutUndo blockHash tables) with
    | (tables', true) =>
      inside (connectBody H network blockHash height block) (tables, b) =
        inside (finishConnect H blockHash block.transactions) (tables', b)
    | (tables', false) =>
      ∃ e, inside (connectBody H network blockHash height block) (tables, b) =
        .error e (tables', b) := by
  have hops := runOps_inside H network blockHash height (blockOps H block.transactions)
    (withoutUndo blockHash tables) b
  have hbody : inside (connectBody H network blockHash height block) (tables, b) =
      match inside (runOps H network blockHash height (blockOps H block.transactions))
        (withoutUndo blockHash tables, b) with
      | .ok _ d => inside (finishConnect H blockHash block.transactions) d
      | .error e d => .error e d := by
    rw [connectBody, connectTxs_eq_runOps, inside_bind (.execute _) fun _ =>
      .bind (runOps_client ..) fun _ => finishConnect_client .., inside_execute]
    simp only [deleteUndo, Statement.change]
    rw [inside_bind (runOps_client ..) fun _ => finishConnect_client ..]
    unfold withoutUndo
    cases inside (runOps H network blockHash height (blockOps H block.transactions))
      ({ tables with blockUndo := tables.blockUndo.deleteWhere fun key => key.1 = blockHash }, b) <;>
      rfl
  rw [hbody]
  rcases happ : applyOps H network blockHash height (blockOps H block.transactions)
    (withoutUndo blockHash tables) with ⟨tables', ok⟩
  rw [happ] at hops
  cases ok with
  | true =>
    simp only at hops ⊢
    rw [hops]
  | false =>
    simp only at hops ⊢
    obtain ⟨e, he⟩ := hops
    exact ⟨e, by rw [he]⟩

end run

/-- A connected block has gone through all its operations. -/
lemma connect_applyOps {H : Hashlib} {network : Network} {block : Block}
    {s s' : Session Tables BlockIndex} (h : connect H network block s = .ok true s') :
    ∃ height tables', s.memory.getHeight (block.header.hashHex H) = some height ∧
      applyOps H network (block.header.hashHex H) height (blockOps H block.transactions)
        (withoutUndo (block.header.hashHex H) s.conn.current) = (tables', true) ∧
      s'.conn.current.utxo = tables'.utxo := by
  obtain ⟨height, hheight, hconn⟩ := connect_ok_true.1 h
  have hin := (transaction_ok_iff (connectBody_client ..)).2 ⟨s', hconn, rfl⟩
  have hbody := connectBody_inside H network (block.header.hashHex H) height block s.conn.current
    s.memory
  rcases happ : applyOps H network (block.header.hashHex H) height (blockOps H block.transactions)
    (withoutUndo (block.header.hashHex H) s.conn.current) with ⟨tables', ok⟩
  rw [happ] at hbody
  cases ok with
  | false =>
    obtain ⟨e, he⟩ := hbody
    rw [Session.data, he] at hin
    cases hin
  | true =>
    refine ⟨height, tables', hheight, happ, ?_⟩
    simp only [finishConnect_inside] at hbody
    obtain ⟨hutxo, -, -⟩ := markMain_utxo (block.header.hashHex H) true (tables', s.memory)
    rw [Session.data, hbody] at hin
    cases htxs : block.transactions with
    | nil => simp [htxs] at hin
    | cons first txs =>
      simp only [htxs, EStateM.Result.ok.injEq, true_and] at hin
      have hcur : s'.conn.current = _ := (congrArg Prod.fst hin).symm
      rw [hcur]
      exact hutxo

end BerzCoin
