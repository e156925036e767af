import BerzCoin.UndoLog
import BerzCoin.ValidationEffects

/-! Disconnecting undoes connecting. The UTXO table and the undo rows of one block are a map
and its log, and a transaction is a step that takes its inputs and puts its outputs. -/
namespace BerzCoin
open Database UTXOStore UndoLog

def UndoRow.toUtxo (row : UndoRow) : UtxoRow :=
  ⟨row.value, row.scriptPubkey, row.height, row.isCoinbase, row.address⟩

/-- A spent input is known to the log by the spending transaction and the input number. -/
abbrev UndoId := Bytes × ℕ

def undoView (blockHash : Bytes) (tables : Tables) : Store UndoId UtxoRow :=
  fun id => (tables.blockUndo.get? (blockHash, id.1, id.2)).map UndoRow.toUtxo

def views (blockHash : Bytes) (tables : Tables) : Store Outpoint UtxoRow × Store UndoId UtxoRow :=
  (tables.utxo.get?, undoView blockHash tables)

lemma views_congr {blockHash : Bytes} {tables tables' : Tables} (hutxo : tables.utxo = tables'.utxo)
    (hundo : tables.blockUndo = tables'.blockUndo) :
    views blockHash tables = views blockHash tables' := by
  simp only [views, hutxo, Prod.mk.injEq, true_and]
  funext id
  simp only [undoView, hundo]

section views
variable (blockHash txid : Bytes) (i : ℕ) (prev key : Outpoint) (tables : Tables)

lemma views_spend (row : UtxoRow) :
    views blockHash (tables.spend (blockHash, txid, i) prev row) =
      (Function.update tables.utxo.get? prev none,
        Function.update (undoView blockHash tables) (txid, i) (some row)) := by
  refine Prod.ext ?_ ?_
  · funext k
    by_cases hk : k = prev <;> simp [views, Tables.spend, Function.update, hk]
  · funext id
    by_cases hid : id = (txid, i)
    · subst hid
      simp [views, undoView, Tables.spend, undoRow, UndoRow.toUtxo]
    · simp [views, undoView, Tables.spend, hid]

lemma views_add (row : UtxoRow) :
    views blockHash (tables.add key row) =
      (Function.update tables.utxo.get? key (some row), undoView blockHash tables) := by
  refine Prod.ext ?_ rfl
  funext k
  simp only [views, Tables.get?_add, Function.update_apply]

lemma get?_restore (row : UndoRow) :
    (tables.restore prev row).utxo.get? =
      Function.update tables.utxo.get? prev (some row.toUtxo) := by
  funext k
  by_cases hk : k = prev <;> simp [Tables.restore, Function.update, hk, UndoRow.toUtxo]

lemma get?_remove :
    (tables.remove key).utxo.get? = Function.update tables.utxo.get? key none := by
  funext k
  by_cases hk : k = key <;> simp [Tables.remove, Function.update, hk]

end views

/-- `((txid, i), outpoint)` for the inputs from number `i` on. -/
def takesFrom (txid : Bytes) : ℕ → List TxIn → List (UndoId × Outpoint)
  | _, [] => []
  | i, txin :: vin => ((txid, i), txin.outpoint) :: takesFrom txid (i + 1) vin

def outsFrom (txid : Bytes) : ℕ → ℕ → List Outpoint
  | _, 0 => []
  | i, n + 1 => (txid, i) :: outsFrom txid (i + 1) n

/-- The rows that the outputs from number `i` on add. -/
def putsFrom (H : Hashlib) (network : Network) (height : ℕ) (txid : Bytes) (isCoinbase : Bool) :
    ℕ → List TxOut → List (Outpoint × UtxoRow)
  | _, [] => []
  | i, txout :: vout =>
    let rest := putsFrom H network height txid isCoinbase (i + 1) vout
    if txout.isOpReturn then rest
    else
      match outputRow H network height isCoinbase txout with
      | .ok row => ((txid, i), row) :: rest
      | .error _ => rest

lemma mem_outsFrom {txid : Bytes} {i n : ℕ} {key : Outpoint} :
    key ∈ outsFrom txid i n ↔ key.1 = txid ∧ i ≤ key.2 ∧ key.2 < i + n := by
  induction n generalizing i with
  | zero =>
    simp only [outsFrom, List.not_mem_nil, false_iff]
    omega
  | succ n ih =>
    rw [outsFrom, List.mem_cons, ih]
    constructor
    · rintro (rfl | ⟨h1, h2, h3⟩)
      · exact ⟨rfl, le_refl _, by omega⟩
      · exact ⟨h1, by omega, by omega⟩
    · rintro ⟨h1, h2, h3⟩
      by_cases hi : key.2 = i
      · exact Or.inl (Prod.ext h1 hi)
      · exact Or.inr ⟨h1, by omega, by omega⟩

lemma mem_putsFrom {H : Hashlib} {network : Network} {height : ℕ} {txid : Bytes} {isCoinbase : Bool}
    {i : ℕ} {vout : List TxOut} {p : Outpoint × UtxoRow}
    (h : p ∈ putsFrom H network height txid isCoinbase i vout) :
    p.1 ∈ outsFrom txid i vout.length := by
  induction vout generalizing i with
  | nil => exact (List.not_mem_nil h).elim
  | cons txout vout ih =>
    simp only [putsFrom] at h
    rw [List.length_cons, outsFrom]
    split at h
    · exact List.mem_cons_of_mem _ (ih h)
    · split at h
      · rcases List.mem_cons.1 h with rfl | h
        · exact List.mem_cons_self ..
        · exact List.mem_cons_of_mem _ (ih h)
      · exact List.mem_cons_of_mem _ (ih h)

/-- A transaction of a block as a step on the UTXO map. -/
def txStep (H : Hashlib) (network : Network) (height : ℕ) (tx : Transaction) :
    Step Outpoint UndoId UtxoRow where
  takes := if tx.isCoinbase then [] else takesFrom (tx.txid H) 0 tx.vin
  puts := putsFrom H network height (tx.txid H) tx.isCoinbase 0 tx.vout
  outs := outsFrom (tx.txid H) 0 tx.vout.length
  puts_mem _ hp := mem_putsFrom hp

section connect
variable (H : Hashlib) (network : Network) (blockHash : Bytes) (height : ℕ)
variable {tables : Tables} {b : BlockIndex} {d : Tables × BlockIndex}

lemma spendInputs_views {txid : Bytes} {i : ℕ} {vin : List TxIn}
    (h : inside (spendInputs blockHash txid i vin) (tables, b) = .ok () d) :
    d.2 = b ∧ takeAll (takesFrom txid i vin) (views blockHash tables) =
      some (views blockHash d.1) := by
  induction vin generalizing i tables with
  | nil =>
    cases h
    exact ⟨rfl, rfl⟩
  | cons txin vin ih =>
    have hspend := spendInput_apply (s := openSession (tables, b)) blockHash rfl txid i txin
    have hcur : (openSession (tables, b)).conn.current = tables := rfl
    rw [hcur] at hspend
    rw [spendInputs, inside_bind (spendInput_client ..) fun _ => spendInputs_client ..] at h
    cases hrow : tables.utxo.get? txin.outpoint with
    | none =>
      simp only [hrow] at hspend
      obtain ⟨e, he⟩ := hspend
      simp [inside, he, Db.project] at h
    | some row =>
      simp only [hrow] at hspend
      have hin : inside (spendInput blockHash txid i txin) (tables, b) =
          .ok () (tables.spend (blockHash, txid, i) txin.outpoint row, b) := by
        simp only [inside, hspend, Db.project, put_data]
        rfl
      rw [hin] at h
      obtain ⟨hb, htake⟩ := ih h
      refine ⟨hb, ?_⟩
      rw [views_spend] at htake
      simpa [takesFrom, takeAll, views, hrow] using htake

lemma addOutputs_views {txid : Bytes} {isCoinbase : Bool} {i : ℕ} {vout : List TxOut}
    (h : inside (addOutputs H network height txid isCoinbase i vout) (tables, b) = .ok () d) :
    d.2 = b ∧ views blockHash d.1 =
      (putAll (putsFrom H network height txid isCoinbase i vout) tables.utxo.get?,
        undoView blockHash tables) := by
  induction vout generalizing i tables with
  | nil =>
    cases h
    exact ⟨rfl, rfl⟩
  | cons txout vout ih =>
    have hadd := addOutput_apply (s := openSession (tables, b)) H network height rfl txid isCoinbase
      i txout
    rw [addOutputs, inside_bind (addOutput_client ..) fun _ => addOutputs_client ..] at h
    simp only [putsFrom]
    by_cases hret : txout.isOpReturn = true
    · rw [if_pos hret] at hadd ⊢
      have hin : inside (addOutput H network height txid isCoinbase i txout) (tables, b) =
          .ok () (tables, b) := by
        simp only [inside, hadd, Db.project]
        rfl
      rw [hin] at h
      exact ih h
    · rw [if_neg hret] at hadd ⊢
      cases hrow : outputRow H network height isCoinbase txout with
      | error e =>
        simp only [hrow] at hadd
        simp [inside, hadd, Db.project] at h
      | ok row =>
        simp only [hrow] at hadd
        have hin : inside (addOutput H network height txid isCoinbase i txout) (tables, b) =
            .ok () (tables.add (txid, i) row, b) := by
          simp only [inside, hadd, Db.project, put_data]
          rfl
        rw [hin] at h
        obtain ⟨hb, hviews⟩ := ih h
        have hstep := views_add blockHash (txid, i) tables row
        have hutxo : (tables.add (txid, i) row).utxo.get? =
            Function.update tables.utxo.get? (txid, i) (some row) := congrArg Prod.fst hstep
        have hundo : undoView blockHash (tables.add (txid, i) row) = undoView blockHash tables :=
          congrArg Prod.snd hstep
        rw [hutxo, hundo] at hviews
        exact ⟨hb, hviews⟩

lemma connectTx_views {tx : Transaction}
    (h : inside (connectTx H network blockHash height tx) (tables, b) = .ok () d) :
    d.2 = b ∧ (txStep H network height tx).apply (views blockHash tables) =
      some (views blockHash d.1) := by
  unfold connectTx at h
  by_cases hcb : tx.isCoinbase = true
  · simp only [hcb, Bool.not_true, Bool.false_eq_true, if_false] at h
    obtain ⟨hb, hviews⟩ := addOutputs_views H network blockHash height h
    refine ⟨hb, ?_⟩
    have hnone : (txStep H network height tx).takes = [] := by simp [txStep, hcb]
    rw [Step.apply, hnone, takeAll, hviews, Option.map_some]
    simp only [txStep, hcb]
    rfl
  · have hcb' : tx.isCoinbase = false := by simpa using hcb
    simp only [hcb', Bool.not_false, if_true] at h
    rw [inside_bind (spendInputs_client ..) fun _ => addOutputs_client ..] at h
    cases hs : inside (spendInputs blockHash (tx.txid H) 0 tx.vin) (tables, b) with
    | error e d' => simp [hs] at h
    | ok u d' =>
      rw [hs] at h
      obtain ⟨hb', htake⟩ := spendInputs_views blockHash hs
      obtain ⟨tables', b''⟩ := d'
      simp only at hb' htake h
      subst hb'
      obtain ⟨hb, hviews⟩ := addOutputs_views H network blockHash height h
      refine ⟨hb, ?_⟩
      have htakes : (txStep H network height tx).takes = takesFrom (tx.txid H) 0 tx.vin := by
        simp [txStep, hcb']
      rw [Step.apply, htakes, htake, hviews, Option.map_some]
      simp only [txStep, hcb']
      rfl

lemma connectTxs_views {txs : List Transaction}
    (h : inside (connectTxs H network blockHash height txs) (tables, b) = .ok () d) :
    d.2 = b ∧ applyAll (txs.map (txStep H network height)) (views blockHash tables) =
      some (views blockHash d.1) := by
  induction txs generalizing tables with
  | nil =>
    cases h
    exact ⟨rfl, rfl⟩
  | cons tx txs ih =>
    rw [connectTxs, inside_bind (connectTx_client ..) fun _ => connectTxs_client ..] at h
    cases hs : inside (connectTx H network blockHash height tx) (tables, b) with
    | error e d' => simp [hs] at h
    | ok u d' =>
      rw [hs] at h
      obtain ⟨hb', happ⟩ := connectTx_views H network blockHash height hs
      obtain ⟨tables', b'⟩ := d'
      simp only at hb' happ h
      subst hb'
      obtain ⟨hb, hrest⟩ := ih h
      refine ⟨hb, ?_⟩
      rw [List.map_cons, applyAll, happ]
      exact hrest

end connect

section disconnect
variable (H : Hashlib) (network : Network) (blockHash : Bytes) (height : ℕ)
variable {tables : Tables} {b : BlockIndex} {store : Store Outpoint UtxoRow}

lemma restoreInputs_views {txid : Bytes} {i : ℕ} {vin : List TxIn}
    (h : restoreAll (undoView blockHash tables) (takesFrom txid i vin) tables.utxo.get? =
      some store) :
    ∃ tables', inside (restoreInputs blockHash txid i vin) (tables, b) = .ok () (tables', b) ∧
      tables'.utxo.get? = store ∧ tables'.blockUndo = tables.blockUndo := by
  induction vin generalizing i tables with
  | nil =>
    cases h
    exact ⟨tables, rfl, rfl, rfl⟩
  | cons txin vin ih =>
    have hrestore := restoreInput_apply (s := openSession (tables, b)) blockHash rfl txid i txin
    have hcur : (openSession (tables, b)).conn.current = tables := rfl
    rw [hcur] at hrestore
    cases hrow : tables.blockUndo.get? (blockHash, txid, i) with
    | none => simp [takesFrom, restoreAll, undoView, hrow] at h
    | some row =>
      simp only [hrow] at hrestore
      have hin : inside (restoreInput blockHash txid i txin) (tables, b) =
          .ok () (tables.restore txin.outpoint row, b) := by
        simp only [inside, hrestore, Db.project, put_data]
        rfl
      have hlog : undoView blockHash tables (txid, i) = some row.toUtxo := by
        simp [undoView, hrow]
      simp only [takesFrom, restoreAll, hlog] at h
      rw [← get?_restore] at h
      have hundo : undoView blockHash (tables.restore txin.outpoint row) =
          undoView blockHash tables := rfl
      rw [← hundo] at h
      obtain ⟨tables', hrun, hutxo, hrows⟩ := ih h
      refine ⟨tables', ?_, hutxo, hrows⟩
      rw [restoreInputs, inside_bind (restoreInput_client ..) fun _ => restoreInputs_client .., hin]
      exact hrun

lemma removeOutputs_views (txid : Bytes) (i n : ℕ) (tables : Tables) :
    ∃ tables', inside (removeOutputs txid i n) (tables, b) = .ok () (tables', b) ∧
      tables'.utxo.get? = clearAll (outsFrom txid i n) tables.utxo.get? ∧
      tables'.blockUndo = tables.blockUndo := by
  induction n generalizing i tables with
  | zero => exact ⟨tables, rfl, rfl, rfl⟩
  | succ n ih =>
    have hremove := removeOutput_apply (s := openSession (tables, b)) rfl txid i
    have hin : inside (do let _ ← removeUtxo txid i; execute (clearSpent (txid, i)) : ChainDb Unit)
        (tables, b) = .ok () (tables.remove (txid, i), b) := by
      simp only [inside, hremove, Db.project, put_data]
      rfl
    obtain ⟨tables', hrun, hutxo, hrows⟩ := ih (i + 1) (tables.remove (txid, i))
    refine ⟨tables', ?_, ?_, hrows⟩
    · have hassoc : removeOutputs txid i (n + 1) =
          (do (do let _ ← removeUtxo txid i; execute (clearSpent (txid, i)) : ChainDb Unit)
              removeOutputs txid (i + 1) n) := by
        simp only [removeOutputs, bind_assoc]
      rw [hassoc, inside_bind (.bind (removeUtxo_client ..) fun _ => .execute _)
        fun _ => removeOutputs_client .., hin]
      exact hrun
    · rw [hutxo, get?_remove]
      rfl

lemma disconnectTx_views {tx : Transaction}
    (h : (txStep H network height tx).undo (undoView blockHash tables) tables.utxo.get? =
      some store) :
    ∃ tables', inside (disconnectTx H blockHash tx) (tables, b) = .ok () (tables', b) ∧
      tables'.utxo.get? = store ∧ tables'.blockUndo = tables.blockUndo := by
  unfold disconnectTx
  by_cases hcb : tx.isCoinbase = true
  · obtain ⟨tables', hrun, hutxo, hrows⟩ :=
      removeOutputs_views (b := b) (tx.txid H) 0 tx.vout.length tables
    refine ⟨tables', ?_, ?_, hrows⟩
    · simpa [hcb] using hrun
    · simpa [Step.undo, txStep, hcb, restoreAll, hutxo] using h
  · have hcb' : tx.isCoinbase = false := by simpa using hcb
    cases hres : restoreAll (undoView blockHash tables) (takesFrom (tx.txid H) 0 tx.vin)
        tables.utxo.get? with
    | none => simp [Step.undo, txStep, hcb', hres] at h
    | some store' =>
      obtain ⟨tables1, hrun1, hutxo1, hrows1⟩ := restoreInputs_views (b := b) blockHash hres
      obtain ⟨tables2, hrun2, hutxo2, hrows2⟩ :=
        removeOutputs_views (b := b) (tx.txid H) 0 tx.vout.length tables1
      refine ⟨tables2, ?_, ?_, hrows2.trans hrows1⟩
      · simp only [hcb', Bool.not_false, if_true]
        rw [inside_bind (restoreInputs_client ..) fun _ => removeOutputs_client .., hrun1]
        exact hrun2
      · rw [hutxo2, hutxo1]
        simpa [Step.undo, txStep, hcb', hres] using h

lemma disconnectTxs_append (txs txs' : List Transaction) (d : Tables × BlockIndex) :
    inside (disconnectTxs H blockHash (txs ++ txs')) d =
      match inside (disconnectTxs H blockHash txs) d with
      | .ok _ d' => inside (disconnectTxs H blockHash txs') d'
      | .error e d' => .error e d' := by
  induction txs generalizing d with
  | nil => rfl
  | cons tx txs ih =>
    rw [List.cons_append, disconnectTxs, disconnectTxs,
      inside_bind (disconnectTx_client ..) fun _ => disconnectTxs_client ..,
      inside_bind (disconnectTx_client ..) fun _ => disconnectTxs_client ..]
    cases inside (disconnectTx H blockHash tx) d with
    | error e d' => rfl
    | ok u d' => exact ih d'

lemma disconnectTxs_views {txs : List Transaction}
    (h : undoAll (undoView blockHash tables) (txs.map (txStep H network height)) tables.utxo.get? =
      some store) :
    ∃ tables', inside (disconnectTxs H blockHash txs.reverse) (tables, b) = .ok () (tables', b) ∧
      tables'.utxo.get? = store ∧ tables'.blockUndo = tables.blockUndo := by
  induction txs generalizing store with
  | nil =>
    cases h
    exact ⟨tables, rfl, rfl, rfl⟩
  | cons tx txs ih =>
    rw [List.map_cons, undoAll] at h
    obtain ⟨store1, h1, h2⟩ := Option.bind_eq_some_iff.1 h
    obtain ⟨tables1, hrun1, hutxo1, hrows1⟩ := ih h1
    have hundo : undoView blockHash tables1 = undoView blockHash tables := by
      funext id
      simp only [undoView, hrows1]
    rw [← hundo, ← hutxo1] at h2
    obtain ⟨tables2, hrun2, hutxo2, hrows2⟩ :=
      disconnectTx_views (b := b) H network blockHash height h2
    refine ⟨tables2, ?_, hutxo2, hrows2.trans hrows1⟩
    rw [List.reverse_cons, disconnectTxs_append, hrun1]
    simp only [disconnectTxs]
    rw [inside_bind (disconnectTx_client ..) fun _ => .ret _, hrun2]
    rfl

end disconnect

/-- Equal transaction ids belong to transactions that spend the same outputs. -/
lemma consistent_txSteps {H : Hashlib} {network : Network} {height : ℕ} {txs : List Transaction}
    (hrange : ∀ tx ∈ txs, tx.InRange)
    (hhash : Set.InjOn H.hash256 {data | ∃ tx ∈ txs, data = tx.serialize false}) :
    Consistent (txs.map (txStep H network height)) := by
  have hmem {txid : Bytes} {i0 i : ℕ} {id : Bytes} {k : Outpoint} {vin : List TxIn}
      (h : ((id, i), k) ∈ takesFrom txid i0 vin) :
      id = txid ∧ i0 ≤ i ∧ (vin.map TxIn.outpoint)[i - i0]? = some k := by
    induction vin generalizing i0 with
    | nil => exact (List.not_mem_nil h).elim
    | cons txin vin ih =>
      rcases List.mem_cons.1 h with heq | h
      · obtain ⟨⟨rfl, rfl⟩, rfl⟩ := by simpa using heq
        simp
      · obtain ⟨hid, hle, hget⟩ := ih h
        refine ⟨hid, by omega, ?_⟩
        obtain ⟨j, rfl⟩ : ∃ j, i = i0 + 1 + j := ⟨i - (i0 + 1), by omega⟩
        have h1 : i0 + 1 + j - (i0 + 1) = j := by omega
        have h2 : i0 + 1 + j - i0 = j + 1 := by omega
        rw [h1] at hget
        rw [h2]
        simpa using hget
  rintro _ hstep _ hstep' ⟨id, i⟩ k k' hk hk'
  obtain ⟨tx, htx, rfl⟩ := List.mem_map.1 hstep
  obtain ⟨tx', htx', rfl⟩ := List.mem_map.1 hstep'
  have htakes {tx : Transaction} {k : Outpoint}
      (h : ((id, i), k) ∈ (txStep H network height tx).takes) :
      id = tx.txid H ∧ (tx.vin.map TxIn.outpoint)[i]? = some k := by
    simp only [txStep] at h
    split at h
    · exact (List.not_mem_nil h).elim
    · obtain ⟨hid, -, hget⟩ := hmem h
      exact ⟨hid, by simpa using hget⟩
  obtain ⟨hid, hget⟩ := htakes hk
  obtain ⟨hid', hget'⟩ := htakes hk'
  have hser : tx.serialize false = tx'.serialize false :=
    hhash ⟨tx, htx, rfl⟩ ⟨tx', htx', rfl⟩ (hid.symm.trans hid')
  have hstrip := Transaction.stripWitness_eq_of_serialize_eq (hrange tx htx) (hrange tx' htx') hser
  have hvin : tx.vin.map TxIn.outpoint = tx'.vin.map TxIn.outpoint := by
    have hcomp : TxIn.outpoint ∘ (fun txin : TxIn => { txin with witness := [] }) =
        TxIn.outpoint := rfl
    have := congrArg (fun t => t.vin.map TxIn.outpoint) hstrip
    simpa [Transaction.stripWitness, hcomp] using this
  rw [hvin] at hget
  exact Option.some.inj (hget.symm.trans hget')

/-- What a successful body of `connect` has done. -/
lemma connectBody_views {H : Hashlib} {network : Network} {blockHash : Bytes} {height : ℕ}
    {block : Block} {tables : Tables} {b : BlockIndex} {d : Tables × BlockIndex}
    (h : inside (connectBody H network blockHash height block) (tables, b) = .ok () d) :
    applyAll (block.transactions.map (txStep H network height)) (tables.utxo.get?, fun _ => none) =
        some (views blockHash d.1) ∧ d.2.getHeight blockHash = b.getHeight blockHash := by
  rw [connectBody, inside_bind (.execute _) fun _ => .bind (connectTxs_client ..) fun _ =>
    finishConnect_client .., inside_execute] at h
  simp only [deleteUndo, Statement.change] at h
  rw [inside_bind (connectTxs_client ..) fun _ => finishConnect_client ..] at h
  cases hs : inside (connectTxs H network blockHash height block.transactions)
      ({ tables with blockUndo := tables.blockUndo.deleteWhere fun key => key.1 = blockHash }, b) with
  | error e d' => simp [hs] at h
  | ok u d' =>
    rw [hs] at h
    obtain ⟨hb, happ⟩ := connectTxs_views H network blockHash height hs
    have hempty : views blockHash { tables with
        blockUndo := tables.blockUndo.deleteWhere fun key => key.1 = blockHash } =
        (tables.utxo.get?, fun _ => none) := by
      refine Prod.ext rfl ?_
      funext id
      simp [views, undoView]
    rw [hempty] at happ
    simp only [finishConnect_inside] at h
    obtain ⟨hutxo, hundo, -⟩ := markMain_utxo blockHash true d'
    have hheight := markMain_getHeight blockHash true d' blockHash
    rw [hb] at hheight
    cases htxs : block.transactions with
    | nil => simp [htxs] at h
    | cons first txs =>
      simp only [htxs, EStateM.Result.ok.injEq, true_and] at h
      rw [← htxs, happ, ← h]
      refine ⟨?_, hheight⟩
      exact congrArg some (views_congr hutxo.symm hundo.symm)

/-- What a body of `disconnect` does on tables whose undo rows restore the UTXO map. -/
lemma disconnectBody_views {H : Hashlib} (network : Network) (height : ℕ) {blockHash : Bytes}
    {block : Block} {tables : Tables} (b : BlockIndex) {store : Store Outpoint UtxoRow}
    (h : undoAll (undoView blockHash tables) (block.transactions.map (txStep H network height))
      tables.utxo.get? = some store) :
    ∃ d, inside (disconnectBody H blockHash block) (tables, b) = .ok () d ∧
      d.1.utxo.get? = store ∧
      d.1.blockUndo = tables.blockUndo.deleteWhere fun key => key.1 = blockHash := by
  obtain ⟨tables', hrun, hutxo, hrows⟩ := disconnectTxs_views (b := b) H network blockHash height h
  obtain ⟨hutxo', hundo', -⟩ := markMain_utxo blockHash false (tables', b)
  have hbody : inside (disconnectBody H blockHash block) (tables, b) =
      inside (finishDisconnect blockHash) (tables', b) := by
    rw [disconnectBody, inside_bind (disconnectTxs_client ..) fun _ => finishDisconnect_client ..,
      hrun]
  refine ⟨_, hbody.trans (finishDisconnect_inside blockHash (tables', b)), ?_, ?_⟩
  · simp only [hutxo', hutxo]
  · simp only [hundo', hrows]

/-- If no output of the block is in the UTXO set, `disconnect` after a successful `connect`
succeeds and restores the UTXO table row for row. -/
theorem disconnect_connect (H : Hashlib) (network : Network) (block : Block)
    (s s' : Session Tables BlockIndex)
    (hrange : ∀ tx ∈ block.transactions, tx.InRange)
    (hhash : Set.InjOn H.hash256 {data | ∃ tx ∈ block.transactions, data = tx.serialize false})
    (hfresh : ∀ tx ∈ block.transactions, ∀ i < tx.vout.length,
      s.conn.current.utxo.get? (tx.txid H, i) = none)
    (h : connect H network block s = .ok true s') :
    ∃ s'', disconnect H block s' = .ok true s'' ∧
      (∀ key, s''.conn.current.utxo.get? key = s.conn.current.utxo.get? key) ∧
      ∀ key, key.1 = block.header.hashHex H → s''.conn.current.blockUndo.get? key = none := by
  obtain ⟨height, hheight, hconn⟩ := connect_ok_true.1 h
  have hin := (transaction_ok_iff (connectBody_client ..)).2 ⟨s', hconn, rfl⟩
  obtain ⟨happ, hkeep⟩ := connectBody_views hin
  have hcons := @consistent_txSteps H network height _ hrange hhash
  have hback : undoAll (undoView (block.header.hashHex H) s'.conn.current)
      (block.transactions.map (txStep H network height)) s'.conn.current.utxo.get? =
      some s.conn.current.utxo.get? := by
    refine undoAll_applyAll hcons ?_ happ
    intro step hstep key hkey
    obtain ⟨tx, htx, rfl⟩ := List.mem_map.1 hstep
    obtain ⟨hid, -, hlt⟩ := mem_outsFrom.1 hkey
    have hk : key = (tx.txid H, key.2) := Prod.ext hid rfl
    rw [hk]
    exact hfresh tx htx key.2 (by omega)
  obtain ⟨d, hd, hutxo, hundo⟩ := disconnectBody_views network height s'.memory hback
  obtain ⟨s'', hs'', hdata⟩ := (transaction_ok_iff (disconnectBody_client ..)).1 hd
  have hcur : s''.conn.current = d.1 := congrArg Prod.fst hdata
  have hmem : s'.memory.getHeight (block.header.hashHex H) = some height := hkeep.trans hheight
  refine ⟨s'', disconnect_ok_true.2 ⟨by simp [hmem], hs''⟩, ?_, ?_⟩
  · intro key
    rw [hcur, hutxo]
  · intro key hkey
    rw [hcur, hundo]
    simp [hkey]

/-! A block with a coinbase, a transaction that spends an earlier output and has an
`OP_RETURN` output, and one that spends an output of the block itself. -/
namespace RoundTripExample
open BlockExample (coinbase blockOn genesisHash)

def first : Transaction :=
  { version := 1
    vin := [⟨List.replicate 32 0xaa, 0, [], 0xffffffff, []⟩]
    vout := [⟨7, [0x51]⟩, ⟨0, [0x6a]⟩]
    locktime := 0 }

def firstId : ℕ := 0x815327b9d154ebf630541fc5097168840f9bf5546796043719b67b51b71dc307

def second : Transaction :=
  { version := 1
    vin := [⟨beBytes 32 firstId, 0, [], 0xffffffff, []⟩]
    vout := [⟨7, [0x52]⟩]
    locktime := 0 }

def block : Block :=
  blockOn genesisHash 0x2f3421fc18f46c05dff7953a42af9c53bb720a2691af6f03826cdb2ff83207bf 1001 3
    [coinbase 1, first, second]

def hashlib : Hashlib := BlockExample.hashlib.withDigests [
  (first.serialize false,
    0xb9536d8a21e1350b23029dbf7331e2889fb170f3d6d40434c7206f433323d6be, firstId),
  (second.serialize false,
    0x8d2c21b1643c979ecbd58b2acffaaa1c989a813afcff4e6b1724ddaaf7dacc3d,
    0x045f0c971d99000c1c49a4ef0728f093f6698314f97bf5ba11054b9b58ccb2be),
  (block.header.serialize,
    0xfc42fbb90328e9223fb03dfc56c6f192ae8c469de0a7e20c1c49939a37e14473,
    0x7366401eb7861082c9d2d29aab4babe71869d67fe53e5609ffd023be6eaad141)]

def session : Session Tables BlockIndex where
  conn :=
    { file := { Tables.empty with
        utxo := KeyedRows.empty.insertOrReplace (List.replicate 32 0xaa, 0)
          ⟨⟨7, by decide⟩, [0x51], 3, false, none⟩ }
      open? := none }
  memory := { BlockIndex.empty with
    index := KeyedRows.empty.put (block.header.hashHex hashlib)
      ⟨4, block.header.hashHex hashlib, block.header, 10, {.HEADER, .BLOCK, .VALID}⟩ }

end RoundTripExample

open RoundTripExample in
theorem disconnect_connect_example :
    ∃ s' s'', connect hashlib .regtest block session = .ok true s' ∧
      disconnect hashlib block s' = .ok true s'' ∧
      ∀ key, s''.conn.current.utxo.get? key = session.conn.current.utxo.get? key := by
  have hrange : ∀ tx ∈ block.transactions, tx.InRange := by decide +kernel
  have hinj : ∀ tx ∈ block.transactions, ∀ tx' ∈ block.transactions,
      hashlib.hash256 (tx.serialize false) = hashlib.hash256 (tx'.serialize false) →
        tx.serialize false = tx'.serialize false := by decide +kernel
  have hfresh : ∀ tx ∈ block.transactions, ∀ i < tx.vout.length,
      session.conn.current.utxo.get? (tx.txid hashlib, i) = none := by decide +kernel
  have hrun : (connect hashlib .regtest block).returns true session = true := by decide +kernel
  have hs' := Db.eq_ok_of_returns hrun
  have hinjOn : Set.InjOn hashlib.hash256
      {data | ∃ tx ∈ block.transactions, data = tx.serialize false} := by
    rintro _ ⟨tx, htx, rfl⟩ _ ⟨tx', htx', rfl⟩ h
    exact hinj tx htx tx' htx' h
  obtain ⟨s'', hs'', hutxo, -⟩ :=
    disconnect_connect hashlib .regtest block session _ hrange hinjOn hfresh hs'
  exact ⟨_, s'', hs', hs'', hutxo⟩

end BerzCoin
