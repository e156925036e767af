import BerzCoin.CryptoAddressIndex
import BerzCoin.OperationRuns
import BerzCoin.ValidationConnect

/-! `TransactionIndex`: its tables, and the cache of `get_transaction`. Transaction ids are the bytes
whose hexadecimal text the source stores. -/
namespace BerzCoin
open Database

/-- A row of `tx_index`. -/
structure TxIndexRow where
  blockHash : Bytes
  height : ℕ
  blockTime : ℕ
  blockTxIndex : ℕ
  version : UInt32
  locktime : UInt32
  size : ℕ
  weight : ℕ
  deriving DecidableEq, Repr

structure TxInputRow where
  prevTxid : Bytes
  prevVout : UInt32
  scriptSig : Bytes
  sequence : UInt32
  deriving DecidableEq, Repr

structure TxOutputRow where
  value : SqlInt
  scriptPubkey : Bytes
  address : Option Text
  spent : Bool := false
  spentBy : Option Bytes := none
  deriving DecidableEq

/-- Rows of a transaction, each under its index. -/
abbrev IndexedRows (V : Type) := KeyedRows (Bytes × ℕ) V

structure TxTables where
  txIndex : KeyedRows Bytes TxIndexRow := .empty
  txInputs : IndexedRows TxInputRow := .empty
  txOutputs : IndexedRows TxOutputRow := .empty

/-- What `get_transaction` returns. -/
structure TxInfo where
  txid : Bytes
  row : TxIndexRow
  inputs : List ((Bytes × ℕ) × TxInputRow)
  outputs : List ((Bytes × ℕ) × TxOutputRow)

abbrev TxCache := KeyedRows Bytes TxInfo

abbrev TxIndexDb (α : Type) := Db TxTables TxCache α

/-- `WHERE txid = ? ORDER BY` the index. -/
def IndexedRows.ofTxid {V : Type} (rows : IndexedRows V) (txid : Bytes) : List ((Bytes × ℕ) × V) :=
  (rows.rows.filter fun r => r.1.1 = txid).mergeSort fun r r' => r.1.2 ≤ r'.1.2

namespace TransactionIndex
variable (H : Hashlib) (network : Network)

/-- `_update_cache`, with a `_cache_size` of 1000. -/
def updateCache (txid : Bytes) (txInfo : TxInfo) (cache : TxCache) : TxCache :=
  let cache := cache.put txid txInfo
  if 1000 < cache.rows.length then
    match cache.rows.head? with
    | some oldest => cache.delete oldest.1
    | none => cache
  else cache

def insertTxIndex (txid : Bytes) (row : TxIndexRow) : Statement TxTables Unit where
  isDml := true
  run tables := do
    let _ ← bindInt row.height
    let _ ← bindInt row.blockTime
    let _ ← bindInt row.blockTxIndex
    return ({ tables with txIndex := tables.txIndex.insertOrReplace txid row }, ())

def inputRow (txin : TxIn) : TxInputRow :=
  ⟨txin.prevTxHash, txin.prevTxIndex, txin.scriptSig, txin.sequence⟩

def insertInput (txid : Bytes) (i : ℕ) (txin : TxIn) : Statement TxTables Unit :=
  .change fun tables => { tables with
    txInputs := tables.txInputs.insertOrReplace (txid, i) (inputRow txin) }

def insertOutput (txid : Bytes) (i : ℕ) (txout : TxOut) (address : Option Text) :
    Statement TxTables Unit where
  isDml := true
  run tables := do
    let value ← bindInt txout.value.toNat
    return ({ tables with
      txOutputs := tables.txOutputs.insertOrReplace (txid, i)
        { value, scriptPubkey := txout.scriptPubkey, address } }, ())

def writeInputs (txid : Bytes) : ℕ → List TxIn → TxIndexDb Unit
  | _, [] => return ()
  | i, txin :: vin => do
      execute (insertInput txid i txin)
      writeInputs txid (i + 1) vin

def writeOutputs (txid : Bytes) : ℕ → List TxOut → TxIndexDb Unit
  | _, [] => return ()
  | i, txout :: vout => do
      let address ← liftExcept (extractAddress H network txout.scriptPubkey)
      execute (insertOutput txid i txout address)
      writeOutputs txid (i + 1) vout

def indexRow (tx : Transaction) (blockHash : Bytes) (height blockTime blockTxIndex : ℕ) : TxIndexRow :=
  { blockHash, height, blockTime, blockTxIndex, version := tx.version, locktime := tx.locktime
    size := tx.size, weight := tx.weight }

/-- The block of `with self.db.transaction()`. -/
def indexBody (tx : Transaction) (row : TxIndexRow) : TxIndexDb Unit := do
  execute (insertTxIndex (tx.txid H) row)
  writeInputs (tx.txid H) 0 tx.vin
  writeOutputs H network (tx.txid H) 0 tx.vout

def indexTransaction (tx : Transaction) (blockHash : Bytes) (height blockTime blockTxIndex : ℕ) :
    TxIndexDb Unit := do
  let row := indexRow tx blockHash height blockTime blockTxIndex
  transaction (indexBody H network tx row)
  onMemory fun cache => ((), updateCache (tx.txid H) ⟨tx.txid H, row, [], []⟩ cache)

def getTransaction (txid : Bytes) : TxIndexDb (Option TxInfo) := do
  match ← onMemory fun cache => (cache.get? txid, cache) with
  | some txInfo => return some txInfo
  | none =>
    match ← execute (.query fun tables => tables.txIndex.get? txid) with
    | none => return none
    | some row =>
      let inputs ← execute (.query fun tables => tables.txInputs.ofTxid txid)
      let outputs ← execute (.query fun tables => tables.txOutputs.ofTxid txid)
      let txInfo : TxInfo := ⟨txid, row, inputs, outputs⟩
      onMemory fun cache => ((), updateCache txid txInfo cache)
      return some txInfo

def markSpent (txid : Bytes) (vout : ℕ) (spentByTxid : Bytes) (tables : TxTables) : TxTables :=
  { tables with
    txOutputs := tables.txOutputs.update (txid, vout) fun row =>
      { row with spent := true, spentBy := some spentByTxid } }

def markOutputSpent (txid : Bytes) (vout : ℕ) (spentByTxid : Bytes) : TxIndexDb Unit :=
  execute (.change (markSpent txid vout spentByTxid))

/-! What the calls do to the rows of a transaction. -/

section rows
variable {V : Type} {rows rows' : IndexedRows V} {txid : Bytes}

lemma mem_ofTxid {r : (Bytes × ℕ) × V} :
    r ∈ rows.ofTxid txid ↔ r.1.1 = txid ∧ rows.get? r.1 = some r.2 := by
  rw [IndexedRows.ofTxid, List.mem_mergeSort, List.mem_filter, KeyedRows.mem_rows_iff]
  simp [and_comm]

lemma ofTxid_eq_iff : rows.ofTxid txid = rows'.ofTxid txid ↔
    ∀ i, rows.get? (txid, i) = rows'.get? (txid, i) := by
  constructor
  · intro h i
    refine Option.ext fun v => ?_
    have hrow := @mem_ofTxid V rows txid ((txid, i), v)
    have hrow' := @mem_ofTxid V rows' txid ((txid, i), v)
    rw [h] at hrow
    simpa using hrow.symm.trans hrow'
  · intro h
    have hperm : (rows.ofTxid txid).Perm (rows'.ofTxid txid) := by
      have hnodup (rows : IndexedRows V) : (rows.ofTxid txid).Nodup :=
        (List.mergeSort_perm _ _).nodup_iff.2 ((KeyedRows.nodup_rows rows).filter _)
      rw [List.perm_ext_iff_of_nodup (hnodup rows) (hnodup rows')]
      rintro ⟨⟨txid', i⟩, v⟩
      simp only [mem_ofTxid]
      refine and_congr_right ?_
      rintro rfl
      rw [h i]
    have hsorted (rows : IndexedRows V) :
        (rows.ofTxid txid).Pairwise fun r r' => decide (r.1.2 ≤ r'.1.2) = true := by
      refine List.pairwise_mergeSort ?_ ?_ _
      · intro a b c hab hbc
        simp only [decide_eq_true_eq] at hab hbc ⊢
        exact hab.trans hbc
      · intro a b
        simpa using Nat.le_total a.1.2 b.1.2
    -- rows of one transaction under one index are the same row
    refine List.Perm.eq_of_pairwise ?_ (hsorted rows) (hsorted rows') hperm
    rintro ⟨⟨txid', i⟩, v⟩ ⟨⟨txid'', j⟩, w⟩ hv hw hij hji
    obtain ⟨htxid', hget⟩ := mem_ofTxid.1 hv
    obtain ⟨htxid'', hget'⟩ := mem_ofTxid.1 hw
    simp only [decide_eq_true_eq] at htxid' htxid'' hget hget' hij hji
    subst htxid' htxid''
    obtain rfl := Nat.le_antisymm hij hji
    rw [h i, hget'] at hget
    rw [Option.some.inj hget]

lemma ofTxid_eq_nil_iff : rows.ofTxid txid = [] ↔ ∀ i, rows.get? (txid, i) = none := by
  have hnone : IndexedRows.ofTxid (.empty : IndexedRows V) txid = [] := by
    simp [IndexedRows.ofTxid, KeyedRows.empty]
  rw [← hnone, ofTxid_eq_iff]
  simp

/-- Rows under consecutive indices, from `i` on. -/
def insertAll (txid : Bytes) : ℕ → List V → IndexedRows V → IndexedRows V
  | _, [], rows => rows
  | i, v :: vs, rows => insertAll txid (i + 1) vs (rows.insertOrReplace (txid, i) v)

lemma get?_insertAll (i : ℕ) (vs : List V) (key : Bytes × ℕ) :
    (insertAll txid i vs rows).get? key =
      if key.1 = txid ∧ i ≤ key.2 then (vs[key.2 - i]?).or (rows.get? key) else rows.get? key := by
  induction vs generalizing i rows with
  | nil => simp [insertAll]
  | cons v vs ih =>
    rw [insertAll, ih, KeyedRows.get?_insertOrReplace]
    obtain ⟨txid', j⟩ := key
    simp only [Prod.mk.injEq]
    by_cases htxid : txid' = txid
    · rcases Nat.lt_trichotomy i j with hlt | rfl | hgt
      · have hindex : j - i = (j - (i + 1)) + 1 := by omega
        have hne : j ≠ i := by omega
        rw [if_pos ⟨htxid, hlt⟩, if_neg (fun h => hne h.2), if_pos ⟨htxid, hlt.le⟩, hindex,
          List.getElem?_cons_succ]
      · simp [htxid]
      · have hnot : ¬(i + 1 ≤ j) := by omega
        have hnot' : ¬(i ≤ j) := by omega
        have hne : j ≠ i := by omega
        simp [hnot, hnot', hne]
    · simp [htxid]

/-- Rows under new indices are there exactly when they were there before. -/
lemma ofTxid_insertAll_eq_iff (vs : List V) :
    (insertAll txid 0 vs rows).ofTxid txid = rows.ofTxid txid ↔
      ∀ i v, vs[i]? = some v → rows.get? (txid, i) = some v := by
  rw [ofTxid_eq_iff]
  refine forall_congr' fun i => ?_
  rw [get?_insertAll]
  simp only [Nat.zero_le, and_self, if_true, Nat.sub_zero]
  cases vs[i]? with
  | none => simp
  | some v => simp [eq_comm]

lemma ofTxid_insertAll_eq_nil_iff (vs : List V) :
    (insertAll txid 0 vs rows).ofTxid txid = [] ↔ vs = [] ∧ ∀ i, rows.get? (txid, i) = none := by
  rw [ofTxid_eq_nil_iff]
  simp only [get?_insertAll, Nat.zero_le, and_self, if_true, Nat.sub_zero, Option.or_eq_none_iff,
    forall_and]
  refine and_congr_left' ?_
  simp only [List.getElem?_eq_none_iff]
  constructor
  · intro h
    exact List.length_eq_zero_iff.1 (Nat.le_zero.1 (h 0))
  · rintro rfl i
    exact Nat.zero_le i

lemma ofTxid_insertAll_of_ne {other : Bytes} (hne : other ≠ txid) (vs : List V) :
    (insertAll txid 0 vs rows).ofTxid other = rows.ofTxid other := by
  rw [ofTxid_eq_iff]
  intro i
  rw [get?_insertAll, if_neg (fun h => hne h.1)]

end rows
/-! What is written, and what is answered. -/

/-- The rows of the outputs before the first one that cannot be stored, and what that one raises. -/
def stored : List TxOut → List TxOutputRow × Option PyError
  | [] => ([], none)
  | txout :: vout =>
    match extractAddress H network txout.scriptPubkey with
    | .error e => ([], some e)
    | .ok address =>
      match bindInt txout.value.toNat with
      | .error e => ([], some e)
      | .ok value =>
        let (rows, raised) := stored vout
        ({ value, scriptPubkey := txout.scriptPubkey, address } :: rows, raised)

/-- The height, the time and the index of a row fit their columns. -/
def Fits (row : TxIndexRow) : Prop :=
  row.height < 2 ^ 63 ∧ row.blockTime < 2 ^ 63 ∧ row.blockTxIndex < 2 ^ 63

instance (row : TxIndexRow) : Decidable (Fits row) := inferInstanceAs (Decidable (_ ∧ _))

/-- The tables with the rows of a transaction. -/
def written (tx : Transaction) (row : TxIndexRow) (tables : TxTables) : TxTables where
  txIndex := tables.txIndex.insertOrReplace (tx.txid H) row
  txInputs := insertAll (tx.txid H) 0 (tx.vin.map inputRow) tables.txInputs
  txOutputs := insertAll (tx.txid H) 0 (stored H network tx.vout).1 tables.txOutputs

/-- What the tables tell of a transaction. -/
def lookup (tables : TxTables) (txid : Bytes) : Option TxInfo :=
  (tables.txIndex.get? txid).map fun row =>
    ⟨txid, row, tables.txInputs.ofTxid txid, tables.txOutputs.ofTxid txid⟩

section effects
variable {H network} {d : TxTables × TxCache} {txid : Bytes}

lemma writeInputs_client (i : ℕ) (vin : List TxIn) : Client (writeInputs txid i vin) := by
  induction vin generalizing i with
  | nil => exact .ret _
  | cons txin vin ih => exact .bind (.execute _) fun _ => ih _

lemma writeOutputs_client (i : ℕ) (vout : List TxOut) :
    Client (writeOutputs H network txid i vout) := by
  induction vout generalizing i with
  | nil => exact .ret _
  | cons txout vout ih =>
    exact .bind (liftExcept_client _) fun _ => .bind (.execute _) fun _ => ih _

lemma indexBody_client (tx : Transaction) (row : TxIndexRow) : Client (indexBody H network tx row) :=
  .bind (.execute _) fun _ => .bind (writeInputs_client _ _) fun _ => writeOutputs_client _ _

lemma inside_writeInputs (i : ℕ) (vin : List TxIn) :
    inside (writeInputs txid i vin) d =
      .ok () ({ d.1 with txInputs := insertAll txid i (vin.map inputRow) d.1.txInputs }, d.2) := by
  induction vin generalizing i d with
  | nil => rfl
  | cons txin vin ih =>
    rw [writeInputs, inside_bind (.execute _) fun _ => writeInputs_client _ _, inside_execute]
    exact ih _

/-- The outputs are stored up to the first one that raises. -/
lemma inside_writeOutputs (i : ℕ) (vout : List TxOut) :
    inside (writeOutputs H network txid i vout) d =
      match (stored H network vout).2 with
      | none => .ok () ({ d.1 with
          txOutputs := insertAll txid i (stored H network vout).1 d.1.txOutputs }, d.2)
      | some e => .error e ({ d.1 with
          txOutputs := insertAll txid i (stored H network vout).1 d.1.txOutputs }, d.2) := by
  induction vout generalizing i d with
  | nil => rfl
  | cons txout vout ih =>
    rw [writeOutputs, inside_bind (liftExcept_client _) fun _ =>
      .bind (.execute _) fun _ => writeOutputs_client _ _, stored]
    cases haddress : extractAddress H network txout.scriptPubkey with
    | error e => rfl
    | ok address =>
      have hlift : inside (liftExcept (.ok address) : TxIndexDb (Option Text)) d = .ok address d := rfl
      simp only [hlift]
      rw [inside_bind (.execute _) fun _ => writeOutputs_client _ _, inside_execute]
      simp only [insertOutput]
      cases hvalue : bindInt txout.value.toNat with
      | error e => rfl
      | ok value => exact ih _

lemma run_insertTxIndex (row : TxIndexRow) (tables : TxTables) :
    (insertTxIndex txid row).run tables =
      if Fits row then .ok ({ tables with txIndex := tables.txIndex.insertOrReplace txid row }, ())
      else .error (.overflowError "Python int too large to convert to SQLite INTEGER") := by
  by_cases hheight : row.height < 2 ^ 63
  · by_cases htime : row.blockTime < 2 ^ 63
    · by_cases hindex : row.blockTxIndex < 2 ^ 63
      · simp only [insertTxIndex, bindInt, Fits, hheight, htime, hindex, dite_true, and_self, if_true]
        rfl
      · simp only [insertTxIndex, bindInt, Fits, hheight, htime, hindex, dite_true, dite_false,
          and_false, if_false]
        rfl
    · simp only [insertTxIndex, bindInt, Fits, hheight, htime, dite_true, dite_false, false_and,
        and_false, if_false]
      rfl
  · simp only [insertTxIndex, bindInt, Fits, hheight, dite_false, false_and, if_false]
    rfl

/-- Nothing is written unless the first row fits its columns. -/
lemma inside_indexBody (tx : Transaction) (row : TxIndexRow) :
    inside (indexBody H network tx row) d =
      if Fits row then
        match (stored H network tx.vout).2 with
        | none => .ok () (written H network tx row d.1, d.2)
        | some e => .error e (written H network tx row d.1, d.2)
      else .error (.overflowError "Python int too large to convert to SQLite INTEGER") d := by
  rw [indexBody, inside_bind (.execute _) fun _ => .bind (writeInputs_client _ _) fun _ =>
    writeOutputs_client _ _, inside_execute, run_insertTxIndex]
  split_ifs with hfits
  · simp only
    rw [inside_bind (writeInputs_client _ _) fun _ => writeOutputs_client _ _, inside_writeInputs]
    exact inside_writeOutputs 0 tx.vout
  · rfl

/-- A block that raises leaves the data as they were, unless it found a transaction open. -/
lemma data_transaction_error {body : TxIndexDb Unit} (hbody : Client body) {e : PyError}
    {s : Session TxTables TxCache} (h : inside body s.data = .error e d) (hmemory : d.2 = s.memory) :
    ∃ e' s', transaction body s = .error e' s' ∧
      s'.data = if s.conn.inTransaction then d else s.data := by
  cases hrun : transaction body s with
  | ok a s' =>
    have hok := (transaction_ok_iff hbody).2 ⟨s', hrun, rfl⟩
    rw [h] at hok
    cases hok
  | error e' s' =>
    obtain ⟨e'', d', hinside, hmemory', hcurrent⟩ := transaction_error hbody hrun
    rw [h] at hinside
    cases hinside
    refine ⟨e', s', rfl, ?_⟩
    rw [Session.data, hcurrent, hmemory', hmemory]
    split_ifs
    · rw [← hmemory]
    · rfl

/-- What a call of `index_transaction` leaves behind: the rows and a cached answer without them, or
nothing, or the rows up to an exception if a transaction was open. -/
lemma data_indexTransaction (tx : Transaction) (blockHash : Bytes)
    (height blockTime blockTxIndex : ℕ) (s : Session TxTables TxCache) :
    ((indexTransaction H network tx blockHash height blockTime blockTxIndex).final s).data =
      let row := indexRow tx blockHash height blockTime blockTxIndex
      if Fits row ∧ (stored H network tx.vout).2 = none then
        (written H network tx row s.conn.current,
          updateCache (tx.txid H) ⟨tx.txid H, row, [], []⟩ s.memory)
      else if Fits row ∧ s.conn.inTransaction = true then
        (written H network tx row s.conn.current, s.memory)
      else s.data := by
  generalize hrow : indexRow tx blockHash height blockTime blockTxIndex = row
  have hbody := @inside_indexBody H network s.data tx row
  have hclient := @indexBody_client H network tx row
  rw [indexTransaction, Db.final_bind, hrow]
  simp only
  split_ifs at hbody with hfits
  · cases hstored : (stored H network tx.vout).2 with
    | none =>
      simp only [hstored] at hbody
      obtain ⟨s', hrun, hdata⟩ := (transaction_ok_iff hclient).1 hbody
      have hcurrent : s'.conn.current = written H network tx row s.conn.current :=
        congrArg Prod.fst hdata
      have hmemory : s'.memory = s.memory := congrArg Prod.snd hdata
      rw [hrun, if_pos ⟨hfits, rfl⟩]
      simp only [Db.final, onMemory, Session.data, hcurrent, hmemory]
    | some e =>
      simp only [hstored] at hbody
      obtain ⟨e', s', hrun, hdata⟩ := data_transaction_error hclient hbody rfl
      rw [hrun]
      simp only [hdata, hfits, true_and, reduceCtorEq, if_false]
      rfl
  · obtain ⟨e', s', hrun, hdata⟩ := data_transaction_error hclient hbody rfl
    rw [hrun, hdata]
    simp [hfits]

lemma data_markOutputSpent (vout : ℕ) (spentByTxid : Bytes) (s : Session TxTables TxCache) :
    ((markOutputSpent txid vout spentByTxid).final s).data =
      (markSpent txid vout spentByTxid s.conn.current, s.memory) := by
  obtain ⟨s', hrun, hcurrent, -, hmemory⟩ :=
    @change_opens TxTables TxCache s (markSpent txid vout spentByTxid)
  rw [markOutputSpent, Db.final, hrun, Session.data, hcurrent, hmemory]

/-- A query answers from the cache, or else from the tables, and then caches the answer. -/
lemma getTransaction_apply (txid : Bytes) (s : Session TxTables TxCache) :
    getTransaction txid s = .ok ((s.memory.get? txid).or (lookup s.conn.current txid))
      (put s s.conn.current <|
        if s.memory.get? txid = none then
          match lookup s.conn.current txid with
          | none => s.memory
          | some txInfo => updateCache txid txInfo s.memory
        else s.memory) := by
  rw [getTransaction, Db.bind_apply, onMemory_apply]
  cases hcached : s.memory.get? txid with
  | some txInfo => simp [Db.pure_apply]
  | none =>
    simp only
    rw [Db.bind_apply, query_apply]
    cases hrow : s.conn.current.txIndex.get? txid with
    | none => simp [hrow, lookup, Db.pure_apply]
    | some row =>
      simp [-bind_pure_comp, hrow, lookup, Db.bind_apply, query_apply, onMemory_apply, Db.pure_apply]

end effects

/-! The cache beside the tables. -/

section cache
variable {H network} {txid other : Bytes} {txInfo : TxInfo} {cache : TxCache}

/-- The last answer is cached, at the cost of the oldest one. -/
lemma updateCache_spec (hsize : cache.rows.length ≤ 1000) (txid : Bytes) (txInfo : TxInfo) :
    (updateCache txid txInfo cache).get? txid = some txInfo ∧
      (∀ other, other ≠ txid → (updateCache txid txInfo cache).get? other ≠ none →
        (updateCache txid txInfo cache).get? other = cache.get? other) ∧
      (updateCache txid txInfo cache).rows.length ≤ 1000 := by
  simp only [updateCache]
  split_ifs with hfull
  · have hnew : cache.get? txid = none := by
      by_contra hcached
      rw [KeyedRows.length_put, if_neg hcached] at hfull
      omega
    have hrows := KeyedRows.rows_put_new txInfo hnew
    rw [KeyedRows.length_put, if_pos hnew] at hfull
    have hnonempty : cache.rows ≠ [] := by
      rw [← List.length_pos_iff]
      omega
    obtain ⟨oldest, holdest⟩ := Option.ne_none_iff_exists'.1 (mt List.head?_eq_none_iff.1 hnonempty)
    have hhead : (cache.put txid txInfo).rows.head? = some oldest := by
      rw [hrows, List.head?_append, holdest]
      rfl
    have hold := KeyedRows.get?_of_head? holdest
    have hne : txid ≠ oldest.1 := by
      rintro rfl
      rw [hold] at hnew
      cases hnew
    rw [hhead]
    simp only [KeyedRows.get?_delete, KeyedRows.get?_put]
    refine ⟨by simp [hne], ?_, ?_⟩
    · intro other hother hkept
      split_ifs at hkept ⊢
      · exact (hkept rfl).elim
      · rfl
    · have hlength := KeyedRows.length_delete (KeyedRows.get?_of_head? hhead)
      rw [KeyedRows.length_put, if_pos hnew] at hlength
      omega
  · refine ⟨by simp, ?_, not_lt.1 hfull⟩
    intro other hother _
    simp [hother]

/-- Each query is answered as with an empty cache. -/
def Transparent (s : Session TxTables TxCache) : Prop :=
  ∀ txid, ∃ answer s' s'', getTransaction txid s = .ok answer s' ∧
    getTransaction txid { s with memory := .empty } = .ok answer s''

/-- What is cached is what the tables tell. -/
def Coherent (d : TxTables × TxCache) : Prop :=
  ∀ txid txInfo, d.2.get? txid = some txInfo → lookup d.1 txid = some txInfo

lemma transparent_iff {s : Session TxTables TxCache} : Transparent s ↔ Coherent s.data := by
  refine forall_congr' fun txid => ?_
  simp only [getTransaction_apply, EStateM.Result.ok.injEq, KeyedRows.get?_empty, Option.none_or,
    Session.data]
  constructor
  · rintro ⟨answer, _, _, ⟨hanswer, -⟩, hfresh, -⟩ txInfo hcached
    rw [hcached] at hanswer
    rw [hfresh, ← hanswer]
    rfl
  · intro h
    refine ⟨_, _, _, ⟨rfl, rfl⟩, ?_, rfl⟩
    cases hcached : s.memory.get? txid with
    | none => rfl
    | some txInfo => exact h txInfo hcached

/-- A change of the rows of one transaction matters to its own cached answer only. -/
lemma Coherent.change_iff {tables tables' : TxTables} (h : Coherent (tables, cache))
    (hother : ∀ other, other ≠ txid → lookup tables' other = lookup tables other) :
    Coherent (tables', cache) ↔
      ∀ txInfo, cache.get? txid = some txInfo → lookup tables' txid = some txInfo := by
  refine ⟨fun h' => h' txid, fun h' other txInfo hcached => ?_⟩
  by_cases hsame : other = txid
  · subst hsame
    exact h' txInfo hcached
  · rw [hother other hsame]
    exact h other txInfo hcached

/-- With the answer for a transaction the cache stays coherent if the tables give that answer. -/
lemma Coherent.updateCache_iff (hsize : cache.rows.length ≤ 1000) {tables tables' : TxTables}
    (h : Coherent (tables, cache))
    (hother : ∀ other, other ≠ txid → lookup tables' other = lookup tables other) :
    Coherent (tables', updateCache txid txInfo cache) ↔ lookup tables' txid = some txInfo := by
  obtain ⟨hget, hkept, -⟩ := updateCache_spec hsize txid txInfo
  refine ⟨fun h' => h' txid txInfo hget, fun h' other otherInfo hcached => ?_⟩
  by_cases hsame : other = txid
  · subst hsame
    rw [hget] at hcached
    rw [h', Option.some.inj hcached]
  · rw [hkept other hsame (by simp [hcached])] at hcached
    rw [hother other hsame]
    exact h other otherInfo hcached

/-! The rows that the calls change. -/

variable {tables : TxTables} {tx : Transaction} {row : TxIndexRow}

lemma lookup_written_of_ne (hne : other ≠ tx.txid H) :
    lookup (written H network tx row tables) other = lookup tables other := by
  simp only [lookup, written, KeyedRows.get?_insertOrReplace, hne, if_false,
    ofTxid_insertAll_of_ne hne]

lemma lookup_written : lookup (written H network tx row tables) (tx.txid H) =
    some ⟨tx.txid H, row,
      (insertAll (tx.txid H) 0 (tx.vin.map inputRow) tables.txInputs).ofTxid (tx.txid H),
      (insertAll (tx.txid H) 0 (stored H network tx.vout).1 tables.txOutputs).ofTxid
        (tx.txid H)⟩ := by
  simp [lookup, written]

/-- All that a call writes before an exception is in the tables already. -/
structure Present (H : Hashlib) (network : Network) (tx : Transaction) (row : TxIndexRow)
    (tables : TxTables) : Prop where
  row : tables.txIndex.get? (tx.txid H) = some row
  inputs : ∀ i txin, tx.vin[i]? = some txin →
    tables.txInputs.get? (tx.txid H, i) = some (inputRow txin)
  outputs : ∀ i output, (stored H network tx.vout).1[i]? = some output →
    tables.txOutputs.get? (tx.txid H, i) = some output

lemma lookup_written_eq_iff (h : lookup tables (tx.txid H) = some txInfo) :
    lookup (written H network tx row tables) (tx.txid H) = some txInfo ↔
      Present H network tx row tables := by
  obtain ⟨old, hold, rfl⟩ := Option.map_eq_some_iff.1 h
  rw [lookup_written, Option.some.injEq, TxInfo.mk.injEq, ofTxid_insertAll_eq_iff,
    ofTxid_insertAll_eq_iff]
  constructor
  · rintro ⟨-, rfl, hinputs, houtputs⟩
    refine ⟨hold, fun i txin htxin => hinputs i _ ?_, houtputs⟩
    rw [List.getElem?_map, htxin]
    rfl
  · rintro ⟨hrow, hinputs, houtputs⟩
    rw [hold] at hrow
    refine ⟨rfl, (Option.some.inj hrow).symm, fun i input hinput => ?_, houtputs⟩
    rw [List.getElem?_map] at hinput
    obtain ⟨txin, htxin, rfl⟩ := Option.map_eq_some_iff.1 hinput
    exact hinputs i txin htxin

/-- No inputs and no outputs of a transaction, new ones or old ones. -/
def Bare (txid : Bytes) (tx : Transaction) (tables : TxTables) : Prop :=
  tx.vin = [] ∧ tx.vout = [] ∧
    ∀ i, tables.txInputs.get? (txid, i) = none ∧ tables.txOutputs.get? (txid, i) = none

lemma length_stored {vout : List TxOut} (h : (stored H network vout).2 = none) :
    (stored H network vout).1.length = vout.length := by
  induction vout with
  | nil => rfl
  | cons txout vout ih =>
    rw [stored] at h ⊢
    cases haddress : extractAddress H network txout.scriptPubkey with
    | error e => simp [haddress] at h
    | ok address =>
      cases hvalue : bindInt txout.value.toNat with
      | error e => simp [haddress, hvalue] at h
      | ok value =>
        simp only [haddress, hvalue] at h ⊢
        rw [List.length_cons, List.length_cons, ih h]

lemma lookup_written_eq_bare_iff (h : (stored H network tx.vout).2 = none) :
    lookup (written H network tx row tables) (tx.txid H) = some ⟨tx.txid H, row, [], []⟩ ↔
      Bare (tx.txid H) tx tables := by
  have hvout : (stored H network tx.vout).1 = [] ↔ tx.vout = [] := by
    rw [← List.length_eq_zero_iff, length_stored h, List.length_eq_zero_iff]
  rw [lookup_written, Option.some.injEq, TxInfo.mk.injEq, ofTxid_insertAll_eq_nil_iff,
    ofTxid_insertAll_eq_nil_iff, List.map_eq_nil_iff, hvout, Bare, forall_and]
  simp only [true_and]
  tauto

/-- The output is there as spent by the transaction, or it is not there. -/
def AlreadySpent (txid : Bytes) (vout : ℕ) (spentByTxid : Bytes) (tables : TxTables) : Prop :=
  ∀ output, tables.txOutputs.get? (txid, vout) = some output →
    output.spent = true ∧ output.spentBy = some spentByTxid

lemma lookup_markSpent_of_ne (hne : other ≠ txid) (vout : ℕ) (spentByTxid : Bytes) :
    lookup (markSpent txid vout spentByTxid tables) other = lookup tables other := by
  have houtputs : (markSpent txid vout spentByTxid tables).txOutputs.ofTxid other =
      tables.txOutputs.ofTxid other := by
    rw [ofTxid_eq_iff]
    intro i
    simp [markSpent, hne]
  simp only [lookup, houtputs]
  rfl

lemma lookup_markSpent_eq_iff (h : lookup tables txid = some txInfo) (vout : ℕ)
    (spentByTxid : Bytes) :
    lookup (markSpent txid vout spentByTxid tables) txid = some txInfo ↔
      AlreadySpent txid vout spentByTxid tables := by
  obtain ⟨row, hrow, rfl⟩ := Option.map_eq_some_iff.1 h
  have hlookup : lookup (markSpent txid vout spentByTxid tables) txid = some ⟨txid, row,
      tables.txInputs.ofTxid txid, (markSpent txid vout spentByTxid tables).txOutputs.ofTxid txid⟩ := by
    simp [lookup, markSpent, hrow]
  have houtputs := @ofTxid_eq_iff TxOutputRow (markSpent txid vout spentByTxid tables).txOutputs
    tables.txOutputs txid
  rw [hlookup, Option.some.injEq, TxInfo.mk.injEq, houtputs]
  simp only [markSpent, KeyedRows.get?_update, Prod.mk.injEq, true_and]
  constructor
  · intro hsame output houtput
    have hupdated := hsame vout
    rw [if_pos rfl, houtput, Option.map_some, Option.some.injEq] at hupdated
    rw [← hupdated]
    exact ⟨rfl, rfl⟩
  · intro hspent i
    split_ifs with hi
    · subst hi
      cases houtput : tables.txOutputs.get? (txid, i) with
      | none => rfl
      | some output =>
        obtain ⟨hflag, hby⟩ := hspent output houtput
        rw [Option.map_some, ← hflag, ← hby]
    · rfl

end cache

inductive Op where
  | indexTransaction (tx : Transaction) (blockHash : Bytes) (height blockTime blockTxIndex : ℕ)
  | markOutputSpent (txid : Bytes) (vout : ℕ) (spentByTxid : Bytes)
  | getTransaction (txid : Bytes)

namespace Op

def step (op : Op) (s : Session TxTables TxCache) : Session TxTables TxCache :=
  match op with
  | indexTransaction tx blockHash height blockTime blockTxIndex =>
    (TransactionIndex.indexTransaction H network tx blockHash height blockTime blockTxIndex).final s
  | markOutputSpent txid vout spentByTxid =>
    (TransactionIndex.markOutputSpent txid vout spentByTxid).final s
  | getTransaction txid => (TransactionIndex.getTransaction txid).final s

/-- The call leaves alone what is cached: an indexed transaction has no inputs and no outputs, and a
marked output is not that of a cached transaction, or it is marked already. A call that raises is safe
unless it leaves rows of a cached transaction in an open database transaction. -/
def safe (s : Session TxTables TxCache) : Op → Prop
  | indexTransaction tx blockHash height blockTime blockTxIndex =>
    let row := indexRow tx blockHash height blockTime blockTxIndex
    if Fits row ∧ (stored H network tx.vout).2 = none then Bare (tx.txid H) tx s.conn.current
    else Fits row ∧ s.conn.inTransaction = true →
      s.memory.get? (tx.txid H) = none ∨ Present H network tx row s.conn.current
  | markOutputSpent txid vout spentByTxid =>
    s.memory.get? txid = none ∨ AlreadySpent txid vout spentByTxid s.conn.current
  | getTransaction _ => True

/-- What the calls keep. -/
structure Kept (d : TxTables × TxCache) : Prop where
  coherent : Coherent d
  size : d.2.rows.length ≤ 1000

variable {H network}

/-- A change of rows under a cached answer. -/
lemma cached_iff {tables tables' : TxTables} {cache : TxCache} (hc : Coherent (tables, cache))
    {txid : Bytes} {same : Prop}
    (hsame : ∀ txInfo, lookup tables txid = some txInfo →
      (lookup tables' txid = some txInfo ↔ same)) :
    (∀ txInfo, cache.get? txid = some txInfo → lookup tables' txid = some txInfo) ↔
      cache.get? txid = none ∨ same := by
  cases hcached : cache.get? txid with
  | none => simp
  | some txInfo =>
    simp only [reduceCtorEq, false_or, Option.some.injEq, forall_eq']
    exact hsame txInfo (hc txid txInfo hcached)

lemma step_kept {s : Session TxTables TxCache} (h : Kept s.data) (op : Op) :
    (Coherent (op.step H network s).data ↔ op.safe H network s) ∧
      (Coherent (op.step H network s).data → Kept (op.step H network s).data) := by
  have hcoherent : Coherent (s.conn.current, s.memory) := h.coherent
  have hsize : s.memory.rows.length ≤ 1000 := h.size
  cases op with
  | indexTransaction tx blockHash height blockTime blockTxIndex =>
    simp only [step, safe, data_indexTransaction]
    generalize indexRow tx blockHash height blockTime blockTxIndex = row
    have hother (other : Bytes) (hne : other ≠ tx.txid H) :
        lookup (written H network tx row s.conn.current) other = lookup s.conn.current other :=
      lookup_written_of_ne hne
    split_ifs with hstored hopen
    · refine ⟨?_, fun hafter => ⟨hafter, (updateCache_spec hsize _ _).2.2⟩⟩
      rw [hcoherent.updateCache_iff hsize hother, lookup_written_eq_bare_iff hstored.2]
    · refine ⟨?_, fun hafter => ⟨hafter, hsize⟩⟩
      rw [hcoherent.change_iff hother, cached_iff hcoherent fun _ h => lookup_written_eq_iff h]
      exact ⟨fun h _ => h, fun h => h hopen⟩
    · exact ⟨iff_of_true h.coherent fun h => (hopen h).elim, fun _ => h⟩
  | markOutputSpent txid vout spentByTxid =>
    simp only [step, safe, data_markOutputSpent]
    refine ⟨?_, fun hafter => ⟨hafter, hsize⟩⟩
    rw [hcoherent.change_iff fun other hne => lookup_markSpent_of_ne hne vout spentByTxid,
      cached_iff hcoherent fun _ h => lookup_markSpent_eq_iff h vout spentByTxid]
  | getTransaction txid =>
    have hkept : Kept ((getTransaction txid).step H network s).data := by
      simp only [step, Db.final, getTransaction_apply, put_data]
      split_ifs with hcached
      · cases hlookup : lookup s.conn.current txid with
        | none => exact h
        | some txInfo =>
          exact ⟨(hcoherent.updateCache_iff hsize fun _ _ => rfl).2 hlookup,
            (updateCache_spec hsize _ _).2.2⟩
      · exact h
    exact ⟨iff_of_true hkept.coherent trivial, fun _ => hkept⟩

lemma kept_empty (conn : SqlConnection TxTables) : Kept (Session.data ⟨conn, .empty⟩) where
  coherent _ _ hcached := by cases hcached
  size := Nat.zero_le _

/-- Every query of a run is answered as with an empty cache exactly when no call changes the rows of a
cached transaction, which each indexed transaction with inputs or outputs does. -/
theorem transparent_along_iff (H : Hashlib) (network : Network) (conn : SqlConnection TxTables)
    (ops : List Op) :
    OperationRuns.Along (step H network) Transparent ops ⟨conn, .empty⟩ ↔
      OperationRuns.AllSafe (step H network) (safe H network) ops ⟨conn, .empty⟩ := by
  refine OperationRuns.along_iff_allSafe_of_step (I := fun s => Kept s.data) (fun _ h => ?_) ?_
    (kept_empty conn)
  · exact transparent_iff.2 h.coherent
  · intro s op h
    rw [transparent_iff]
    exact step_kept h op

/-- A transaction with one output is cached without it as soon as it is indexed. -/
theorem transparent_along_indexed :
    ¬OperationRuns.Along (step (Hashlib.ofDigests []) .regtest) Transparent
      [.indexTransaction ⟨1, [], [⟨50, []⟩], 0⟩ [] 1 1700000000 0] ⟨⟨{}, none⟩, .empty⟩ := by
  rintro ⟨-, hindexed⟩
  have hsafe := (step_kept (kept_empty _) _).1.1 (transparent_iff.1 hindexed)
  simp only [safe] at hsafe
  rw [if_pos ⟨by decide, rfl⟩] at hsafe
  cases hsafe.2.1

end Op
end TransactionIndex
end BerzCoin
