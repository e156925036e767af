import BerzCoin.StorageBlocks
import BerzCoin.ValidationOps
import BerzCoin.ValidationRoundTrip

/-! What a failed `connect` leaves behind when it runs right after the block was stored. The
header row was written outside of any block, so `connect` finds a transaction open and its
own block rolls nothing back. -/
namespace BerzCoin
open Database

lemma addBlock_apply (H : Hashlib) (block : Block) (height chainwork : ℕ)
    (s : Session Tables BlockIndex) :
    BlockIndex.addBlock H block height chainwork false s = .ok () (Database.put s s.conn.current
      (s.memory.withBlock (block.header.hashHex H) block.header height chainwork)) := by
  have hread {α : Type} (f : BlockIndex → α) (t : Session Tables BlockIndex) :
      BlockIndex.read f t = .ok (f t.memory) t := read_apply f t
  have hmodify (f : BlockIndex → BlockIndex) (t : Session Tables BlockIndex) :
      BlockIndex.modify f t = .ok () (Database.put t t.conn.current (f t.memory)) := onMemory_apply ..
  simp only [BlockIndex.addBlock, Db.bind_apply, hread, hmodify, Bool.false_and, put_memory,
    BlockIndex.withBlock]
  cases hbest : s.memory.bestHash with
  | none => simp [Db.bind_apply, hread, Db.pure_apply]
  | some best =>
    by_cases heq : block.header.hashHex H = best
    · simp [Db.bind_apply, hread, heq, Db.pure_apply]
    · have hne : ¬ best = block.header.hashHex H := fun h => heq h.symm
      simp [Db.bind_apply, hread, hmodify, heq, hne]

lemma BlockIndex.withBlock_getHeight (b : BlockIndex) (blockHash : Bytes) (header : BlockHeader)
    (height chainwork : ℕ) :
    (b.withBlock blockHash header height chainwork).getHeight blockHash = some height := by
  have hentry : (b.newEntry blockHash header height chainwork).height = height := by
    unfold BlockIndex.newEntry
    cases b.getBlock header.prevBlockHash with
    | none =>
      simp only
      split_ifs <;> rfl
    | some parent =>
      simp only
      split_ifs <;> rfl
  unfold BlockIndex.withBlock
  simp only
  split_ifs
  · simp [BlockIndex.getHeight, BlockIndex.getBlock, hentry]
  · simp [BlockIndex.getHeight, BlockIndex.getBlock, BlockIndexEntry.setStatus, hentry]

/-- Rows are made from blocks that were written before, so each belongs to a known
transaction. -/
structure Tables.Stored (tables : Tables) : Prop where
  utxo : ∀ key, tables.transactions.get? key.1 = none → tables.utxo.get? key = none
  blockUndo : ∀ key, tables.transactions.get? key.2.1 = none → tables.blockUndo.get? key = none

/-- The state in which `on_block` calls `connect`. -/
structure JustStored (H : Hashlib) (block : Block) (height : ℕ) (s : Session Tables BlockIndex) :
    Prop where
  isOpen : s.conn.inTransaction = true
  height : s.memory.getHeight (block.header.hashHex H) = some height
  utxo : ∀ tx ∈ block.transactions, ∀ i, s.conn.current.utxo.get? (tx.txid H, i) = none
  blockUndo : ∀ tx ∈ block.transactions, ∀ key, key.2.1 = tx.txid H →
    s.conn.current.blockUndo.get? key = none
  values : ∀ tx ∈ block.transactions, ∀ txout ∈ tx.vout, txout.value.toNat < 2 ^ 63

lemma storeBlock_justStored {H : Hashlib} {block : Block} {height chainwork processedAt : ℕ}
    {s s' : Session Tables BlockIndex} (hstored : s.conn.current.Stored)
    (h : storeBlock H block height chainwork processedAt s = .ok () s') :
    JustStored H block height s' := by
  simp only [storeBlock, Db.bind_apply] at h
  cases hwrite : BlocksStore.writeBlock H block height processedAt s with
  | error e s1 => simp [hwrite] at h
  | ok u s1 =>
    have hin := (transaction_ok_iff (BlocksStore.writeBody_client ..)).2 ⟨s1, hwrite, rfl⟩
    obtain ⟨hinserts, hfresh⟩ := BlocksStore.writeBody_ok hin
    have hutxo : s1.conn.current.utxo = s.conn.current.utxo := hinserts.utxo
    have hundo : s1.conn.current.blockUndo = s.conn.current.blockUndo := hinserts.blockUndo
    simp only [hwrite, addBlock_apply, HeaderChain.addHeader, BlocksStore.insertHeader] at h
    obtain ⟨t, ht, hcur, hopen, hmem⟩ := change_opens (Database.put s1 s1.conn.current
      (s1.memory.withBlock (block.header.hashHex H) block.header height chainwork))
      fun tables => { tables with
        blockHeaders := tables.blockHeaders.insertOrReplace (block.header.hashHex H)
          ⟨height, block.header, some chainwork, true, {.HEADER, .VALID}⟩ }
    rw [ht] at h
    cases h
    rw [put_current] at hcur
    refine ⟨hopen, ?_, ?_, ?_, fun tx htx => (hfresh tx htx).2⟩
    · rw [hmem, put_memory]
      exact BlockIndex.withBlock_getHeight ..
    · intro tx htx i
      rw [hcur]
      simp only [hutxo]
      exact hstored.utxo _ (hfresh tx htx).1
    · intro tx htx key hkey
      rw [hcur]
      simp only [hundo]
      exact hstored.blockUndo key (hkey ▸ (hfresh tx htx).1)

section failure
variable {H : Hashlib} {network : Network} {blockHash : Bytes} {height : ℕ}

/-- Some undo row of the block. -/
def HasUndo (blockHash : Bytes) (tables : Tables) : Prop :=
  ∃ key, key.1 = blockHash ∧ tables.blockUndo.get? key ≠ none

lemma HasUndo.apply {op : UtxoOp} {tables tables' : Tables} (h : HasUndo blockHash tables)
    (happ : op.apply H network blockHash height tables = some tables') :
    HasUndo blockHash tables' := by
  obtain ⟨key, hkey, hrow⟩ := h
  refine ⟨key, hkey, ?_⟩
  cases op with
  | spend txid inIdx txin =>
    obtain ⟨row, -, rfl⟩ := Option.map_eq_some_iff.1 happ
    simp only [Tables.spend, KeyedRows.get?_insertOrReplace]
    split_ifs
    · simp
    · exact hrow
  | add txid isCoinbase i txout =>
    simp only [UtxoOp.apply] at happ
    split_ifs at happ
    · cases happ
      exact hrow
    · cases hrow' : outputRow H network height isCoinbase txout with
      | error e => simp [hrow'] at happ
      | ok row =>
        simp only [hrow', Option.some.injEq] at happ
        subst happ
        exact hrow

/-- An output that was added is there, or it was spent again and has an undo row. -/
def Added (blockHash : Bytes) (key : Outpoint) (tables : Tables) : Prop :=
  tables.utxo.get? key ≠ none ∨ HasUndo blockHash tables

lemma spend_hasUndo {txid : Bytes} {inIdx : ℕ} {txin : TxIn} {tables tables' : Tables}
    (happ : (UtxoOp.spend txid inIdx txin).apply H network blockHash height tables = some tables') :
    HasUndo blockHash tables' := by
  obtain ⟨row, -, rfl⟩ := Option.map_eq_some_iff.1 happ
  exact ⟨(blockHash, txid, inIdx), rfl, by simp [Tables.spend]⟩

lemma Added.apply {op : UtxoOp} {key : Outpoint} {tables tables' : Tables}
    (h : Added blockHash key tables)
    (happ : op.apply H network blockHash height tables = some tables') :
    Added blockHash key tables' := by
  rcases h with h | h
  · cases op with
    | spend txid inIdx txin => exact .inr (spend_hasUndo happ)
    | add txid isCoinbase i txout =>
      left
      simp only [UtxoOp.apply] at happ
      split_ifs at happ
      · cases happ
        exact h
      · cases hrow : outputRow H network height isCoinbase txout with
        | error e => simp [hrow] at happ
        | ok row =>
          simp only [hrow, Option.some.injEq] at happ
          subst happ
          rw [Tables.get?_add]
          split_ifs
          · simp
          · exact h
  · exact .inr (h.apply happ)

/-- Undo rows are written for the transactions of the block only. -/
lemma applyOps_undo_of_ne {ops : List UtxoOp} {txs : List Transaction}
    (hops : ∀ op ∈ ops, ∃ tx ∈ txs, op.Of H tx) {key : UndoKey}
    (hkey : ∀ tx ∈ txs, key.2.1 ≠ tx.txid H) {tables : Tables}
    (h : tables.blockUndo.get? key = none) :
    (applyOps H network blockHash height ops tables).1.blockUndo.get? key = none := by
  refine applyOps_keeps (P := fun t => t.blockUndo.get? key = none) ?_ h
  intro op hop t t' happ ht
  cases op with
  | spend txid inIdx txin =>
    obtain ⟨row, -, rfl⟩ := Option.map_eq_some_iff.1 happ
    obtain ⟨tx, htx, rfl⟩ := hops _ hop
    have hne : key ≠ (blockHash, tx.txid H, inIdx) := by
      rintro rfl
      exact hkey tx htx rfl
    simpa [Tables.spend, hne] using ht
  | add txid isCoinbase i txout =>
    simp only [UtxoOp.apply] at happ
    split_ifs at happ
    · cases happ
      exact ht
    · cases hrow : outputRow H network height isCoinbase txout with
      | error e => simp [hrow] at happ
      | ok row =>
        simp only [hrow, Option.some.injEq] at happ
        subst happ
        exact ht

/-- Nothing is written before the failure: the first operation spends an output that is not
there, or there is no operation at all. -/
def FailsAtOnce (tables : Tables) : List UtxoOp → Prop
  | [] => True
  | .spend _ _ txin :: _ => tables.utxo.get? txin.outpoint = none
  | .add .. :: _ => False

lemma applyOps_failsAtOnce {tables : Tables} {ops : List UtxoOp} (h : FailsAtOnce tables ops) :
    (applyOps H network blockHash height ops (withoutUndo blockHash tables)).1 =
      withoutUndo blockHash tables := by
  cases ops with
  | nil => rfl
  | cons op ops =>
    cases op with
    | spend txid inIdx txin =>
      have hnone : (withoutUndo blockHash tables).utxo.get? txin.outpoint = none := h
      simp [applyOps, UtxoOp.apply, hnone]
    | add txid isCoinbase i txout => exact h.elim

lemma withoutUndo_eq {tables : Tables} (h : ¬ HasUndo blockHash tables) :
    withoutUndo blockHash tables = tables := by
  have hrows : tables.blockUndo.deleteWhere (fun key => key.1 = blockHash) = tables.blockUndo := by
    refine KeyedRows.deleteWhere_eq_self ?_
    intro key hkey
    by_contra hrow
    exact h ⟨key, by simpa using hkey, hrow⟩
  rw [withoutUndo, hrows]

/-- The operations of a stored block change one of the three tables as soon as one of them
goes through. -/
lemma applyOps_eq_iff {block : Block} {s : Session Tables BlockIndex} {index : ℕ}
    (hs : JustStored H block index s) :
    (let tables := s.conn.current
     let after := (applyOps H network blockHash height (blockOps H block.transactions)
       (withoutUndo blockHash tables)).1
     after.utxo = tables.utxo ∧ after.blockUndo = tables.blockUndo ∧
       after.outputs = tables.outputs) ↔
      ¬ HasUndo blockHash s.conn.current ∧
        FailsAtOnce s.conn.current (blockOps H block.transactions) := by
  constructor
  · rintro ⟨hutxo, hundo, -⟩
    have hnoUndo : ¬ HasUndo blockHash s.conn.current := by
      rintro ⟨key, hkey, hrow⟩
      have hne : ∀ tx ∈ block.transactions, key.2.1 ≠ tx.txid H := by
        intro tx htx heq
        exact hrow (hs.blockUndo tx htx key heq)
      have hgone : (withoutUndo blockHash s.conn.current).blockUndo.get? key = none := by
        simp [withoutUndo, hkey]
      have hafter := @applyOps_undo_of_ne _ network blockHash height _ _
          (fun op hop => mem_blockOps hop) _ hne _ hgone
      rw [hundo] at hafter
      exact hrow hafter
    refine ⟨hnoUndo, ?_⟩
    have hnoUndo' : ¬ HasUndo blockHash (applyOps H network blockHash height
        (blockOps H block.transactions) (withoutUndo blockHash s.conn.current)).1 := by
      simpa [HasUndo, hundo] using hnoUndo
    cases hops : blockOps H block.transactions with
    | nil => trivial
    | cons op ops =>
      have hmem : op ∈ blockOps H block.transactions := hops ▸ List.mem_cons_self ..
      obtain ⟨tx, htx, hof⟩ := mem_blockOps hmem
      rw [hops, applyOps] at hutxo hnoUndo'
      cases op with
      | spend txid inIdx txin =>
        by_contra hrow
        obtain ⟨row, hrow⟩ := Option.ne_none_iff_exists'.1 hrow
        have happ : (UtxoOp.spend txid inIdx txin).apply H network blockHash height
            (withoutUndo blockHash s.conn.current) = some _ :=
          congrArg (Option.map _) hrow
        rw [happ] at hnoUndo'
        refine hnoUndo' (applyOps_keeps (P := HasUndo blockHash) ?_ (spend_hasUndo happ))
        intro op' _ t t' ht hundo'
        exact hundo'.apply ht
      | add txid isCoinbase i txout =>
        obtain ⟨rfl, hout, hret⟩ := hof
        obtain ⟨address, haddr⟩ := extractAddress_ok H network txout.scriptPubkey
        have hfits := hs.values tx htx txout hout
        have happ : (UtxoOp.add (tx.txid H) isCoinbase i txout).apply H network blockHash height
            (withoutUndo blockHash s.conn.current) =
            some ((withoutUndo blockHash s.conn.current).add (tx.txid H, i)
              ⟨⟨txout.value.toNat, hfits⟩, txout.scriptPubkey, height, isCoinbase, address⟩) := by
          simp only [UtxoOp.apply, hret, outputRow, haddr, bindInt, dif_pos hfits]
          rfl
        rw [happ] at hutxo hnoUndo'
        have hadded := @applyOps_keeps H network _ height (Added blockHash (tx.txid H, i)) ops
          (fun op' _ t t' ht hadded => hadded.apply ht)
          ((withoutUndo blockHash s.conn.current).add (tx.txid H, i)
            ⟨⟨txout.value.toNat, hfits⟩, txout.scriptPubkey, height, isCoinbase, address⟩)
          (.inl (by simp [Tables.get?_add]))
        rcases hadded with hadded | hadded
        · rw [hutxo] at hadded
          exact hadded (hs.utxo tx htx i)
        · exact hnoUndo' hadded
  · rintro ⟨hnoUndo, hfails⟩
    have hafter := @applyOps_failsAtOnce H network blockHash height _ _ hfails
    simp only [hafter]
    rw [withoutUndo_eq hnoUndo]
    exact ⟨rfl, rfl, rfl⟩

end failure

lemma trueUnlessRaised_ok_false {σ ι : Type} {x : Db σ ι Unit} {s s' : Session σ ι} :
    trueUnlessRaised x s = .ok false s' ↔ ∃ e, x s = .error e s' := by
  simp only [trueUnlessRaised, Db.tryCatch_apply, Db.bind_apply]
  cases x s with
  | ok u t => simp [Db.pure_apply]
  | error e t => simp [Db.pure_apply]

/-- The tables that a failed `connect` leaves in an open transaction. -/
lemma connect_false_tables {H : Hashlib} {network : Network} {block : Block} {height : ℕ}
    {s s' : Session Tables BlockIndex} (hs : JustStored H block height s)
    (h : connect H network block s = .ok false s') :
    let after := (applyOps H network (block.header.hashHex H) height (blockOps H block.transactions)
      (withoutUndo (block.header.hashHex H) s.conn.current)).1
    s'.conn.current.utxo = after.utxo ∧ s'.conn.current.blockUndo = after.blockUndo ∧
      s'.conn.current.outputs = after.outputs := by
  simp only [connect, Db.bind_apply, read_apply, hs.height] at h
  obtain ⟨e, herr⟩ := trueUnlessRaised_ok_false.1 h
  obtain ⟨e', d, hin, -, hcur⟩ := transaction_error (connectBody_client ..) herr
  rw [hs.isOpen, if_pos rfl] at hcur
  have hbody := connectBody_inside H network (block.header.hashHex H) height block s.conn.current
    s.memory
  rcases happ : applyOps H network (block.header.hashHex H) height (blockOps H block.transactions)
    (withoutUndo (block.header.hashHex H) s.conn.current) with ⟨tables', ok⟩
  rw [happ] at hbody
  rw [Session.data] at hin
  cases ok with
  | false =>
    obtain ⟨e'', he⟩ := hbody
    rw [he] at hin
    cases hin
    rw [hcur]
    exact ⟨rfl, rfl, rfl⟩
  | true =>
    simp only [finishConnect_inside] at hbody
    rw [hbody] at hin
    cases htxs : block.transactions with
    | cons first txs => simp [htxs] at hin
    | nil =>
      simp only [htxs, EStateM.Result.error.injEq] at hin
      rw [hcur, ← hin.2]
      exact markMain_utxo ..

/-- After `write_block`, `add_block` and `add_header`, a `connect` that returns `False` leaves
the three tables as they were exactly when it has written nothing before it failed. -/
theorem connect_false_unchanged_iff (H : Hashlib) (network : Network) (block : Block)
    (height chainwork processedAt : ℕ) (s₀ s s' : Session Tables BlockIndex)
    (hstored : s₀.conn.current.Stored)
    (hstore : storeBlock H block height chainwork processedAt s₀ = .ok () s)
    (h : connect H network block s = .ok false s') :
    (s'.conn.current.utxo = s.conn.current.utxo ∧
      s'.conn.current.blockUndo = s.conn.current.blockUndo ∧
      s'.conn.current.outputs = s.conn.current.outputs) ↔
      ¬ HasUndo (block.header.hashHex H) s.conn.current ∧
        FailsAtOnce s.conn.current (blockOps H block.transactions) := by
  have hs := storeBlock_justStored hstored hstore
  obtain ⟨hutxo, hundo, houtputs⟩ := connect_false_tables hs h
  rw [hutxo, hundo, houtputs]
  exact applyOps_eq_iff hs

/-! The block of the round trip, on a chain where the output that its second transaction
spends does not exist. -/
namespace AtomicExample
open RoundTripExample

def parent : BlockIndexEntry :=
  { height := 3
    blockHash := block.header.prevBlockHash
    header := { block.header with prevBlockHash := zeroHash }
    chainwork := 8
    status := {.HEADER, .BLOCK, .VALID, .MAIN_CHAIN} }

def before : Session Tables BlockIndex where
  conn := ⟨Tables.empty, none⟩
  memory := { BlockIndex.empty with index := KeyedRows.empty.put parent.blockHash parent }

lemma before_stored : before.conn.current.Stored := ⟨fun _ _ => rfl, fun _ _ => rfl⟩

def stored : Session Tables BlockIndex := (storeBlock hashlib block 4 10 0).final before

def failed : Session Tables BlockIndex := (connect hashlib .regtest block).final stored

end AtomicExample

open RoundTripExample AtomicExample in
theorem connect_false_unchanged_iff_example :
    before.conn.current.Stored ∧ storeBlock hashlib block 4 10 0 before = .ok () stored ∧
      connect hashlib .regtest block stored = .ok false failed ∧
      ((failed.conn.current.utxo = stored.conn.current.utxo ∧
        failed.conn.current.blockUndo = stored.conn.current.blockUndo ∧
        failed.conn.current.outputs = stored.conn.current.outputs) ↔
        ¬ HasUndo (block.header.hashHex hashlib) stored.conn.current ∧
          FailsAtOnce stored.conn.current (blockOps hashlib block.transactions)) := by
  have hstore : storeBlock hashlib block 4 10 0 before = .ok () stored :=
    Db.eq_ok_of_returns (by decide +kernel)
  have hfalse : connect hashlib .regtest block stored = .ok false failed :=
    Db.eq_ok_of_returns (by decide +kernel)
  exact ⟨before_stored, hstore, hfalse,
    connect_false_unchanged_iff hashlib .regtest block 4 10 0 before stored failed before_stored
      hstore hfalse⟩

open RoundTripExample AtomicExample in
/-- The output of the coinbase stays in the UTXO table after `connect` returned `False`. -/
theorem connect_false_leaves_output :
    storeBlock hashlib block 4 10 0 before = .ok () stored ∧
      connect hashlib .regtest block stored = .ok false failed ∧
      stored.conn.current.utxo.get? ((BlockExample.coinbase 1).txid hashlib, 0) = none ∧
      failed.conn.current.utxo.get? ((BlockExample.coinbase 1).txid hashlib, 0) ≠ none :=
  ⟨Db.eq_ok_of_returns (by decide +kernel), Db.eq_ok_of_returns (by decide +kernel),
    by decide +kernel, by decide +kernel⟩

end BerzCoin
