import BerzCoin.ChainOverwrite
import BerzCoin.CoreBlockCodec
import BerzCoin.StorageBlocks

/-! `BlocksStore` with its block files and its cache of blocks. The rows of a block go into the
tables in one transaction; the file is written before it and the cache after it. -/
namespace BerzCoin
open Script (Crypto)
open Database BlockValidator

/-- `files` are the `<hash>.blk` files and `legacyFiles` the `<height>.blk` files of an older
layout. `blockCache` is in insertion order. -/
structure BlockFiles where
  files : KeyedRows Bytes Bytes
  legacyFiles : ℕ → Option Bytes
  blockCache : KeyedRows Bytes Block
  cacheSize : ℕ

abbrev FileDb (α : Type) := Db Tables BlockFiles α

namespace BlockFiles

/-- `BlocksStore.__init__`. -/
def init (legacyFiles : ℕ → Option Bytes) (cacheSize : ℕ) : BlockFiles :=
  ⟨.empty, legacyFiles, .empty, max 8 cacheSize⟩

/-- The oldest entry of a cache that has grown too large goes. -/
def shrink (cacheSize : ℕ) (cache : KeyedRows Bytes Block) : KeyedRows Bytes Block :=
  if cacheSize < cache.rows.length then
    match cache.rows.head? with
    | none => cache
    | some oldest => cache.delete oldest.1
  else cache

def updateCache (m : BlockFiles) (blockHash : Bytes) (block : Block) : BlockFiles :=
  { m with blockCache := shrink m.cacheSize (m.blockCache.put blockHash block) }

def withFile (m : BlockFiles) (blockHash data : Bytes) : BlockFiles :=
  { m with files := m.files.put blockHash data }

section store
variable (H : Hashlib)

def writeBlock (block : Block) (height processedAt : ℕ) : FileDb Unit := do
  onMemory fun m => ((), m.withFile (block.header.hashHex H) (block.serialize true))
  BlocksStore.writeBlock H block height processedAt
  onMemory fun m => ((), m.updateCache (block.header.hashHex H) block)

/-- The file of a block, or the one of the older layout. -/
def fileOf (m : BlockFiles) (row : Option BlockRow) (blockHash : Bytes) : Option Bytes :=
  match m.files.get? blockHash with
  | some data => some data
  | none => row.bind fun row => m.legacyFiles row.height

/-- The checks on the contents of a file. -/
def decode (row : Option BlockRow) (blockHash data : Bytes) : Option Block :=
  if row.any fun row => 0 < row.size && data.length ≠ row.size then none
  else
    match Block.deserialize data 0 with
    | .error _ => none
    | .ok (block, _) => if block.header.hashHex H = blockHash then some block else none

/-- What `read_block_by_hash` finds outside of the cache. -/
def load (m : BlockFiles) (row : Option BlockRow) (blockHash : Bytes) : Option Block :=
  (m.fileOf row blockHash).bind (decode H row blockHash)

def readBlockByHash (blockHash : Bytes) : FileDb (Option Block) := do
  match ← onMemory fun m => (m.blockCache.get? blockHash, m) with
  | some block => return some block
  | none =>
    let row ← execute (.query fun tables => tables.blocks.get? blockHash)
    match ← onMemory fun m => (m.load H row blockHash, m) with
    | none => return none
    | some block =>
      onMemory fun m => ((), m.updateCache blockHash block)
      return some block

end store

/-! The cache. -/

structure CacheBounded (m : BlockFiles) : Prop where
  pos : 0 < m.cacheSize
  length : m.blockCache.rows.length ≤ m.cacheSize

lemma shrink_length {cacheSize : ℕ} {cache : KeyedRows Bytes Block}
    (h : cache.rows.length ≤ cacheSize + 1) : (shrink cacheSize cache).rows.length ≤ cacheSize := by
  unfold shrink
  split_ifs with hlarge
  · cases hhead : cache.rows.head? with
    | none =>
      have hnil := List.head?_eq_none_iff.1 hhead
      simp [hnil]
    | some oldest =>
      have hlen := KeyedRows.length_delete (KeyedRows.get?_of_head? hhead)
      simp only
      omega
  · omega

lemma shrink_get? {cacheSize : ℕ} {cache : KeyedRows Bytes Block} {blockHash : Bytes} {block : Block}
    (h : (shrink cacheSize cache).get? blockHash = some block) : cache.get? blockHash = some block := by
  unfold shrink at h
  split_ifs at h
  · split at h
    · exact h
    · rw [KeyedRows.get?_delete] at h
      split_ifs at h
      exact h
  · exact h

lemma CacheBounded.updateCache {m : BlockFiles} (hm : m.CacheBounded) (blockHash : Bytes)
    (block : Block) : (m.updateCache blockHash block).CacheBounded := by
  refine ⟨hm.pos, shrink_length ?_⟩
  have hlen := KeyedRows.length_put m.blockCache blockHash block
  have hle := hm.length
  split_ifs at hlen <;> omega

/-- The entry that was put last is not the one that goes. -/
lemma CacheBounded.updateCache_self {m : BlockFiles} (hm : m.CacheBounded) (blockHash : Bytes)
    (block : Block) : (m.updateCache blockHash block).blockCache.get? blockHash = some block := by
  have hput : (m.blockCache.put blockHash block).get? blockHash = some block := by simp
  have hpos := hm.pos
  have hle := hm.length
  simp only [BlockFiles.updateCache, shrink]
  split_ifs with hlarge
  · -- There is one entry too many, so it was put at the end, after at least one other.
    have hlen := KeyedRows.length_put m.blockCache blockHash block
    have hnew : m.blockCache.get? blockHash = none := by
      by_contra hold
      rw [if_neg hold] at hlen
      omega
    rw [if_pos hnew] at hlen
    have hrows : (m.blockCache.put blockHash block).rows =
        m.blockCache.rows ++ [(blockHash, block)] := by
      simp [KeyedRows.put, hnew, KeyedRows.insertNew]
    cases hcache : m.blockCache.rows with
    | nil =>
      rw [hcache, List.length_nil] at hlen
      omega
    | cons oldest rest =>
      have hne : blockHash ≠ oldest.1 := by
        rintro rfl
        have hmem := KeyedRows.get?_eq_none_iff.1 hnew
        rw [hcache] at hmem
        exact hmem (List.mem_cons_self ..)
      rw [hrows, hcache]
      simp only [List.cons_append, List.head?_cons]
      rw [KeyedRows.get?_delete, if_neg hne]
      exact hput
  · exact hput

lemma updateCache_other {m : BlockFiles} {blockHash blockHash' : Bytes} {block block' : Block}
    (hne : blockHash' ≠ blockHash)
    (h : (m.updateCache blockHash block).blockCache.get? blockHash' = some block') :
    m.blockCache.get? blockHash' = some block' := by
  have hput := shrink_get? h
  rwa [KeyedRows.get?_put, if_neg hne] at hput

section store
variable {H : Hashlib}

lemma memory_apply {α : Type} (f : BlockFiles → α × BlockFiles) (s : Session Tables BlockFiles) :
    (onMemory f : FileDb α) s = .ok (f s.memory).1 { s with memory := (f s.memory).2 } := rfl

/-- What a read returns: the cached block or else what the file holds. -/
def lookup (H : Hashlib) (m : BlockFiles) (row : Option BlockRow) (blockHash : Bytes) : Option Block :=
  match m.blockCache.get? blockHash with
  | some block => some block
  | none => m.load H row blockHash

lemma readBlockByHash_apply (H : Hashlib) (blockHash : Bytes) (s : Session Tables BlockFiles) :
    ∃ m, readBlockByHash H blockHash s =
        .ok (s.memory.lookup H (s.conn.current.blocks.get? blockHash) blockHash) { s with memory := m } ∧
      (m = s.memory ∨ ∃ block, m = s.memory.updateCache blockHash block ∧
        s.memory.load H (s.conn.current.blocks.get? blockHash) blockHash = some block) := by
  unfold readBlockByHash lookup
  rw [Db.bind_apply, memory_apply]
  cases hcache : s.memory.blockCache.get? blockHash with
  | some block => exact ⟨s.memory, by simp [Db.pure_apply], .inl rfl⟩
  | none =>
    simp only [Db.bind_apply, query_apply, memory_apply]
    cases hload : s.memory.load H (s.conn.current.blocks.get? blockHash) blockHash with
    | none => exact ⟨s.memory, by simp [Db.pure_apply], .inl rfl⟩
    | some block =>
      exact ⟨s.memory.updateCache blockHash block, by simp [Db.bind_apply, Db.pure_apply, memory_apply],
        .inr ⟨block, rfl, rfl⟩⟩

/-- The state of the store after the file of a block is written. -/
def filed (H : Hashlib) (block : Block) (s : Session Tables BlockFiles) : Session Tables BlockFiles :=
  { s with memory := s.memory.withFile (block.header.hashHex H) (block.serialize true) }

lemma writeBlock_apply (block : Block) (height processedAt : ℕ) (s : Session Tables BlockFiles) :
    writeBlock H block height processedAt s =
      match BlocksStore.writeBlock H block height processedAt (filed H block s) with
      | .ok _ s1 =>
        .ok () { s1 with memory := s1.memory.updateCache (block.header.hashHex H) block }
      | .error e s1 => .error e s1 := by
  simp only [writeBlock, Db.bind_apply, memory_apply, filed]
  cases BlocksStore.writeBlock H block height processedAt
    { s with memory := s.memory.withFile (block.header.hashHex H) (block.serialize true) } <;> rfl

lemma writeBlock_ok {block : Block} {height processedAt : ℕ} {s s' : Session Tables BlockFiles} :
    writeBlock H block height processedAt s = .ok () s' ↔
      ∃ s1, BlocksStore.writeBlock H block height processedAt (filed H block s) = .ok () s1 ∧
        s' = { s1 with memory := s1.memory.updateCache (block.header.hashHex H) block } := by
  rw [writeBlock_apply]
  cases BlocksStore.writeBlock H block height processedAt (filed H block s) with
  | error e s1 => simp
  | ok u s1 => simp [eq_comm]

lemma writeBlock_error {block : Block} {height processedAt : ℕ} {s s' : Session Tables BlockFiles}
    {e : PyError} (h : writeBlock H block height processedAt s = .error e s') :
    BlocksStore.writeBlock H block height processedAt (filed H block s) = .error e s' := by
  rw [writeBlock_apply] at h
  cases hrows : BlocksStore.writeBlock H block height processedAt (filed H block s) with
  | error e1 s1 => simpa [hrows] using h
  | ok u s1 => simp [hrows] at h

end store
end BlockFiles

/-- A block whose fields fit their encoding and that the validator of a shipped network accepts,
in some state of the node. -/
def ValidBlock (C : Crypto) (block : Block) : Prop :=
  block.InRange ∧ ∃ params getUtxo b now height, Shipped params ∧
    validateBlock C params getUtxo b now block height = .ok true

section valid
variable {C : Crypto} {params : ConsensusParams} {getUtxo : Outpoint → Option UtxoRow} {height : ℕ}

lemma validateTransaction_true {tx : Transaction} {isCoinbase : Bool}
    (h : validateTransaction C params getUtxo tx height isCoinbase = true) :
    tx.vin ≠ [] ∧ ∀ txout ∈ tx.vout, txout.value.toNat ≤ params.maxMoney := by
  unfold validateTransaction at h
  split_ifs at h with hversion hcb hempty hsize hinputs hvout
  rw [not_or] at hempty
  refine ⟨hempty.1, ?_⟩
  intro txout htxout
  have hall := List.all_eq_true.1 (by simpa using hvout) txout htxout
  simp only [validateOutput, Bool.and_eq_true, decide_eq_true_eq] at hall
  exact hall.1.2

lemma validateRest_each {spent : List Outpoint} {txs : List Transaction}
    (h : validateRest C params getUtxo height spent txs = true) :
    ∀ tx ∈ txs, validateTransaction C params getUtxo tx height false = true := by
  induction txs generalizing spent with
  | nil => exact fun tx htx => (List.not_mem_nil htx).elim
  | cons tx txs ih =>
    rw [validateRest, Bool.and_eq_true] at h
    obtain ⟨htx, hrest⟩ := h
    intro tx' htx'
    rcases List.mem_cons.1 htx' with rfl | htx'
    · exact htx
    · cases hrec : recordSpent spent tx.vin with
      | none => simp [hrec] at hrest
      | some spent' =>
        simp only [hrec] at hrest
        exact ih hrest tx' htx'

lemma validateTransactions_each {block : Block}
    (h : validateTransactions C params getUtxo block height = true) :
    ∀ tx ∈ block.transactions, ∃ isCoinbase,
      validateTransaction C params getUtxo tx height isCoinbase = true := by
  cases htxs : block.transactions with
  | nil => simp [validateTransactions, htxs] at h
  | cons coinbase rest =>
    simp only [validateTransactions, htxs, Bool.and_eq_true] at h
    obtain ⟨⟨⟨-, hcoinbase⟩, hrest⟩, -⟩ := h
    intro tx htx
    rcases List.mem_cons.1 htx with rfl | htx
    · exact ⟨true, hcoinbase⟩
    · exact ⟨false, validateRest_each hrest tx htx⟩

lemma maxMoney_lt {params : ConsensusParams} (h : Shipped params) : params.maxMoney < 2 ^ 63 := by
  obtain ⟨base, hbase, maturity, heights, rfl⟩ := h
  have hmoney : base.maxMoney < 2 ^ 63 := by
    revert base
    decide
  exact hmoney

namespace ValidBlock
variable {block : Block} (h : ValidBlock C block)
include h

lemma ids : (block.transactions.map (·.txid C.toHashlib)).Nodup := by
  obtain ⟨-, params, getUtxo, b, now, height, -, hvalid⟩ := h
  have htxs := (validateBlock_true hvalid).1
  cases hblock : block.transactions with
  | nil => exact List.nodup_nil
  | cons coinbase rest =>
    simp only [validateTransactions, hblock, Bool.and_eq_true, decide_eq_true_eq] at htxs
    exact htxs.2

lemma vin : ∀ tx ∈ block.transactions, tx.vin ≠ [] := by
  obtain ⟨-, params, getUtxo, b, now, height, -, hvalid⟩ := h
  intro tx htx
  obtain ⟨isCoinbase, htx'⟩ := validateTransactions_each (validateBlock_true hvalid).1 tx htx
  exact (validateTransaction_true htx').1

lemma values : ∀ tx ∈ block.transactions, ∀ txout ∈ tx.vout, txout.value.toNat < 2 ^ 63 := by
  obtain ⟨-, params, getUtxo, b, now, height, hshipped, hvalid⟩ := h
  intro tx htx txout htxout
  obtain ⟨isCoinbase, htx'⟩ := validateTransactions_each (validateBlock_true hvalid).1 tx htx
  exact ((validateTransaction_true htx').2 txout htxout).trans_lt (maxMoney_lt hshipped)

end ValidBlock
end valid

namespace BlockFiles

/-- A run of the store on a fresh database: the blocks written so far, the latest first. Writes
that raise, and reads of any hash, may stand between them. -/
inductive StoreRun (C : Crypto) : List Block → Session Tables BlockFiles → Prop
  | start (legacyFiles : ℕ → Option Bytes) (cacheSize : ℕ) :
      StoreRun C [] ⟨⟨Tables.empty, none⟩, init legacyFiles cacheSize⟩
  | stored {blocks : List Block} {s s' : Session Tables BlockFiles} (block : Block)
      (height processedAt : ℕ) :
      StoreRun C blocks s → ValidBlock C block →
      (∀ stored ∈ blocks, stored.header.hashHex C.toHashlib ≠ block.header.hashHex C.toHashlib) →
      writeBlock C.toHashlib block height processedAt s = .ok () s' →
      StoreRun C (block :: blocks) s'
  | refused {blocks : List Block} {s s' : Session Tables BlockFiles} (block : Block)
      (height processedAt : ℕ) (e : PyError) :
      StoreRun C blocks s →
      (∀ stored ∈ blocks, stored.header.hashHex C.toHashlib ≠ block.header.hashHex C.toHashlib) →
      writeBlock C.toHashlib block height processedAt s = .error e s' →
      StoreRun C blocks s'
  | read {blocks : List Block} {s s' : Session Tables BlockFiles} (blockHash : Bytes)
      (result : Option Block) :
      StoreRun C blocks s → readBlockByHash C.toHashlib blockHash s = .ok result s' →
      StoreRun C blocks s'

/-- What the store holds of the blocks written so far. The cache may hold a misread copy of a
block whose encoding is not read back. -/
structure Holds (C : Crypto) (blocks : List Block) (s : Session Tables BlockFiles) : Prop where
  closed : s.conn.inTransaction = false
  owned : s.conn.current.Owned
  transactions : ∀ txid, s.conn.current.transactions.get? txid = none ↔
    ∀ block ∈ blocks, txid ∉ block.transactions.map (·.txid C.toHashlib)
  valid : ∀ block ∈ blocks, ValidBlock C block
  files : ∀ block ∈ blocks,
    s.memory.files.get? (block.header.hashHex C.toHashlib) = some (block.serialize true)
  rows : ∀ block ∈ blocks, ∃ row,
    s.conn.current.blocks.get? (block.header.hashHex C.toHashlib) = some row ∧
      row.size = (block.serialize true).length
  cached : ∀ block ∈ blocks, (∀ tx ∈ block.transactions, tx.UniformWitness) → ∀ copy,
    s.memory.blockCache.get? (block.header.hashHex C.toHashlib) = some copy → copy = block
  bounded : s.memory.CacheBounded

section run
variable {C : Crypto} {blocks : List Block} {s s' : Session Tables BlockFiles}

/-- A file is read back as the block that was written exactly when the block has no mixed
transaction. -/
lemma Holds.load_iff (h : Holds C blocks s) {block : Block} (hblock : block ∈ blocks) :
    s.memory.load C.toHashlib (s.conn.current.blocks.get? (block.header.hashHex C.toHashlib))
        (block.header.hashHex C.toHashlib) = some block ↔
      ∀ tx ∈ block.transactions, tx.UniformWitness := by
  obtain ⟨row, hrow, hsize⟩ := h.rows block hblock
  have hvalid := h.valid block hblock
  rw [load, fileOf, h.files block hblock, hrow]
  simp only [Option.bind_some, decode, Option.any_some, hsize, ne_eq, not_true_eq_false, decide_false,
    Bool.and_false, Bool.false_eq_true, if_false]
  rw [← Block.deserialize_eq_self_iff hvalid.1 hvalid.vin]
  cases hdec : Block.deserialize (block.serialize true) 0 with
  | error e => simp
  | ok p =>
    obtain ⟨copy, offset⟩ := p
    constructor
    · intro hcopy
      simp only at hcopy
      split_ifs at hcopy
      cases hcopy
      exact ⟨offset, rfl⟩
    · rintro ⟨offset', hcopy⟩
      cases hcopy
      simp

lemma Holds.lookup_iff (h : Holds C blocks s) {block : Block} (hblock : block ∈ blocks) :
    s.memory.lookup C.toHashlib (s.conn.current.blocks.get? (block.header.hashHex C.toHashlib))
        (block.header.hashHex C.toHashlib) = some block ↔
      (∀ tx ∈ block.transactions, tx.UniformWitness) ∨
        s.memory.blockCache.get? (block.header.hashHex C.toHashlib) = some block := by
  have hload := h.load_iff hblock
  have hcached := h.cached block hblock
  unfold lookup
  cases hcache : s.memory.blockCache.get? (block.header.hashHex C.toHashlib) with
  | none => simpa using hload
  | some copy =>
    constructor
    · exact .inr
    · rintro (huniform | hcopy)
      · rw [hcached huniform copy hcache]
      · exact hcopy

lemma Holds.start (legacyFiles : ℕ → Option Bytes) (cacheSize : ℕ) :
    Holds C [] ⟨⟨Tables.empty, none⟩, init legacyFiles cacheSize⟩ where
  closed := rfl
  owned := fun _ _ _ => ⟨rfl, rfl⟩
  transactions := by
    intro txid
    simp only [List.not_mem_nil, false_implies, implies_true, iff_true]
    rfl
  valid := by simp
  files := by simp
  rows := by simp
  cached := by simp
  bounded := ⟨by simp [init], by simp [init, KeyedRows.empty]⟩

lemma Holds.read (h : Holds C blocks s) {blockHash : Bytes} {result : Option Block}
    (hread : readBlockByHash C.toHashlib blockHash s = .ok result s') : Holds C blocks s' := by
  obtain ⟨m, happ, hm⟩ := readBlockByHash_apply C.toHashlib blockHash s
  rw [happ] at hread
  cases hread
  rcases hm with rfl | ⟨block, rfl, hload⟩
  · exact h
  · refine ⟨h.closed, h.owned, h.transactions, h.valid, h.files, h.rows, ?_, h.bounded.updateCache ..⟩
    intro stored hstored huniform copy hcopy
    by_cases hhash : stored.header.hashHex C.toHashlib = blockHash
    · subst hhash
      have hself := h.bounded.updateCache_self (stored.header.hashHex C.toHashlib) block
      have hfile := (h.load_iff hstored).2 huniform
      rw [hself] at hcopy
      rw [hload] at hfile
      cases hcopy
      cases hfile
      rfl
    · exact h.cached stored hstored huniform copy (updateCache_other hhash hcopy)

/-- Rows of a block are written exactly when none of its transactions has a row. -/
lemma Holds.writeBody_iff (h : Holds C blocks s) {block : Block} (hvalid : ValidBlock C block)
    (height processedAt : ℕ) (m : BlockFiles) :
    (∃ d, inside (BlocksStore.writeBody C.toHashlib block height processedAt)
        (s.conn.current, m) = .ok () d) ↔
      ∀ stored ∈ blocks, ∀ tx ∈ block.transactions,
        tx.txid C.toHashlib ∉ stored.transactions.map (·.txid C.toHashlib) := by
  constructor
  · rintro ⟨d, hd⟩ stored hstored tx htx
    obtain ⟨-, hfresh⟩ := BlocksStore.writeBody_ok hd
    exact (h.transactions _).1 (hfresh tx htx).1 stored hstored
  · intro hshared
    obtain ⟨d, hd, -⟩ := @BlocksStore.writeBody_run _ _ (s.conn.current, m) _ height processedAt
        hvalid.ids
        (fun tx htx => (h.transactions _).2 fun stored hstored => hshared stored hstored tx htx)
        h.owned hvalid.values
    exact ⟨d, hd⟩

lemma Holds.write (h : Holds C blocks s) {block : Block} {height processedAt : ℕ}
    (hvalid : ValidBlock C block)
    (hnew : ∀ stored ∈ blocks, stored.header.hashHex C.toHashlib ≠ block.header.hashHex C.toHashlib)
    (hwrite : writeBlock C.toHashlib block height processedAt s = .ok () s') :
    Holds C (block :: blocks) s' ∧ s'.memory.blockCache =
      (s.memory.updateCache (block.header.hashHex C.toHashlib) block).blockCache := by
  obtain ⟨s1, hrows, rfl⟩ := writeBlock_ok.1 hwrite
  have hclosed := transaction_ok_of_closed (s := filed C.toHashlib block s) h.closed hrows
  have hin := (transaction_ok_iff (BlocksStore.writeBody_client ..)).2 ⟨s1, hrows, rfl⟩
  obtain ⟨-, hfresh⟩ := BlocksStore.writeBody_ok hin
  obtain ⟨d, hrun, hmem, howned, htxs, hrow, hothers⟩ := @BlocksStore.writeBody_run _ _
      (s.conn.current, s.memory.withFile (block.header.hashHex C.toHashlib)
      (block.serialize true)) _ height processedAt hvalid.ids (fun tx htx => (hfresh tx htx).1)
      h.owned hvalid.values
  have hdata : d = s1.data := by
    have hboth := hrun.symm.trans hin
    cases hboth
    rfl
  subst hdata
  have hmemory : s1.memory = s.memory.withFile (block.header.hashHex C.toHashlib)
    (block.serialize true) := hmem
  have hbounded : s1.memory.CacheBounded := by
    rw [hmemory]
    exact ⟨h.bounded.pos, h.bounded.length⟩
  refine ⟨⟨?_, howned, ?_, ?_, ?_, ?_, ?_, hbounded.updateCache ..⟩, ?_⟩
  · exact hclosed
  · intro txid
    rw [show s1.conn.current.transactions.get? txid = none ↔ _ from htxs txid, h.transactions]
    simp only [List.forall_mem_cons]
    exact and_comm
  · exact List.forall_mem_cons.2 ⟨hvalid, h.valid⟩
  · refine List.forall_mem_cons.2 ⟨?_, ?_⟩
    · simp [updateCache, hmemory, withFile]
    · intro stored hstored
      simp only [updateCache, hmemory, withFile, KeyedRows.get?_put, hnew stored hstored, if_false]
      exact h.files stored hstored
  · refine List.forall_mem_cons.2 ⟨hrow, ?_⟩
    intro stored hstored
    obtain ⟨row, hstoredRow, hsize⟩ := h.rows stored hstored
    exact ⟨row, (hothers _ (hnew stored hstored)).trans hstoredRow, hsize⟩
  · refine List.forall_mem_cons.2 ⟨?_, ?_⟩
    · intro _ copy hcopy
      rw [hbounded.updateCache_self] at hcopy
      cases hcopy
      rfl
    · intro stored hstored huniform copy hcopy
      have hold := updateCache_other (hnew stored hstored) hcopy
      rw [hmemory] at hold
      exact h.cached stored hstored huniform copy hold
  · simp only [updateCache, hmemory, withFile]

lemma Holds.refuse (h : Holds C blocks s) {block : Block} {height processedAt : ℕ} {e : PyError}
    (hnew : ∀ stored ∈ blocks, stored.header.hashHex C.toHashlib ≠ block.header.hashHex C.toHashlib)
    (hwrite : writeBlock C.toHashlib block height processedAt s = .error e s') : Holds C blocks s' := by
  have hrows := writeBlock_error hwrite
  have hconn := transaction_error_of_closed (s := filed C.toHashlib block s)
    (BlocksStore.writeBody_client ..) h.closed hrows
  have hmemory : s'.memory = s.memory.withFile (block.header.hashHex C.toHashlib)
      (block.serialize true) := by
    have hkeeps := (BlocksStore.writeBody_preserves C.toHashlib block height processedAt
      (P := (· = s.memory.withFile (block.header.hashHex C.toHashlib) (block.serialize true)))).transaction
      (filed C.toHashlib block s) rfl
    rw [Db.final] at hkeeps
    rw [BlocksStore.writeBlock] at hrows
    rwa [hrows] at hkeeps
  refine ⟨?_, ?_, ?_, h.valid, ?_, ?_, ?_, ?_⟩
  · rw [hconn]
    exact h.closed
  · rw [hconn]
    exact h.owned
  · rw [hconn]
    exact h.transactions
  · intro stored hstored
    rw [hmemory]
    simp only [withFile, KeyedRows.get?_put, hnew stored hstored, if_false]
    exact h.files stored hstored
  · rw [hconn]
    exact h.rows
  · rw [hmemory]
    exact h.cached
  · rw [hmemory]
    exact ⟨h.bounded.pos, h.bounded.length⟩

lemma StoreRun.holds (h : StoreRun C blocks s) : Holds C blocks s := by
  induction h with
  | start legacyFiles cacheSize => exact .start legacyFiles cacheSize
  | stored block height processedAt _ hvalid hnew hwrite ih => exact (ih.write hvalid hnew hwrite).1
  | refused block height processedAt e _ hnew hwrite ih => exact ih.refuse hnew hwrite
  | read blockHash result _ hread ih => exact ih.read hread

end run

/-- A further valid block is stored, and it and all stored blocks are read back as they were
written, exactly when it shares no transaction with a stored block and every stored block is
kept by the cache or has no transaction in which some but not all inputs have a witness. -/
theorem writeBlock_stores_iff (C : Crypto) (blocks : List Block) (s : Session Tables BlockFiles)
    (hrun : StoreRun C blocks s) (block : Block) (height processedAt : ℕ)
    (hvalid : ValidBlock C block)
    (hnew : ∀ stored ∈ blocks,
      stored.header.hashHex C.toHashlib ≠ block.header.hashHex C.toHashlib) :
    (∃ s', writeBlock C.toHashlib block height processedAt s = .ok () s' ∧
      ∀ stored ∈ block :: blocks, ∃ s'',
        readBlockByHash C.toHashlib (stored.header.hashHex C.toHashlib) s' = .ok (some stored) s'') ↔
    (∀ stored ∈ blocks, ∀ tx ∈ block.transactions,
      tx.txid C.toHashlib ∉ stored.transactions.map (·.txid C.toHashlib)) ∧
    ∀ stored ∈ blocks, (∀ tx ∈ stored.transactions, tx.UniformWitness) ∨
      (s.memory.updateCache (block.header.hashHex C.toHashlib) block).blockCache.get?
        (stored.header.hashHex C.toHashlib) = some stored := by
  have hholds := hrun.holds
  have hreads {s' : Session Tables BlockFiles} {stored : Block}
      (h : Holds C (block :: blocks) s') (hstored : stored ∈ block :: blocks) :
      (∃ s'', readBlockByHash C.toHashlib (stored.header.hashHex C.toHashlib) s' =
        .ok (some stored) s'') ↔ (∀ tx ∈ stored.transactions, tx.UniformWitness) ∨
          s'.memory.blockCache.get? (stored.header.hashHex C.toHashlib) = some stored := by
    obtain ⟨m, happ, -⟩ := readBlockByHash_apply C.toHashlib (stored.header.hashHex C.toHashlib) s'
    rw [happ, ← h.lookup_iff hstored]
    simp
  constructor
  · rintro ⟨s', hwrite, hread⟩
    obtain ⟨hafter, hcache⟩ := hholds.write hvalid hnew hwrite
    obtain ⟨s1, hrows, -⟩ := writeBlock_ok.1 hwrite
    refine ⟨?_, ?_⟩
    · have hin := (transaction_ok_iff (BlocksStore.writeBody_client ..)).2 ⟨s1, hrows, rfl⟩
      exact (hholds.writeBody_iff hvalid height processedAt _).1 ⟨_, hin⟩
    · intro stored hstored
      have hmem := List.mem_cons_of_mem block hstored
      rw [← hcache]
      exact (hreads hafter hmem).1 (hread stored hmem)
  · rintro ⟨hshared, hkept⟩
    obtain ⟨d, hd⟩ := (hholds.writeBody_iff hvalid height processedAt
      (filed C.toHashlib block s).memory).2 hshared
    obtain ⟨s1, hrows, -⟩ := (transaction_ok_iff (s := filed C.toHashlib block s)
      (BlocksStore.writeBody_client ..)).1 hd
    have hwrite := writeBlock_ok.2 ⟨s1, hrows, rfl⟩
    obtain ⟨hafter, hcache⟩ := hholds.write hvalid hnew hwrite
    refine ⟨_, hwrite, ?_⟩
    intro stored hstored
    refine (hreads hafter hstored).2 ?_
    rcases List.mem_cons.1 hstored with rfl | hold
    · rw [hcache]
      exact .inr (hholds.bounded.updateCache_self ..)
    · rw [hcache]
      exact hkept stored hold

/-! Two branches of one block each, over the same genesis block: `blockA` and `blockB` contain
the same spending transaction, `blockC` does not. -/
namespace StoreExample
open BlockExample (coinbase blockOn coinbase0Id coinbase1Id coinbase2Id coinbase3Id genesis genesisHash
  hashlib)

def spending : Transaction :=
  { version := 1
    vin := [⟨beBytes 32 coinbase0Id, 0, [], 0xffffffff, []⟩]
    vout := [⟨50, [0x51]⟩]
    locktime := 0 }

def blockWith (transactions : List Transaction) (merkleRoot : ℕ) : Block :=
  blockOn genesisHash merkleRoot 1001 0 transactions

def blockA : Block := blockWith [coinbase 1, spending]
  0x7a11eedbed46376e3c1dc979aea29d783e3b54da23eb9234f79278328a53db96

def blockB : Block := blockWith [coinbase 2, spending]
  0x33be5715009643d9be8a3a60bce67cb2f01f090c34d33d21e0c231eda1503276

def blockC : Block := blockWith [coinbase 3] coinbase3Id

def spendingId : ℕ := 0x2ad112778c6dc6e7521b99ec7004d76305e95a9a04c6b31b2b3e3526e23547f7

def crypto : Crypto := .ofHashlib <| hashlib.withDigests [
  (spending.serialize false,
    0x2fa3d0a5628003bcc74d8f00d435995f3b3979495ea40f41d4061bb6a61db248, spendingId),
  (beBytes 32 coinbase1Id ++ beBytes 32 spendingId,
    0xd4a6ab7625753462c68282a08ad4c9fc267599c985b917f062e6335972ac1873,
    0x7a11eedbed46376e3c1dc979aea29d783e3b54da23eb9234f79278328a53db96),
  (beBytes 32 coinbase2Id ++ beBytes 32 spendingId,
    0x2cd9f67c027d3ee2d770c0ad08021768d3b0872eb0dce1fbcf7867792ddb9125,
    0x33be5715009643d9be8a3a60bce67cb2f01f090c34d33d21e0c231eda1503276),
  (blockA.header.serialize,
    0x6f682adfa291a44ac9f7cb56f59e39bf69e9c3c01fcebebd10608196a8277340,
    0x796bb94c090abc9750605c1eb1fbb4c9a3780104733fdbbb966ffcfb1523fb90),
  (blockB.header.serialize,
    0xb38732c0a5dab13e0ff3e24b834ff769dac1cae72632dbb97fb807f3bd7270c7,
    0x667f5788d863bee472f9f00b14eb273132a63b0d2bb76744fbc522b33a07f04f),
  (blockC.header.serialize,
    0x050f18a275a36a0bb4de23c45ecc8b6291e145f5e306f11e7e4cd0eb6c740e50,
    0x4f2046182e7ffc7ece6e7d5c3c30becd512dcf355f7c534af5e1b966004a3aab)]

/-- The only unspent output is the one of the genesis coinbase. -/
def getUtxo (outpoint : Outpoint) : Option UtxoRow :=
  if outpoint = (beBytes 32 coinbase0Id, 0) then some ⟨⟨50, by decide⟩, [0x51], 0, true, none⟩ else none

def params : ConsensusParams := { ConsensusParams.regtest with coinbaseMaturity := 1 }

def index : BlockIndex :=
  { BlockIndex.empty with
    index := KeyedRows.empty.put (beBytes 32 genesisHash)
      ⟨0, beBytes 32 genesisHash, genesis.header, 1, {.HEADER, .BLOCK, .VALID, .MAIN_CHAIN}⟩ }

lemma validBlock_of {block : Block} (hrange : block.InRange)
    (h : validateBlock crypto params getUtxo index 2000 block 1 = .ok true) :
    ValidBlock crypto block :=
  ⟨hrange, params, getUtxo, index, 2000, 1, ⟨ConsensusParams.regtest, by simp, 1, [], rfl⟩, h⟩

lemma inRange_blockWith {transactions : List Transaction} {merkleRoot : ℕ}
    (h : ∀ tx ∈ transactions, tx ∈ [coinbase 1, coinbase 2, coinbase 3, spending])
    (hcount : transactions.length < 2 ^ 64) : (blockWith transactions merkleRoot).InRange where
  prevBlockHash := by simp [blockWith, blockOn, beBytes]
  merkleRoot := by simp [blockWith, blockOn, beBytes]
  count := hcount
  transactions := by
    intro tx htx
    have hall : ∀ tx ∈ [coinbase 1, coinbase 2, coinbase 3, spending], tx.InRange := by decide +kernel
    exact hall tx (h tx htx)
  witnesses := by
    intro tx htx txin htxin
    have hall : ∀ tx ∈ [coinbase 1, coinbase 2, coinbase 3, spending], ∀ txin ∈ tx.vin,
        txin.witness = [] := by decide +kernel
    rw [hall tx (h tx htx) txin htxin]
    exact ⟨by simp, by simp⟩

lemma valid_A : ValidBlock crypto blockA :=
  validBlock_of (inRange_blockWith (by simp) (by simp)) (by decide +kernel)

lemma valid_B : ValidBlock crypto blockB :=
  validBlock_of (inRange_blockWith (by simp) (by simp)) (by decide +kernel)

lemma valid_C : ValidBlock crypto blockC :=
  validBlock_of (inRange_blockWith (by simp) (by simp)) (by decide +kernel)

def session : Session Tables BlockFiles := ⟨⟨Tables.empty, none⟩, init (fun _ => none) 100⟩

/-- `blockA` is stored. -/
def storedA : Session Tables BlockFiles := (writeBlock crypto.toHashlib blockA 1 1001).final session

lemma run_A : StoreRun crypto [blockA] storedA :=
  .stored blockA 1 1001 (.start (fun _ => none) 100) valid_A (by simp)
    (Db.eq_ok_of_returns (by decide +kernel))

end StoreExample

open StoreExample in
theorem writeBlock_stores_iff_example :
    ∃ s', writeBlock crypto.toHashlib blockC 1 1002 storedA = .ok () s' ∧
      ∀ stored ∈ [blockC, blockA], ∃ s'', readBlockByHash crypto.toHashlib
        (stored.header.hashHex crypto.toHashlib) s' = .ok (some stored) s'' := by
  refine (writeBlock_stores_iff crypto [blockA] storedA run_A blockC 1 1002 valid_C ?_).2 ⟨?_, ?_⟩
  · decide +kernel
  · decide +kernel
  · intro stored hstored
    rw [List.mem_singleton.1 hstored]
    refine .inl ?_
    intro tx htx
    have hall : ∀ tx ∈ blockA.transactions, ∀ txin ∈ tx.vin, txin.witness = [] := by decide +kernel
    exact .inl (hall tx htx)

open StoreExample in
theorem writeBlock_shared_transaction :
    StoreRun crypto [blockA] storedA ∧ ValidBlock crypto blockB ∧
      blockA.header.hashHex crypto.toHashlib ≠ blockB.header.hashHex crypto.toHashlib ∧
      ¬ ∃ s', writeBlock crypto.toHashlib blockB 1 1002 storedA = .ok () s' := by
  refine ⟨run_A, valid_B, by decide +kernel, ?_⟩
  rintro ⟨s', h⟩
  have hraises : (writeBlock crypto.toHashlib blockB 1 1002).returns () storedA = false := by
    decide +kernel
  rw [Db.returns, h] at hraises
  cases hraises

end BlockFiles
end BerzCoin
