import BerzCoin.ConsensusMerkle
import BerzCoin.CoreBlockCodec
import BerzCoin.Mempool
import BerzCoin.P2pHeaderExchange

/-! Compact block relay: a block as its header, its coinbase and short ids, rebuilt by the
receiver from its mempool and from the transactions that it asks for. -/
namespace BerzCoin
open Serializer

section shortids
variable (H : Hashlib) (header : Bytes) (nonce : UInt64)

def compactShortidKey : Bytes := H.hash256 (header ++ writeUint64 nonce)

/-- `int.from_bytes(digest[:6], 'little')`. -/
def compactShortid (txid : Bytes) : ℕ :=
  leNat ((H.hash256 (compactShortidKey H header nonce ++ txid)).take 6)

lemma compactShortid_lt (txid : Bytes) : compactShortid H header nonce txid < 2 ^ 48 := by
  have hlt := leNat_lt ((H.hash256 (compactShortidKey H header nonce ++ txid)).take 6)
  have hlength : ((H.hash256 (compactShortidKey H header nonce ++ txid)).take 6).length ≤ 6 :=
    List.length_take_le 6 _
  have hpow := Nat.pow_le_pow_right (show 0 < 256 by omega) hlength
  unfold compactShortid
  omega

end shortids

namespace CmpctBlockMessage

def blockHash (H : Hashlib) (m : CmpctBlockMessage) : Bytes := H.hash256 m.header

/-- The coinbase is always prefilled. -/
def fromBlock (H : Hashlib) (block : Block) (nonce : UInt64) : CmpctBlockMessage where
  header := block.header.serialize
  nonce := nonce
  shortids := block.transactions.tail.map fun tx =>
    compactShortid H block.header.serialize nonce (tx.txid H)
  prefilledTxn := (block.transactions.head?.map fun tx => (0, tx.serialize true)).toList

end CmpctBlockMessage

/-- Transactions of a block by position, the positions that are still missing and the number of
transactions. -/
structure CompactCandidate where
  txSlots : KeyedRows ℕ Bytes
  missing : List ℕ
  totalTxs : ℕ

/-- `for index, tx_bytes in pairs: slots[index] = tx_bytes`. -/
def fillSlots (slots : KeyedRows ℕ Bytes) (pairs : List (ℕ × Bytes)) : KeyedRows ℕ Bytes :=
  pairs.foldl (fun slots p => slots.put p.1 p.2) slots

section candidate
variable (H : Hashlib) {F : Type}

/-- `getattr(self.mempool, 'transactions', {})`, the transactions of its entries. -/
def mempoolTransactions (pool : Option (Mempool F)) : List Transaction :=
  match pool with
  | none => []
  | some pool => pool.transactions.rows.map fun row => row.2.tx

/-- A short id of two different serializations is ambiguous and kept as `None`. -/
def noteShortid (msg : CmpctBlockMessage) (shortids : KeyedRows ℕ (Option Bytes))
    (tx : Transaction) : KeyedRows ℕ (Option Bytes) :=
  let sid := compactShortid H msg.header msg.nonce (tx.txid H)
  let txBytes := tx.serialize true
  match shortids.get? sid with
  | some known => if known ≠ some txBytes then shortids.put sid none else shortids
  | none => shortids.put sid (some txBytes)

def shortidMap (msg : CmpctBlockMessage) (txs : List Transaction) : KeyedRows ℕ (Option Bytes) :=
  txs.foldl (noteShortid H msg) .empty

def placeShortid (shortids : KeyedRows ℕ (Option Bytes)) (candidate : CompactCandidate)
    (p : ℕ × ℕ) : CompactCandidate :=
  match (shortids.get? p.2).join with
  | none => { candidate with missing := candidate.missing ++ [p.1] }
  | some txBytes => { candidate with txSlots := candidate.txSlots.put p.1 txBytes }

def buildCompactCandidate (pool : Option (Mempool F)) (msg : CmpctBlockMessage) :
    CompactCandidate :=
  let prefilled := fillSlots .empty msg.prefilledTxn
  let totalTxs := msg.shortids.length + prefilled.rows.length
  if totalTxs ≤ 0 then ⟨.empty, [], 0⟩
  else
    let remainingIndexes := (List.range totalTxs).filter fun i => !prefilled.contains i
    if remainingIndexes.length ≠ msg.shortids.length then ⟨.empty, List.range totalTxs, totalTxs⟩
    else
      (remainingIndexes.zip msg.shortids).foldl
        (placeShortid (shortidMap H msg (mempoolTransactions pool))) ⟨prefilled, [], totalTxs⟩

/-- The bytes that `_finalize_compact_block` reads as a block. -/
def compactPayload (header : Bytes) (txSlots : KeyedRows ℕ Bytes) (totalTxs : ℕ) : Option Bytes :=
  if totalTxs ≤ 0 then none
  else if (List.range totalTxs).any fun i => !txSlots.contains i then none
  else some (header ++ (writeVarint totalTxs ++
    (List.range totalTxs).flatMap fun i => (txSlots.get? i).getD []))

def finalizeCompactBlock (header : Bytes) (txSlots : KeyedRows ℕ Bytes) (totalTxs : ℕ) :
    Option Block :=
  (compactPayload header txSlots totalTxs).bind fun payload =>
    (Block.deserialize payload 0).toOption.map Prod.fst

/-- What the `blocktxn` handler reads of `_pending_compact_blocks[block_hash_hex]`. -/
structure PendingCompactBlock where
  header : Bytes
  txSlots : KeyedRows ℕ Bytes
  totalTxs : ℕ
  requestedIndexes : List ℕ

def CompactCandidate.pending (candidate : CompactCandidate) (header : Bytes) : PendingCompactBlock :=
  ⟨header, candidate.txSlots, candidate.totalTxs, candidate.missing⟩

@[simp] lemma CompactCandidate.pending_header (candidate : CompactCandidate) (header : Bytes) :
    (candidate.pending header).header = header := rfl

@[simp] lemma CompactCandidate.pending_totalTxs (candidate : CompactCandidate) (header : Bytes) :
    (candidate.pending header).totalTxs = candidate.totalTxs := rfl

@[simp] lemma CompactCandidate.pending_requestedIndexes (candidate : CompactCandidate)
    (header : Bytes) : (candidate.pending header).requestedIndexes = candidate.missing := rfl

/-- The answer of the `getblocktxn` handler, from the block under the reversed hash. -/
def answerGetblocktxn (getBlock : Bytes → Option Block) (req : GetBlockTxnMessage) :
    Option BlockTxnMessage :=
  (getBlock req.blockHash.reverse).map fun block =>
    ⟨req.blockHash, req.indexes.filterMap fun i => block.transactions[i]?.map (·.serialize true)⟩

/-- The slots of the `blocktxn` handler; it gives up on an answer of another length. -/
def PendingCompactBlock.fill (pending : PendingCompactBlock) (msg : BlockTxnMessage) :
    Option (KeyedRows ℕ Bytes) :=
  if pending.requestedIndexes.length ≠ msg.transactions.length then none
  else some (fillSlots pending.txSlots (pending.requestedIndexes.zip msg.transactions))

/-- The bytes assembled by the receiver of a compact block: at once, or after one exchange with the
sender. -/
def relayCompact (getBlock : Bytes → Option Block) (pool : Option (Mempool F))
    (message : CmpctBlockMessage) : Except PyError (Option Bytes) := do
  let (received, _) ← CmpctBlockMessage.deserialize (← message.serialize) 0
  let candidate := buildCompactCandidate H pool received
  if candidate.missing = [] then
    return compactPayload received.header candidate.txSlots candidate.totalTxs
  let request : GetBlockTxnMessage := ⟨received.blockHash H, candidate.missing⟩
  let (req, _) ← GetBlockTxnMessage.deserialize request.serialize 0
  match answerGetblocktxn getBlock req with
  | none => return none
  | some answer => do
    let (msg, _) ← BlockTxnMessage.deserialize answer.serialize 0
    let pending := candidate.pending received.header
    return (pending.fill msg).bind fun txSlots =>
      compactPayload pending.header txSlots pending.totalTxs

end candidate

/-- Every slot holds the serialization of the transaction at its position. -/
def Fills (txs : List Bytes) (slots : KeyedRows ℕ Bytes) : Prop :=
  ∀ i txBytes, slots.get? i = some txBytes → txs[i]? = some txBytes

namespace Fills
variable {txs : List Bytes} {slots : KeyedRows ℕ Bytes}

lemma put (h : Fills txs slots) {i : ℕ} {txBytes : Bytes} (hi : txs[i]? = some txBytes) :
    Fills txs (slots.put i txBytes) := by
  intro j other hj
  rw [KeyedRows.get?_put] at hj
  split_ifs at hj with hji
  · cases hj
    rw [hji]
    exact hi
  · exact h j other hj

lemma fillSlots {pairs : List (ℕ × Bytes)} (h : Fills txs slots)
    (hpairs : ∀ p ∈ pairs, txs[p.1]? = some p.2) : Fills txs (fillSlots slots pairs) := by
  induction pairs generalizing slots with
  | nil => exact h
  | cons p rest ih =>
    apply ih (h.put (hpairs p List.mem_cons_self))
    intro q hq
    exact hpairs q (List.mem_cons_of_mem p hq)

end Fills

lemma fillSlots_covers {slots : KeyedRows ℕ Bytes} {pairs : List (ℕ × Bytes)} {i : ℕ}
    (h : (slots.get? i).isSome ∨ i ∈ pairs.map Prod.fst) :
    ((fillSlots slots pairs).get? i).isSome := by
  induction pairs generalizing slots with
  | nil => simpa [fillSlots] using h
  | cons p rest ih =>
    apply ih
    by_cases hi : i = p.1
    · left
      simp [hi]
    · rw [List.map_cons, List.mem_cons] at h
      rw [KeyedRows.get?_put, if_neg hi]
      tauto

/-- The assembled bytes are those of the block once every slot is filled. -/
lemma compactPayload_eq {txs : List Bytes} {slots : KeyedRows ℕ Bytes} (header : Bytes)
    (hne : txs ≠ []) (hfills : Fills txs slots)
    (hcovers : ∀ i < txs.length, (slots.get? i).isSome) :
    compactPayload header slots txs.length =
      some (header ++ (writeVarint txs.length ++ txs.flatten)) := by
  have hpos := List.length_pos_iff.2 hne
  have hall : ¬ ((List.range txs.length).any fun i => !slots.contains i) = true := by
    simp only [List.any_eq_true, List.mem_range, Bool.not_eq_true', not_exists, not_and]
    intro i hi
    simp [KeyedRows.contains, hcovers i hi]
  have hslots : (List.range txs.length).map (fun i => (slots.get? i).getD []) = txs := by
    apply List.ext_getElem (by simp)
    intro i hi hi'
    obtain ⟨txBytes, hslot⟩ := Option.isSome_iff_exists.1 (hcovers i hi')
    have htx := List.getElem?_eq_some_iff.1 (hfills i txBytes hslot)
    simp [hslot, htx.2]
  rw [compactPayload, if_neg (by omega), if_neg hall, List.flatMap_def, hslots]

section candidate
variable {H : Hashlib} {msg : CmpctBlockMessage}

/-- A short id leads to a transaction of the mempool that has it. -/
lemma shortidMap_sound {txs : List Transaction} {sid : ℕ} {txBytes : Bytes}
    (h : (shortidMap H msg txs).get? sid = some (some txBytes)) :
    ∃ tx ∈ txs, compactShortid H msg.header msg.nonce (tx.txid H) = sid ∧
      tx.serialize true = txBytes := by
  induction txs using List.reverseRecOn with
  | nil => cases h
  | append_singleton txs tx ih =>
    have hkeep (hold : (shortidMap H msg txs).get? sid = some (some txBytes)) :
        ∃ tx' ∈ txs ++ [tx], compactShortid H msg.header msg.nonce (tx'.txid H) = sid ∧
          tx'.serialize true = txBytes := by
      obtain ⟨tx', hmem, hsid, hbytes⟩ := ih hold
      exact ⟨tx', List.mem_append_left _ hmem, hsid, hbytes⟩
    rw [shortidMap, List.foldl_append] at h
    change (noteShortid H msg (shortidMap H msg txs) tx).get? sid = _ at h
    unfold noteShortid at h
    simp only at h
    split at h
    · split_ifs at h with hknown
      · rw [KeyedRows.get?_put] at h
        split_ifs at h
        · cases h
        · exact hkeep h
      · exact hkeep h
    · rw [KeyedRows.get?_put] at h
      split_ifs at h with hsid
      · cases h
        exact ⟨tx, by simp, hsid.symm, rfl⟩
      · exact hkeep h

/-- The state of the candidate after the positions that meet `done`. -/
structure CompactCandidate.Covers (txs : List Bytes) (done : ℕ → Prop) (c : CompactCandidate) :
    Prop where
  total : c.totalTxs = txs.length
  fills : Fills txs c.txSlots
  missing : ∀ i ∈ c.missing, i < txs.length
  covered : ∀ i, done i → (c.txSlots.get? i).isSome ∨ i ∈ c.missing

variable {shortids : KeyedRows ℕ (Option Bytes)} {txs : List Bytes} {done : ℕ → Prop}
  {c : CompactCandidate}

lemma CompactCandidate.Covers.place (h : c.Covers txs done) {p : ℕ × ℕ} (hp : p.1 < txs.length)
    (hsound : ∀ txBytes, shortids.get? p.2 = some (some txBytes) → txs[p.1]? = some txBytes) :
    (placeShortid shortids c p).Covers txs fun i => done i ∨ i = p.1 := by
  unfold placeShortid
  split
  · refine ⟨h.total, h.fills, ?_, ?_⟩
    · intro i hi
      rcases List.mem_append.1 hi with hi | hi
      · exact h.missing i hi
      · rw [List.mem_singleton.1 hi]
        exact hp
    · intro i hi
      rcases hi with hi | hi
      · exact (h.covered i hi).imp_right (List.mem_append_left _)
      · right
        simp [hi]
  · rename_i txBytes hslot
    have htx := hsound txBytes (Option.join_eq_some_iff.1 hslot)
    refine ⟨h.total, h.fills.put htx, h.missing, ?_⟩
    intro i hi
    simp only [KeyedRows.get?_put]
    by_cases hip : i = p.1
    · simp [hip]
    · rw [if_neg hip]
      exact h.covered i (hi.resolve_right hip)

lemma CompactCandidate.Covers.placeAll (h : c.Covers txs done)
    (shortids : KeyedRows ℕ (Option Bytes)) (pairs : List (ℕ × ℕ))
    (hpairs : ∀ p ∈ pairs, p.1 < txs.length ∧
      ∀ txBytes, shortids.get? p.2 = some (some txBytes) → txs[p.1]? = some txBytes) :
    (pairs.foldl (placeShortid shortids) c).Covers txs
      fun i => done i ∨ i ∈ pairs.map Prod.fst := by
  induction pairs generalizing c done with
  | nil => simpa using h
  | cons p rest ih =>
    obtain ⟨hp, hsound⟩ := hpairs p List.mem_cons_self
    have hrest := ih (h.place hp hsound) fun q hq => hpairs q (List.mem_cons_of_mem p hq)
    simpa [or_assoc] using hrest

lemma length_missing_placeAll (pairs : List (ℕ × ℕ)) (c : CompactCandidate) :
    (pairs.foldl (placeShortid shortids) c).missing.length ≤ c.missing.length + pairs.length := by
  induction pairs generalizing c with
  | nil => simp
  | cons p rest ih =>
    have hrest := ih (placeShortid shortids c p)
    have hstep : (placeShortid shortids c p).missing.length ≤ c.missing.length + 1 := by
      unfold placeShortid
      split <;> simp
    rw [List.foldl_cons, List.length_cons]
    omega

end candidate

/-- No two different serializations among these transactions have one short id. -/
def ShortidsSeparate (H : Hashlib) (header : Bytes) (nonce : UInt64) (txs : List Transaction) :
    Prop :=
  ∀ a ∈ txs, ∀ b ∈ txs, compactShortid H header nonce (a.txid H) =
    compactShortid H header nonce (b.txid H) → a.serialize true = b.serialize true

instance (H : Hashlib) (header : Bytes) (nonce : UInt64) (txs : List Transaction) :
    Decidable (ShortidsSeparate H header nonce txs) :=
  inferInstanceAs (Decidable (∀ a ∈ txs, ∀ b ∈ txs, _))

namespace Block

/-- The block can be sent: its header has 80 bytes and its lengths fit their encodings. -/
structure Sendable (block : Block) : Prop where
  header : block.header.Sized
  size : (block.serialize true).length < 2 ^ 64

variable {block : Block}

lemma length_serialize_tx_le (block : Block) {tx : Transaction} (h : tx ∈ block.transactions) :
    (tx.serialize true).length ≤ (block.serialize true).length := by
  have hle := (List.sublist_flatten_of_mem
    (List.mem_map_of_mem (f := fun tx => Transaction.serialize tx true) h)).length_le
  simp only [serialize, List.length_append, List.flatMap_def]
  omega

lemma count_le_length_serialize (block : Block) : block.transactions.length ≤ (block.serialize true).length := by
  have hcount : ∀ txs : List Transaction,
      txs.length ≤ (txs.flatMap (·.serialize true)).length := by
    intro txs
    induction txs with
    | nil => simp
    | cons tx rest ih =>
      have hpos : 4 ≤ (tx.serialize true).length := by
        simp only [Transaction.serialize, writeUint32, List.length_append, leBytes_length]
        omega
      simp only [List.flatMap_cons, List.length_append, List.length_cons]
      omega
  have htxs := hcount block.transactions
  simp only [serialize, List.length_append]
  omega

variable (H : Hashlib) (nonce : UInt64)

lemma Sendable.fromBlock_inRange (h : block.Sendable) :
    (CmpctBlockMessage.fromBlock H block nonce).InRange where
  header := h.header.length_serialize
  shortidCount := by
    have hcount := count_le_length_serialize block
    have hsize := h.size
    simp only [CmpctBlockMessage.fromBlock, List.length_map, List.length_tail]
    omega
  shortids := by
    intro sid hsid
    obtain ⟨tx, -, rfl⟩ := List.mem_map.1 hsid
    exact compactShortid_lt H _ nonce _
  prefilledCount := by
    have hone : (CmpctBlockMessage.fromBlock H block nonce).prefilledTxn.length ≤ 1 :=
      Option.length_toList_le
    omega
  prefilledTxn := by
    intro p hp
    cases htxs : block.transactions with
    | nil => simp [CmpctBlockMessage.fromBlock, htxs] at hp
    | cons coinbase rest =>
      have hle := length_serialize_tx_le block (by simp [htxs] : coinbase ∈ block.transactions)
      have hsize := h.size
      have hp' : p = (0, coinbase.serialize true) := by
        simpa [CmpctBlockMessage.fromBlock, htxs] using hp
      subst hp'
      exact ⟨by omega, by simpa using by omega⟩

end Block

section relay
variable {H : Hashlib} {F : Type} {pool : Option (Mempool F)} {block : Block} {nonce : UInt64}

/-- The serializations in a block, by position. -/
def Block.txBytes (block : Block) : List Bytes := block.transactions.map (·.serialize true)

lemma prefilled_rows (coinbase : Bytes) :
    (fillSlots .empty [(0, coinbase)]).rows = [(0, coinbase)] := rfl

lemma prefilled_get? (coinbase : Bytes) (i : ℕ) :
    (fillSlots .empty [(0, coinbase)]).get? i = if i = 0 then some coinbase else none := by
  simp [fillSlots]

/-- The positions after the coinbase are left for the short ids. -/
lemma remaining_indexes (coinbase : Bytes) (n : ℕ) :
    ((List.range (n + 1)).filter fun i => !(fillSlots .empty [(0, coinbase)]).contains i) =
      (List.range n).map Nat.succ := by
  have hzero : (fillSlots .empty [(0, coinbase)]).contains 0 = true := by
    simp [KeyedRows.contains, prefilled_get?]
  have hsucc : ∀ i ∈ (List.range n).map Nat.succ,
      (!(fillSlots .empty [(0, coinbase)]).contains i) = true := by
    intro i hi
    obtain ⟨j, -, rfl⟩ := List.mem_map.1 hi
    simp [KeyedRows.contains, prefilled_get?]
  rw [List.range_succ_eq_map, List.filter_cons, hzero, List.filter_eq_self.2 hsucc]
  simp

lemma buildCompactCandidate_eq {coinbase : Transaction} {rest : List Transaction}
    (htxs : block.transactions = coinbase :: rest) :
    buildCompactCandidate H pool (CmpctBlockMessage.fromBlock H block nonce) =
      (((List.range rest.length).map Nat.succ).zip (rest.map fun tx =>
        compactShortid H block.header.serialize nonce (tx.txid H))).foldl
        (placeShortid (shortidMap H (CmpctBlockMessage.fromBlock H block nonce)
          (mempoolTransactions pool)))
        ⟨fillSlots .empty [(0, coinbase.serialize true)], [], rest.length + 1⟩ := by
  have hprefilled : (CmpctBlockMessage.fromBlock H block nonce).prefilledTxn =
      [(0, coinbase.serialize true)] := by simp [CmpctBlockMessage.fromBlock, htxs]
  have hshortids : (CmpctBlockMessage.fromBlock H block nonce).shortids = rest.map fun tx =>
      compactShortid H block.header.serialize nonce (tx.txid H) := by
    simp [CmpctBlockMessage.fromBlock, htxs]
  unfold buildCompactCandidate
  simp only [hprefilled, hshortids, prefilled_rows, List.length_map, List.length_singleton,
    remaining_indexes, List.length_range, ne_eq, not_true_eq_false, if_false]
  rw [if_neg (by omega)]

lemma buildCompactCandidate_covers (hne : block.transactions ≠ [])
    (hsep : ShortidsSeparate H block.header.serialize nonce
      (block.transactions ++ mempoolTransactions pool)) :
    (buildCompactCandidate H pool (CmpctBlockMessage.fromBlock H block nonce)).Covers
      block.txBytes (· < block.transactions.length) := by
  obtain ⟨coinbase, rest, htxs⟩ := List.exists_cons_of_ne_nil hne
  rw [buildCompactCandidate_eq htxs]
  have hstart : CompactCandidate.Covers block.txBytes (· = 0)
      ⟨fillSlots .empty [(0, coinbase.serialize true)], [], rest.length + 1⟩ := by
    refine ⟨by simp [Block.txBytes, htxs], ?_, by simp, ?_⟩
    · intro i txBytes hi
      rw [prefilled_get?] at hi
      split_ifs at hi with hzero
      cases hi
      simp [Block.txBytes, htxs, hzero]
    · intro i hi
      left
      simp [prefilled_get?, hi]
  have hplaced := hstart.placeAll (shortidMap H
    (CmpctBlockMessage.fromBlock H block nonce) (mempoolTransactions pool))
    (((List.range rest.length).map Nat.succ).zip (rest.map fun tx =>
        compactShortid H block.header.serialize nonce (tx.txid H))) ?_
  · refine ⟨hplaced.total, hplaced.fills, hplaced.missing, ?_⟩
    intro i hi
    apply hplaced.covered
    rw [List.map_fst_zip (by simp)]
    rw [htxs, List.length_cons] at hi
    simp only [List.mem_map, List.mem_range]
    by_cases hzero : i = 0
    · exact Or.inl hzero
    · exact Or.inr ⟨i - 1, by omega, by omega⟩
  · -- the pair at position `j` is the index `j + 1` with the short id of that transaction
    intro p hp
    obtain ⟨j, hj, rfl⟩ := List.mem_iff_getElem.1 hp
    have hlt : j < rest.length := by simpa using hj
    have htx : block.transactions[j + 1]? = some rest[j] := by simp [htxs, hlt]
    simp only [List.getElem_zip, List.getElem_map, List.getElem_range]
    refine ⟨by simp [Block.txBytes, htxs, hlt], ?_⟩
    intro txBytes hslot
    obtain ⟨tx, hmem, hsid, hbytes⟩ := shortidMap_sound hslot
    have hsame := hsep tx (List.mem_append_right _ hmem) rest[j]
      (List.mem_append_left _ (List.mem_of_getElem? htx)) hsid
    simp [Block.txBytes, htx, ← hbytes, hsame]

lemma length_missing_buildCompactCandidate (H : Hashlib) (pool : Option (Mempool F))
    (nonce : UInt64) (hne : block.transactions ≠ []) :
    (buildCompactCandidate H pool (CmpctBlockMessage.fromBlock H block nonce)).missing.length ≤
      block.transactions.length := by
  obtain ⟨coinbase, rest, htxs⟩ := List.exists_cons_of_ne_nil hne
  rw [buildCompactCandidate_eq htxs, htxs]
  apply (length_missing_placeAll _ _).trans
  simp

/-- The sender has every transaction it is asked for. -/
lemma filterMap_txBytes {indexes : List ℕ} (h : ∀ i ∈ indexes, i < block.transactions.length) :
    (indexes.filterMap fun i => block.transactions[i]?.map (·.serialize true)) =
      indexes.map fun i => block.txBytes.getD i [] := by
  induction indexes with
  | nil => rfl
  | cons i rest ih =>
    have hi := h i List.mem_cons_self
    rw [List.filterMap_cons, ih fun j hj => h j (List.mem_cons_of_mem i hj)]
    simp [Block.txBytes, hi]

namespace CompactCandidate.Covers
variable {c : CompactCandidate} {done : ℕ → Prop}

lemma lt_length (h : c.Covers block.txBytes done) {i : ℕ} (hi : i ∈ c.missing) :
    i < block.transactions.length := by
  simpa [Block.txBytes] using h.missing i hi

lemma fill (h : c.Covers block.txBytes done) (hash header : Bytes)
    (hdone : ∀ i < block.transactions.length, done i) :
    ∃ txSlots, (c.pending header).fill
        ⟨hash, c.missing.map fun i => block.txBytes.getD i []⟩ = some txSlots ∧
      Fills block.txBytes txSlots ∧
        ∀ i < block.transactions.length, (txSlots.get? i).isSome := by
  refine ⟨_, if_neg (by simp), ?_, ?_⟩
  · apply h.fills.fillSlots
    intro p hp
    obtain ⟨j, hj, rfl⟩ := List.mem_iff_getElem.1 hp
    have hlt := h.missing _ (List.getElem_mem (show j < c.missing.length by simp at hj; omega))
    simp [List.getD, hlt]
  · intro i hi
    apply fillSlots_covers
    rw [List.map_fst_zip (by simp)]
    exact h.covered i (hdone i hi)

lemma request_inRange (h : c.Covers block.txBytes done) (hblock : block.Sendable)
    (hcount : c.missing.length ≤ block.transactions.length) {hash : Bytes}
    (hhash : hash.length = 32) : GetBlockTxnMessage.InRange ⟨hash, c.missing⟩ := by
  have hcounted := Block.count_le_length_serialize block
  have hsize := hblock.size
  refine ⟨hhash, by simp only; omega, ?_⟩
  intro i hi
  have hlt := h.lt_length hi
  omega

lemma reply_inRange (h : c.Covers block.txBytes done) (hblock : block.Sendable)
    (hcount : c.missing.length ≤ block.transactions.length) {hash : Bytes}
    (hhash : hash.length = 32) :
    BlockTxnMessage.InRange ⟨hash, c.missing.map fun i => block.txBytes.getD i []⟩ := by
  have hcounted := Block.count_le_length_serialize block
  have hsize := hblock.size
  refine ⟨hhash, by simp only [List.length_map]; omega, ?_⟩
  intro txBytes htx
  obtain ⟨i, hi, rfl⟩ := List.mem_map.1 htx
  have hlt := h.lt_length hi
  have hle := Block.length_serialize_tx_le block (List.getElem_mem hlt)
  simpa [Block.txBytes, List.getD, hlt] using hle.trans_lt hsize

end CompactCandidate.Covers

theorem relayCompact_eq_serialize {getBlock : Bytes → Option Block}
    (hsha : ∀ data, (H.sha256 data).length = 32) (hblock : block.Sendable)
    (hne : block.transactions ≠ []) (hsender : getBlock (block.header.hashHex H) = some block)
    (hsep : ShortidsSeparate H block.header.serialize nonce
      (block.transactions ++ mempoolTransactions pool)) :
    relayCompact H getBlock pool (CmpctBlockMessage.fromBlock H block nonce) =
      .ok (some (block.serialize true)) := by
  have hrange := hblock.fromBlock_inRange H nonce
  have hcovers := buildCompactCandidate_covers hne hsep
  have hcount := length_missing_buildCompactCandidate H pool nonce hne
  have hlength : block.txBytes.length = block.transactions.length := by simp [Block.txBytes]
  have hassembled {txSlots : KeyedRows ℕ Bytes} (hfills : Fills block.txBytes txSlots)
      (hfilled : ∀ i < block.transactions.length, (txSlots.get? i).isSome) :
      compactPayload block.header.serialize txSlots block.txBytes.length =
        some (block.serialize true) := by
    rw [compactPayload_eq _ (by simpa [Block.txBytes] using hne) hfills (by rwa [hlength]), hlength,
      Block.serialize, List.flatMap_def, Block.txBytes]
  have hheader : (CmpctBlockMessage.fromBlock H block nonce).header = block.header.serialize := rfl
  have hread := (CmpctBlockMessage.deserialize_decodes hrange).last.whole
  unfold relayCompact
  simp only [CmpctBlockMessage.serialize_ok hrange, hread, bind, Except.bind, pure, Except.pure]
  generalize buildCompactCandidate H pool (CmpctBlockMessage.fromBlock H block nonce) = candidate
    at hcovers hcount ⊢
  by_cases hmissing : candidate.missing = []
  · have hfilled : ∀ i < block.transactions.length, (candidate.txSlots.get? i).isSome := by
      intro i hi
      have hi' := hcovers.covered i hi
      simpa [hmissing] using hi'
    rw [if_pos hmissing, hcovers.total, hheader, hassembled hcovers.fills hfilled]
  · have hhash : ((CmpctBlockMessage.fromBlock H block nonce).blockHash H).length = 32 := hsha _
    have hsender' : getBlock ((CmpctBlockMessage.fromBlock H block nonce).blockHash H).reverse =
        some block := hsender
    have hanswered := filterMap_txBytes fun i hi => hcovers.lt_length hi
    obtain ⟨txSlots, hfill, hfills, hfilled⟩ := hcovers.fill
      ((CmpctBlockMessage.fromBlock H block nonce).blockHash H) block.header.serialize
      (fun i hi => hi)
    rw [if_neg hmissing, (GetBlockTxnMessage.deserialize_decodes
      (hcovers.request_inRange hblock hcount hhash)).last.whole]
    simp only [answerGetblocktxn, hsender', Option.map_some, hanswered]
    rw [(BlockTxnMessage.deserialize_decodes
      (hcovers.reply_inRange hblock hcount hhash)).last.whole]
    simp only [hheader, hfill, Option.bind_some, CompactCandidate.pending_header,
      CompactCandidate.pending_totalTxs, hcovers.total, hassembled hfills hfilled]

/-- A block whose encoding can be read back at all arrives as it was sent. -/
theorem finalizeCompactBlock_eq_some {header : Bytes} {txSlots : KeyedRows ℕ Bytes} {totalTxs : ℕ}
    (hpayload : compactPayload header txSlots totalTxs = some (block.serialize true))
    (hrange : block.InRange) (hvin : ∀ tx ∈ block.transactions, tx.vin ≠ [])
    (huniform : ∀ tx ∈ block.transactions, tx.UniformWitness) :
    finalizeCompactBlock header txSlots totalTxs = some block := by
  have hread := (Block.deserialize_decodes hrange hvin huniform).last.whole
  simp [finalizeCompactBlock, hpayload, hread, Except.toOption]

end relay

namespace CompactExample
open BlockExample (coinbase1Id)
open MerkleExample (block firstId secondId spend)

def key : ℕ := 0xeb1605d8e14639f4cbaada431be30730e1f7cef76d0799e4ceb2d99fde8f598d

def hashlib : Hashlib := Hashlib.padded <| MerkleExample.hashlib.withDigests [
  (block.header.serialize ++ writeUint64 0,
    0x25e2bff73ecd1e45306d7e0bd20ac1183f890b32bf7aa03176b5a300b77b99ff, key),
  (beBytes 32 key ++ beBytes 32 coinbase1Id,
    0xa6d638adce3d641ee869a674dc202dc6aa159c32eb1e430f3800abefd5b19b54,
    0xdf3657c60ae54a30f35ebb6ad5fad91ed6667b5124fb52c1690ffe744cce02a0),
  (beBytes 32 key ++ beBytes 32 firstId,
    0x0a2b79587d20ee983576035dd233e0b32c73a9b45bb3729e2601d3aeb54ed40b,
    0x00268cc551fc04301daf8e2b1101fcb599db386af534638993f5f0f1d561f16b),
  (beBytes 32 key ++ beBytes 32 secondId,
    0xe2cf5df91c123d6bd3b8a04f1063626a1776a11f64dd4be4f6f888ea072e26b2,
    0xce3b180debfb059e239be3ccbe56b323ac06712a86169f37ce15d4685b9e554e)]

lemma length_sha256 (data : Bytes) : (hashlib.sha256 data).length = 32 := Hashlib.length_padded _ data

/-- The sender has one block. -/
def sender (block : Block) (blockHash : Bytes) : Option Block :=
  if blockHash = block.header.hashHex hashlib then some block else none

def entry : MempoolEntry ℚ :=
  { tx := spend 0x11 900
    txid := beBytes 32 firstId
    size := 61
    vsize := 61
    weight := 244
    fee := 100
    feeRate := 100 / 61
    timeAdded := 0
    heightAdded := 1
    ancestors := []
    descendants := [] }

/-- The receiver lacks the last transaction of the block. -/
def pool : Mempool ℚ :=
  { (Mempool.empty : Mempool ℚ) with transactions := KeyedRows.empty.put (beBytes 32 firstId) entry }

def emptyBlock : Block := ⟨block.header, []⟩

lemma sendable : block.Sendable := ⟨by constructor <;> rfl, by decide +kernel⟩

lemma emptyBlock_sendable : emptyBlock.Sendable := ⟨by constructor <;> rfl, by decide +kernel⟩

end CompactExample

open CompactExample in
theorem relayCompact_missing_one :
    relayCompact hashlib (sender MerkleExample.block) (some pool)
        (CmpctBlockMessage.fromBlock hashlib MerkleExample.block 0) =
      .ok (some (MerkleExample.block.serialize true)) :=
  relayCompact_eq_serialize length_sha256 sendable (by decide) (if_pos rfl) (by decide +kernel)

open CompactExample in
/-- A block without transactions is not assembled. -/
theorem relayCompact_no_transactions :
    emptyBlock.Sendable ∧ sender emptyBlock (emptyBlock.header.hashHex hashlib) = some emptyBlock ∧
      ShortidsSeparate hashlib emptyBlock.header.serialize 0
        (emptyBlock.transactions ++ mempoolTransactions (some pool)) ∧
      relayCompact hashlib (sender emptyBlock) (some pool)
        (CmpctBlockMessage.fromBlock hashlib emptyBlock 0) = .ok none :=
  ⟨emptyBlock_sendable, if_pos rfl, by decide +kernel, by decide +kernel⟩

end BerzCoin
