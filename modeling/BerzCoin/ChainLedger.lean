import BerzCoin.ChainReorgContext
import BerzCoin.ChainWalks
import BerzCoin.UndoHistory
import BerzCoin.ValidationRoundTrip

/-! The UTXO table as the ledger of a chain of blocks: each connected block is an update of the map
from outpoints to rows, and its undo rows are the log of the update. -/
namespace BerzCoin
open Database BlockIndex UndoLog

/-- A block of the chain, with the network that the addresses of its outputs were made for. -/
structure Connected where
  network : Network
  block : Block

lemma Connected.map_block {network : Network} {chain : List Connected}
    (h : ∀ c ∈ chain, c.network = network) :
    (chain.map Connected.block).map (Connected.mk network) = chain := by
  induction chain with
  | nil => rfl
  | cons c past ih =>
    have hnet := h c (List.mem_cons_self ..)
    rw [List.map_cons, List.map_cons, ih fun x hx => h x (List.mem_cons_of_mem _ hx), ← hnet]

/-- What the blocks of a chain do to the UTXO map, the latest first. The first block above the root
has height 1. -/
def updates (H : Hashlib) : List Connected → List (Update Bytes Outpoint UndoId UtxoRow)
  | [] => []
  | c :: past => ⟨c.block.header.hashHex H,
      c.block.transactions.map (txStep H c.network (past.length + 1))⟩ :: updates H past

/-- A chain from a root up to a tip: each block names the one below it as its parent. -/
inductive Linked (H : Hashlib) (root : Bytes) : List Connected → Bytes → Prop
  | root : Linked H root [] root
  | block {c : Connected} {past : List Connected}
      (below : Linked H root past c.block.header.prevBlockHash) :
      Linked H root (c :: past) (c.block.header.hashHex H)

/-- Each block of the chain is accepted on the map that the blocks below it make of `base`. -/
def Approved (H : Hashlib) (accepts : Store Outpoint UtxoRow → ℕ → Block → Prop)
    (base : Store Outpoint UtxoRow) : List Connected → Prop
  | [] => True
  | c :: past => Approved H accepts base past ∧
      ∀ before, replay base (updates H past) = some before → accepts before (past.length + 1) c.block

/-- The UTXO table is what the chain makes of `base`, and the undo rows of its blocks are there. -/
def Reflects (H : Hashlib) (base : Store Outpoint UtxoRow) (chain : List Connected)
    (tables : Tables) : Prop :=
  Follows base (updates H chain) tables.utxo.get? fun k => undoView k tables

section updates
variable {H : Hashlib} {base : Store Outpoint UtxoRow} {chain past : List Connected}
variable {tables tables' : Tables}

lemma mem_updates {u : Update Bytes Outpoint UndoId UtxoRow} (h : u ∈ updates H chain) :
    ∃ c ∈ chain, u.name = c.block.header.hashHex H ∧
      ∀ k ∈ u.outs, ∃ tx ∈ c.block.transactions, k.1 = tx.txid H := by
  induction chain with
  | nil => cases h
  | cons c past ih =>
    rcases List.mem_cons.1 h with rfl | h
    · refine ⟨c, List.mem_cons_self .., rfl, ?_⟩
      intro k hk
      obtain ⟨step, hstep, hout⟩ := List.mem_flatMap.1 hk
      obtain ⟨tx, htx, rfl⟩ := List.mem_map.1 hstep
      exact ⟨tx, htx, (mem_outsFrom.1 hout).1⟩
    · obtain ⟨c', hc', hrest⟩ := ih h
      exact ⟨c', List.mem_cons_of_mem _ hc', hrest⟩

lemma Reflects.congr (h : Reflects H base chain tables) (hutxo : tables'.utxo = tables.utxo)
    (hundo : tables'.blockUndo = tables.blockUndo) : Reflects H base chain tables' := by
  have hview : (fun k => undoView k tables') = fun k => undoView k tables := by
    funext k id
    simp only [undoView, hundo]
  rw [Reflects, hview, hutxo]
  exact h

lemma Reflects.nil (H : Hashlib) (tables : Tables) : Reflects H tables.utxo.get? [] tables :=
  Follows.nil

/-- Identifiers of the undo log name the spending transaction and its input. -/
lemma mem_takesFrom {txid id : Bytes} {i₀ i : ℕ} {k : Outpoint} {vin : List TxIn}
    (h : ((id, i), k) ∈ takesFrom txid i₀ vin) :
    id = txid ∧ i₀ ≤ i ∧ (vin.map TxIn.outpoint)[i - i₀]? = some k := by
  induction vin generalizing i₀ with
  | nil => cases h
  | cons txin vin ih =>
    rcases List.mem_cons.1 h with heq | h
    · simp only [Prod.mk.injEq] at heq
      obtain ⟨⟨rfl, rfl⟩, rfl⟩ := heq
      simp
    · obtain ⟨hid, hle, hget⟩ := ih h
      have hsub : i - i₀ = i - (i₀ + 1) + 1 := by omega
      refine ⟨hid, by omega, ?_⟩
      rw [hsub]
      simpa using hget

/-- The ids of its transactions tell the transactions of a block apart. -/
lemma consistent_of_nodup {txs : List Transaction} (h : (txs.map (·.txid H)).Nodup)
    (network : Network) (height : ℕ) : Consistent (txs.map (txStep H network height)) := by
  have htakes {tx : Transaction} {id : Bytes} {i : ℕ} {k : Outpoint}
      (hk : ((id, i), k) ∈ (txStep H network height tx).takes) :
      id = tx.txid H ∧ (tx.vin.map TxIn.outpoint)[i]? = some k := by
    simp only [txStep] at hk
    split_ifs at hk
    · cases hk
    · obtain ⟨hid, -, hget⟩ := mem_takesFrom hk
      exact ⟨hid, by simpa using hget⟩
  rintro _ hstep _ hstep' ⟨id, i⟩ k k' hk hk'
  obtain ⟨tx, htx, rfl⟩ := List.mem_map.1 hstep
  obtain ⟨tx', htx', rfl⟩ := List.mem_map.1 hstep'
  obtain ⟨hid, hget⟩ := htakes hk
  obtain ⟨hid', hget'⟩ := htakes hk'
  obtain rfl : tx = tx' := List.inj_on_of_nodup_map h htx htx' (hid.symm.trans hid')
  exact Option.some.inj (hget.symm.trans hget')

/-- A row without the address, which is the one part of it that depends on the network. -/
def withoutAddress (row : UtxoRow) : UtxoRow := { row with address := none }

lemma putsFrom_agree (network network' : Network) (height : ℕ) (txid : Bytes) (isCoinbase : Bool)
    (i : ℕ) (vout : List TxOut) :
    (putsFrom H network height txid isCoinbase i vout).map (Prod.map id withoutAddress) =
      (putsFrom H network' height txid isCoinbase i vout).map (Prod.map id withoutAddress) := by
  induction vout generalizing i with
  | nil => rfl
  | cons txout vout ih =>
    simp only [putsFrom]
    split_ifs
    · exact ih (i + 1)
    · obtain ⟨address, haddress⟩ := extractAddress_ok H network txout.scriptPubkey
      obtain ⟨address', haddress'⟩ := extractAddress_ok H network' txout.scriptPubkey
      simp only [outputRow, haddress, haddress']
      cases hvalue : bindInt txout.value.toNat with
      | error e => exact ih (i + 1)
      | ok value =>
        have hrest := ih (i + 1)
        simp only [bind, Except.bind, pure, Except.pure, List.map_cons, hrest]
        rfl

/-- Chains of the same blocks differ in the addresses only. -/
lemma updates_agree {chain' : List Connected}
    (h : chain.map Connected.block = chain'.map Connected.block) :
    List.Forall₂ (Update.Agree withoutAddress) (updates H chain) (updates H chain') := by
  induction chain generalizing chain' with
  | nil =>
    obtain rfl : chain' = [] := List.map_eq_nil_iff.1 h.symm
    exact .nil
  | cons c past ih =>
    cases chain' with
    | nil => cases h
    | cons c' past' =>
      obtain ⟨hblock, hpast⟩ := List.cons.inj h
      have hlength : past.length = past'.length := by
        simpa using congrArg List.length hpast
      refine .cons ?_ (ih hpast)
      rw [Update.Agree, ← hblock, ← hlength, List.forall₂_map_left_iff, List.forall₂_map_right_iff]
      exact List.forall₂_same.2 fun tx _ => ⟨rfl, putsFrom_agree ..⟩

end updates

/-! Connecting a block prolongs the chain, and disconnecting it shortens the chain. -/
section blocks
variable {H : Hashlib} {network : Network} {blockHash : Bytes} {height : ℕ} {block : Block}
variable {base : Store Outpoint UtxoRow} {past : List Connected} {d d' : Tables × BlockIndex}

/-- Connecting a block leaves the undo rows of the others. -/
lemma connectBody_undo (h : inside (connectBody H network blockHash height block) d = .ok () d')
    {k : Bytes} (hk : k ≠ blockHash) : undoView k d'.1 = undoView k d.1 := by
  let P : Tables → Prop := fun tables => undoView k tables = undoView k d.1
  have hwithout : P (withoutUndo blockHash d.1) := by
    funext id
    simp [undoView, withoutUndo, hk]
  have hops := @applyOps_keeps H network blockHash height P (blockOps H block.transactions) (by
    intro op _ tables tables' happ hP
    refine Eq.trans ?_ hP
    funext id
    cases op with
    | spend txid inIdx txin =>
      obtain ⟨row, -, rfl⟩ := Option.map_eq_some_iff.1 happ
      simp [undoView, Tables.spend, hk]
    | add txid isCoinbase i txout =>
      simp only [UtxoOp.apply] at happ
      split at happ
      · cases happ
        rfl
      · split at happ
        · cases happ
          rfl
        · cases happ) _ hwithout
  have hbody := connectBody_inside H network blockHash height block d.1 d.2
  rcases happ : applyOps H network blockHash height (blockOps H block.transactions)
    (withoutUndo blockHash d.1) with ⟨tables', ok⟩
  rw [happ] at hbody hops
  cases ok with
  | false =>
    obtain ⟨e, he⟩ := hbody
    rw [he] at h
    cases h
  | true =>
    simp only [finishConnect_inside] at hbody
    rw [hbody] at h
    obtain ⟨-, hundo, -⟩ := markMain_utxo blockHash true (tables', d.2)
    cases htxs : block.transactions with
    | nil => simp [htxs] at h
    | cons first txs =>
      simp only [htxs, EStateM.Result.ok.injEq, true_and] at h
      refine Eq.trans ?_ hops
      rw [← h]
      funext id
      simp only [undoView, hundo]

lemma Reflects.connectBody (hpast : Reflects H base past d.1)
    (hnew : ∀ c ∈ past, c.block.header.hashHex H ≠ block.header.hashHex H)
    (h : inside (connectBody H network (block.header.hashHex H) (past.length + 1) block) d = .ok () d') :
    Reflects H base (⟨network, block⟩ :: past) d'.1 := by
  refine Follows.push hpast ?_ ?_
  · exact (connectBody_views h).1
  · intro v hv
    obtain ⟨c, hc, hname, -⟩ := mem_updates hv
    simp only [hname]
    exact connectBody_undo h (hnew c hc)

lemma Reflects.connect (hpast : Reflects H base past d.1)
    (hnew : ∀ c ∈ past, c.block.header.hashHex H ≠ block.header.hashHex H)
    (hheight : d.2.getHeight (block.header.hashHex H) = some (past.length + 1))
    (h : inside (connect H network block) d = .ok true d') :
    Reflects H base (⟨network, block⟩ :: past) d'.1 := by
  rw [inside_connect, hheight] at h
  simp only at h
  cases hbody : inside (BerzCoin.connectBody H network (block.header.hashHex H) (past.length + 1) block)
      d with
  | error e d₁ => simp [hbody] at h
  | ok u d₁ =>
    simp only [hbody] at h
    cases h
    exact hpast.connectBody hnew hbody

/-- Disconnecting the latest block never fails, and it leaves the chain below. -/
lemma Reflects.disconnect {c : Connected} (hchain : Reflects H base (c :: past) d.1)
    (hfresh : Fresh base (updates H (c :: past)))
    (hnodup : (c.block.transactions.map (·.txid H)).Nodup)
    (hnew : ∀ c' ∈ past, c'.block.header.hashHex H ≠ c.block.header.hashHex H)
    (hheight : d.2.getHeight (c.block.header.hashHex H) ≠ none) :
    ∃ d', inside (disconnect H c.block) d = .ok true d' ∧ Reflects H base past d'.1 := by
  obtain ⟨before, hundo, hpast⟩ := Follows.pop hchain hfresh (consistent_of_nodup hnodup _ _)
  obtain ⟨d', hbody, hutxo, hrows⟩ := disconnectBody_views c.network (past.length + 1) d.2 hundo
  obtain ⟨height, hheight⟩ := Option.ne_none_iff_exists'.1 hheight
  refine ⟨d', ?_, ?_⟩
  · rw [inside_disconnect, hheight]
    simp only [hbody]
  · rw [Reflects, hutxo]
    refine hpast.congr ?_
    intro v hv
    obtain ⟨c', hc', hname, -⟩ := mem_updates hv
    funext id
    simp [undoView, hrows, hname, hnew c' hc']

end blocks
end BerzCoin
