import BerzCoin.ChainReorgPreflight
import BerzCoin.StorageBlocks

/-! Data that only grows. A measure of the tables that no statement of an action takes down is not
taken down by the action, whether it returns or raises and whether or not a transaction is open.
The ids in the table `transactions` are such a measure for all that the node does. A property is a
measure too: it is kept. -/
namespace BerzCoin
open Database

namespace Database
variable {σ ι α β γ : Type} [Preorder γ]

structure Grows (f : σ → γ) (x : Db σ ι α) : Prop where
  client : Client x
  le : ∀ s, f s.conn.current ≤ f (x.final s).conn.current

namespace Grows
variable {f : σ → γ} {x : Db σ ι α}

lemma ret (a : α) : Grows f (pure a : Db σ ι α) := ⟨.ret a, fun _ => le_refl _⟩

lemma raise (e : PyError) : Grows f (throw e : Db σ ι α) := ⟨.raise e, fun _ => le_refl _⟩

lemma memory (g : ι → α × ι) : Grows f (onMemory g : Db σ ι α) := ⟨.memory g, fun _ => le_refl _⟩

lemma execute {stmt : Statement σ α}
    (h : ∀ data data' a, stmt.run data = .ok (data', a) → f data ≤ f data') :
    Grows f (Database.execute stmt : Db σ ι α) := by
  refine ⟨.execute stmt, ?_⟩
  intro s
  have hcurrent : (if stmt.isDml then s.conn.openImplicitly else s.conn).current = s.conn.current := by
    split_ifs <;> simp
  simp only [Db.final, Database.execute, hcurrent]
  cases hrun : stmt.run s.conn.current with
  | error e => rw [hcurrent]
  | ok p =>
    simp only [SqlConnection.current_write]
    exact h _ p.1 p.2 hrun

lemma query (g : σ → α) : Grows f (Database.execute (.query g) : Db σ ι α) :=
  .execute fun _ _ _ h => by cases h; exact le_refl _

lemma change {g : σ → σ} (hg : ∀ data, f data ≤ f (g data)) :
    Grows f (Database.execute (.change g) : Db σ ι Unit) :=
  .execute fun data _ _ h => by cases h; exact hg data

lemma bind {k : α → Db σ ι β} (hx : Grows f x) (hk : ∀ a, Grows f (k a)) : Grows f (x >>= k) := by
  refine ⟨.bind hx.client fun a => (hk a).client, ?_⟩
  intro s
  have hfirst := hx.le s
  rw [Db.final_bind]
  simp only [Db.final] at hfirst
  cases hxs : x s with
  | ok a s' =>
    rw [hxs] at hfirst
    exact hfirst.trans ((hk a).le s')
  | error e s' =>
    rw [hxs] at hfirst
    exact hfirst

lemma handle {k : PyError → Db σ ι α} (hx : Grows f x) (hk : ∀ e, Grows f (k e)) :
    Grows f (tryCatch x k : Db σ ι α) := by
  refine ⟨.handle hx.client fun e => (hk e).client, ?_⟩
  intro s
  have hfirst := hx.le s
  rw [Db.final_tryCatch]
  simp only [Db.final] at hfirst
  cases hxs : x s with
  | ok a s' =>
    rw [hxs] at hfirst
    exact hfirst
  | error e s' =>
    rw [hxs] at hfirst
    exact hfirst.trans ((hk e).le s')

/-- A block that opens its own transaction undoes no more than it did itself. -/
lemma transaction (hx : Grows f x) : Grows f (Database.transaction x) := by
  refine ⟨.transaction hx.client, ?_⟩
  intro s
  by_cases hopen : s.conn.inTransaction = true
  · rw [transaction_of_open x hopen]
    exact hx.le s
  · have hclosed : s.conn.inTransaction = false := by simpa using hopen
    have hbody := hx.le { s with conn := s.conn.begin }
    unfold Db.final
    cases hs : Database.transaction x s with
    | error e s' =>
      simp only
      rw [transaction_error_of_closed hx.client hclosed hs]
    | ok a s' =>
      simp only [Database.transaction, hclosed] at hs
      simp only [Db.final] at hbody
      cases hb : x { s with conn := s.conn.begin } with
      | error e t => simp [hb] at hs
      | ok b t =>
        rw [hb] at hbody
        simp only [hb] at hs
        cases hs
        exact hbody

/-- The data of client code that returned inside a transaction. -/
lemma inside {d d' : σ × ι} {a : α} (hx : Grows f x) (h : Database.inside x d = .ok a d') :
    f d.1 ≤ f d'.1 := by
  have hle := hx.le (openSession d)
  unfold Database.inside at h
  unfold Db.final at hle
  cases hs : x (openSession d) with
  | error e s => simp [hs, Db.project] at h
  | ok b s =>
    simp only [hs, Db.project, EStateM.Result.ok.injEq] at h
    rw [hs] at hle
    rw [← h.2]
    exact hle

end Grows

/-- An action that keeps a property of the tables and one of the memory, whether it returns or
raises, and returns something with a third one. -/
structure Yields (P : σ → Prop) (I : ι → Prop) (x : Db σ ι α) (Q : α → Prop) : Prop where
  ok : ∀ s a s', P s.conn.current → I s.memory → x s = .ok a s' →
    (P s'.conn.current ∧ I s'.memory) ∧ Q a
  error : ∀ s e s', P s.conn.current → I s.memory → x s = .error e s' →
    P s'.conn.current ∧ I s'.memory

namespace Yields
variable {P : σ → Prop} {I : ι → Prop} {x : Db σ ι α} {Q Q' : α → Prop} {R : β → Prop}

lemma ret {a : α} (h : Q a) : Yields P I (pure a : Db σ ι α) Q := by
  refine ⟨?_, ?_⟩
  · intro s b s' hs hm hx
    cases hx
    exact ⟨⟨hs, hm⟩, h⟩
  · intro s e s' _ _ hx
    cases hx

lemma raise (e : PyError) : Yields P I (throw e : Db σ ι α) Q := by
  refine ⟨?_, ?_⟩
  · intro s b s' _ _ hx
    cases hx
  · intro s e' s' hs hm hx
    cases hx
    exact ⟨hs, hm⟩

lemma of_grows (hx : Grows P x) (hI : Preserves I x) : Yields P I x fun _ => True := by
  refine ⟨?_, ?_⟩
  · intro s a s' hs hm h
    have hle := hx.le s hs
    have hkept := hI s hm
    rw [Db.final, h] at hle hkept
    exact ⟨⟨hle, hkept⟩, trivial⟩
  · intro s e s' hs hm h
    have hle := hx.le s hs
    have hkept := hI s hm
    rw [Db.final, h] at hle hkept
    exact ⟨hle, hkept⟩

lemma query (f : σ → α) : Yields P I (Database.execute (.query f) : Db σ ι α) fun a =>
    ∃ data, P data ∧ a = f data := by
  refine ⟨?_, ?_⟩
  · intro s a s' hs hm h
    rw [query_apply] at h
    cases h
    exact ⟨⟨hs, hm⟩, _, hs, rfl⟩
  · intro s e s' _ _ h
    rw [query_apply] at h
    cases h

lemma bind {f : α → Db σ ι β} (hx : Yields P I x Q) (hf : ∀ a, Q a → Yields P I (f a) R) :
    Yields P I (x >>= f) R := by
  refine ⟨?_, ?_⟩
  · intro s b s' hs hm h
    rw [Db.bind_apply] at h
    cases hxs : x s with
    | error e t => simp [hxs] at h
    | ok a t =>
      obtain ⟨⟨ht, hmt⟩, ha⟩ := hx.ok s a t hs hm hxs
      simp only [hxs] at h
      exact (hf a ha).ok t b s' ht hmt h
  · intro s e s' hs hm h
    rw [Db.bind_apply] at h
    cases hxs : x s with
    | error e' t =>
      simp only [hxs] at h
      cases h
      exact hx.error s e s' hs hm hxs
    | ok a t =>
      obtain ⟨⟨ht, hmt⟩, ha⟩ := hx.ok s a t hs hm hxs
      simp only [hxs] at h
      exact (hf a ha).error t e s' ht hmt h

lemma weaken (hx : Yields P I x Q) (h : ∀ a, Q a → Q' a) : Yields P I x Q' := by
  refine ⟨?_, hx.error⟩
  intro s a s' hs hm hxs
  obtain ⟨hs', ha⟩ := hx.ok s a s' hs hm hxs
  exact ⟨hs', h a ha⟩

/-- What is shown without the memory holds with it. -/
lemma preserving (hx : Yields P (fun _ => True) x Q) (hI : Preserves I x) : Yields P I x Q := by
  refine ⟨?_, ?_⟩
  · intro s a s' hs hm h
    obtain ⟨⟨hs', -⟩, ha⟩ := hx.ok s a s' hs trivial h
    have hkept := hI s hm
    rw [Db.final, h] at hkept
    exact ⟨⟨hs', hkept⟩, ha⟩
  · intro s e s' hs hm h
    have hkept := hI s hm
    rw [Db.final, h] at hkept
    exact ⟨(hx.error s e s' hs trivial h).1, hkept⟩

lemma free (hx : Grows P x) : Yields P (fun _ => True) x fun _ => True :=
  .of_grows hx fun _ _ => trivial

/-- A block that raises undoes its tables, at most, and leaves the memory. -/
lemma transaction (hclient : Client x) (hx : Yields P I x Q) :
    Yields P I (Database.transaction x) Q := by
  refine ⟨?_, ?_⟩
  · intro s a s' hs hm h
    unfold Database.transaction at h
    split_ifs at h
    · cases hbody : x s with
      | error e t => simp [hbody] at h
      | ok b t =>
        simp only [hbody] at h
        cases h
        exact hx.ok s a s' hs hm hbody
    · cases hbody : x { s with conn := s.conn.begin } with
      | error e t => simp [hbody] at h
      | ok b t =>
        simp only [hbody] at h
        cases h
        exact hx.ok { s with conn := s.conn.begin } a t hs hm hbody
  · intro s e s' hs hm h
    by_cases hopen : s.conn.inTransaction = true
    · simp only [Database.transaction, hopen, if_true] at h
      cases hbody : x s with
      | ok b t => simp [hbody] at h
      | error e' t =>
        simp only [hbody] at h
        cases h
        exact hx.error s e' s' hs hm hbody
    · have hclosed : s.conn.inTransaction = false := by simpa using hopen
      have hconn := transaction_error_of_closed hclient hclosed h
      simp only [Database.transaction, hclosed, Bool.false_eq_true, if_false] at h
      cases hbody : x { s with conn := s.conn.begin } with
      | ok b t => simp [hbody] at h
      | error e' t =>
        simp only [hbody] at h
        cases h
        rw [hconn]
        exact ⟨hs, (hx.error { s with conn := s.conn.begin } e' t hs hm hbody).2⟩

end Yields
end Database

/-- The transactions that have a row, on whatever branch their block is. -/
def Tables.known (tables : Tables) : Set Bytes := {txid | tables.transactions.get? txid ≠ none}

/-- A measure of the UTXO set, the blocks and the transactions that only an output which comes back
and a stored block can take down. -/
structure Tables.Steady {γ : Type} [Preorder γ] (f : Tables → γ) : Prop where
  rows : ∀ tables tables', tables'.utxo = tables.utxo → tables'.transactions = tables.transactions →
    tables'.blocks = tables.blocks → f tables ≤ f tables'
  insert : ∀ column tables txid row rows,
    uniqueInsert column tables.transactions txid row = .ok rows →
      f tables ≤ f { tables with transactions := rows }
  delete : ∀ tables key, f tables ≤ f { tables with utxo := tables.utxo.delete key }
  update : ∀ tables key change, f tables ≤ f { tables with utxo := tables.utxo.update key change }

/-- Adding this output does not take the measure down. -/
def Tables.Admits {γ : Type} [Preorder γ] (f : Tables → γ) (key : Outpoint) : Prop :=
  ∀ tables row, f tables ≤ f { tables with utxo := tables.utxo.insertOrReplace key row }

lemma Tables.steady_known : Steady known where
  rows tables tables' _ htxs _ := by
    unfold known
    rw [htxs]
  insert column tables txid row rows h := by
    obtain ⟨-, hget⟩ := uniqueInsert_ok h
    intro k hk
    simp only [known, Set.mem_ofPred_eq, hget] at hk ⊢
    split_ifs
    · simp
    · exact hk
  delete _ _ := le_refl _
  update _ _ _ := le_refl _

lemma Tables.admits_known (key : Outpoint) : Admits known key := fun _ _ => le_refl _

section above
variable {γ : Type} [Preorder γ] {f : Tables → γ}

/-- Being above a bound is a property that is kept. -/
lemma Tables.Steady.above (hf : Steady f) (bound : γ) : Steady fun tables => bound ≤ f tables where
  rows tables tables' hutxo htxs hblocks h := h.trans (hf.rows tables tables' hutxo htxs hblocks)
  insert column tables txid row rows hrows h := h.trans (hf.insert column tables txid row rows hrows)
  delete tables key h := h.trans (hf.delete tables key)
  update tables key change h := h.trans (hf.update tables key change)

lemma Tables.Admits.above {key : Outpoint} (h : Admits f key) (bound : γ) :
    Admits (fun tables => bound ≤ f tables) key :=
  fun tables row hbound => hbound.trans (h tables row)

end above

section properties
variable {P Q : Tables → Prop}

lemma Tables.Steady.and (hP : Steady P) (hQ : Steady Q) : Steady fun tables => P tables ∧ Q tables where
  rows tables tables' hutxo htxs hblocks :=
    And.imp (hP.rows tables tables' hutxo htxs hblocks) (hQ.rows tables tables' hutxo htxs hblocks)
  insert column tables txid row rows hrows :=
    And.imp (hP.insert column tables txid row rows hrows) (hQ.insert column tables txid row rows hrows)
  delete tables key := And.imp (hP.delete tables key) (hQ.delete tables key)
  update tables key change := And.imp (hP.update tables key change) (hQ.update tables key change)

lemma Tables.Admits.and {key : Outpoint} (hP : Admits P key) (hQ : Admits Q key) :
    Admits (fun tables => P tables ∧ Q tables) key :=
  fun tables row => And.imp (hP tables row) (hQ tables row)

/-- A property of the rows of `blocks` alone. -/
lemma Tables.steady_blocks (R : KeyedRows Bytes BlockRow → Prop) : Steady fun tables => R tables.blocks where
  rows _ _ _ _ hblocks := by
    rw [hblocks]
  insert _ _ _ _ _ _ := le_refl _
  delete _ _ := le_refl _
  update _ _ _ := le_refl _

lemma Tables.admits_blocks (R : KeyedRows Bytes BlockRow → Prop) (key : Outpoint) :
    Admits (fun tables => R tables.blocks) key :=
  fun _ _ => le_refl _

end properties

/-! The statements and the loops of the store, of connecting and of disconnecting. -/
section actions
variable {ι γ : Type} [Preorder γ] {f : Tables → γ}

lemma liftExcept_grows {α : Type} (x : Except PyError α) :
    Grows f (liftExcept x : Db Tables ι α) := by
  cases x with
  | ok a => exact .ret a
  | error e => exact .raise e

lemma trueUnlessRaised_grows {x : Db Tables ι Unit} (hx : Grows f x) : Grows f (trueUnlessRaised x) :=
  .handle (.bind hx fun _ => .ret _) fun _ => .ret _

lemma Tables.Admits.addUtxo {txid : Bytes} {index : ℕ} (h : Tables.Admits f (txid, index))
    (value : ℕ) (scriptPubkey : Bytes) (height : ℕ) (isCoinbase : Bool) :
    Grows f (UTXOStore.addUtxo txid index value scriptPubkey height isCoinbase :
      Db Tables ι Unit) := by
  refine .execute fun tables tables' a hrun => ?_
  obtain ⟨row, -, hrow⟩ := except_bind_eq_ok hrun
  cases hrow
  exact h _ _

namespace Tables.Steady
variable (hf : Tables.Steady f)
include hf

lemma change {g : Tables → Tables} (hutxo : ∀ tables, (g tables).utxo = tables.utxo)
    (htxs : ∀ tables, (g tables).transactions = tables.transactions)
    (hblocks : ∀ tables, (g tables).blocks = tables.blocks) :
    Grows f (execute (.change g) : Db Tables ι Unit) :=
  .change fun tables => hf.rows _ _ (hutxo tables) (htxs tables) (hblocks tables)

lemma deleteUtxo (key : Outpoint) : Grows f (execute (UTXOStore.deleteUtxo key) : Db Tables ι ℕ) :=
  .execute fun _ _ _ h => by cases h; exact hf.delete _ _

lemma setAddress (key : Outpoint) (address : Option Text) :
    Grows f (execute (UTXOStore.setAddress key address) : Db Tables ι Unit) :=
  .change fun _ => hf.update _ _ _

lemma spendUtxo (txid : Bytes) (index : ℕ) (by' : Bytes) (byIndex : ℕ) :
    Grows f (UTXOStore.spendUtxo txid index by' byIndex : Db Tables ι Bool) := by
  refine .bind (hf.deleteUtxo _) fun rowcount => ?_
  split
  · exact .bind (hf.change (fun _ => rfl) (fun _ => rfl) fun _ => rfl) fun _ => .ret _
  · exact .ret _

lemma spendInputs (blockHash txid : Bytes) (inIdx : ℕ) (vin : List TxIn) :
    Grows f (BerzCoin.spendInputs blockHash txid inIdx vin) := by
  induction vin generalizing inIdx with
  | nil => exact .ret _
  | cons txin vin ih =>
    refine .bind (.bind (.query _) fun row => ?_) fun _ => ih _
    cases row with
    | none => exact .raise _
    | some row =>
      refine .bind (hf.change (fun _ => rfl) (fun _ => rfl) fun _ => rfl) fun _ =>
        .bind (hf.spendUtxo _ _ _ _) fun ok => ?_
      split
      · exact .raise _
      · exact .ret _

lemma addOutputs (H : Hashlib) (network : Network) (height : ℕ) {txid : Bytes} (isCoinbase : Bool)
    (i : ℕ) (vout : List TxOut) (hnew : ∀ i, Tables.Admits f (txid, i)) :
    Grows f (BerzCoin.addOutputs H network height txid isCoinbase i vout) := by
  induction vout generalizing i with
  | nil => exact .ret _
  | cons txout vout ih =>
    refine .bind ?_ fun _ => ih _
    unfold addOutput
    split
    · exact .ret _
    · refine .bind (liftExcept_grows _) fun address => .bind ((hnew i).addUtxo _ _ _ _) fun _ => ?_
      cases address with
      | none => exact .ret _
      | some address => exact hf.setAddress _ _

lemma connectTxs (H : Hashlib) (network : Network) (blockHash : Bytes) (height : ℕ)
    {txs : List Transaction} (hnew : ∀ tx ∈ txs, ∀ i, Tables.Admits f (tx.txid H, i)) :
    Grows f (BerzCoin.connectTxs H network blockHash height txs) := by
  induction txs with
  | nil => exact .ret _
  | cons tx txs ih =>
    have hadd := hf.addOutputs H network height tx.isCoinbase 0 tx.vout (hnew tx List.mem_cons_self)
    refine .bind ?_ fun _ => ih fun tx' htx' => hnew tx' (List.mem_cons_of_mem _ htx')
    unfold connectTx
    split
    · exact .bind (hf.spendInputs _ _ _ _) fun _ => hadd
    · exact hadd

lemma restoreInputs (blockHash txid : Bytes) (inIdx : ℕ) {vin : List TxIn}
    (hback : ∀ txin ∈ vin, Tables.Admits f txin.outpoint) :
    Grows f (BerzCoin.restoreInputs blockHash txid inIdx vin) := by
  induction vin generalizing inIdx with
  | nil => exact .ret _
  | cons txin vin ih =>
    refine .bind (.bind (.query _) fun row => ?_) fun _ =>
      ih _ fun txin' htxin' => hback txin' (List.mem_cons_of_mem _ htxin')
    cases row with
    | none => exact .raise _
    | some row =>
      exact .bind ((hback txin List.mem_cons_self).addUtxo _ _ _ _) fun _ =>
        .bind (hf.setAddress _ _) fun _ => hf.change (fun _ => rfl) (fun _ => rfl) fun _ => rfl

lemma removeOutputs (txid : Bytes) (i n : ℕ) : Grows f (BerzCoin.removeOutputs txid i n) := by
  induction n generalizing i with
  | zero => exact .ret _
  | succ n ih =>
    exact .bind (.bind (hf.deleteUtxo _) fun _ => .ret _) fun _ =>
      .bind (hf.change (fun _ => rfl) (fun _ => rfl) fun _ => rfl) fun _ => ih _

lemma disconnectTxs (H : Hashlib) (blockHash : Bytes) {txs : List Transaction}
    (hback : ∀ tx ∈ txs, tx.isCoinbase = false → ∀ txin ∈ tx.vin, Tables.Admits f txin.outpoint) :
    Grows f (BerzCoin.disconnectTxs H blockHash txs) := by
  induction txs with
  | nil => exact .ret _
  | cons tx txs ih =>
    refine .bind ?_ fun _ => ih fun tx' htx' => hback tx' (List.mem_cons_of_mem _ htx')
    unfold disconnectTx
    split
    next hcb =>
      have hback' := hback tx List.mem_cons_self (by simpa using hcb)
      exact .bind (hf.restoreInputs _ _ _ hback') fun _ => hf.removeOutputs _ _ _
    next => exact hf.removeOutputs _ _ _

lemma markMainChain (blockHash : Bytes) (isMain : Bool) :
    Grows f (BlockIndex.markMainChain blockHash isMain) := by
  refine .bind (.memory _) fun entry => ?_
  cases entry with
  | none => exact .ret _
  | some entry => exact .bind (.memory _) fun _ => hf.change (fun _ => rfl) (fun _ => rfl) fun _ => rfl

lemma persistAll (rows : List (Bytes × BlockIndexEntry)) : Grows f (BlockIndex.persistAll rows) := by
  induction rows with
  | nil => exact .ret _
  | cons row rows ih => exact .bind (hf.change (fun _ => rfl) (fun _ => rfl) fun _ => rfl) fun _ => ih

lemma setBestChainTip (blockHash : Bytes) : Grows f (BlockIndex.setBestChainTip blockHash) := by
  refine .bind (.memory _) fun tip => ?_
  cases tip with
  | none => exact .ret _
  | some tip =>
    refine .bind (.memory _) fun invalid => ?_
    split
    · exact .ret _
    · exact .bind (.memory _) fun _ => .bind (.memory _) fun _ => hf.persistAll _

lemma connect (H : Hashlib) (network : Network) {block : Block}
    (hnew : ∀ tx ∈ block.transactions, ∀ i, Tables.Admits f (tx.txid H, i)) :
    Grows f (BerzCoin.connect H network block) := by
  refine .bind (.memory _) fun height => ?_
  cases height with
  | none => exact .ret _
  | some height =>
    refine trueUnlessRaised_grows (.transaction (.bind (hf.change (fun _ => rfl) (fun _ => rfl)
      fun _ => rfl) fun _ => .bind (hf.connectTxs H network _ height hnew) fun _ =>
        .bind (hf.markMainChain _ _) fun _ => ?_))
    split
    · exact .raise _
    · exact hf.change (fun _ => rfl) (fun _ => rfl) fun _ => rfl

lemma disconnect (H : Hashlib) {block : Block}
    (hback : ∀ tx ∈ block.transactions, tx.isCoinbase = false → ∀ txin ∈ tx.vin,
      Tables.Admits f txin.outpoint) :
    Grows f (BerzCoin.disconnect H block) := by
  refine .bind (.memory _) fun height => ?_
  cases height with
  | none => exact .ret _
  | some height =>
    refine trueUnlessRaised_grows (.transaction (.bind (hf.disconnectTxs H _ ?_) fun _ =>
      .bind (hf.markMainChain _ _) fun _ => hf.change (fun _ => rfl) (fun _ => rfl) fun _ => rfl))
    simpa using hback

end Tables.Steady
end actions

namespace BlocksStore
variable {ι γ : Type} [Preorder γ] {f : Tables → γ} (H : Hashlib)

section write
variable (htxs : ∀ column tables txid row rows,
    uniqueInsert column tables.transactions txid row = .ok rows →
      f tables ≤ f { tables with transactions := rows })
  (hinputs : ∀ tables rows, f tables ≤ f { tables with inputs := rows })
  (houtputs : ∀ tables rows, f tables ≤ f { tables with outputs := rows })

include hinputs in
lemma writeInputs_grows (txid : Bytes) (j : ℕ) (vin : List TxIn) :
    Grows f (writeInputs txid j vin : Db Tables ι Unit) := by
  induction vin generalizing j with
  | nil => exact .ret _
  | cons txin vin ih =>
    refine .bind (.execute fun tables tables' a h => ?_) fun _ => ih _
    obtain ⟨rows, -, hrows⟩ := except_bind_eq_ok h
    cases hrows
    exact hinputs _ _

include houtputs in
lemma writeOutputs_grows (txid : Bytes) (j : ℕ) (vout : List TxOut) :
    Grows f (writeOutputs txid j vout : Db Tables ι Unit) := by
  induction vout generalizing j with
  | nil => exact .ret _
  | cons txout vout ih =>
    refine .bind (.execute fun tables tables' a h => ?_) fun _ => ih _
    obtain ⟨value, -, h⟩ := except_bind_eq_ok h
    obtain ⟨rows, -, hrows⟩ := except_bind_eq_ok h
    cases hrows
    exact houtputs _ _

include htxs hinputs houtputs in
lemma writeTransactions_grows (blockHash : Bytes) (height i : ℕ) (txs : List Transaction) :
    Grows f (writeTransactions H blockHash height i txs : Db Tables ι Unit) := by
  induction txs generalizing i with
  | nil => exact .ret _
  | cons tx txs ih =>
    refine .bind (.execute fun tables tables' a h => ?_) fun _ =>
      .bind (writeInputs_grows hinputs _ _ _) fun _ =>
        .bind (writeOutputs_grows houtputs _ _ _) fun _ => ih _
    obtain ⟨rows, hrows, h⟩ := except_bind_eq_ok h
    cases h
    exact htxs _ _ _ _ _ hrows

end write

lemma writeBlock_grows (hf : Tables.Steady f) (block : Block) (height processedAt : ℕ)
    (hblocks : ∀ tables row, f tables ≤
      f { tables with blocks := tables.blocks.insertOrReplace (block.header.hashHex H) row }) :
    Grows f (writeBlock H block height processedAt : Db Tables ι Unit) :=
  .transaction (.bind (.change fun tables => hblocks tables _) fun _ =>
    .bind (hf.change (fun _ => rfl) (fun _ => rfl) fun _ => rfl) fun _ =>
      writeTransactions_grows H hf.insert (fun _ _ => hf.rows _ _ rfl rfl rfl)
        (fun _ _ => hf.rows _ _ rfl rfl rfl) _ _ _ _)

variable {H} {d d' : Tables × ι}

/-- Every transaction of a block that was written has a row. -/
lemma writeTransactions_known {blockHash : Bytes} {height i : ℕ} {txs : List Transaction}
    (h : inside (writeTransactions H blockHash height i txs) d = .ok () d') :
    ∀ tx ∈ txs, tx.txid H ∈ d'.1.known := by
  induction txs generalizing i d with
  | nil => simp
  | cons tx txs ih =>
    obtain ⟨-, -, d₁, -, hrow, hrest⟩ := writeTransactions_cons_ok h
    refine List.forall_mem_cons.2 ⟨?_, ih hrest⟩
    intro hnone
    exact hrow ((writeTransactions_ok hrest).1.transactions _ hnone)

lemma writeBlock_known {block : Block} {height processedAt : ℕ} {s s' : Session Tables ι}
    (h : writeBlock H block height processedAt s = .ok () s') :
    ∀ tx ∈ block.transactions, tx.txid H ∈ s'.conn.current.known := by
  have hin := (transaction_ok_iff (writeBody_client ..)).2 ⟨s', h, rfl⟩
  obtain ⟨_, d1, -, hin⟩ := (inside_bind_ok (.execute _) fun _ => .bind (.execute _) fun _ =>
    writeTransactions_client ..).1 hin
  obtain ⟨_, d2, -, hin⟩ := (inside_bind_ok (.execute _) fun _ => writeTransactions_client ..).1 hin
  exact writeTransactions_known hin

end BlocksStore

/-! A reorganisation, and the dry run of it. -/
namespace ReorgManager
open BlockIndex
variable {H : Hashlib} {calls : ReorgCallbacks} {γ : Type} [Preorder γ] {f : Tables → γ}

lemma consult_grows {α : Type} (g : Tables × BlockIndex → Except PyError α) : Grows f (consult g) :=
  .bind (.memory _) fun _ => .bind (.query _) fun _ => liftExcept_grows _

lemma validated_grows (block : Block) (height : ℕ) : Grows f (validated calls block height) := by
  unfold validated
  cases calls.validate with
  | none => exact .ret _
  | some validate => exact consult_grows _

lemma rollBack_grows (hf : Tables.Steady f) (snapshot : List (Bytes × Option (Finset BlockStatus)))
    (oldBest : Bytes) : Grows f (rollBack snapshot oldBest) :=
  .bind (.handle (.bind (.memory _) fun _ => hf.setBestChainTip _) fun _ => .ret _) fun _ => .ret _

/-! The steps, on an index of a given shape. -/
section steps
variable {P : Tables → Prop} {b₀ : BlockIndex} {Q : Block → Prop}

lemma consult_yields {α : Type} {I : BlockIndex → Prop} (g : Tables × BlockIndex → Except PyError α) :
    Yields P I (consult g) fun a => ∃ d : Tables × BlockIndex, P d.1 ∧ I d.2 ∧ g d = .ok a := by
  refine ⟨?_, ?_⟩
  · intro s a s' hs hm h
    rw [consult_apply] at h
    cases hg : g s.data with
    | error e => simp [hg] at h
    | ok b =>
      simp only [hg] at h
      cases h
      exact ⟨⟨hs, hm⟩, s.data, hs, hm, hg⟩
  · intro s e s' hs hm h
    rw [consult_apply] at h
    cases hg : g s.data with
    | error e' =>
      simp only [hg] at h
      cases h
      exact ⟨hs, hm⟩
    | ok b => simp [hg] at h

lemma markAndReturn_yields (hP : Tables.Steady P) (k : Bytes) (isMain : Bool) {block : Block}
    (h : Q block) :
    Yields P (SameShape b₀) (do BlockIndex.markMainChain k isMain; return block : ChainDb Block) Q :=
  .bind (.of_grows (hP.markMainChain k isMain)
    (markMainChain_preserves fun b h => h.trans (sameShape_marked b k isMain))) fun _ _ => .ret h

lemma connect_yields (hP : Tables.Steady P) (network : Network) {block : Block}
    (hnew : ∀ tx ∈ block.transactions, ∀ i, Tables.Admits P (tx.txid H, i)) :
    Yields P (SameShape b₀) (connect H network block) fun _ => True :=
  .of_grows (hP.connect H network hnew)
    (connect_preserves fun b h => h.trans (sameShape_marked b _ true))

lemma disconnectStep_yields (hP : Tables.Steady P) {entry : BlockIndexEntry}
    (hback : ∀ d block, P d.1 → SameShape b₀ d.2 →
      calls.getBlock entry.blockHash d = .ok (some block) →
        ∀ tx ∈ block.transactions, tx.isCoinbase = false → ∀ txin ∈ tx.vin,
          Tables.Admits P txin.outpoint) :
    Yields P (SameShape b₀) (disconnectStep H calls entry) fun _ => True := by
  refine .bind (consult_yields _) fun found hfound => ?_
  cases found with
  | none => exact .raise _
  | some block =>
    obtain ⟨d, hd, hshape, hget⟩ := hfound
    refine .bind (.of_grows (hP.disconnect H (hback d block hd hshape hget))
      (disconnect_preserves fun b h => h.trans (sameShape_marked b _ false))) fun ok _ => ?_
    split
    · exact .bind (Q := fun _ => False) (.raise _) fun _ h => h.elim
    · exact markAndReturn_yields hP _ _ trivial

/-- What connecting a block that was read shows of it holds of the block that the step returns. -/
lemma connectStep_yields (hP : Tables.Steady P) {entry : BlockIndexEntry}
    (hconnect : ∀ d block, P d.1 → SameShape b₀ d.2 →
      calls.getBlock entry.blockHash d = .ok (some block) →
        Yields P (SameShape b₀) (connectBlock H block) fun ok => ok = true → Q block) :
    Yields P (SameShape b₀) (connectStep H calls entry) Q := by
  refine .bind (consult_yields _) fun found hfound => ?_
  cases found with
  | none => exact .raise _
  | some block =>
    obtain ⟨d, hd, hshape, hget⟩ := hfound
    refine .bind (.of_grows (validated_grows block entry.height) (validated_preserves _ _))
      fun ok _ => ?_
    cases ok with
    | false => exact .bind (Q := fun _ => False) (.raise _) fun _ h => h.elim
    | true =>
      refine .bind (hconnect d block hd hshape hget) fun ok hQ => ?_
      cases ok with
      | false => exact .bind (Q := fun _ => False) (.raise _) fun _ h => h.elim
      | true => exact markAndReturn_yields hP _ _ (hQ rfl)

lemma runSteps_yields {step : BlockIndexEntry → ChainDb Block} {entries : List BlockIndexEntry}
    (hstep : ∀ e ∈ entries, Yields P (SameShape b₀) (step e) Q) :
    Yields P (SameShape b₀) (runSteps step entries) fun blocks => ∀ b ∈ blocks, Q b := by
  induction entries with
  | nil => exact .ret fun b hb => (List.not_mem_nil hb).elim
  | cons entry entries ih =>
    exact .bind (hstep entry List.mem_cons_self) fun block hblock =>
      .bind (ih fun e he => hstep e (List.mem_cons_of_mem _ he)) fun blocks hblocks =>
        .ret (List.forall_mem_cons.2 ⟨hblock, hblocks⟩)

lemma reorganizeBody_yields (hP : Tables.Steady P)
    {disconnectEntries connectEntries : List BlockIndexEntry}
    (hdisconnect : ∀ e ∈ disconnectEntries,
      Yields P (SameShape b₀) (disconnectStep H calls e) fun _ => True)
    (hconnect : ∀ e ∈ connectEntries, Yields P (SameShape b₀) (connectStep H calls e) Q) (best : Bytes) :
    Yields P (SameShape b₀) (reorganizeBody H calls disconnectEntries connectEntries best)
      fun r => ∀ b ∈ r.2, Q b := by
  have htip : Preserves (SameShape b₀) (BlockIndex.setBestChainTip best) := by
    intro s hs
    obtain ⟨s', hs', hmem, -⟩ := setBestChainTip_apply best s
    rw [Db.final, hs', hmem]
    exact hs.trans (sameShape_tipped _ _)
  exact .bind (runSteps_yields hdisconnect) fun _ _ => .bind (runSteps_yields hconnect) fun _ hall =>
    .bind (.of_grows (.memory _) (read_preserves _)) fun b _ =>
      .bind (.of_grows (liftExcept_grows _) (liftExcept_preserves _)) fun _ _ =>
        .bind (.of_grows (hP.setBestChainTip _) htip) fun _ _ => .ret hall

/-- The steps that count are those of the two paths. -/
lemma reorganize_keeps (hP : Tables.Steady P) {maxReorgDepth : ℕ} {newBest oldBest : BlockIndexEntry}
    {s : Session Tables BlockIndex} (hs : P s.conn.current)
    (hsteps : ∀ disconnectEntries connectEntries,
      plan maxReorgDepth newBest oldBest s.memory = some (disconnectEntries, connectEntries) →
        (∀ e ∈ disconnectEntries,
          Yields P (SameShape s.memory) (disconnectStep H calls e) fun _ => True) ∧
        ∀ e ∈ connectEntries, Yields P (SameShape s.memory) (connectStep H calls e) Q) :
    P ((reorganize H calls maxReorgDepth newBest oldBest).final s).conn.current ∧
      ∀ xs ys s', reorganize H calls maxReorgDepth newBest oldBest s = .ok (true, xs, ys) s' →
        ∀ b ∈ ys, Q b := by
  unfold plan at hsteps
  simp only [Db.final, reorganize, Db.bind_apply, read_apply, id]
  cases hfork : s.memory.findCommonAncestor newBest oldBest with
  | none =>
    simp only [Db.pure_apply]
    exact ⟨hs, fun xs ys s' h => by cases h⟩
  | some fork =>
    simp only [hfork] at hsteps ⊢
    by_cases hdepth : maxReorgDepth < oldBest.height - fork.height
    · simp only [hdepth, if_true, Db.pure_apply]
      exact ⟨hs, fun xs ys s' h => by cases h⟩
    · simp only [hdepth, if_false] at hsteps ⊢
      cases hpaths : validateReorgPaths fork (s.memory.pathAbove fork oldBest)
          (s.memory.pathAbove fork newBest).reverse with
      | error e =>
        obtain ⟨t, ht, -⟩ := rollBack_apply [] oldBest.blockHash s
        have hback := (rollBack_grows hP [] oldBest.blockHash).le s hs
        simp only [Db.final, ht] at hback ⊢
        exact ⟨hback, fun xs ys s' h => by cases h⟩
      | ok u =>
        simp only [hpaths] at hsteps
        obtain ⟨hdisconnect, hconnect⟩ := hsteps _ _ rfl
        have hbody := (reorganizeBody_yields hP hdisconnect hconnect newBest.blockHash).transaction
          (reorganizeBody_client ..)
        simp only [Db.tryCatch_apply, Db.bind_apply]
        cases htx : transaction (reorganizeBody H calls (s.memory.pathAbove fork oldBest)
            (s.memory.pathAbove fork newBest).reverse newBest.blockHash) s with
        | ok r t =>
          obtain ⟨⟨ht, -⟩, hall⟩ := hbody.ok s r t hs (.refl _) htx
          refine ⟨ht, ?_⟩
          intro xs ys s' h
          cases h
          exact hall
        | error e t =>
          obtain ⟨ht, -⟩ := hbody.error s e t hs (.refl _) htx
          obtain ⟨t', ht', -⟩ := rollBack_apply
            (s.memory.snapshotStatuses ((s.memory.pathAbove fork oldBest ++
              (s.memory.pathAbove fork newBest).reverse).map (·.blockHash))) oldBest.blockHash t
          have hback := (rollBack_grows hP (s.memory.snapshotStatuses
            ((s.memory.pathAbove fork oldBest ++ (s.memory.pathAbove fork newBest).reverse).map
              (·.blockHash))) oldBest.blockHash).le t ht
          simp only [Db.final, ht'] at hback ⊢
          exact ⟨hback, fun xs ys s' h => by cases h⟩

end steps

lemma final_andFinally {α : Type} (x : ChainDb α) (cleanup : ChainDb Unit)
    (s : Session Tables BlockIndex) : (andFinally x cleanup).final s = cleanup.final (x.final s) := by
  unfold Db.final andFinally
  cases x s with
  | ok a t =>
    simp only
    cases cleanup t <;> rfl
  | error e t =>
    simp only
    cases cleanup t <;> rfl

/-- What the cleaning up does once the savepoint is released. -/
def restoreMemory (snapshot : List (Bytes × Option (Finset BlockStatus))) (best : Option Bytes) :
    ChainDb Unit := do
  BlockIndex.modify (·.restoreStatuses snapshot)
  match best with
  | none => return ()
  | some best => BlockIndex.setBestChainTip best

/-- The cleaning up undoes the dry run and then writes flags only. -/
lemma leavePreflight_le (hf : Tables.Steady f) {c : SqlConnection Tables}
    {t : Session Tables BlockIndex} (h : SameTransaction (c.savepoint savepointName) t.conn)
    (snapshot : List (Bytes × Option (Finset BlockStatus))) (best : Option Bytes) :
    f c.current ≤ f ((leavePreflight snapshot best).final t).conn.current := by
  obtain ⟨c₁, h₁, h₂⟩ := release_rollbackTo h
  have hleft : Grows f (restoreMemory snapshot best) := by
    refine .bind (.memory _) fun _ => ?_
    cases best with
    | none => exact .ret _
    | some best => exact hf.setBestChainTip best
  have hback : (onConnection savepointName (·.rollbackTo savepointName)).final t =
      { t with conn := c₁ } := by
    simp only [Db.final, onConnection, h₁]
  unfold leavePreflight
  rw [final_andFinally, hback, Db.final_bind]
  simp only [onConnection, h₂]
  exact hleft.le ⟨c, t.memory⟩

lemma canReorganize_le (hf : Tables.Steady f) (maxReorgDepth : ℕ) (newBest oldBest : BlockIndexEntry)
    (s : Session Tables BlockIndex) : f s.conn.current ≤
      f ((canReorganize H calls maxReorgDepth newBest oldBest).final s).conn.current := by
  cases hplan : plan maxReorgDepth newBest oldBest s.memory with
  | none =>
    rw [Db.final, canReorganize_of_plan_none hplan]
  | some paths =>
    obtain ⟨disconnectEntries, connectEntries⟩ := paths
    have hsame := (preflight_client H calls disconnectEntries connectEntries).sameTransaction
      (s := { s with conn := s.conn.savepoint savepointName }) (savepoint_inTransaction _ _)
    rw [Db.final, canReorganize_of_plan hplan]
    change _ ≤ f ((andFinally _ _).final _).conn.current
    rw [final_andFinally]
    exact leavePreflight_le hf hsame _ _

end ReorgManager
end BerzCoin
