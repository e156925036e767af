import BerzCoin.ChainLedgerReorg
import BerzCoin.ChainSupply
import BerzCoin.ValidationSufficient

/-! The supply of a ledger: each block of a chain that was validated where it stands adds at most
its subsidy. -/
namespace BerzCoin
open Script (Crypto)
open Database BlockValidator UndoLog

/-- The subsidies of the blocks above the root, up to a height. -/
def subsidiesAbove (params : ConsensusParams) (n : ℕ) : ℕ :=
  ∑ h ∈ Finset.range n, getBlockSubsidy (h + 1) params

lemma subsidySum_succ (params : ConsensusParams) (n : ℕ) :
    subsidySum params (n + 1) = getBlockSubsidy 0 params + subsidiesAbove params n := by
  rw [subsidySum, Finset.sum_range_succ', Nat.add_comm]
  rfl

variable {C : Crypto} {params : ConsensusParams} {block : Block} {height : ℕ}

/-- A validated block goes through on the tables, as its step does on the map. -/
lemma applyOps_of_validated (network : Network) (b : BlockIndex) {tables : Tables}
    (hmoney : params.maxMoney < 2 ^ 63)
    (htxs : validateTransactions C params tables.utxo.get? block height = true)
    (hsubsidy : validateSubsidy params tables.utxo.get? block height = .ok true) {after : Store Outpoint UtxoRow}
    {log : Store UndoId UtxoRow}
    (hafter : applyAll (block.transactions.map (txStep C.toHashlib network height))
      (tables.utxo.get?, fun _ => none) = some (after, log)) :
    ∃ tables' : Tables, tables'.utxo.get? = after ∧
      tables'.supply ≤ tables.supply + getBlockSubsidy height params := by
  have hsupplied : Supplied (withoutUndo (block.header.hashHex C.toHashlib) tables)
      (blockOps C.toHashlib block.transactions) := supplied_of_validated hmoney htxs
  obtain ⟨tables', happ⟩ := hsupplied.applyOps C.toHashlib network
    (block.header.hashHex C.toHashlib) height
  have hle := @supply_validated_le _ _ _ _ _ _ _
    (withoutUndo (block.header.hashHex C.toHashlib) tables) _ htxs hsubsidy happ
  have hbody := connectBody_inside C.toHashlib network (block.header.hashHex C.toHashlib) height block
    tables b
  rw [happ] at hbody
  simp only [finishConnect_inside] at hbody
  obtain ⟨hutxo, -, -⟩ := markMain_utxo (block.header.hashHex C.toHashlib) true (tables', b)
  refine ⟨tables', ?_, hle⟩
  cases hblock : block.transactions with
  | nil => simp [validateTransactions, hblock] at htxs
  | cons first txs =>
    simp only [hblock] at hbody
    obtain ⟨hviews, -⟩ := connectBody_views hbody
    rw [hafter, Option.some.injEq] at hviews
    have hstore := congrArg Prod.fst hviews
    simp only [views, hutxo] at hstore
    exact hstore.symm

/-- The ledger of a chain holds at most what it started from and the subsidies of its blocks. -/
lemma Approved.supply_le {accepts : Store Outpoint UtxoRow → ℕ → Block → Prop} {start : Tables}
    {chain : List Connected} (b : BlockIndex) (hmoney : params.maxMoney < 2 ^ 63)
    (hrules : ∀ store height block, accepts store height block →
      validateTransactions C params store block height = true ∧
        validateSubsidy params store block height = .ok true)
    (h : Approved C.toHashlib accepts start.utxo.get? chain) {store : Store Outpoint UtxoRow}
    (hstore : replay start.utxo.get? (updates C.toHashlib chain) = some store) :
    ∃ tables : Tables, tables.utxo.get? = store ∧
      tables.supply ≤ start.supply + subsidiesAbove params chain.length := by
  induction chain generalizing store with
  | nil =>
    cases hstore
    exact ⟨start, rfl, Nat.le_add_right ..⟩
  | cons c past ih =>
    obtain ⟨happroved, haccepts⟩ := h
    obtain ⟨before, hbefore, hafter⟩ := Option.bind_eq_some_iff.1 hstore
    obtain ⟨⟨after, log⟩, hrun, rfl⟩ := Option.map_eq_some_iff.1 hafter
    obtain ⟨tables, rfl, hle⟩ := ih happroved hbefore
    obtain ⟨htxs, hsubsidy⟩ := hrules _ _ _ (haccepts _ hbefore)
    obtain ⟨tables', hutxo, hstep⟩ :=
      applyOps_of_validated c.network b hmoney htxs hsubsidy hrun
    refine ⟨tables', hutxo, ?_⟩
    have hsum : subsidiesAbove params (past.length + 1) =
        subsidiesAbove params past.length + getBlockSubsidy (past.length + 1) params :=
      Finset.sum_range_succ ..
    rw [List.length_cons]
    omega

end BerzCoin
