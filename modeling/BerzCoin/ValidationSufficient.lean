import BerzCoin.MiningAgreement

/-! What the block validator accepts on the current UTXO table can be connected to it: the checks
that are made before a block is stored leave `connect` nothing to fail on. -/
namespace BerzCoin
open Script (Crypto)
open Database BlockValidator

section operations
variable (H : Hashlib) (network : Network) (blockHash : Bytes) (height : ℕ)

/-- Operations that a UTXO table has everything for. -/
structure Supplied (tables : Tables) (ops : List UtxoOp) : Prop where
  present : ∀ key ∈ spentBy ops, tables.utxo.get? key ≠ none
  distinct : (spentBy ops).Nodup
  fits : ∀ txid isCoinbase i txout, UtxoOp.add txid isCoinbase i txout ∈ ops →
    txout.value.toNat < 2 ^ 63

lemma outputRow_of_lt {txout : TxOut} (h : txout.value.toNat < 2 ^ 63) (isCoinbase : Bool) :
    ∃ row, outputRow H network height isCoinbase txout = .ok row := by
  obtain ⟨address, haddress⟩ := extractAddress_ok H network txout.scriptPubkey
  refine ⟨⟨⟨txout.value.toNat, h⟩, txout.scriptPubkey, height, isCoinbase, address⟩, ?_⟩
  simp only [outputRow, haddress, bindInt, dif_pos h]
  rfl

lemma Supplied.step {op : UtxoOp} {ops : List UtxoOp} {tables : Tables}
    (h : Supplied tables (op :: ops)) :
    ∃ tables', op.apply H network blockHash height tables = some tables' ∧ Supplied tables' ops := by
  obtain ⟨hpresent, hdistinct, hfits⟩ := h
  have hfits' := fun txid isCoinbase i txout hmem =>
    hfits txid isCoinbase i txout (List.mem_cons_of_mem _ hmem)
  cases op with
  | spend txid inIdx txin =>
    have hspent : spentBy (.spend txid inIdx txin :: ops) = txin.outpoint :: spentBy ops := rfl
    rw [hspent] at hpresent hdistinct
    obtain ⟨hnew, hrest⟩ := List.nodup_cons.1 hdistinct
    obtain ⟨row, hrow⟩ := Option.ne_none_iff_exists'.1 (hpresent _ (List.mem_cons_self ..))
    refine ⟨tables.spend (blockHash, txid, inIdx) txin.outpoint row, by simp [UtxoOp.apply, hrow], ?_,
      hrest, hfits'⟩
    intro key hkey
    -- the other spent outputs are still there
    have hne : key ≠ txin.outpoint := fun heq => hnew (heq ▸ hkey)
    simp only [Tables.spend, KeyedRows.get?_delete, if_neg hne]
    exact hpresent key (List.mem_cons_of_mem _ hkey)
  | add txid isCoinbase i txout =>
    have hspent : spentBy (.add txid isCoinbase i txout :: ops) = spentBy ops := rfl
    rw [hspent] at hpresent hdistinct
    by_cases hret : txout.isOpReturn = true
    · exact ⟨tables, by simp [UtxoOp.apply, hret], hpresent, hdistinct, hfits'⟩
    · obtain ⟨row, hrow⟩ := outputRow_of_lt H network height
        (hfits txid isCoinbase i txout (List.mem_cons_self ..)) isCoinbase
      refine ⟨tables.add (txid, i) row, by simp [UtxoOp.apply, hret, hrow], ?_, hdistinct, hfits'⟩
      intro key hkey
      rw [Tables.get?_add]
      split_ifs
      · exact Option.some_ne_none _
      · exact hpresent key hkey

lemma Supplied.applyOps {ops : List UtxoOp} {tables : Tables} (h : Supplied tables ops) :
    ∃ tables', applyOps H network blockHash height ops tables = (tables', true) := by
  induction ops generalizing tables with
  | nil => exact ⟨tables, rfl⟩
  | cons op ops ih =>
    obtain ⟨tables1, happ, hrest⟩ := h.step H network blockHash height
    obtain ⟨tables', hrun⟩ := ih hrest
    exact ⟨tables', by simp only [BerzCoin.applyOps, happ, hrun]⟩

end operations

section block
variable {C : Crypto} {params : ConsensusParams} {getUtxo : Outpoint → Option UtxoRow}
variable {height : ℕ} {block : Block}

/-- The outputs that a validated block spends: they are there, and none is spent twice. -/
lemma spentBy_validated (h : validateTransactions C params getUtxo block height = true) :
    (spentBy (blockOps C.toHashlib block.transactions)).Nodup ∧
      ∀ key ∈ spentBy (blockOps C.toHashlib block.transactions), getUtxo key ≠ none := by
  cases htxs : block.transactions with
  | nil => simp [validateTransactions, htxs] at h
  | cons coinbase rest =>
    simp only [validateTransactions, htxs, Bool.and_eq_true] at h
    obtain ⟨⟨⟨-, hcoinbase⟩, hrest⟩, -⟩ := h
    obtain ⟨hothers, hnodup⟩ := validateRest_true hrest
    have hspent : spentBy (blockOps C.toHashlib (coinbase :: rest)) = inputsOf rest := by
      rw [blockOps, List.flatMap_cons, spentBy_append, spentBy_txOps,
        validateTransaction_isCoinbase hcoinbase]
      exact spentBy_blockOps C.toHashlib hothers
    rw [hspent]
    constructor
    · have hall := hnodup List.nodup_nil
      rwa [List.append_nil, List.nodup_reverse] at hall
    · intro key hkey
      obtain ⟨tx, htx, hin⟩ := List.mem_flatMap.1 hkey
      obtain ⟨txin, htxin, rfl⟩ := List.mem_map.1 hin
      exact (taken_of_validateTransaction (validateRest_each hrest tx htx)).found txin htxin

lemma supplied_of_validated {tables : Tables} (hmoney : params.maxMoney < 2 ^ 63)
    (h : validateTransactions C params tables.utxo.get? block height = true) :
    Supplied tables (blockOps C.toHashlib block.transactions) := by
  obtain ⟨hdistinct, hpresent⟩ := spentBy_validated h
  refine ⟨hpresent, hdistinct, ?_⟩
  intro txid isCoinbase i txout hmem
  obtain ⟨tx, htx, hof⟩ := mem_blockOps hmem
  obtain ⟨isCoinbase', hvalid⟩ := validateTransactions_each h tx htx
  exact ((validateTransaction_true hvalid).2 txout hof.2.1).trans_lt hmoney

end block

section connect
variable {block : Block}

/-- `connect` returns true where its operations go through and the block has a transaction. -/
lemma connect_true_of_applyOps {H : Hashlib} {network : Network} {s : Session Tables BlockIndex}
    {height : ℕ} {tables' : Tables}
    (hheight : s.memory.getHeight (block.header.hashHex H) = some height)
    (hne : block.transactions ≠ [])
    (happ : BerzCoin.applyOps H network (block.header.hashHex H) height
      (blockOps H block.transactions) (withoutUndo (block.header.hashHex H) s.conn.current) =
        (tables', true)) :
    ∃ s', connect H network block s = .ok true s' := by
  have hbody := connectBody_inside H network (block.header.hashHex H) height block s.conn.current
    s.memory
  rw [happ] at hbody
  simp only [finishConnect_inside] at hbody
  cases htxs : block.transactions with
  | nil => exact absurd htxs hne
  | cons first txs =>
    simp only [htxs] at hbody
    obtain ⟨s', hs', -⟩ := (transaction_ok_iff (connectBody_client ..)).1 hbody
    exact ⟨s', connect_ok_true.2 ⟨height, hheight, hs'⟩⟩

/-- A block of the index that the validator accepts on the current UTXO table connects. -/
lemma connect_true_of_validateBlock (network : Network) {C : Crypto} {params : ConsensusParams}
    {s : Session Tables BlockIndex} {b : BlockIndex} {now height : ℕ}
    (hmoney : params.maxMoney < 2 ^ 63)
    (hvalid : validateBlock C params s.conn.current.utxo.get? b now block height = .ok true)
    (hindex : s.memory.getHeight (block.header.hashHex C.toHashlib) ≠ none) :
    ∃ s', connect C.toHashlib network block s = .ok true s' := by
  obtain ⟨htxs, -⟩ := validateBlock_true hvalid
  obtain ⟨stored, hheight⟩ := Option.ne_none_iff_exists'.1 hindex
  have hne : block.transactions ≠ [] := by
    intro hnil
    simp [validateTransactions, hnil] at htxs
  have hsupplied : Supplied (withoutUndo (block.header.hashHex C.toHashlib) s.conn.current)
      (blockOps C.toHashlib block.transactions) := supplied_of_validated hmoney htxs
  obtain ⟨tables', happ⟩ := hsupplied.applyOps C.toHashlib network
    (block.header.hashHex C.toHashlib) stored
  exact connect_true_of_applyOps hheight hne happ

end connect
end BerzCoin
