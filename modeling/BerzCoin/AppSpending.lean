import BerzCoin.AppLedgerRuns
import BerzCoin.ChainSpending

/-! Spending over whole runs of `on_block`: on the active chain no output is spent twice, and none
without the consent of its script. -/
namespace BerzCoin
open Database BlockIndex UndoLog

namespace Node

/-- After any run of `on_block`, with any number of switches between branches, no output is spent
twice by the blocks of the active chain, and the UTXO table has exactly the outputs that the node
started with or that a block of the chain created, and that none of them has spent. -/
theorem received_spends_once (cfg : NodeConfig) (root aboveRoot : Bytes) (start : Node)
    (hmoney : cfg.params.maxMoney < 2 ^ 63)
    (hstart : Started cfg.crypto.toHashlib root aboveRoot start)
    (hfunded : ∀ key, start.session.conn.current.utxo.get? key ≠ none → key.1 ∈ start.known)
    (deliveries : List Delivery)
    (htree : ∀ d ∈ deliveries, d.block.header.hashHex cfg.crypto.toHashlib ≠ aboveRoot)
    (hreads : ∀ d ∈ deliveries, d.block.ReadsBack) :
    ∃ tip chain, (received cfg deliveries start).bestHash = some tip ∧
      Linked cfg.crypto.toHashlib root chain tip ∧
      (∀ c ∈ chain, c.block ∈ deliveries.map Delivery.block) ∧
      (spends chain).Nodup ∧
      ∀ key, (received cfg deliveries start).session.conn.current.utxo.get? key ≠ none ↔
        key ∉ spends chain ∧ (start.session.conn.current.utxo.get? key ≠ none ∨
          ∃ c ∈ chain, Creates cfg.crypto.toHashlib c.block key) := by
  obtain ⟨tip, blocks, chain, hbest, hlisted, hstock, hbuilt, hreflects⟩ :=
    received_inLedger hmoney hstart hfunded htree hreads
  obtain ⟨hnodup, hholds⟩ := hbuilt.approved.unspent hmoney
    (fun _ _ _ ⟨_, _, hvalid⟩ => (BlockValidator.validateBlock_true hvalid).1) (hstock.separate hbuilt)
    hreflects.store
  exact ⟨tip, chain, hbest, hbuilt.linked, fun c hc => (hlisted _ (hbuilt.listed c hc)).2.2, hnodup,
    hholds⟩

open ReorgExample in
/-- The branch of `blockB2`, after a switch. -/
theorem received_spends_once_switch :
    ∃ tip chain, (received config forkFirst start).bestHash = some tip ∧
      Linked config.crypto.toHashlib genesisEntry.blockHash chain tip ∧
      (∀ c ∈ chain, c.block ∈ forkFirst.map Delivery.block) ∧
      (spends chain).Nodup ∧
      ∀ key, (received config forkFirst start).session.conn.current.utxo.get? key ≠ none ↔
        key ∉ spends chain ∧ (start.session.conn.current.utxo.get? key ≠ none ∨
          ∃ c ∈ chain, Creates config.crypto.toHashlib c.block key) :=
  received_spends_once config _ zeroHash start (by decide +kernel) started funded forkFirst
    (by decide +kernel) fun d hd => readsBack d (List.mem_append_left _ hd)

/-- After any run of `on_block`, each input of a block of the active chain spends an output that the
node started with or that a block below created and no block in between has spent. The coins of a
coinbase have matured there, and the script of the output accepts the input. -/
theorem received_authorised (cfg : NodeConfig) (root aboveRoot : Bytes) (start : Node)
    (hmoney : cfg.params.maxMoney < 2 ^ 63)
    (hstart : Started cfg.crypto.toHashlib root aboveRoot start)
    (hfunded : ∀ key, start.session.conn.current.utxo.get? key ≠ none → key.1 ∈ start.known)
    (deliveries : List Delivery)
    (htree : ∀ d ∈ deliveries, d.block.header.hashHex cfg.crypto.toHashlib ≠ aboveRoot)
    (hreads : ∀ d ∈ deliveries, d.block.ReadsBack) :
    ∃ tip chain, (received cfg deliveries start).bestHash = some tip ∧
      Linked cfg.crypto.toHashlib root chain tip ∧
      (∀ c ∈ chain, c.block ∈ deliveries.map Delivery.block) ∧
      ∀ c below, (c :: below) <:+ chain → ∀ tx ∈ c.block.transactions, tx.isCoinbase = false →
        ∀ i txin, tx.vin[i]? = some txin → ∃ row, Authorised cfg.crypto cfg.params
          start.session.conn.current.utxo.get? below tx i txin row := by
  obtain ⟨tip, blocks, chain, hbest, hlisted, hstock, hbuilt, hreflects⟩ :=
    received_inLedger hmoney hstart hfunded htree hreads
  refine ⟨tip, chain, hbest, hbuilt.linked, fun c hc => (hlisted _ (hbuilt.listed c hc)).2.2, ?_⟩
  intro c below hc tx htx hspend i txin hi
  exact hbuilt.approved.authorised
    (fun _ _ _ ⟨_, _, hvalid⟩ => (BlockValidator.validateBlock_true hvalid).1) (hstock.separate hbuilt)
    hreflects.store hc htx hspend hi

open ReorgExample in
/-- `blockA` spends the one coin that the node starts with. -/
theorem received_authorised_spend :
    ∃ tip chain, (received config [⟨2000, blockA, none⟩] start).bestHash = some tip ∧
      Linked config.crypto.toHashlib genesisEntry.blockHash chain tip ∧
      (∀ c ∈ chain, c.block ∈ [blockA]) ∧
      ∀ c below, (c :: below) <:+ chain → ∀ tx ∈ c.block.transactions, tx.isCoinbase = false →
        ∀ i txin, tx.vin[i]? = some txin → ∃ row, Authorised config.crypto config.params
          start.session.conn.current.utxo.get? below tx i txin row :=
  received_authorised config _ zeroHash start (by decide +kernel) started funded
    [⟨2000, blockA, none⟩] (by decide +kernel) fun d hd =>
      readsBack d (by simp_all [forkFirst])

end Node
end BerzCoin
