import BerzCoin.AppLedgerRuns
import BerzCoin.ChainContext
import BerzCoin.ChainSpending

/-! The rules on headers over whole runs of `on_block`: each block of the active chain keeps to them
on its own ancestors, whichever branches were active while the blocks came in. -/
namespace BerzCoin
open Database BlockIndex UndoLog

/-- The parts of a chain of accepted blocks are chains of accepted blocks. -/
lemma Built.suffix {H : Hashlib} {root tip : Bytes} {network : Network} {blocks : List Block}
    {accepts : Store Outpoint UtxoRow → ℕ → Block → Prop} {base : Store Outpoint UtxoRow}
    {chain past : List Connected} (h : Built H root network accepts base blocks chain tip)
    (hpast : past <:+ chain) : ∃ top, Built H root network accepts base blocks past top := by
  refine of_suffix (fun chain => ∃ top, Built H root network accepts base blocks chain top) ?_ ⟨tip, h⟩
    hpast
  intro c past h
  obtain ⟨top, h⟩ := h
  exact ⟨_, h.below.2⟩

namespace Node
variable {cfg : NodeConfig} {root tip : Bytes} {base store : Store Outpoint UtxoRow}
variable {blocks : List Block} {chain : List Connected} {genesis : BlockHeader} {b : BlockIndex}

/-- Each block of a chain of blocks accepted in place fits on the headers below it. -/
lemma fitsOn_of_built (hstock : Stocked cfg.crypto.toHashlib root base blocks b)
    (h : Built cfg.crypto.toHashlib root cfg.params.network (acceptsInPlace cfg root genesis blocks)
      base blocks chain tip)
    (hstore : replay base (updates cfg.crypto.toHashlib chain) = some store) {c : Connected}
    {below : List Connected} (hc : (c :: below) <:+ chain) :
    FitsOn cfg.crypto cfg.params (headersOf genesis below) c.block.header := by
  obtain ⟨top, htop⟩ := h.suffix hc
  obtain ⟨-, hbelow⟩ := htop.below
  obtain ⟨before, hbefore⟩ := replay_below hstore ((List.suffix_cons ..).trans hc)
  obtain ⟨b', now, hcharted, hown, hvalid⟩ := htop.approved.2 before hbefore
  have hroot := hstock.ne_root htop
  have hparent := hcharted.parentHashOf hstock.named (htop.listed c (List.mem_cons_self ..))
    (hroot c (List.mem_cons_self ..))
  rw [OwnBranch, hparent] at hown
  obtain ⟨hshown, p, hp, hlast⟩ := hbelow.linked.showsHeaders hcharted hstock.named hbelow.listed
    (hstock.ne_root hbelow) hown
  rw [← length_headersOf genesis below] at hvalid
  exact BlockValidator.fitsOn_of_validated hshown hp hlast hvalid

/-- After any run of `on_block`, with any number of switches between branches, each block of the
active chain has proof of work, shows the bits that the retarget rule asks for after the headers
below it, and is later than the median of the last of these. -/
theorem received_header_rules (cfg : NodeConfig) (root aboveRoot : Bytes) (start : Node)
    (hmoney : cfg.params.maxMoney < 2 ^ 63)
    (hstart : Started cfg.crypto.toHashlib root aboveRoot start)
    (hfunded : ∀ key, start.session.conn.current.utxo.get? key ≠ none → key.1 ∈ start.known)
    (deliveries : List Delivery)
    (htree : ∀ d ∈ deliveries, d.block.header.hashHex cfg.crypto.toHashlib ≠ aboveRoot)
    (hreads : ∀ d ∈ deliveries, d.block.ReadsBack) :
    ∃ tip chain genesis, (received cfg deliveries start).bestHash = some tip ∧
      start.session.memory.getBlock root = some genesis ∧
      Linked cfg.crypto.toHashlib root chain tip ∧
      (∀ c ∈ chain, c.block ∈ deliveries.map Delivery.block) ∧
      ∀ c below, (c :: below) <:+ chain →
        FitsOn cfg.crypto cfg.params (headersOf genesis.header below) c.block.header := by
  obtain ⟨genesis, hgenesis, -⟩ := (hstart.consistent (H := cfg.crypto.toHashlib)).rooted.entry
  obtain ⟨tip, blocks, chain, hbest, hledger, hbuilt⟩ :=
    received_inPlace hmoney hstart hgenesis hfunded htree hreads
  refine ⟨tip, chain, genesis, hbest, hgenesis, hbuilt.linked,
    fun c hc => (hledger.listed _ (hbuilt.listed c hc)).2.2, ?_⟩
  intro c below hc
  exact fitsOn_of_built hledger.stocked hbuilt hledger.reflects.store hc

open ReorgExample in
/-- The branch of `blockB2`, after a switch. -/
theorem received_header_rules_switch :
    ∃ tip chain genesis, (received config forkFirst start).bestHash = some tip ∧
      start.session.memory.getBlock genesisEntry.blockHash = some genesis ∧
      Linked config.crypto.toHashlib genesisEntry.blockHash chain tip ∧
      (∀ c ∈ chain, c.block ∈ forkFirst.map Delivery.block) ∧
      ∀ c below, (c :: below) <:+ chain →
        FitsOn config.crypto config.params (headersOf genesis.header below) c.block.header :=
  received_header_rules config _ zeroHash start (by decide +kernel) started funded forkFirst
    (by decide +kernel) fun d hd => readsBack d (List.mem_append_left _ hd)

/-- The median time past never decreases along the active chain, whatever the timestamps of its blocks
do: the bound that a block has to exceed is no less than that on any block below it. -/
theorem received_median_monotone (cfg : NodeConfig) (root aboveRoot : Bytes) (start : Node)
    (hmoney : cfg.params.maxMoney < 2 ^ 63)
    (hstart : Started cfg.crypto.toHashlib root aboveRoot start)
    (hfunded : ∀ key, start.session.conn.current.utxo.get? key ≠ none → key.1 ∈ start.known)
    (deliveries : List Delivery)
    (htree : ∀ d ∈ deliveries, d.block.header.hashHex cfg.crypto.toHashlib ≠ aboveRoot)
    (hreads : ∀ d ∈ deliveries, d.block.ReadsBack) :
    ∃ tip chain genesis, (received cfg deliveries start).bestHash = some tip ∧
      start.session.memory.getBlock root = some genesis ∧
      Linked cfg.crypto.toHashlib root chain tip ∧
      ∀ past above, past <:+ above → above <:+ chain →
        medianTimeOf cfg.params (headersOf genesis.header past) ≤
          medianTimeOf cfg.params (headersOf genesis.header above) := by
  obtain ⟨genesis, hgenesis, -⟩ := (hstart.consistent (H := cfg.crypto.toHashlib)).rooted.entry
  obtain ⟨tip, blocks, chain, hbest, hledger, hbuilt⟩ :=
    received_inPlace hmoney hstart hgenesis hfunded htree hreads
  refine ⟨tip, chain, genesis, hbest, hgenesis, hbuilt.linked, ?_⟩
  intro past above hpast habove
  have hfits : ∀ c below, (c :: below) <:+ above →
      FitsOn cfg.crypto cfg.params (headersOf genesis.header below) c.block.header := fun c below hc =>
    fitsOn_of_built hledger.stocked hbuilt hledger.reflects.store (hc.trans habove)
  exact medianTimeOf_mono hfits hpast

open ReorgExample in
theorem received_median_monotone_switch :
    ∃ tip chain genesis, (received config forkFirst start).bestHash = some tip ∧
      start.session.memory.getBlock genesisEntry.blockHash = some genesis ∧
      Linked config.crypto.toHashlib genesisEntry.blockHash chain tip ∧
      ∀ past above, past <:+ above → above <:+ chain →
        medianTimeOf config.params (headersOf genesis.header past) ≤
          medianTimeOf config.params (headersOf genesis.header above) :=
  received_median_monotone config _ zeroHash start (by decide +kernel) started funded forkFirst
    (by decide +kernel) fun d hd => readsBack d (List.mem_append_left _ hd)

end Node
end BerzCoin
