import BerzCoin.AppLedger
import BerzCoin.AppReconcile
import BerzCoin.ChainLedgerSupply

/-! The UTXO table after whole runs of `on_block`: it is the ledger of the active chain, it holds
no more than the subsidies allow, and it depends on the best tip only. -/
namespace BerzCoin
open Database BlockIndex UndoLog

namespace Node
variable {cfg : NodeConfig} {root aboveRoot : Bytes}

/-- The node after the blocks of a list have come. -/
def received (cfg : NodeConfig) (deliveries : List Delivery) (start : Node) : Node :=
  (deliver (fun d => onBlock cfg d.clock d.block d.sourcePeer) deliveries start).2

/-- A block that was delivered, with an encoding that is read back, over the root of the tree. -/
def Delivered (cfg : NodeConfig) (aboveRoot : Bytes) (deliveries : List Delivery) (block : Block) : Prop :=
  block.ReadsBack ∧ block.header.hashHex cfg.crypto.toHashlib ≠ aboveRoot ∧
    block ∈ deliveries.map Delivery.block

/-- The ledger of a run, each block of which was accepted where its ancestors are shown. -/
lemma received_inPlace {start : Node} (hmoney : cfg.params.maxMoney < 2 ^ 63)
    (hstart : Started cfg.crypto.toHashlib root aboveRoot start) {e : BlockIndexEntry}
    (hgenesis : start.session.memory.getBlock root = some e)
    (hfunded : ∀ key, start.session.conn.current.utxo.get? key ≠ none → key.1 ∈ start.known)
    {deliveries : List Delivery}
    (htree : ∀ d ∈ deliveries, d.block.header.hashHex cfg.crypto.toHashlib ≠ aboveRoot)
    (hreads : ∀ d ∈ deliveries, d.block.ReadsBack) :
    ∃ tip blocks chain, (received cfg deliveries start).bestHash = some tip ∧
      Ledger cfg root e.header start.session.conn.current.utxo.get? (Delivered cfg aboveRoot deliveries)
        blocks chain (received cfg deliveries start) ∧
      Built cfg.crypto.toHashlib root cfg.params.network (acceptsInPlace cfg root e.header blocks)
        start.session.conn.current.utxo.get? blocks chain tip := by
  have hstep : ∀ d ∈ deliveries, Keeps (InLedger cfg root aboveRoot e.header
      start.session.conn.current.utxo.get? (Delivered cfg aboveRoot deliveries))
      (onBlock cfg d.clock d.block d.sourcePeer) := by
    intro d hd
    refine onBlock_inLedger hmoney (fun block h => ⟨h.1, h.2.1⟩) ?_ d.sourcePeer
    exact ⟨hreads d hd, htree d hd, List.mem_map_of_mem hd⟩
  obtain ⟨-, blocks, chain, h⟩ := deliver_keeps hstep (inLedger_start hstart hgenesis hfunded)
  obtain ⟨tip, hbest, hbuilt⟩ := h.built
  exact ⟨tip, blocks, chain, hbest, h, hbuilt⟩

lemma received_inLedger {start : Node} (hmoney : cfg.params.maxMoney < 2 ^ 63)
    (hstart : Started cfg.crypto.toHashlib root aboveRoot start)
    (hfunded : ∀ key, start.session.conn.current.utxo.get? key ≠ none → key.1 ∈ start.known)
    {deliveries : List Delivery}
    (htree : ∀ d ∈ deliveries, d.block.header.hashHex cfg.crypto.toHashlib ≠ aboveRoot)
    (hreads : ∀ d ∈ deliveries, d.block.ReadsBack) :
    ∃ tip blocks chain, (received cfg deliveries start).bestHash = some tip ∧
      (∀ block ∈ blocks, Delivered cfg aboveRoot deliveries block) ∧
      Stocked cfg.crypto.toHashlib root start.session.conn.current.utxo.get? blocks
        (received cfg deliveries start).session.memory ∧
      Built cfg.crypto.toHashlib root cfg.params.network (accepts cfg)
        start.session.conn.current.utxo.get? blocks chain tip ∧
      Reflects cfg.crypto.toHashlib start.session.conn.current.utxo.get? chain
        (received cfg deliveries start).session.conn.current := by
  obtain ⟨e, hgenesis, -⟩ := (hstart.consistent (H := cfg.crypto.toHashlib)).rooted.entry
  obtain ⟨tip, blocks, chain, hbest, h, hbuilt⟩ :=
    received_inPlace hmoney hstart hgenesis hfunded htree hreads
  exact ⟨tip, blocks, chain, hbest, h.listed, h.stocked,
    hbuilt.weaken fun _ _ _ haccepts => accepts_of_inPlace haccepts, h.reflects⟩

namespace ReorgExample

/-- Two ways to the branch of `blockB2`: by a switch from `blockA`, and by an orphan. -/
def forkFirst : List Delivery := [⟨2000, blockA, none⟩, ⟨2000, blockB, none⟩, ⟨2000, blockB2, none⟩]

def orphanFirst : List Delivery := [⟨2000, blockB2, none⟩, ⟨2000, blockB, none⟩]

lemma funded (key : Outpoint) (hkey : start.session.conn.current.utxo.get? key ≠ none) :
    key.1 ∈ start.known := by
  have hcoin : key = (MempoolExample.coin, 0) := by
    by_contra hne
    apply hkey
    change (KeyedRows.empty.put (MempoolExample.coin, 0) _).get? key = none
    rw [KeyedRows.get?_put, if_neg hne, KeyedRows.get?_empty]
  rw [hcoin]
  change tables.transactions.get? MempoolExample.coin ≠ none
  decide +kernel

lemma readsBack : ∀ d ∈ forkFirst ++ orphanFirst, d.block.ReadsBack := by
  have hA : blockA.ReadsBack := ⟨(blockA.serialize true).length, by decide +kernel⟩
  have hB : blockB.ReadsBack := ⟨(blockB.serialize true).length, by decide +kernel⟩
  have hB2 : blockB2.ReadsBack := ⟨(blockB2.serialize true).length, by decide +kernel⟩
  simp [forkFirst, orphanFirst, hA, hB, hB2]

lemma switches : (received config forkFirst start).bestHash =
    some (blockB2.header.hashHex crypto.toHashlib) := by decide +kernel

end ReorgExample

/-- After any run of `on_block`, with any number of switches between branches, the blocks of the active
chain were each validated on the UTXO set that the blocks below leave, the UTXO table is what they
make of the first one, and their undo rows are there to take them off again. -/
theorem received_ledger (cfg : NodeConfig) (root aboveRoot : Bytes) (start : Node)
    (hmoney : cfg.params.maxMoney < 2 ^ 63)
    (hstart : Started cfg.crypto.toHashlib root aboveRoot start)
    (hfunded : ∀ key, start.session.conn.current.utxo.get? key ≠ none → key.1 ∈ start.known)
    (deliveries : List Delivery)
    (htree : ∀ d ∈ deliveries, d.block.header.hashHex cfg.crypto.toHashlib ≠ aboveRoot)
    (hreads : ∀ d ∈ deliveries, d.block.ReadsBack) :
    ∃ tip chain, (received cfg deliveries start).bestHash = some tip ∧
      Built cfg.crypto.toHashlib root cfg.params.network (accepts cfg)
        start.session.conn.current.utxo.get? (deliveries.map Delivery.block) chain tip ∧
      Reflects cfg.crypto.toHashlib start.session.conn.current.utxo.get? chain
        (received cfg deliveries start).session.conn.current := by
  obtain ⟨tip, blocks, chain, hbest, hlisted, -, hbuilt, hreflects⟩ :=
    received_inLedger hmoney hstart hfunded htree hreads
  exact ⟨tip, chain, hbest, hbuilt.mono fun block hblock => (hlisted block hblock).2.2, hreflects⟩

open ReorgExample in
/-- The blocks of the branch that the node switched to. -/
theorem received_ledger_switch : ∃ tip chain, (received config forkFirst start).bestHash = some tip ∧
    Built config.crypto.toHashlib genesisEntry.blockHash config.params.network (accepts config)
      start.session.conn.current.utxo.get? (forkFirst.map Delivery.block) chain tip ∧
    Reflects config.crypto.toHashlib start.session.conn.current.utxo.get? chain
      (received config forkFirst start).session.conn.current :=
  received_ledger config _ zeroHash start (by decide +kernel) started funded forkFirst
    (by decide +kernel) fun d hd => readsBack d (List.mem_append_left _ hd)

/-- After any run of `on_block` the UTXO table holds at most what the node started with and the
subsidies of the heights up to its best tip. -/
theorem received_supply (cfg : NodeConfig) (root aboveRoot : Bytes) (start : Node)
    (hmoney : cfg.params.maxMoney < 2 ^ 63)
    (hstart : Started cfg.crypto.toHashlib root aboveRoot start)
    (hfunded : ∀ key, start.session.conn.current.utxo.get? key ≠ none → key.1 ∈ start.known)
    (deliveries : List Delivery)
    (htree : ∀ d ∈ deliveries, d.block.header.hashHex cfg.crypto.toHashlib ≠ aboveRoot)
    (hreads : ∀ d ∈ deliveries, d.block.ReadsBack) :
    ∃ tip n, (received cfg deliveries start).bestHash = some tip ∧
      (received cfg deliveries start).session.memory.getHeight tip = some n ∧
      (received cfg deliveries start).session.conn.current.supply ≤
        start.session.conn.current.supply + subsidiesAbove cfg.params n ∧
      (Shipped cfg.params →
        start.session.conn.current.supply ≤ getBlockSubsidy 0 cfg.params →
        (received cfg deliveries start).session.conn.current.supply ≤ cfg.params.maxMoney) := by
  obtain ⟨tip, blocks, chain, hbest, -, hstock, hbuilt, hreflects⟩ :=
    received_inLedger hmoney hstart hfunded htree hreads
  obtain ⟨tables, hutxo, hle⟩ := hbuilt.approved.supply_le start.session.memory hmoney
    (fun _ _ _ ⟨_, _, hvalid⟩ => BlockValidator.validateBlock_true hvalid) hreflects.store
  have hsupply : (received cfg deliveries start).session.conn.current.supply ≤
      start.session.conn.current.supply + subsidiesAbove cfg.params chain.length := by
    have hsame := KeyedRows.sum_eq_of_get? hutxo utxoValue
    unfold Tables.supply at hle ⊢
    rwa [hsame] at hle
  refine ⟨tip, chain.length, hbest, hstock.height hbuilt.linked hbuilt.listed, hsupply, ?_⟩
  intro hshipped hfirst
  have htotal := subsidySum_le_maxMoney hshipped (chain.length + 1)
  rw [subsidySum_succ] at htotal
  omega

open ReorgExample in
theorem received_supply_switch : ∃ tip n, (received config forkFirst start).bestHash = some tip ∧
    (received config forkFirst start).session.memory.getHeight tip = some n ∧
    (received config forkFirst start).session.conn.current.supply ≤
      start.session.conn.current.supply + subsidiesAbove config.params n ∧
    (Shipped config.params →
      start.session.conn.current.supply ≤ getBlockSubsidy 0 config.params →
      (received config forkFirst start).session.conn.current.supply ≤ config.params.maxMoney) :=
  received_supply config _ zeroHash start (by decide +kernel) started funded forkFirst
    (by decide +kernel) fun d hd => readsBack d (List.mem_append_left _ hd)

/-- Two nodes that started alike and end with the same best tip have the same UTXO set, whatever
blocks came, in whatever order: every column but the address, and on the main network that too. -/
theorem received_utxo_agree (cfg : NodeConfig) (root aboveRoot : Bytes) (start : Node)
    (hmoney : cfg.params.maxMoney < 2 ^ 63)
    (hstart : Started cfg.crypto.toHashlib root aboveRoot start)
    (hfunded : ∀ key, start.session.conn.current.utxo.get? key ≠ none → key.1 ∈ start.known)
    (deliveries deliveries' : List Delivery)
    (htree : ∀ d ∈ deliveries ++ deliveries',
      d.block.header.hashHex cfg.crypto.toHashlib ≠ aboveRoot)
    (hreads : ∀ d ∈ deliveries ++ deliveries', d.block.ReadsBack)
    (hnamed : ∀ d ∈ deliveries, ∀ d' ∈ deliveries', d.block.header.hashHex cfg.crypto.toHashlib =
      d'.block.header.hashHex cfg.crypto.toHashlib → d.block = d'.block)
    (hbest : (received cfg deliveries start).bestHash = (received cfg deliveries' start).bestHash) :
    (∀ key,
      ((received cfg deliveries start).session.conn.current.utxo.get? key).map withoutAddress =
        ((received cfg deliveries' start).session.conn.current.utxo.get? key).map withoutAddress) ∧
      (cfg.params.network = .mainnet → ∀ key,
        (received cfg deliveries start).session.conn.current.utxo.get? key =
          (received cfg deliveries' start).session.conn.current.utxo.get? key) := by
  obtain ⟨tip, blocks, chain, htip, hlisted, hstock, hbuilt, hreflects⟩ := received_inLedger hmoney
    hstart hfunded (fun d hd => htree d (List.mem_append_left _ hd))
    fun d hd => hreads d (List.mem_append_left _ hd)
  obtain ⟨tip', blocks', chain', htip', hlisted', hstock', hbuilt', hreflects'⟩ := received_inLedger
    hmoney hstart hfunded (fun d hd => htree d (List.mem_append_right _ hd))
    fun d hd => hreads d (List.mem_append_right _ hd)
  obtain rfl : tip = tip' := by
    rw [htip, htip'] at hbest
    exact Option.some.inj hbest
  have hblocks : chain.map Connected.block = chain'.map Connected.block := by
    refine hbuilt.linked.blocks_unique hbuilt'.linked ?_ (hstock.ne_root hbuilt)
      (hstock'.ne_root hbuilt')
    intro x hx y hy heq
    obtain ⟨d, hd, hdx⟩ := List.mem_map.1 (hlisted _ (hbuilt.listed x hx)).2.2
    obtain ⟨d', hd', hdy⟩ := List.mem_map.1 (hlisted' _ (hbuilt'.listed y hy)).2.2
    rw [← hdx, ← hdy] at heq ⊢
    exact hnamed d hd d' hd' heq
  refine ⟨?_, ?_⟩
  · obtain ⟨store, hstore, hagree⟩ := replay_agree (fun _ => rfl) (updates_agree hblocks)
      hreflects.store
    rw [hreflects'.store, Option.some.injEq] at hstore
    rw [hstore]
    exact hagree
  · intro hmain key
    have hchain {blocks : List Block} {chain : List Connected} {base : Store Outpoint UtxoRow}
        (h : Built cfg.crypto.toHashlib root cfg.params.network (accepts cfg) base blocks chain tip) :
        (chain.map Connected.block).map (Connected.mk .mainnet) = chain :=
      Connected.map_block fun c hc => (h.network c hc).elim (fun hnet => hnet.trans hmain) id
    have hsame : chain = chain' := by
      rw [← hchain hbuilt, hblocks, hchain hbuilt']
    have hstore := hreflects.store
    rw [hsame, hreflects'.store, Option.some.injEq] at hstore
    rw [hstore]

open ReorgExample in
/-- A switch between branches and a block that waits for its parent end with the same coins. -/
theorem received_utxo_agree_switch :
    (received config forkFirst start).bestHash = some (blockB2.header.hashHex crypto.toHashlib) ∧
      (received config forkFirst start).session.conn.current.utxo.rows.map
          (fun row => (row.1, withoutAddress row.2)) ≠ [] ∧
      ∀ key, ((received config forkFirst start).session.conn.current.utxo.get? key).map withoutAddress =
        ((received config orphanFirst start).session.conn.current.utxo.get? key).map withoutAddress :=
  ⟨switches, by decide +kernel,
    (received_utxo_agree config _ zeroHash start (by decide +kernel) started funded forkFirst orphanFirst
      (by decide +kernel) readsBack (by decide +kernel) (by decide +kernel)).1⟩

end Node
end BerzCoin
