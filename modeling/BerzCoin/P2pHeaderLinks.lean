import BerzCoin.ConsensusDifficulty
import BerzCoin.P2pSync

/-! What header synchronisation does to the links between the stored headers. -/
namespace BerzCoin
open ConsensusRules

section links
variable (params : ConsensusParams) (root : Bytes)

/-- The root has height 0 and its own work; any other header follows a stored one. -/
def HeaderLinked (rows : KeyedRows Bytes HeaderRow) (blockHash : Bytes) (row : HeaderRow) : Prop :=
  let work := ChainWork.calculateBlockWork params row.header.bits
  if blockHash = root then row.height = 0 ∧ row.chainwork = some work
  else ∃ parent parentWork, rows.get? row.header.prevBlockHash = some parent ∧
    parent.chainwork = some parentWork ∧ row.height = parent.height + 1 ∧
    row.chainwork = some (parentWork + work)

/-- The stored headers form a tree. -/
structure HeaderTree (rows : KeyedRows Bytes HeaderRow) : Prop where
  rooted : ∃ row, rows.get? root = some row ∧
    0 < ChainWork.calculateBlockWork params row.header.bits
  linked : ∀ blockHash row, rows.get? blockHash = some row → HeaderLinked params root rows blockHash row

variable {params root} {rows : KeyedRows Bytes HeaderRow}

lemma HeaderTree.chainwork_pos (h : HeaderTree params root rows) {blockHash : Bytes}
    {row : HeaderRow} (hrow : rows.get? blockHash = some row) :
    ∃ work, row.chainwork = some work ∧ 0 < work := by
  induction hheight : row.height using Nat.strong_induction_on generalizing blockHash row with
  | _ height ih =>
    have hlinked := h.linked blockHash row hrow
    unfold HeaderLinked at hlinked
    split_ifs at hlinked with hroot
    · obtain ⟨first, hfirst, hpos⟩ := h.rooted
      rw [hroot, hfirst] at hrow
      cases hrow
      exact ⟨_, hlinked.2, hpos⟩
    · obtain ⟨parent, parentWork, hparent, hwork, hnext, hchainwork⟩ := hlinked
      obtain ⟨work, hsome, hpos⟩ := ih parent.height (by omega) hparent rfl
      rw [hwork] at hsome
      cases hsome
      exact ⟨_, hchainwork, by omega⟩

end links

lemma ConsensusRules.work_pos {H : Hashlib} {params : ConsensusParams} {now : ℕ}
    {header : BlockHeader} (hlimit : params.powLimit = ConsensusParams.mainnet.powLimit)
    (h : validateBlockHeader H params now header = .ok ()) :
    0 < ChainWork.calculateBlockWork params header.bits := by
  unfold validateBlockHeader at h
  obtain ⟨_, _, h⟩ := except_bind_eq_ok h
  obtain ⟨_, _, h⟩ := except_bind_eq_ok h
  obtain ⟨_, htarget, _⟩ := except_bind_eq_ok h
  have hpos : 0 < ProofOfWork.getTarget params header.bits := by
    unfold require at htarget
    split_ifs at htarget with hok
    simpa using hok
  exact ChainWork.calculateBlockWork_pos hlimit hpos

namespace BlockSync
variable {H : Hashlib} {params : ConsensusParams} {now : ℕ}

lemma getHeader_rows (chain : SyncChain) (height : ℕ) :
    (chain.getHeader height).2.headerChain.rows = chain.headerChain.rows ∧
      (chain.getHeader height).2.bestHeight = chain.bestHeight := by
  unfold SyncChain.getHeader SyncChain.withHeaders
  split
  · exact ⟨rfl, rfl⟩
  · exact ⟨CachedHeaders.getHeaderByHash_rows _, rfl⟩

/-- A row as `process_headers` writes it: above the best height, with the work of its header
alone. -/
structure WrittenByPosition (params : ConsensusParams) (best : ℤ) (row : HeaderRow) : Prop where
  chainwork : row.chainwork = some (ChainWork.calculateBlockWork params row.header.bits)
  work : 0 < ChainWork.calculateBlockWork params row.header.bits
  height : best < row.height

/-- The chain before a header is stored: its rows, after the lookup of the header below. -/
lemma storeHeaders_lookup (chain : SyncChain) (height : ℕ) :
    ∃ looked : SyncChain, (if height = 0 then ((none : Option BlockHeader), chain)
        else chain.getHeader (height - 1)).2 = looked ∧
      looked.headerChain.rows = chain.headerChain.rows ∧ looked.bestHeight = chain.bestHeight := by
  refine ⟨_, rfl, ?_⟩
  split_ifs
  · exact ⟨rfl, rfl⟩
  · exact getHeader_rows chain _

/-- The rows after a header is stored. -/
lemma storeHeaders_cons (chain : SyncChain) (i : ℕ) {header : BlockHeader}
    (rest : List BlockHeader) (hvalid : validateBlockHeader H params now header = .ok ()) :
    ∃ next : SyncChain, storeHeaders H params now chain i (header :: rest) =
        storeHeaders H params now next (i + 1) rest ∧
      next.bestHeight = chain.bestHeight ∧
      ∃ height, chain.bestHeight < height ∧ next.headerChain.rows =
        chain.headerChain.rows.insertOrReplace (header.hashHex H)
          { height := height.toNat
            header
            chainwork := some (ChainWork.calculateBlockWork params header.bits)
            isValid := true
            statusFlags := {.HEADER, .VALID} } := by
  obtain ⟨looked, hlooked, hrows, hsame⟩ :=
    storeHeaders_lookup chain (chain.bestHeight + 1 + i).toNat
  have hheight : chain.bestHeight < chain.bestHeight + 1 + i := by omega
  refine ⟨{ looked with
      headerChain := looked.headerChain.addHeader H header (chain.bestHeight + 1 + i).toNat
        (ChainWork.calculateBlockWork params header.bits) }, ?_, hsame, _, hheight, ?_⟩
  · rw [storeHeaders]
    simp only [hvalid, hlooked]
  · simp only [CachedHeaders.addHeader, hrows]

lemma storeHeaders_error {chain : SyncChain} {i : ℕ} {header : BlockHeader}
    {rest : List BlockHeader} (hinvalid : validateBlockHeader H params now header ≠ .ok ()) :
    (storeHeaders H params now chain i (header :: rest)).1.headerChain.rows =
      chain.headerChain.rows := by
  obtain ⟨looked, hlooked, hrows, _⟩ := storeHeaders_lookup chain (chain.bestHeight + 1 + i).toNat
  rw [storeHeaders]
  cases hresult : validateBlockHeader H params now header with
  | ok u => exact absurd hresult hinvalid
  | error e =>
    simp only [hlooked]
    exact hrows

/-- Every row afterwards was there or is written by position; a row that was written by position
stays one. -/
lemma storeHeaders_spec (H : Hashlib) (now : ℕ) (hlimit : params.powLimit = ConsensusParams.mainnet.powLimit)
    (chain : SyncChain) (i : ℕ) (headers : List BlockHeader) :
    (∀ blockHash row, (storeHeaders H params now chain i headers).1.headerChain.rows.get? blockHash =
        some row → chain.headerChain.rows.get? blockHash = some row ∨
          WrittenByPosition params chain.bestHeight row) ∧
      ∀ blockHash row, chain.headerChain.rows.get? blockHash = some row →
        WrittenByPosition params chain.bestHeight row →
          ∃ row', (storeHeaders H params now chain i headers).1.headerChain.rows.get? blockHash =
            some row' ∧ WrittenByPosition params chain.bestHeight row' := by
  induction headers generalizing chain i with
  | nil => exact ⟨fun _ _ h => Or.inl h, fun _ row h hwritten => ⟨row, h, hwritten⟩⟩
  | cons header rest ih =>
    by_cases hvalid : validateBlockHeader H params now header = .ok ()
    · obtain ⟨next, hstore, hsame, height, hheight, hrows⟩ :=
        storeHeaders_cons chain i rest hvalid
      have hnew : WrittenByPosition params chain.bestHeight
          { height := height.toNat
            header
            chainwork := some (ChainWork.calculateBlockWork params header.bits)
            isValid := true
            statusFlags := {.HEADER, .VALID} } :=
        ⟨rfl, work_pos hlimit hvalid, by simp only; omega⟩
      obtain ⟨hrest, hkeep⟩ := ih next (i + 1)
      rw [hsame] at hrest hkeep
      rw [hstore]
      constructor
      · intro blockHash row hrow
        rcases hrest blockHash row hrow with hold | hwritten
        · rw [hrows, KeyedRows.get?_insertOrReplace] at hold
          split_ifs at hold with hkey
          · cases hold
            exact Or.inr hnew
          · exact Or.inl hold
        · exact Or.inr hwritten
      · intro blockHash row hrow hwritten
        by_cases hkey : blockHash = header.hashHex H
        · exact hkeep blockHash _ (by rw [hrows, KeyedRows.get?_insertOrReplace, if_pos hkey]) hnew
        · exact hkeep blockHash row
            (by rw [hrows, KeyedRows.get?_insertOrReplace, if_neg hkey, hrow]) hwritten
    · rw [storeHeaders_error hvalid]
      exact ⟨fun _ _ h => Or.inl h, fun _ row h hwritten => ⟨row, h, hwritten⟩⟩

/-- The first header, when it is valid, leaves a row written by position. -/
lemma storeHeaders_written (hlimit : params.powLimit = ConsensusParams.mainnet.powLimit)
    (chain : SyncChain) (i : ℕ) {header : BlockHeader} (rest : List BlockHeader)
    (hvalid : validateBlockHeader H params now header = .ok ()) :
    ∃ row, (storeHeaders H params now chain i (header :: rest)).1.headerChain.rows.get?
      (header.hashHex H) = some row ∧ WrittenByPosition params chain.bestHeight row := by
  obtain ⟨next, hstore, hsame, height, hheight, hrows⟩ :=
    storeHeaders_cons chain i rest hvalid
  have hkeep := (storeHeaders_spec H now hlimit next (i + 1) rest).2
  rw [hsame] at hkeep
  rw [hstore]
  apply hkeep (header.hashHex H) _ (by rw [hrows, KeyedRows.get?_insertOrReplace, if_pos rfl])
  exact ⟨rfl, work_pos hlimit hvalid, by simp only; omega⟩

/-- The tree is broken as soon as one header is stored. -/
lemma not_headerTree_of_stored {root : Bytes}
    (hlimit : params.powLimit = ConsensusParams.mainnet.powLimit) {chain : SyncChain}
    (hbest : 0 ≤ chain.bestHeight) (htree : HeaderTree params root chain.headerChain.rows) {i : ℕ}
    {header : BlockHeader} {rest : List BlockHeader}
    (hvalid : validateBlockHeader H params now header = .ok ()) :
    ¬HeaderTree params root
      (storeHeaders H params now chain i (header :: rest)).1.headerChain.rows := by
  intro hafter
  obtain ⟨row, hrow, hwritten⟩ := storeHeaders_written hlimit chain i rest hvalid
  have hspec := (storeHeaders_spec H now hlimit chain i (header :: rest)).1
  have hlinked := hafter.linked _ row hrow
  unfold HeaderLinked at hlinked
  have hheight := hwritten.height
  split_ifs at hlinked with hroot
  · omega
  · -- the parent would have no work
    obtain ⟨parent, parentWork, hparent, hwork, _, hchainwork⟩ := hlinked
    rw [hwritten.chainwork, Option.some.injEq] at hchainwork
    have hpos : 0 < parentWork := by
      rcases hspec _ parent hparent with hold | hnew
      · obtain ⟨work, hsome, hpos⟩ := htree.chainwork_pos hold
        rw [hwork] at hsome
        cases hsome
        exact hpos
      · have hsome := hnew.chainwork
        rw [hwork] at hsome
        cases hsome
        exact hnew.work
    omega

/-- No header gets stored: the list is empty, an element of it cannot be parsed, or the first
header is invalid. -/
def NothingStored (H : Hashlib) (params : ConsensusParams) (now : ℕ) (headers : List Bytes) : Prop :=
  ∀ first rest, (headers.mapM fun data => BlockHeader.deserialize data 0) = .ok (first :: rest) →
    validateBlockHeader H params now first.1 ≠ .ok ()

theorem headerTree_processHeaders_iff {root : Bytes}
    (hlimit : params.powLimit = ConsensusParams.mainnet.powLimit) {chain : SyncChain}
    (hbest : 0 ≤ chain.bestHeight) (htree : HeaderTree params root chain.headerChain.rows)
    (headers : List Bytes) :
    HeaderTree params root (processHeaders H params now chain headers).1.headerChain.rows ↔
      NothingStored H params now headers := by
  unfold processHeaders NothingStored
  cases hparsed : headers.mapM fun data => BlockHeader.deserialize data 0 with
  | error e => simpa using htree
  | ok parsed =>
    cases parsed with
    | nil => simpa [storeHeaders] using htree
    | cons first rest =>
      simp only [List.map_cons, Except.ok.injEq, List.cons.injEq]
      constructor
      · intro hafter first' rest' hsame hvalid
        obtain ⟨rfl, rfl⟩ := hsame
        exact not_headerTree_of_stored hlimit hbest htree hvalid hafter
      · intro hnothing
        rw [storeHeaders_error (hnothing first rest ⟨rfl, rfl⟩)]
        exact htree

end BlockSync

/-! The genesis header alone, and a peer that sends the header on top of it. -/
namespace HeaderExample

lemma headerTree_genesis :
    HeaderTree .regtest genesisKey genesisNode.headerChain.rows := by
  have hrow : ∀ blockHash, genesisNode.headerChain.rows.get? blockHash =
      if blockHash = genesisKey then some (rowAt 0 genesis) else none := by
    intro blockHash
    exact KeyedRows.get?_put KeyedRows.empty genesisKey blockHash (rowAt 0 genesis)
  refine ⟨⟨rowAt 0 genesis, by rw [hrow, if_pos rfl], by decide +kernel⟩, ?_⟩
  intro blockHash row h
  rw [hrow] at h
  split_ifs at h with hkey
  cases h
  unfold HeaderLinked
  rw [if_pos hkey]
  decide +kernel

lemma processed_child :
    (BlockSync.processHeaders hashlib .regtest 2000 genesisNode [child.serialize]).1.headerChain.rows.get?
      childKey = some { rowAt 1 child with chainwork := some 1 } := by
  decide +kernel

lemma processed_genesis :
    (BlockSync.processHeaders hashlib .regtest 2000 genesisNode [child.serialize]).1.headerChain.rows.get?
      genesisKey = some (rowAt 0 genesis) := by
  decide +kernel

end HeaderExample

open HeaderExample in
theorem BlockSync.headerTree_processHeaders_child :
    HeaderTree .regtest genesisKey (BlockSync.processHeaders hashlib .regtest 2000 genesisNode
        [child.serialize]).1.headerChain.rows ↔
      BlockSync.NothingStored hashlib .regtest 2000 [child.serialize] := by
  have hlimit : ConsensusParams.regtest.powLimit = ConsensusParams.mainnet.powLimit := rfl
  have hbest : 0 ≤ genesisNode.bestHeight := by decide
  exact BlockSync.headerTree_processHeaders_iff hlimit hbest headerTree_genesis [child.serialize]

open HeaderExample in
theorem BlockSync.child_stored_without_parent_work :
    HeaderTree .regtest genesisKey genesisNode.headerChain.rows ∧
      ¬HeaderTree .regtest genesisKey (BlockSync.processHeaders hashlib .regtest 2000 genesisNode
        [child.serialize]).1.headerChain.rows := by
  refine ⟨headerTree_genesis, ?_⟩
  intro hafter
  have hlinked := hafter.linked childKey _ processed_child
  unfold HeaderLinked at hlinked
  rw [if_neg (by decide +kernel)] at hlinked
  obtain ⟨parent, parentWork, hparent, hwork, _, hchainwork⟩ := hlinked
  have hparent' : rowAt 0 genesis = parent :=
    Option.some.inj (processed_genesis.symm.trans hparent)
  have hvalue : ChainWork.calculateBlockWork .regtest (rowAt 1 child).header.bits = 1 := by
    decide +kernel
  subst hparent'
  cases hwork
  rw [hvalue] at hchainwork
  cases hchainwork

end BerzCoin
