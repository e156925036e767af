import BerzCoin.ChainReorgAtomic
import BerzCoin.ChainTips
import BerzCoin.OperationRuns
import BerzCoin.ValidationAtomic

/-! Runs of the block index: blocks are added and marked invalid, tips are chosen, and the index is
loaded from the rows written so far. -/
namespace BerzCoin
open Database

inductive IndexOp
  | addBlock (block : Block) (height chainwork : ℕ) (updateBest : Bool)
  | markInvalid (blockHash : Bytes)
  | setBestChainTip (blockHash : Bytes)
  | load
  | clear
  /-- The row that `write_block` and `add_header` put in `block_headers`. -/
  | insertHeader (header : BlockHeader) (height chainwork : ℕ) (withBody : Bool)

namespace IndexOp
variable (H : Hashlib)

def perform : IndexOp → ChainDb Unit
  | .addBlock block height chainwork updateBest =>
    BlockIndex.addBlock H block height chainwork updateBest
  | .markInvalid blockHash => BlockIndex.markInvalid blockHash
  | .setBestChainTip blockHash => BlockIndex.setBestChainTip blockHash
  | .load => BlockIndex.load
  | .clear => BlockIndex.clear
  | .insertHeader header height chainwork withBody =>
    execute (BlocksStore.insertHeader H header height chainwork
      (if withBody then {.HEADER, .BLOCK, .VALID} else {.HEADER, .VALID}))

def after (op : IndexOp) (s : Session Tables BlockIndex) : Session Tables BlockIndex :=
  (op.perform H).final s

/-- An added block that the best tip or a block of the main chain descends from extends no
invalid branch. -/
def AddSafe (b : BlockIndex) (blockHash prev : Bytes) : Prop :=
  ∀ k, b.bestHash = some k ∨ k ≠ blockHash ∧ b.OnMainChain k → b.Descends k blockHash →
    b.BranchValid prev

/-- A marked block is no ancestor of another tip, unless it is the best tip and the choice of the
next one finds a valid block apart from it. -/
def MarkSafe (b : BlockIndex) (blockHash : Bytes) : Prop :=
  b.getBlock blockHash ≠ none →
    (b.bestHash = some blockHash ∧
        ∃ k, b.getBlock k ≠ none ∧ b.BranchValid k ∧ ¬ b.Descends k blockHash) ∨
      ∀ k, b.IsTop k → b.Descends k blockHash → k = blockHash

/-- The index once the rows are read. -/
def loadedIndex (tables : Tables) (b : BlockIndex) : BlockIndex :=
  (BlockIndex.storedRows tables).foldl
    (fun b row => b.withEntry row.1 (BlockIndex.loadedEntry row.1 row.2)) b

/-- The first of the heaviest rows that are not marked invalid. -/
def FirstHeaviest (tables : Tables) (row : Bytes × HeaderRow) : Prop :=
  ∃ before after, BlockIndex.storedRows tables = before ++ row :: after ∧
    (BlockIndex.loadedEntry row.1 row.2).isInvalid = false ∧
    (∀ r ∈ before, (BlockIndex.loadedEntry r.1 r.2).isInvalid = false →
      (BlockIndex.loadedEntry r.1 r.2).rank < (BlockIndex.loadedEntry row.1 row.2).rank) ∧
    ∀ r ∈ after, (BlockIndex.loadedEntry r.1 r.2).isInvalid = false →
      (BlockIndex.loadedEntry r.1 r.2).rank ≤ (BlockIndex.loadedEntry row.1 row.2).rank

/-- The heaviest row has no invalid ancestor. Where all rows are marked invalid, none of them is
for an ancestor of the tips that the index already has. -/
structure LoadSafe (tables : Tables) (b : BlockIndex) : Prop where
  heaviest : ∀ row, FirstHeaviest tables row → (loadedIndex tables b).BranchValid row.1
  allInvalid : (∀ row ∈ BlockIndex.storedRows tables,
      (BlockIndex.loadedEntry row.1 row.2).isInvalid = true) →
    ∀ k, b.bestHash = some k ∨ tables.blockHeaders.get? k = none ∧ b.OnMainChain k →
      ∀ h, tables.blockHeaders.get? h ≠ none → ¬ b.Descends k h

/-- When an operation keeps the tips valid, told from its input and the state before it. -/
def Safe (s : Session Tables BlockIndex) : IndexOp → Prop
  | .addBlock block _ _ _ => AddSafe s.memory (block.header.hashHex H) block.header.prevBlockHash
  | .markInvalid blockHash => MarkSafe s.memory blockHash
  | .load => LoadSafe s.conn.current s.memory
  | _ => True

end IndexOp

/-- A new node: no rows and no blocks. -/
def newIndex : Session Tables BlockIndex := ⟨⟨Tables.empty, none⟩, BlockIndex.empty⟩

namespace BlockIndex

/-- A row with the flag for the main chain is not that of an invalid block. -/
def RowsSound (rows : KeyedRows Bytes HeaderRow) : Prop :=
  ∀ k row, rows.get? k = some row → row.chainwork ≠ none ∧
    (.MAIN_CHAIN ∈ row.statusFlags → (loadedEntry k row).isInvalid = false)

/-- What holds between the operations of a run whose tips are valid. -/
structure Settled (s : Session Tables BlockIndex) : Prop where
  keyed : s.memory.Keyed
  tips : s.memory.TipsValid
  rows : RowsSound s.conn.current.blockHeaders

section rows
variable {rows : KeyedRows Bytes HeaderRow}

lemma isInvalid_loadedEntry (k : Bytes) (row : HeaderRow) :
    (loadedEntry k row).isInvalid = (!row.isValid || row.chainwork.isNone ||
      decide (.INVALID ∈ row.statusFlags) || decide (.FAILED_VALIDATION ∈ row.statusFlags)) := by
  obtain ⟨height, header, chainwork, isValid, flags⟩ := row
  by_cases hflags : flags = ∅
  · subst hflags
    cases isValid <;> cases chainwork <;>
      simp [loadedEntry, BlockIndexEntry.isInvalid, BlockIndexEntry.hasStatus]
  · cases isValid <;> cases chainwork <;>
      simp [loadedEntry, hflags, BlockIndexEntry.isInvalid, BlockIndexEntry.hasStatus]

lemma isMainChain_loadedEntry (k : Bytes) (row : HeaderRow) :
    (loadedEntry k row).isMainChain = decide (.MAIN_CHAIN ∈ row.statusFlags) := by
  obtain ⟨height, header, chainwork, isValid, flags⟩ := row
  by_cases hflags : flags = ∅
  · subst hflags
    cases isValid <;> cases chainwork <;>
      simp [loadedEntry, BlockIndexEntry.isMainChain, BlockIndexEntry.hasStatus]
  · cases isValid <;> cases chainwork <;>
      simp [loadedEntry, hflags, BlockIndexEntry.isMainChain, BlockIndexEntry.hasStatus]

/-- Writing the flags of an entry that is not both on the main chain and invalid. -/
lemma RowsSound.persist (hrows : RowsSound rows) {entry : BlockIndexEntry}
    (hentry : entry.isMainChain = true → entry.isInvalid = false) :
    RowsSound (rows.update entry.blockHash fun row =>
      { row with isValid := !entry.isInvalid, statusFlags := entry.status }) := by
  intro k row hrow
  rw [KeyedRows.get?_update] at hrow
  split_ifs at hrow with hk
  · obtain ⟨old, hold, rfl⟩ := Option.map_eq_some_iff.1 hrow
    obtain ⟨hwork, -⟩ := hrows k old hold
    refine ⟨hwork, ?_⟩
    intro hmain
    have hinvalid := hentry (by simpa [BlockIndexEntry.isMainChain, BlockIndexEntry.hasStatus] using hmain)
    rw [isInvalid_loadedEntry]
    simp only [BlockIndexEntry.isInvalid, BlockIndexEntry.hasStatus, Bool.or_eq_false_iff,
      decide_eq_false_iff_not] at hinvalid
    simp [BlockIndexEntry.isInvalid, BlockIndexEntry.hasStatus, hinvalid.1, hinvalid.2,
      Option.isSome_iff_ne_none, hwork]
  · exact hrows k row hrow

lemma persistStatus_apply (entry : BlockIndexEntry) (s : Session Tables BlockIndex) :
    ∃ s', persistStatus entry s = .ok () s' ∧ s'.memory = s.memory ∧
      s'.conn.current.blockHeaders = s.conn.current.blockHeaders.update entry.blockHash fun row =>
        { row with isValid := !entry.isInvalid, statusFlags := entry.status } := by
  obtain ⟨s', hs', hcur, -, hmem⟩ := change_opens s fun tables : Tables => { tables with
    blockHeaders := tables.blockHeaders.update entry.blockHash fun row =>
      { row with isValid := !entry.isInvalid, statusFlags := entry.status } }
  exact ⟨s', hs', hmem, by rw [hcur]⟩

lemma persistAll_sound (entries : List (Bytes × BlockIndexEntry)) (s : Session Tables BlockIndex) :
    ∃ s', persistAll entries s = .ok () s' ∧ s'.memory = s.memory ∧
      (RowsSound s.conn.current.blockHeaders →
        (∀ r ∈ entries, r.2.isMainChain = true → r.2.isInvalid = false) →
          RowsSound s'.conn.current.blockHeaders) := by
  induction entries generalizing s with
  | nil => exact ⟨s, rfl, rfl, fun hrows _ => hrows⟩
  | cons row entries ih =>
    obtain ⟨k, entry⟩ := row
    obtain ⟨s1, h1, hmem, hcur⟩ := persistStatus_apply entry s
    obtain ⟨s', h', hmem', hsound⟩ := ih s1
    refine ⟨s', ?_, hmem'.trans hmem, ?_⟩
    · simp only [persistAll, Db.bind_apply, h1]
      exact h'
    · intro hrows hentries
      apply hsound
      · rw [hcur]
        exact hrows.persist (hentries (k, entry) List.mem_cons_self)
      · exact fun r hr => hentries r (List.mem_cons_of_mem _ hr)

end rows

section shape
variable {b b' : BlockIndex} {k : Bytes}

lemma SameShape.keyed (h : SameShape b b') (hkey : b.Keyed) : b'.Keyed := by
  intro k e' he'
  obtain ⟨e, he, hcore⟩ := h.of_some he'
  have hhash : e'.blockHash = e.blockHash := congrArg (fun c => c.2.1) hcore
  rw [hhash]
  exact hkey k e he

lemma SameShape.forest_iff (h : SameShape b b') : b'.Forest ↔ b.Forest := by
  rw [Forest, Forest, h.parentHash]

lemma SameShape.branchValid (h : SameShape b b') (hvalid : b.BranchValid k) : b'.BranchValid k := by
  intro x e' hdesc he'
  obtain ⟨e, he, hcore⟩ := h.of_some he'
  have hinvalid : e'.isInvalid = e.isInvalid := congrArg (fun c => c.2.2.2.2) hcore
  rw [hinvalid]
  exact hvalid x e (by rwa [h.descends] at hdesc) he

lemma SameShape.branchValid_iff (h : SameShape b b') : b'.BranchValid k ↔ b.BranchValid k :=
  ⟨h.symm.branchValid, h.branchValid⟩

lemma TipsValid.congr (h : SameShape b b') (htop : ∀ k, b'.IsTop k ↔ b.IsTop k) :
    b'.TipsValid ↔ b.TipsValid := by
  refine forall_congr' fun k => ?_
  rw [htop, h.branchValid_iff]

/-- The flags of a chosen tip are those of its branch. -/
lemma tipsValid_withBestChainTip (hkey : b.Keyed) {tip : BlockIndexEntry}
    (htip : b.getBlock k = some tip) :
    (b.withBestChainTip tip k).TipsValid ↔ b.BranchValid k := by
  have hshape : SameShape b (b.withBestChainTip tip k) := .mapValues (core_rebuildStatus _) rfl
  have hbest : (b.withBestChainTip tip k).bestHash = some k := congrArg some (hkey k tip htip)
  constructor
  · intro h
    exact hshape.branchValid_iff.1 (h k (Or.inl hbest))
  · intro hvalid x hx
    apply hshape.branchValid
    rcases hx with hx | ⟨e', he', hmain⟩
    · rw [hbest] at hx
      cases hx
      exact hvalid
    · have hget : (b.withBestChainTip tip k).getBlock x =
          (b.getBlock x).map (rebuildStatus (b.branch k)) := KeyedRows.get?_mapValues ..
      rw [hget] at he'
      obtain ⟨e, he, rfl⟩ := Option.map_eq_some_iff.1 he'
      rw [isMainChain_rebuildStatus, decide_eq_true_eq, hkey x e he] at hmain
      obtain ⟨y, hy, rfl⟩ := List.mem_map.1 hmain
      obtain ⟨-, hdesc⟩ := mem_pathFrom hkey hy
      exact hvalid.below hdesc

/-- `set_best_chain_tip` takes a block exactly when it has no invalid ancestor. -/
lemma tipsValid_tipped (hkey : b.Keyed) (hforest : b.Forest) :
    (b.tipped k).TipsValid ↔ b.Accepts k ∨ b.TipsValid := by
  by_cases haccepts : b.Accepts k
  · obtain ⟨tip, htip, heq⟩ := haccepts.tipped
    have hvalid := (hforest.isBranchInvalid_eq_false_iff hkey).1 haccepts.2
    rw [heq, tipsValid_withBestChainTip hkey htip]
    simp only [haccepts, hvalid, true_or]
  · rw [tipped_of_not_accepts haccepts]
    simp only [haccepts, false_or]

lemma TipsValid.entries (h : b.TipsValid) :
    ∀ r ∈ b.index.rows, r.2.isMainChain = true → r.2.isInvalid = false := by
  intro r hr hmain
  have hget : b.getBlock r.1 = some r.2 := KeyedRows.get?_of_mem_rows hr
  exact h r.1 (Or.inr ⟨r.2, hget, hmain⟩) r.1 r.2 .refl hget

lemma setBestChainTip_sound (k : Bytes) (s : Session Tables BlockIndex) :
    ∃ s', setBestChainTip k s = .ok () s' ∧ s'.memory = s.memory.tipped k ∧
      (RowsSound s.conn.current.blockHeaders → s'.memory.TipsValid →
        RowsSound s'.conn.current.blockHeaders) := by
  simp only [setBestChainTip, Db.bind_apply, read_apply, tipped]
  cases s.memory.getBlock k with
  | none => exact ⟨s, rfl, rfl, fun hrows _ => hrows⟩
  | some tip =>
    simp only [Db.bind_apply, read_apply]
    split_ifs with hinvalid
    · exact ⟨s, rfl, rfl, fun hrows _ => hrows⟩
    · simp only [Db.bind_apply, BlockIndex.modify, onMemory_apply, read_apply]
      obtain ⟨s', h', hmem, hsound⟩ := persistAll_sound
        (s.memory.withBestChainTip tip k).index.rows
        (Database.put s s.conn.current (s.memory.withBestChainTip tip k))
      refine ⟨s', h', hmem, ?_⟩
      intro hrows htips
      rw [hmem] at htips
      exact hsound (by rw [put_current]; exact hrows) htips.entries

end shape

/-! A new entry. -/

section put
variable {b : BlockIndex} {k x : Bytes} {entry : BlockIndexEntry}

lemma getBlock_withEntry (b : BlockIndex) (k x : Bytes) (entry : BlockIndexEntry) :
    (b.withEntry k entry).getBlock x = if x = k then some entry else b.getBlock x :=
  KeyedRows.get?_put ..

lemma parentHash_withEntry {p : Bytes} (hx : ¬ x = k) :
    (b.withEntry k entry).ParentHash x p ↔ b.ParentHash x p := by
  rw [ParentHash, ParentHash, getBlock_withEntry, if_neg hx]

lemma withEntry_parentHash : (b.withEntry k entry).ParentHash k entry.header.prevBlockHash := by
  rw [ParentHash, getBlock_withEntry, if_pos rfl]
  rfl

lemma onMainChain_withEntry (hmain : entry.isMainChain = false) :
    (b.withEntry k entry).OnMainChain x ↔ x ≠ k ∧ b.OnMainChain x := by
  unfold OnMainChain
  rw [getBlock_withEntry]
  split_ifs with hx
  · simp [hx, hmain]
  · simp [hx]

/-- The way to the new entry is as it was. -/
lemma descends_withEntry : (b.withEntry k entry).Descends x k ↔ b.Descends x k := by
  constructor
  · intro h
    rcases Lineage.reflTransGen_change (T := (· = k)) (fun _ _ => parentHash_withEntry) h with h | ⟨t, rfl, h, -⟩
    · exact h
    · exact h
  · intro h
    have hsame (x p : Bytes) (hx : ¬ x = k) :
        b.ParentHash x p ↔ (b.withEntry k entry).ParentHash x p := (parentHash_withEntry hx).symm
    rcases Lineage.reflTransGen_change (T := (· = k)) hsame h with h | ⟨t, rfl, h, -⟩
    · exact h
    · exact h

lemma Forest.not_descends (hforest : (b.withEntry k entry).Forest) :
    ¬ (b.withEntry k entry).Descends entry.header.prevBlockHash k :=
  fun h => hforest k (Relation.TransGen.head' withEntry_parentHash h)

lemma Forest.descends_prev (hforest : (b.withEntry k entry).Forest) :
    (b.withEntry k entry).Descends entry.header.prevBlockHash x ↔
      b.Descends entry.header.prevBlockHash x := by
  constructor
  · intro h
    rcases Lineage.reflTransGen_change (T := (· = k)) (fun _ _ => parentHash_withEntry) h with h | ⟨t, rfl, -, h, -⟩
    · exact h
    · exact absurd h hforest.not_descends
  · intro h
    have hsame (x p : Bytes) (hx : ¬ x = k) :
        b.ParentHash x p ↔ (b.withEntry k entry).ParentHash x p := (parentHash_withEntry hx).symm
    rcases Lineage.reflTransGen_change (T := (· = k)) hsame h with h | ⟨t, rfl, h, -⟩
    · exact h
    · exact absurd h hforest.not_descends

lemma Forest.branchValid_prev (hforest : (b.withEntry k entry).Forest) :
    (b.withEntry k entry).BranchValid entry.header.prevBlockHash ↔
      b.BranchValid entry.header.prevBlockHash := by
  have hne (y : Bytes) (h : (b.withEntry k entry).Descends entry.header.prevBlockHash y) : ¬ y = k := by
    intro heq
    rw [heq] at h
    exact hforest.not_descends h
  constructor
  · intro h y e hdesc he
    have hdesc' := hforest.descends_prev.2 hdesc
    exact h y e hdesc' (by rw [getBlock_withEntry, if_neg (hne y hdesc'), he])
  · intro h y e hdesc he
    rw [getBlock_withEntry, if_neg (hne y hdesc)] at he
    exact h y e (hforest.descends_prev.1 hdesc) he

/-- The new entry is marked invalid only with its parent. -/
lemma Forest.branchValid_self (hforest : (b.withEntry k entry).Forest)
    (hinvalid : entry.isInvalid = true →
      ∃ p, b.getBlock entry.header.prevBlockHash = some p ∧ p.isInvalid = true) :
    (b.withEntry k entry).BranchValid k ↔ b.BranchValid entry.header.prevBlockHash := by
  rw [← hforest.branchValid_prev]
  constructor
  · exact fun h => h.below (.single withEntry_parentHash)
  · intro h y e hdesc he
    rcases hdesc.cases_head with rfl | ⟨p, hkp, hpy⟩
    · rw [getBlock_withEntry, if_pos rfl] at he
      cases he
      by_contra hne
      obtain ⟨p, hp, hpinvalid⟩ := hinvalid (by simpa using hne)
      have hvalid := hforest.branchValid_prev.1 h _ p .refl hp
      rw [hvalid] at hpinvalid
      cases hpinvalid
    · have hp : p = entry.header.prevBlockHash := by
        have hprev : (b.withEntry k entry).ParentHash k entry.header.prevBlockHash :=
          withEntry_parentHash
        rw [ParentHash] at hkp hprev
        rw [hkp] at hprev
        exact Option.some.inj hprev
      rw [hp] at hpy
      exact h y e hpy he

/-- Adding an entry keeps the tips valid when it does not put them on an invalid branch. -/
lemma Forest.tipsValid_withEntry_iff (hforest : (b.withEntry k entry).Forest) (htips : b.TipsValid)
    (hmain : entry.isMainChain = false)
    (hinvalid : entry.isInvalid = true →
      ∃ p, b.getBlock entry.header.prevBlockHash = some p ∧ p.isInvalid = true) :
    (b.withEntry k entry).TipsValid ↔ IndexOp.AddSafe b k entry.header.prevBlockHash := by
  constructor
  · intro h x hx hdesc
    have htop : (b.withEntry k entry).IsTop x := by
      rcases hx with hx | hx
      · exact Or.inl hx
      · exact Or.inr ((onMainChain_withEntry hmain).2 hx)
    rw [← hforest.branchValid_self hinvalid]
    exact (h x htop).below (descends_withEntry.2 hdesc)
  · intro h x hx y e hdesc he
    have hx' : b.bestHash = some x ∨ x ≠ k ∧ b.OnMainChain x := by
      rcases hx with hx | hx
      · exact Or.inl hx
      · exact Or.inr ((onMainChain_withEntry hmain).1 hx)
    have htop : b.IsTop x := by
      rcases hx' with hx | hx
      · exact Or.inl hx
      · exact Or.inr hx.2
    by_cases hk : b.Descends x k ∧ (b.withEntry k entry).Descends k y
    · have hvalid := (hforest.branchValid_self hinvalid).2 (h x hx' hk.1)
      exact hvalid y e hk.2 he
    · have hold : b.Descends x y := by
        rcases Lineage.reflTransGen_change (T := (· = k)) (fun _ _ => parentHash_withEntry) hdesc with
          hold | ⟨t, rfl, hold, -, hrest⟩
        · exact hold
        · exact absurd ⟨hold, hrest⟩ hk
      have hy : ¬ y = k := by
        intro heq
        rw [heq] at hold hk
        exact hk ⟨hold, .refl⟩
      rw [getBlock_withEntry, if_neg hy] at he
      exact htips x htop y e hold he

lemma newEntry_isInvalid (b : BlockIndex) (k : Bytes) (header : BlockHeader) (height chainwork : ℕ)
    (h : (b.newEntry k header height chainwork).isInvalid = true) :
    ∃ p, b.getBlock header.prevBlockHash = some p ∧ p.isInvalid = true := by
  unfold newEntry at h
  cases hp : b.getBlock header.prevBlockHash with
  | none =>
    simp only [hp] at h
    split_ifs at h <;>
      simp [BlockIndexEntry.isInvalid, BlockIndexEntry.hasStatus, BlockIndexEntry.setStatus] at h
  | some p =>
    simp only [hp] at h
    split_ifs at h with hinvalid
    · exact ⟨p, rfl, hinvalid⟩
    · simp [BlockIndexEntry.isInvalid, BlockIndexEntry.hasStatus] at h

lemma newEntry_rest (b : BlockIndex) (k : Bytes) (header : BlockHeader) (height chainwork : ℕ) :
    (b.newEntry k header height chainwork).isMainChain = false ∧
      (b.newEntry k header height chainwork).header = header ∧
      (b.newEntry k header height chainwork).blockHash = k := by
  unfold newEntry
  cases b.getBlock header.prevBlockHash with
  | none =>
    simp only
    split_ifs <;>
      simp [BlockIndexEntry.isMainChain, BlockIndexEntry.hasStatus, BlockIndexEntry.setStatus]
  | some p =>
    simp only
    split_ifs <;>
      simp [BlockIndexEntry.isMainChain, BlockIndexEntry.hasStatus, BlockIndexEntry.setStatus]

end put

/-! A block marked invalid. -/

section mark
variable {b : BlockIndex} {k x : Bytes} {entry : BlockIndexEntry}

lemma isInvalid_markedInvalid (e : BlockIndexEntry) : (markedInvalid e).isInvalid = true := by
  simp [markedInvalid, BlockIndexEntry.isInvalid, BlockIndexEntry.hasStatus,
    BlockIndexEntry.setStatus, BlockIndexEntry.clearStatus]

lemma isMainChain_markedInvalid (e : BlockIndexEntry) : (markedInvalid e).isMainChain = false := by
  simp [markedInvalid, BlockIndexEntry.isMainChain, BlockIndexEntry.hasStatus,
    BlockIndexEntry.setStatus, BlockIndexEntry.clearStatus]

lemma getBlock_withMarkedInvalid (b : BlockIndex) (k x : Bytes) :
    (b.withMarkedInvalid k).getBlock x =
      if x = k then (b.getBlock x).map markedInvalid else b.getBlock x :=
  KeyedRows.get?_update ..

lemma parentHash_withMarkedInvalid (b : BlockIndex) (k : Bytes) :
    (b.withMarkedInvalid k).ParentHash = b.ParentHash := by
  funext x p
  rw [ParentHash, ParentHash, getBlock_withMarkedInvalid]
  split_ifs
  · rw [Option.map_map]
    rfl
  · rfl

lemma descends_withMarkedInvalid (b : BlockIndex) (k : Bytes) :
    (b.withMarkedInvalid k).Descends = b.Descends := by
  rw [Descends, Descends, parentHash_withMarkedInvalid]

lemma keyed_withMarkedInvalid (hkey : b.Keyed) : (b.withMarkedInvalid k).Keyed := by
  intro x e he
  rw [getBlock_withMarkedInvalid] at he
  split_ifs at he with hx
  · obtain ⟨e', he', rfl⟩ := Option.map_eq_some_iff.1 he
    exact hkey x e' he'
  · exact hkey x e he

lemma onMainChain_withMarkedInvalid :
    (b.withMarkedInvalid k).OnMainChain x ↔ x ≠ k ∧ b.OnMainChain x := by
  unfold OnMainChain
  rw [getBlock_withMarkedInvalid]
  split_ifs with hx
  · simp [hx, isMainChain_markedInvalid]
  · simp [hx]

/-- Exactly the branches through the block become invalid. -/
lemma branchValid_withMarkedInvalid (hk : b.getBlock k ≠ none) :
    (b.withMarkedInvalid k).BranchValid x ↔ b.BranchValid x ∧ ¬ b.Descends x k := by
  obtain ⟨entry, hentry⟩ := Option.ne_none_iff_exists'.1 hk
  unfold BranchValid
  rw [descends_withMarkedInvalid]
  constructor
  · intro h
    have hnot : ¬ b.Descends x k := by
      intro hdesc
      have hvalid := h k (markedInvalid entry) hdesc (by simp [getBlock_withMarkedInvalid, hentry])
      rw [isInvalid_markedInvalid] at hvalid
      cases hvalid
    refine ⟨?_, hnot⟩
    intro y e hdesc he
    have hy : ¬ y = k := by
      intro heq
      rw [heq] at hdesc
      exact hnot hdesc
    exact h y e hdesc (by rw [getBlock_withMarkedInvalid, if_neg hy, he])
  · rintro ⟨h, hnot⟩ y e hdesc he
    have hy : ¬ y = k := by
      intro heq
      rw [heq] at hdesc
      exact hnot hdesc
    rw [getBlock_withMarkedInvalid, if_neg hy] at he
    exact h y e hdesc he

/-- The candidates are the blocks without an invalid ancestor. -/
lemma Forest.mem_candidates (hforest : b.Forest) (hkey : b.Keyed) :
    entry ∈ b.candidates ↔ b.getBlock entry.blockHash = some entry ∧ b.BranchValid entry.blockHash := by
  simp only [candidates, List.mem_filter, List.mem_map, Bool.and_eq_true, Bool.not_eq_true']
  rw [hforest.isBranchInvalid_eq_false_iff hkey]
  constructor
  · rintro ⟨⟨r, hr, rfl⟩, -, hvalid⟩
    have hget : b.getBlock r.1 = some r.2 := KeyedRows.get?_of_mem_rows hr
    rw [hkey r.1 r.2 hget] at hvalid ⊢
    exact ⟨hget, hvalid⟩
  · rintro ⟨hget, hvalid⟩
    exact ⟨⟨_, KeyedRows.mem_rows_of_get? hget, rfl⟩, hvalid _ _ .refl hget, hvalid⟩

/-- Marking a block that is not the best tip. -/
lemma tipsValid_withMarkedInvalid_iff (hk : b.getBlock k ≠ none) (htips : b.TipsValid)
    (hbest : b.bestHash ≠ some k) : (b.withMarkedInvalid k).TipsValid ↔ IndexOp.MarkSafe b k := by
  constructor
  · intro h _
    right
    intro x hx hdesc
    by_contra hxk
    have htop : (b.withMarkedInvalid k).IsTop x := by
      rcases hx with hx | hx
      · exact Or.inl hx
      · exact Or.inr (onMainChain_withMarkedInvalid.2 ⟨hxk, hx⟩)
    exact ((branchValid_withMarkedInvalid hk).1 (h x htop)).2 hdesc
  · intro h x hx
    rw [branchValid_withMarkedInvalid hk]
    have htop : b.IsTop x ∧ x ≠ k := by
      rcases hx with hx | hx
      · refine ⟨Or.inl hx, ?_⟩
        intro heq
        rw [heq] at hx
        exact hbest hx
      · obtain ⟨hxk, hx⟩ := onMainChain_withMarkedInvalid.1 hx
        exact ⟨Or.inr hx, hxk⟩
    refine ⟨htips x htop.1, ?_⟩
    rcases h hk with ⟨heq, -⟩ | h
    · exact absurd heq hbest
    · exact fun hdesc => htop.2 (h x htop.1 hdesc)

/-- Marking the best tip where no other block can take its place. -/
lemma tipsValid_withoutTip_iff (hk : b.getBlock k ≠ none) (htips : b.TipsValid)
    (hbest : b.bestHash = some k) (hnone : ∀ x, b.getBlock x ≠ none → b.BranchValid x → b.Descends x k) :
    (b.withMarkedInvalid k).withoutTip.TipsValid ↔ IndexOp.MarkSafe b k := by
  have hvalid (x : Bytes) : (b.withMarkedInvalid k).withoutTip.BranchValid x ↔
      b.BranchValid x ∧ ¬ b.Descends x k := branchValid_withMarkedInvalid hk
  have htop (x : Bytes) : (b.withMarkedInvalid k).withoutTip.IsTop x ↔ x ≠ k ∧ b.OnMainChain x := by
    rw [← onMainChain_withMarkedInvalid]
    constructor
    · rintro (h | h)
      · cases h
      · exact h
    · exact Or.inr
  constructor
  · intro h _
    right
    intro x hx hdesc
    by_contra hxk
    rcases hx with hx | hx
    · rw [hbest] at hx
      exact hxk (Option.some.inj hx).symm
    · exact ((hvalid x).1 (h x ((htop x).2 ⟨hxk, hx⟩))).2 hdesc
  · intro h x hx
    obtain ⟨hxk, hx⟩ := (htop x).1 hx
    rw [hvalid]
    refine ⟨htips x (Or.inr hx), ?_⟩
    rcases h hk with ⟨-, y, hy, hyvalid, hnot⟩ | h
    · exact absurd (hnone y hy hyvalid) hnot
    · exact fun hdesc => hxk (h x (Or.inr hx) hdesc)

end mark

/-! The rows that are read back. -/

section loading
variable {b : BlockIndex} {tables : Tables}

lemma perm_storedRows (tables : Tables) : (storedRows tables).Perm tables.blockHeaders.rows :=
  List.perm_insertionSort _ _

lemma mem_storedRows {row : Bytes × HeaderRow} :
    row ∈ storedRows tables ↔ tables.blockHeaders.get? row.1 = some row.2 := by
  rw [(perm_storedRows tables).mem_iff, KeyedRows.mem_rows_iff]

/-- Reading rows of different blocks, whatever their order. -/
lemma getBlock_foldl_withEntry (rows : List (Bytes × HeaderRow)) (hrows : (rows.map Prod.fst).Nodup)
    (b : BlockIndex) (x : Bytes) :
    (∀ row, (x, row) ∈ rows → (rows.foldl (fun b row => b.withEntry row.1
      (loadedEntry row.1 row.2)) b).getBlock x = some (loadedEntry x row)) ∧
    (x ∉ rows.map Prod.fst → (rows.foldl (fun b row => b.withEntry row.1
      (loadedEntry row.1 row.2)) b).getBlock x = b.getBlock x) := by
  induction rows generalizing b with
  | nil => exact ⟨fun _ h => absurd h List.not_mem_nil, fun _ => rfl⟩
  | cons r rows ih =>
    obtain ⟨hhead, htail⟩ := List.nodup_cons.1 hrows
    obtain ⟨hin, hout⟩ := ih htail (b.withEntry r.1 (loadedEntry r.1 r.2))
    constructor
    · intro row hrow
      rcases List.mem_cons.1 hrow with heq | hrow
      · subst heq
        rw [List.foldl_cons, hout hhead, getBlock_withEntry, if_pos rfl]
      · exact hin row hrow
    · intro hx
      simp only [List.map_cons, List.mem_cons, not_or] at hx
      rw [List.foldl_cons, hout hx.2, getBlock_withEntry, if_neg hx.1]

lemma getBlock_loadedIndex (tables : Tables) (b : BlockIndex) (x : Bytes) :
    (IndexOp.loadedIndex tables b).getBlock x =
      ((tables.blockHeaders.get? x).map (loadedEntry x)).or (b.getBlock x) := by
  have hnodup : ((storedRows tables).map Prod.fst).Nodup :=
    ((perm_storedRows tables).map _).nodup_iff.2 tables.blockHeaders.nodupKeys
  obtain ⟨hin, hout⟩ := getBlock_foldl_withEntry (storedRows tables) hnodup b x
  cases hrow : tables.blockHeaders.get? x with
  | some row =>
    exact hin row (mem_storedRows.2 hrow)
  | none =>
    apply hout
    intro hx
    obtain ⟨r, hr, rfl⟩ := List.mem_map.1 hx
    rw [mem_storedRows, hrow] at hr
    cases hr

/-- The loop of `load` reads the index and picks the heaviest valid row. -/
lemma foldl_loadRow (rows : List (Bytes × HeaderRow)) (p : BlockIndex × Option BlockIndexEntry) :
    rows.foldl loadRow p =
      (rows.foldl (fun b row => b.withEntry row.1 (loadedEntry row.1 row.2)) p.1,
        ((rows.map fun row => loadedEntry row.1 row.2).filter fun e => !e.isInvalid).foldl better
          p.2) := by
  induction rows generalizing p with
  | nil => rfl
  | cons row rows ih =>
    rw [List.foldl_cons, ih]
    simp only [loadRow, List.foldl_cons, List.map_cons]
    cases hinvalid : (loadedEntry row.1 row.2).isInvalid with
    | true => simp [hinvalid]
    | false => simp [hinvalid]

lemma heaviest_loaded (tip : BlockIndexEntry) :
    heaviest (((storedRows tables).map fun row => loadedEntry row.1 row.2).filter
        fun e => !e.isInvalid) = some tip ↔
      ∃ row, IndexOp.FirstHeaviest tables row ∧ loadedEntry row.1 row.2 = tip := by
  rw [heaviest_eq_some]
  constructor
  · rintro ⟨before, after, hsplit, hbefore, hafter⟩
    obtain ⟨entries, rest, hentries, rfl, hrest⟩ := List.filter_eq_append_iff.1 hsplit
    obtain ⟨skipped, rest', rfl, hskipped, hvalid, rfl⟩ := List.filter_eq_cons_iff.1 hrest
    rw [← List.append_assoc] at hentries
    obtain ⟨rows1, rows2, hrows, h1, h2⟩ := List.map_eq_append_iff.1 hentries
    obtain ⟨row, rows3, rfl, hrow, h3⟩ := List.map_eq_cons_iff.1 h2
    refine ⟨row, ⟨rows1, rows3, hrows, ?_, ?_, ?_⟩, hrow⟩
    · rw [hrow]
      simpa using hvalid
    · intro r hr hrvalid
      have hmem : loadedEntry r.1 r.2 ∈ entries ++ skipped := by
        rw [← h1]
        exact List.mem_map.2 ⟨r, hr, rfl⟩
      rw [hrow]
      rcases List.mem_append.1 hmem with hmem | hmem
      · exact hbefore _ (List.mem_filter.2 ⟨hmem, by simp [hrvalid]⟩)
      · exact absurd (by simp [hrvalid]) (hskipped _ hmem)
    · intro r hr hrvalid
      rw [hrow]
      apply hafter
      rw [List.mem_filter, ← h3]
      exact ⟨List.mem_map.2 ⟨r, hr, rfl⟩, by simp [hrvalid]⟩
  · rintro ⟨row, ⟨rows1, rows2, hrows, hvalid, hbefore, hafter⟩, rfl⟩
    refine ⟨(rows1.map fun row => loadedEntry row.1 row.2).filter fun e => !e.isInvalid,
      (rows2.map fun row => loadedEntry row.1 row.2).filter fun e => !e.isInvalid, ?_, ?_, ?_⟩
    · rw [hrows]
      simp [hvalid]
    · intro e he
      simp only [List.mem_filter, List.mem_map, Bool.not_eq_true'] at he
      obtain ⟨⟨r, hr, rfl⟩, hrvalid⟩ := he
      exact hbefore r hr hrvalid
    · intro e he
      simp only [List.mem_filter, List.mem_map, Bool.not_eq_true'] at he
      obtain ⟨⟨r, hr, rfl⟩, hrvalid⟩ := he
      exact hafter r hr hrvalid

lemma keyed_loadedIndex (hkey : b.Keyed) : (IndexOp.loadedIndex tables b).Keyed := by
  intro x e he
  rw [getBlock_loadedIndex] at he
  cases hrow : tables.blockHeaders.get? x with
  | some row =>
    simp only [hrow, Option.map_some, Option.some_or, Option.some.injEq] at he
    rw [← he]
    rfl
  | none =>
    simp only [hrow, Option.map_none, Option.none_or] at he
    exact hkey x e he

lemma parentHash_loadedIndex {x p : Bytes} (hx : ¬ tables.blockHeaders.get? x ≠ none) :
    (IndexOp.loadedIndex tables b).ParentHash x p ↔ b.ParentHash x p := by
  rw [ParentHash, ParentHash, getBlock_loadedIndex, not_not.1 hx, Option.map_none, Option.none_or]

lemma bestHash_loadedIndex (tables : Tables) (b : BlockIndex) :
    (IndexOp.loadedIndex tables b).bestHash = b.bestHash := by
  unfold IndexOp.loadedIndex
  generalize storedRows tables = rows
  induction rows generalizing b with
  | nil => rfl
  | cons row rows ih => exact ih _

/-- Rows of invalid blocks only: the tips of the index stay, above other entries perhaps. -/
lemma tipsValid_loadedIndex_iff (htips : b.TipsValid) (hrows : RowsSound tables.blockHeaders)
    (hall : ∀ row ∈ storedRows tables, (loadedEntry row.1 row.2).isInvalid = true) :
    (IndexOp.loadedIndex tables b).TipsValid ↔
      ∀ k, b.bestHash = some k ∨ tables.blockHeaders.get? k = none ∧ b.OnMainChain k →
        ∀ h, tables.blockHeaders.get? h ≠ none → ¬ b.Descends k h := by
  have hinvalid (t : Bytes) (ht : tables.blockHeaders.get? t ≠ none) :
      ∃ e, (IndexOp.loadedIndex tables b).getBlock t = some e ∧ e.isInvalid = true := by
    obtain ⟨row, hrow⟩ := Option.ne_none_iff_exists'.1 ht
    refine ⟨loadedEntry t row, ?_, hall (t, row) (mem_storedRows.2 hrow)⟩
    rw [getBlock_loadedIndex, hrow]
    rfl
  have hmain (k : Bytes) : (IndexOp.loadedIndex tables b).OnMainChain k ↔
      tables.blockHeaders.get? k = none ∧ b.OnMainChain k := by
    unfold OnMainChain
    rw [getBlock_loadedIndex]
    cases hrow : tables.blockHeaders.get? k with
    | none => simp
    | some row =>
      simp only [Option.map_some, Option.some_or, Option.some.injEq, exists_eq_left',
        reduceCtorEq, false_and, iff_false]
      intro hflag
      rw [isMainChain_loadedEntry, decide_eq_true_eq] at hflag
      have hvalid := (hrows k row hrow).2 hflag
      rw [hall (k, row) (mem_storedRows.2 hrow)] at hvalid
      cases hvalid
  have htop (k : Bytes) : (IndexOp.loadedIndex tables b).IsTop k ↔
      b.bestHash = some k ∨ tables.blockHeaders.get? k = none ∧ b.OnMainChain k := by
    rw [IsTop, bestHash_loadedIndex, hmain]
  constructor
  · intro h k hk x hx hdesc
    have hreach : ∃ t, tables.blockHeaders.get? t ≠ none ∧
        (IndexOp.loadedIndex tables b).Descends k t := by
      rcases Lineage.reflTransGen_change (T := fun x => tables.blockHeaders.get? x ≠ none)
          (fun _ _ hx => (parentHash_loadedIndex (b := b) hx).symm) hdesc with h | ⟨t, ht, h, -⟩
      · exact ⟨x, hx, h⟩
      · exact ⟨t, ht, h⟩
    obtain ⟨t, ht, hkt⟩ := hreach
    obtain ⟨e, he, hbad⟩ := hinvalid t ht
    rw [h k ((htop k).2 hk) t e hkt he] at hbad
    cases hbad
  · intro h k hk x e hdesc he
    have hk' := (htop k).1 hk
    have hnot := h k hk'
    have hold : b.Descends k x := by
      rcases Lineage.reflTransGen_change (T := fun x => tables.blockHeaders.get? x ≠ none)
          (fun _ _ hx => parentHash_loadedIndex hx) hdesc with h | ⟨t, ht, h, -⟩
      · exact h
      · exact absurd h (hnot t ht)
    have hx : tables.blockHeaders.get? x = none := by
      by_contra hx
      exact hnot x hx hold
    have hktop : b.IsTop k := by
      rcases hk' with hk | hk
      · exact Or.inl hk
      · exact Or.inr hk.2
    rw [getBlock_loadedIndex, hx, Option.map_none, Option.none_or] at he
    exact htips k hktop x e hold he

end loading

/-! One operation. -/

section steps
variable {s : Session Tables BlockIndex}

/-- What an operation does when its condition tells whether the tips stay valid. -/
structure Steps (s s' : Session Tables BlockIndex) (safe : Prop) : Prop where
  keyed : s'.memory.Keyed
  tips : s'.memory.TipsValid ↔ safe
  rows : s'.memory.TipsValid → RowsSound s'.conn.current.blockHeaders

lemma keyed_withEntry {b : BlockIndex} (hkey : b.Keyed) {k : Bytes} {entry : BlockIndexEntry}
    (hentry : entry.blockHash = k) : (b.withEntry k entry).Keyed := by
  intro x e he
  rw [getBlock_withEntry] at he
  split_ifs at he with hx
  · cases he
    rw [hentry, hx]
  · exact hkey x e he

lemma setBestChainTip_steps (h : Settled s) (hforest : s.memory.Forest) (k : Bytes) :
    ∃ s', setBestChainTip k s = .ok () s' ∧ Steps s s' True := by
  obtain ⟨s', hs', hmem, hrows⟩ := setBestChainTip_sound k s
  refine ⟨s', hs', ?_, ?_, hrows h.rows⟩
  · rw [hmem]
    exact (sameShape_tipped _ k).keyed h.keyed
  · rw [hmem, tipsValid_tipped h.keyed hforest]
    simp only [h.tips, or_true]

lemma withBlock_tipsValid_iff (b : BlockIndex) (k : Bytes) (header : BlockHeader)
    (height chainwork : ℕ) :
    (SameShape (b.withEntry k (b.newEntry k header height chainwork))
      (b.withBlock k header height chainwork)) ∧
    ((b.withBlock k header height chainwork).TipsValid ↔
      (b.withEntry k (b.newEntry k header height chainwork)).TipsValid) := by
  have hshape : SameShape (b.withEntry k (b.newEntry k header height chainwork))
      (b.withBlock k header height chainwork) := by
    unfold withBlock withEntry
    simp only
    split_ifs
    · exact .refl _
    · apply SameShape.update (f := (·.setStatus .SIDE_CHAIN)) (k := k)
      · intro e _
        simp [BlockIndexEntry.core, BlockIndexEntry.setStatus, BlockIndexEntry.isInvalid,
          BlockIndexEntry.hasStatus]
      · rfl
  refine ⟨hshape, TipsValid.congr hshape ?_⟩
  intro x
  apply or_congr
  · rw [(withBlock_rest b k header height chainwork).2]
    rfl
  · unfold withBlock withEntry OnMainChain
    simp only
    split_ifs
    · exact Iff.rfl
    · simp only [getBlock, KeyedRows.get?_update]
      split_ifs
      · simp [BlockIndexEntry.isMainChain, BlockIndexEntry.hasStatus, BlockIndexEntry.setStatus]
      · exact Iff.rfl

lemma addBlock_unfold (H : Hashlib) (block : Block) (height chainwork : ℕ) (updateBest : Bool)
    (s : Session Tables BlockIndex) :
    addBlock H block height chainwork updateBest s =
      if (updateBest && !(s.memory.newEntry (block.header.hashHex H) block.header height
          chainwork).isInvalid &&
        decide ((s.memory.withEntry (block.header.hashHex H) (s.memory.newEntry
          (block.header.hashHex H) block.header height chainwork)).getBestChainwork < chainwork)) = true
      then setBestChainTip (block.header.hashHex H) (Database.put s s.conn.current
        (s.memory.withEntry (block.header.hashHex H) (s.memory.newEntry (block.header.hashHex H)
          block.header height chainwork)))
      else addBlock H block height chainwork false s := by
  simp only [addBlock, Db.bind_apply, read_apply, BlockIndex.modify, onMemory_apply, put_memory,
    Bool.false_and, Bool.false_eq_true, if_false, withEntry]
  split_ifs with h h'
  · rfl
  · exact absurd h h'
  · rename_i h'
    exact absurd h' h
  · rfl

lemma addBlock_steps (H : Hashlib) (block : Block) (height chainwork : ℕ) (updateBest : Bool)
    (h : Settled s) :
    ∃ s', addBlock H block height chainwork updateBest s = .ok () s' ∧ (s'.memory.Forest →
      Steps s s' (IndexOp.AddSafe s.memory (block.header.hashHex H) block.header.prevBlockHash)) := by
  set k := block.header.hashHex H with hk
  set entry := s.memory.newEntry k block.header height chainwork with hentry
  obtain ⟨hmain, hheader, hhash⟩ := newEntry_rest s.memory k block.header height chainwork
  have hsafe (hforest : (s.memory.withEntry k entry).Forest) :
      (s.memory.withEntry k entry).TipsValid ↔
        IndexOp.AddSafe s.memory k block.header.prevBlockHash := by
    rw [← hheader]
    exact hforest.tipsValid_withEntry_iff h.tips hmain (by rw [hheader]; exact newEntry_isInvalid _ _ _ _ _)
  have hkeyed : (s.memory.withEntry k entry).Keyed := keyed_withEntry h.keyed hhash
  by_cases hupdate : (updateBest && !entry.isInvalid &&
      decide ((s.memory.withEntry k entry).getBestChainwork < chainwork)) = true
  · obtain ⟨s', hs', hmem, hrows⟩ := setBestChainTip_sound k
      (Database.put s s.conn.current (s.memory.withEntry k entry))
    rw [put_memory] at hmem
    have hshape : SameShape (s.memory.withEntry k entry) s'.memory := by
      rw [hmem]
      exact sameShape_tipped _ k
    refine ⟨s', ?_, ?_⟩
    · rw [addBlock_unfold, if_pos hupdate]
      exact hs'
    · intro hforest
      have hforest1 := hshape.forest_iff.1 hforest
      refine ⟨hshape.keyed hkeyed, ?_, hrows (by rw [put_current]; exact h.rows)⟩
      rw [hmem, tipsValid_tipped hkeyed hforest1, hsafe hforest1, or_iff_right_iff_imp]
      intro haccepts x _ _
      have hvalid := (hforest1.isBranchInvalid_eq_false_iff hkeyed).1 haccepts.2
      rw [← hheader]
      exact (hforest1.branchValid_self (by rw [hheader]; exact newEntry_isInvalid _ _ _ _ _)).1 hvalid
  · obtain ⟨hshape, htips⟩ := withBlock_tipsValid_iff s.memory k block.header height chainwork
    refine ⟨Database.put s s.conn.current (s.memory.withBlock k block.header height chainwork), ?_, ?_⟩
    · rw [addBlock_unfold, if_neg hupdate]
      exact addBlock_apply H block height chainwork s
    · intro hforest
      rw [put_memory] at hforest
      have hforest1 := hshape.forest_iff.1 hforest
      refine ⟨?_, ?_, ?_⟩
      · rw [put_memory]
        exact hshape.keyed hkeyed
      · rw [put_memory, htips, hsafe hforest1]
      · rw [put_current]
        exact fun _ => h.rows

/-- The tip is dropped without a candidate, and else moved to one. -/
lemma reselectBestTip_cases (s : Session Tables BlockIndex) :
    (s.memory.candidates = [] ∧
        reselectBestTip s = .ok () (Database.put s s.conn.current s.memory.withoutTip)) ∨
      ∃ tip ∈ s.memory.candidates, ∃ s', reselectBestTip s = .ok () s' ∧
        s'.memory = s.memory.tipped tip.blockHash ∧
        (RowsSound s.conn.current.blockHeaders → s'.memory.TipsValid →
          RowsSound s'.conn.current.blockHeaders) := by
  cases hheaviest : heaviest s.memory.candidates with
  | none =>
    refine Or.inl ⟨heaviest_eq_none.1 hheaviest, ?_⟩
    simp only [reselectBestTip, Db.bind_apply, read_apply, hheaviest, BlockIndex.modify, onMemory_apply]
  | some tip =>
    obtain ⟨before, after, hsplit, -⟩ := heaviest_eq_some.1 hheaviest
    obtain ⟨s', hs', hmem, hrows⟩ := setBestChainTip_sound tip.blockHash s
    refine Or.inr ⟨tip, by rw [hsplit]; simp, s', ?_, hmem, hrows⟩
    simp only [reselectBestTip, Db.bind_apply, read_apply, hheaviest]
    exact hs'

lemma markInvalid_steps (h : Settled s) (hforest : s.memory.Forest) (k : Bytes) :
    ∃ s', markInvalid k s = .ok () s' ∧ Steps s s' (IndexOp.MarkSafe s.memory k) := by
  cases hk : s.memory.getBlock k with
  | none =>
    refine ⟨s, ?_, h.keyed, ?_, fun _ => h.rows⟩
    · simp only [markInvalid, Db.bind_apply, read_apply, hk]
      rfl
    · simp only [h.tips, true_iff]
      exact fun hne => absurd hk hne
  | some entry =>
    have hne : s.memory.getBlock k ≠ none := by simp [hk]
    set b := s.memory.withMarkedInvalid k with hb
    obtain ⟨s1, hs1, hmem1, hcur1⟩ := persistStatus_apply (markedInvalid entry)
      (Database.put s s.conn.current b)
    rw [put_memory] at hmem1
    have hrows1 : RowsSound s1.conn.current.blockHeaders := by
      rw [hcur1, put_current]
      apply h.rows.persist
      rw [isMainChain_markedInvalid]
      simp
    have hkeyed1 : b.Keyed := keyed_withMarkedInvalid h.keyed
    have hforest1 : b.Forest := by
      rw [Forest, hb, parentHash_withMarkedInvalid]
      exact hforest
    have hvalid (x : Bytes) : b.BranchValid x ↔ s.memory.BranchValid x ∧ ¬ s.memory.Descends x k :=
      branchValid_withMarkedInvalid hne
    have hmain (x : Bytes) : b.OnMainChain x ↔ x ≠ k ∧ s.memory.OnMainChain x :=
      onMainChain_withMarkedInvalid
    have hrun : markInvalid k s = (if b.bestHash = some k then reselectBestTip else pure ()) s1 := by
      simp only [markInvalid, Db.bind_apply, read_apply, hk, BlockIndex.modify, onMemory_apply, ← hb,
        hs1, hmem1]
    by_cases hbest : s.memory.bestHash = some k
    · have hbest1 : b.bestHash = some k := hbest
      rw [if_pos hbest1] at hrun
      have hselect := reselectBestTip_cases s1
      rw [hmem1] at hselect
      rcases hselect with ⟨hempty, hreselect⟩ | ⟨tip, hcandidate, s', hreselect, hmem, hrows⟩
      · have hnone : ∀ x, s.memory.getBlock x ≠ none → s.memory.BranchValid x →
            s.memory.Descends x k := by
          intro x hx hxvalid
          by_contra hxk
          obtain ⟨e, he⟩ := Option.ne_none_iff_exists'.1 hx
          have hxk' : ¬ x = k := fun heq => hxk (heq ▸ .refl)
          have hget : b.getBlock x = some e := by rw [hb, getBlock_withMarkedInvalid, if_neg hxk', he]
          have hmem : e ∈ b.candidates := by
            rw [hforest1.mem_candidates hkeyed1, hkeyed1 x e hget, hvalid]
            exact ⟨hget, hxvalid, hxk⟩
          rw [hempty] at hmem
          cases hmem
        refine ⟨_, hrun.trans hreselect, ?_, ?_, ?_⟩
        · rw [put_memory]
          exact hkeyed1
        · rw [put_memory]
          exact tipsValid_withoutTip_iff hne h.tips hbest hnone
        · rw [put_current]
          exact fun _ => hrows1
      · obtain ⟨hget, htipvalid⟩ := (hforest1.mem_candidates hkeyed1).1 hcandidate
        have htips' : s'.memory.TipsValid := by
          rw [hmem, tipsValid_tipped hkeyed1 hforest1]
          left
          exact ⟨by simp [hget], (hforest1.isBranchInvalid_eq_false_iff hkeyed1).2 htipvalid⟩
        obtain ⟨holdvalid, hnot⟩ := (hvalid tip.blockHash).1 htipvalid
        refine ⟨s', hrun.trans hreselect, ?_, ?_, hrows hrows1⟩
        · rw [hmem]
          exact (sameShape_tipped _ _).keyed hkeyed1
        · simp only [htips', true_iff]
          intro _
          left
          refine ⟨hbest, tip.blockHash, ?_, holdvalid, hnot⟩
          intro hnone
          rw [hb, getBlock_withMarkedInvalid, hnone] at hget
          simp at hget
    · have hbest1 : ¬ b.bestHash = some k := hbest
      rw [if_neg hbest1] at hrun
      refine ⟨s1, hrun, ?_, ?_, fun _ => hrows1⟩
      · rw [hmem1]
        exact hkeyed1
      · rw [hmem1]
        exact tipsValid_withMarkedInvalid_iff hne h.tips hbest

lemma load_steps (h : Settled s) :
    ∃ s', load s = .ok () s' ∧ Steps s s' (IndexOp.LoadSafe s.conn.current s.memory) := by
  set loaded := IndexOp.loadedIndex s.conn.current s.memory with hloaded
  have hkeyed : loaded.Keyed := keyed_loadedIndex h.keyed
  have hfold : (storedRows s.conn.current).foldl loadRow (s.memory, none) =
      (loaded, heaviest (((storedRows s.conn.current).map fun row => loadedEntry row.1 row.2).filter
        fun e => !e.isInvalid)) := foldl_loadRow _ _
  cases hbest : heaviest (((storedRows s.conn.current).map fun row => loadedEntry row.1 row.2).filter
      fun e => !e.isInvalid) with
  | none =>
    have hall : ∀ row ∈ storedRows s.conn.current, (loadedEntry row.1 row.2).isInvalid = true := by
      intro row hrow
      have hnil := List.filter_eq_nil_iff.1 (heaviest_eq_none.1 hbest) _ (List.mem_map.2 ⟨row, hrow, rfl⟩)
      simpa using hnil
    refine ⟨Database.put s s.conn.current loaded, ?_, ?_, ?_, ?_⟩
    · simp only [load, Db.bind_apply, query_apply, read_apply, hfold, hbest, BlockIndex.modify,
        onMemory_apply]
      rfl
    · rw [put_memory]
      exact hkeyed
    · rw [put_memory, hloaded, tipsValid_loadedIndex_iff h.tips h.rows hall]
      constructor
      · intro hsafe
        refine ⟨?_, fun _ => hsafe⟩
        rintro row ⟨before, after, hsplit, hvalid, -⟩
        have hinvalid := hall row (by rw [hsplit]; simp)
        rw [hvalid] at hinvalid
        cases hinvalid
      · exact fun hsafe => hsafe.allInvalid hall
    · rw [put_current]
      exact fun _ => h.rows
  | some tip =>
    obtain ⟨row, hfirst, hrow⟩ := (heaviest_loaded tip).1 hbest
    have htip : loaded.getBlock tip.blockHash = some tip := by
      obtain ⟨before, after, hsplit, -⟩ := hfirst
      have hmem : row ∈ storedRows s.conn.current := by
        rw [hsplit]
        simp
      rw [hloaded, getBlock_loadedIndex, ← hrow]
      rw [mem_storedRows] at hmem
      have hhash : (loadedEntry row.1 row.2).blockHash = row.1 := rfl
      rw [hhash, hmem]
      rfl
    have htips := tipsValid_withBestChainTip hkeyed htip
    obtain ⟨s', hs', hmem, hsound⟩ := persistAll_sound (loaded.withBestChainTip tip tip.blockHash).index.rows
      (Database.put s s.conn.current (loaded.withBestChainTip tip tip.blockHash))
    rw [put_memory] at hmem
    refine ⟨s', ?_, ?_, ?_, ?_⟩
    · simp only [load, Db.bind_apply, query_apply, read_apply, hfold, hbest, BlockIndex.modify,
        onMemory_apply, put_memory, put_current, put_put]
      exact hs'
    · rw [hmem]
      exact SameShape.keyed (.mapValues (core_rebuildStatus _) rfl) hkeyed
    · rw [hmem, htips]
      constructor
      · intro hvalid
        refine ⟨?_, ?_⟩
        · intro row' hfirst'
          have hbest' := (heaviest_loaded _).2 ⟨row', hfirst', rfl⟩
          rw [hbest] at hbest'
          cases hbest'
          exact hvalid
        · intro hall
          obtain ⟨before, after, hsplit, hrowvalid, -⟩ := hfirst
          have hinvalid := hall row (by rw [hsplit]; simp)
          rw [hrowvalid] at hinvalid
          cases hinvalid
      · intro hsafe
        have hvalid := hsafe.heaviest row hfirst
        have hhash : tip.blockHash = row.1 := by
          rw [← hrow]
          rfl
        rw [hhash]
        exact hvalid
    · intro htips'
      rw [hmem] at htips'
      exact hsound (by rw [put_current]; exact h.rows) htips'.entries

end steps

end BlockIndex

namespace IndexOp
open BlockIndex OperationRuns
variable {H : Hashlib} {s : Session Tables BlockIndex}

/-- The rows that other modules write are those of valid blocks. -/
lemma insertHeader_sound (hrows : RowsSound s.conn.current.blockHeaders) (header : BlockHeader)
    (height chainwork : ℕ) (withBody : Bool) :
    ((insertHeader header height chainwork withBody).after H s).memory = s.memory ∧
      RowsSound ((insertHeader header height chainwork withBody).after H s).conn.current.blockHeaders := by
  have hflags : .MAIN_CHAIN ∉ (if withBody then {.HEADER, .BLOCK, .VALID} else {.HEADER, .VALID} :
      Finset BlockStatus) := by
    cases withBody <;> simp
  simp only [after, Db.final, perform, BlocksStore.insertHeader]
  generalize (if withBody then {.HEADER, .BLOCK, .VALID} else {.HEADER, .VALID} :
    Finset BlockStatus) = flags at hflags ⊢
  obtain ⟨s', hs', hcur, -, hmem⟩ := change_opens s fun tables : Tables => { tables with
    blockHeaders := tables.blockHeaders.insertOrReplace (header.hashHex H)
      ⟨height, header, some chainwork, true, flags⟩ }
  rw [hs']
  refine ⟨hmem, ?_⟩
  intro k row hrow
  rw [hcur] at hrow
  simp only [KeyedRows.get?_insertOrReplace] at hrow
  split_ifs at hrow with hk
  · cases hrow
    exact ⟨by simp, fun hmain => absurd hmain hflags⟩
  · exact hrows k row hrow

/-- One operation: the tips stay valid exactly when it is safe. -/
lemma after_steps (h : Settled s) (hforest : s.memory.Forest) (op : IndexOp)
    (hforest' : (op.after H s).memory.Forest) : Steps s (op.after H s) (op.Safe H s) := by
  cases op with
  | addBlock block height chainwork updateBest =>
    obtain ⟨s', hs', hsteps⟩ := addBlock_steps H block height chainwork updateBest h
    have hafter : (addBlock block height chainwork updateBest).after H s = s' := by
      rw [after, Db.final, perform, hs']
    rw [hafter] at hforest' ⊢
    exact hsteps hforest'
  | markInvalid blockHash =>
    obtain ⟨s', hs', hsteps⟩ := markInvalid_steps h hforest blockHash
    have hafter : (markInvalid blockHash).after H s = s' := by rw [after, Db.final, perform, hs']
    rw [hafter]
    exact hsteps
  | setBestChainTip blockHash =>
    obtain ⟨s', hs', hsteps⟩ := setBestChainTip_steps h hforest blockHash
    have hafter : (setBestChainTip blockHash).after H s = s' := by rw [after, Db.final, perform, hs']
    rw [hafter]
    exact hsteps
  | load =>
    obtain ⟨s', hs', hsteps⟩ := load_steps h
    have hafter : load.after H s = s' := by rw [after, Db.final, perform, hs']
    rw [hafter]
    exact hsteps
  | clear =>
    refine ⟨?_, ?_, fun _ => h.rows⟩
    · intro k e he
      cases he
    · refine iff_of_true ?_ trivial
      rintro k (hk | ⟨e, he, -⟩)
      · cases hk
      · cases he
  | insertHeader header height chainwork withBody =>
    obtain ⟨hmem, hrows⟩ := @insertHeader_sound H s h.rows header height chainwork withBody
    refine ⟨?_, ?_, fun _ => hrows⟩
    · rw [hmem]
      exact h.keyed
    · rw [hmem]
      exact iff_of_true h.tips trivial

lemma settled_newIndex : Settled newIndex where
  keyed _ _ he := by cases he
  tips := by
    rintro k (hk | ⟨e, he, -⟩)
    · cases hk
    · cases he
  rows _ _ hrow := by cases hrow

/-- The best tip and the main chain are free of invalid ancestors throughout a run exactly when
each operation is safe. -/
theorem tipsValid_along_iff (H : Hashlib) (ops : List IndexOp)
    (hforest : Along (after H) (fun s => s.memory.Forest) ops newIndex) :
    Along (after H) (fun s => s.memory.TipsValid) ops newIndex ↔
      AllSafe (after H) (Safe H) ops newIndex := by
  apply along_iff_allSafe (I := Settled) (fun _ h => h.tips) _ settled_newIndex hforest
  intro s op h hs hs'
  have hstep := after_steps h hs op hs'
  exact ⟨hstep.tips, fun htips => ⟨hstep.keyed, htips, hstep.rows htips⟩⟩

end IndexOp

/-! Two branches over a genesis block, of which blocks turn out to be invalid. -/
namespace InvalidityExample
open BlockIndex BlockExample

/-- Each parent that is known is lower. -/
def Lowers (b : BlockIndex) : Prop :=
  ∀ r ∈ b.index.rows, ∀ p ∈ b.getBlock r.2.header.prevBlockHash, p.height < r.2.height

instance : DecidablePred Lowers := fun _ => inferInstanceAs (Decidable (∀ r ∈ _, _))

lemma Lowers.forest {b : BlockIndex} (h : Lowers b) : b.Forest := by
  have hlower {k x : Bytes} (hkx : Relation.TransGen b.ParentHash k x) :
      ∃ ek, b.getBlock k = some ek ∧ ∀ e, b.getBlock x = some e → e.height < ek.height := by
    have hstep {k x : Bytes} (hkx : b.ParentHash k x) :
        ∃ ek, b.getBlock k = some ek ∧ ∀ e, b.getBlock x = some e → e.height < ek.height := by
      obtain ⟨ek, hek, rfl⟩ := Option.map_eq_some_iff.1 hkx
      exact ⟨ek, hek, fun e he => h _ (KeyedRows.mem_rows_of_get? hek) e he⟩
    induction hkx with
    | single hkx => exact hstep hkx
    | tail _ hyx ih =>
      obtain ⟨ey, hey, hlow⟩ := hstep hyx
      obtain ⟨ek, hek, hlow'⟩ := ih
      exact ⟨ek, hek, fun e he => (hlow e he).trans (hlow' ey hey)⟩
  intro k hk
  obtain ⟨ek, hek, hlow⟩ := hlower hk
  exact absurd (hlow ek hek) (lt_irrefl _)

def AllValid (b : BlockIndex) : Prop := ∀ r ∈ b.index.rows, r.2.isInvalid = false

/-- No row names the block as its parent. -/
def Childless (b : BlockIndex) (x : Bytes) : Prop :=
  ∀ r ∈ b.index.rows, r.2.header.prevBlockHash ≠ x

lemma AllValid.branchValid {b : BlockIndex} (h : AllValid b) (k : Bytes) : b.BranchValid k := by
  intro x e _ he
  exact h _ (KeyedRows.mem_rows_of_get? he)

lemma Childless.eq_of_descends {b : BlockIndex} {k x : Bytes} (h : Childless b x)
    (hk : b.Descends k x) : k = x := by
  induction hk using Relation.ReflTransGen.head_induction_on with
  | refl => rfl
  | head hparent _ ih =>
    subst ih
    obtain ⟨e, he, heq⟩ := Option.map_eq_some_iff.1 hparent
    exact absurd heq (h _ (KeyedRows.mem_rows_of_get? he))

/-- All blocks are valid, or nothing is above the block that is added. Of all valid blocks, the tip
is marked, and it is not the only one. -/
def PlainlySafe (s : Session Tables BlockIndex) : IndexOp → Prop
  | .addBlock block _ _ _ => AllValid s.memory ∨
      Childless s.memory (block.header.hashHex hashlib) ∧
        s.memory.bestHash ≠ some (block.header.hashHex hashlib)
  | .markInvalid blockHash => AllValid s.memory ∧ Childless s.memory blockHash ∧
      s.memory.bestHash = some blockHash ∧ ∃ r ∈ s.memory.index.rows, r.1 ≠ blockHash
  | _ => False

instance : DecidablePred AllValid := fun _ => inferInstanceAs (Decidable (∀ r ∈ _, _))

instance (b : BlockIndex) (x : Bytes) : Decidable (Childless b x) :=
  inferInstanceAs (Decidable (∀ r ∈ _, _))

instance (s : Session Tables BlockIndex) : (op : IndexOp) → Decidable (PlainlySafe s op)
  | .addBlock .. => inferInstanceAs (Decidable (_ ∨ _ ∧ _))
  | .markInvalid _ => inferInstanceAs (Decidable (_ ∧ _ ∧ _ ∧ ∃ r ∈ _, _))
  | .setBestChainTip _ => inferInstanceAs (Decidable False)
  | .load => inferInstanceAs (Decidable False)
  | .clear => inferInstanceAs (Decidable False)
  | .insertHeader .. => inferInstanceAs (Decidable False)

lemma PlainlySafe.safe {s : Session Tables BlockIndex} {op : IndexOp} (h : PlainlySafe s op) :
    op.Safe hashlib s := by
  cases op with
  | addBlock block height chainwork updateBest =>
    intro k hk hdescends
    obtain hvalid | ⟨htop, hbest⟩ := h
    · exact hvalid.branchValid _
    · obtain rfl := htop.eq_of_descends hdescends
      obtain hk | ⟨hne, -⟩ := hk
      · exact absurd hk hbest
      · exact absurd rfl hne
  | markInvalid blockHash =>
    obtain ⟨hvalid, htop, hbest, r, hr, hne⟩ := h
    intro _
    have hget : s.memory.getBlock r.1 = some r.2 := KeyedRows.get?_of_mem_rows hr
    exact .inl ⟨hbest, r.1, by simp [hget], hvalid.branchValid _,
      fun hdescends => hne (htop.eq_of_descends hdescends)⟩
  | setBestChainTip blockHash => exact h.elim
  | load => exact h.elim
  | clear => exact h.elim
  | insertHeader header height chainwork withBody => exact h.elim

/-- `blockB2`, the best tip of the two branches, turns out to be invalid, and the other branch grows. -/
def replaced : List IndexOp :=
  [.addBlock genesis 0 2 true, .addBlock blockA 1 4 true, .addBlock blockB 1 4 false,
    .addBlock blockB2 2 6 true, .markInvalid (blockB2.header.hashHex hashlib),
    .addBlock blockA2 2 6 true]

def final (ops : List IndexOp) : Session Tables BlockIndex :=
  ops.foldl (fun s op => op.after hashlib s) newIndex

/-- A chain of three blocks, and then the one in the middle marked invalid. -/
def undermined : List IndexOp :=
  [.addBlock genesis 0 2 true, .addBlock blockA 1 4 true, .addBlock blockA2 2 6 true,
    .markInvalid (beBytes 32 blockAHash)]

end InvalidityExample

section examples
open BlockIndex IndexOp InvalidityExample OperationRuns BlockExample

theorem IndexOp.tipsValid_along_iff_replaced :
    Along (after hashlib) (fun s => s.memory.TipsValid) replaced newIndex ∧
      (final (replaced.take 5)).memory.bestHash = some (beBytes 32 blockAHash) ∧
      (final replaced).memory.bestHash = some (blockA2.header.hashHex hashlib) := by
  have hlowers : Along (after hashlib) (fun s => Lowers s.memory) replaced newIndex := by
    decide +kernel
  have hsafe : AllSafe (after hashlib) PlainlySafe replaced newIndex := by
    decide +kernel
  exact ⟨(tipsValid_along_iff hashlib _ (hlowers.imp fun _ h => h.forest)).2
    (hsafe.imp fun _ _ h => h.safe), by decide +kernel, by decide +kernel⟩

/-- The block in the middle is marked invalid, and the tip stays on top of it. -/
theorem IndexOp.tip_above_invalid_block :
    Along (after hashlib) (fun s => s.memory.Forest) undermined newIndex ∧
      ¬ Along (after hashlib) (fun s => s.memory.TipsValid) undermined newIndex := by
  constructor
  · have hlowers : Along (after hashlib) (fun s => Lowers s.memory) undermined newIndex := by
      decide +kernel
    exact hlowers.imp fun _ h => h.forest
  · intro halong
    have htips : (final undermined).memory.TipsValid := halong.last
    have hafter : (final undermined).memory.bestHash = some (blockA2.header.hashHex hashlib) ∧
        ((final undermined).memory.getBlock (blockA2.header.hashHex hashlib)).map
          (·.header.prevBlockHash) = some (beBytes 32 blockAHash) ∧
        ((final undermined).memory.getBlock (beBytes 32 blockAHash)).map
          BlockIndexEntry.isInvalid = some true := by
      decide +kernel
    obtain ⟨hbest, hparent, hinvalid⟩ := hafter
    obtain ⟨e, he, hbad⟩ := Option.map_eq_some_iff.1 hinvalid
    have hvalid := htips _ (Or.inl hbest) _ e (.single hparent) he
    rw [hbad] at hvalid
    cases hvalid

end examples

end BerzCoin
