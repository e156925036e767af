import BerzCoin.OperationRuns
import BerzCoin.P2pOrphanage

/-! The three maps of the orphanage and its two limits, over whole runs. -/
namespace BerzCoin

namespace Orphanage
variable (H : Hashlib) (o : Orphanage)

/-- `clear`. -/
def clear : Orphanage := { o with orphans := .empty, parentMap := .empty, sourceMap := .empty }

/-- `peer_orphans` in `add_orphan`. -/
def peerOrphans (sourcePeer : String) : ℕ :=
  o.sourceMap.rows.countP fun r => r.2 = sourcePeer && o.orphans.contains r.1

/-- The set under a key of `parent_map`. -/
def childHashes (parent : Bytes) : List Bytes := (o.parentMap.get? parent).getD []

/-- `parent_map` is the inverse of the parents of the orphans, `source_map` speaks of orphans only,
and both limits are kept. -/
structure Consistent (o : Orphanage) : Prop where
  inverse : ∀ parent child, child ∈ o.childHashes parent ↔
    ∃ orphan, o.orphans.get? child = some orphan ∧ orphan.block.header.prevBlockHash = parent
  nonempty : ∀ parent, o.parentMap.get? parent ≠ some []
  nodup : ∀ parent, (o.childHashes parent).Nodup
  sources : ∀ child, o.orphans.get? child = none → o.sourceMap.get? child = none
  size : o.orphans.rows.length ≤ o.maxOrphans
  perPeer : ∀ peer, o.peerOrphans peer ≤ o.maxOrphansPerPeer

section maps
variable {o} {child : Bytes} {orphan : OrphanBlock} {peer : String} {rows : List (Bytes × OrphanBlock)}

/-- The count of the source, over the other of the two maps. -/
lemma peerOrphans_eq (o : Orphanage) (peer : String) :
    o.peerOrphans peer = (o.fromSource peer).length := by
  have hkeys : ((o.sourceMap.rows.filter fun r => r.2 = peer && o.orphans.contains r.1).map Prod.fst).Perm
      ((o.fromSource peer).map Prod.fst) := by
    rw [List.perm_ext_iff_of_nodup]
    · intro k
      simp only [fromSource, List.mem_map, List.mem_filter, KeyedRows.mem_rows_iff, KeyedRows.contains,
        Bool.and_eq_true, decide_eq_true_eq, Option.isSome_iff_exists]
      constructor
      · rintro ⟨r, ⟨hsource, rfl, orphan, horphan⟩, rfl⟩
        exact ⟨(r.1, orphan), ⟨horphan, hsource⟩, rfl⟩
      · rintro ⟨r, ⟨horphan, hsource⟩, rfl⟩
        exact ⟨(r.1, peer), ⟨hsource, rfl, r.2, horphan⟩, rfl⟩
    · exact o.sourceMap.nodupKeys.sublist (List.filter_sublist.map Prod.fst)
    · exact o.orphans.nodupKeys.sublist (List.filter_sublist.map Prod.fst)
  have hlength := hkeys.length_eq
  rw [List.length_map, List.length_map] at hlength
  rw [peerOrphans, List.countP_eq_length_filter, hlength]

lemma removeOrphan_of_none (h : o.orphans.get? child = none) : o.removeOrphan child = o := by
  rw [removeOrphan, h]

lemma orphans_removeOrphan : (o.removeOrphan child).orphans = o.orphans.delete child := by
  cases h : o.orphans.get? child with
  | none =>
    rw [removeOrphan_of_none h, KeyedRows.delete, KeyedRows.deleteWhere_eq_self]
    intro k hk
    rwa [of_decide_eq_true hk]
  | some orphan =>
    rw [removeOrphan, h]

lemma limits_removeOrphan : (o.removeOrphan child).maxOrphans = o.maxOrphans ∧
    (o.removeOrphan child).maxOrphansPerPeer = o.maxOrphansPerPeer := by
  unfold removeOrphan
  split <;> exact ⟨rfl, rfl⟩

lemma sourceMap_removeOrphan (h : o.orphans.get? child = some orphan) :
    (o.removeOrphan child).sourceMap = o.sourceMap.delete child := by
  rw [removeOrphan, h]

/-- A set that has become empty is taken out of the map. -/
lemma parentMap_removeOrphan (h : o.orphans.get? child = some orphan) (parent : Bytes) :
    (o.removeOrphan child).parentMap.get? parent =
      if parent = orphan.block.header.prevBlockHash then
        ((o.parentMap.get? parent).map fun children => children.erase child).filter fun children =>
          children ≠ []
      else o.parentMap.get? parent := by
  simp only [removeOrphan, h]
  cases hchildren : o.parentMap.get? orphan.block.header.prevBlockHash with
  | none =>
    split_ifs with hparent
    · rw [hparent, hchildren]
      rfl
    · rfl
  | some children =>
    by_cases hempty : children.erase child = []
    · simp only [if_pos hempty, KeyedRows.get?_delete]
      split_ifs with hparent
      · simp [hparent, hchildren, hempty, Option.filter_some]
      · rfl
    · simp only [if_neg hempty, KeyedRows.get?_put]
      split_ifs with hparent
      · simp [hparent, hchildren, hempty, Option.filter_some]
      · rfl

lemma childHashes_removeOrphan (h : o.orphans.get? child = some orphan) (parent : Bytes) :
    (o.removeOrphan child).childHashes parent =
      if parent = orphan.block.header.prevBlockHash then (o.childHashes parent).erase child
      else o.childHashes parent := by
  simp only [childHashes, parentMap_removeOrphan h]
  split_ifs with hparent
  · cases o.parentMap.get? parent with
    | none => rfl
    | some children =>
      by_cases hempty : children.erase child = []
      · simp [hempty, Option.filter_some]
      · simp [hempty, Option.filter_some]
  · rfl

lemma fromSource_removeOrphan (o : Orphanage) (child : Bytes) (peer : String) :
    (o.removeOrphan child).fromSource peer = (o.fromSource peer).filter fun r => r.1 ≠ child := by
  cases h : o.orphans.get? child with
  | none =>
    rw [removeOrphan_of_none h, eq_comm, List.filter_eq_self]
    intro r hr
    have hrow := KeyedRows.get?_of_mem_rows (List.mem_of_mem_filter hr)
    rw [decide_eq_true_eq]
    rintro rfl
    rw [hrow] at h
    cases h
  | some orphan =>
    have hrows : (o.orphans.delete child).rows =
        o.orphans.rows.filter fun r => !decide (r.1 = child) := rfl
    rw [fromSource, fromSource, sourceMap_removeOrphan h, orphans_removeOrphan, hrows]
    simp only [List.filter_filter, KeyedRows.get?_delete]
    refine List.filter_congr ?_
    intro r _
    by_cases hr : r.1 = child <;> simp [hr]

/-- An orphan that is forgotten leaves the set of its parent. -/
lemma Consistent.inverse_removeOrphan (hc : o.Consistent) (h : o.orphans.get? child = some orphan)
    (parent child' : Bytes) : child' ∈ (o.removeOrphan child).childHashes parent ↔
      ∃ orphan', (o.removeOrphan child).orphans.get? child' = some orphan' ∧
        orphan'.block.header.prevBlockHash = parent := by
  rw [childHashes_removeOrphan h, orphans_removeOrphan, KeyedRows.get?_delete]
  by_cases hchild : child' = child
  · subst hchild
    rw [if_pos rfl]
    refine iff_of_false ?_ (by simp)
    split_ifs with hparent
    · rw [(hc.nodup parent).mem_erase_iff]
      exact fun hmem => hmem.1 rfl
    · rw [hc.inverse]
      rintro ⟨orphan', horphan', hprev⟩
      rw [h, Option.some.injEq] at horphan'
      exact hparent (by rw [horphan', hprev])
  · rw [if_neg hchild, ← hc.inverse]
    split_ifs
    · rw [(hc.nodup parent).mem_erase_iff, and_iff_right hchild]
    · rfl

lemma Consistent.removeOrphan (hc : o.Consistent) (child : Bytes) :
    (o.removeOrphan child).Consistent := by
  cases h : o.orphans.get? child with
  | none => rwa [removeOrphan_of_none h]
  | some orphan =>
    refine ⟨hc.inverse_removeOrphan h, ?_, ?_, ?_, ?_, ?_⟩
    · intro parent
      rw [parentMap_removeOrphan h]
      split_ifs
      · intro hnil
        simpa using (Option.filter_eq_some_iff.1 hnil).2
      · exact hc.nonempty parent
    · intro parent
      rw [childHashes_removeOrphan h]
      split_ifs
      · exact (hc.nodup parent).erase child
      · exact hc.nodup parent
    · intro child' hnone
      rw [orphans_removeOrphan, KeyedRows.get?_delete] at hnone
      rw [sourceMap_removeOrphan h, KeyedRows.get?_delete]
      split_ifs at hnone ⊢
      · rfl
      · exact hc.sources child' hnone
    · have hlength := KeyedRows.length_delete h
      have hsize := hc.size
      rw [orphans_removeOrphan, limits_removeOrphan.1]
      omega
    · intro peer
      have hle := List.length_filter_le (fun r => decide (r.1 ≠ child)) (o.fromSource peer)
      have hpeer := hc.perPeer peer
      rw [peerOrphans_eq] at hpeer ⊢
      rw [fromSource_removeOrphan, limits_removeOrphan.2]
      omega

end maps

/-! Evictions. -/
section evictions
variable {o} {peer : String} {rows : List (Bytes × OrphanBlock)}

lemma oldest_mem (hrows : rows ≠ []) : ∃ r ∈ rows, oldest rows = some r.1 := by
  cases rows with
  | nil => exact (hrows rfl).elim
  | cons r rest => exact ⟨_, KeyedRows.foldl_better_mem _ r rest, rfl⟩

lemma Consistent.evict (hc : o.Consistent) (rows : List (Bytes × OrphanBlock)) :
    (o.evict rows).Consistent := by
  unfold Orphanage.evict
  split
  · exact hc
  · exact hc.removeOrphan _

lemma limits_evict (o : Orphanage) (rows : List (Bytes × OrphanBlock)) :
    (o.evict rows).maxOrphans = o.maxOrphans ∧
      (o.evict rows).maxOrphansPerPeer = o.maxOrphansPerPeer := by
  unfold evict
  split
  · exact ⟨rfl, rfl⟩
  · exact limits_removeOrphan

lemma length_fromSource_evict_le (o : Orphanage) (rows : List (Bytes × OrphanBlock)) (peer : String) :
    ((o.evict rows).fromSource peer).length ≤ (o.fromSource peer).length := by
  unfold evict
  split
  · exact le_rfl
  · rw [fromSource_removeOrphan]
    exact List.length_filter_le _ _

lemma length_fromSource_evict_lt (hrows : o.fromSource peer ≠ []) :
    ((o.evict (o.fromSource peer)).fromSource peer).length < (o.fromSource peer).length := by
  obtain ⟨r, hr, holdest⟩ := oldest_mem hrows
  simp only [evict, holdest, fromSource_removeOrphan]
  exact List.length_filter_lt_length_iff_exists.2 ⟨r, hr, by simp⟩

lemma length_orphans_evict_lt (hrows : o.orphans.rows ≠ []) :
    (o.evict o.orphans.rows).orphans.rows.length < o.orphans.rows.length := by
  obtain ⟨r, hr, holdest⟩ := oldest_mem hrows
  have hlength := KeyedRows.length_delete (KeyedRows.get?_of_mem_rows hr)
  simp only [evict, holdest, orphans_removeOrphan]
  omega

lemma get?_evict_none (rows : List (Bytes × OrphanBlock)) {k : Bytes} (h : o.orphans.get? k = none) :
    (o.evict rows).orphans.get? k = none := by
  unfold evict
  split
  · exact h
  · rw [orphans_removeOrphan, KeyedRows.get?_delete, h]
    split_ifs <;> rfl

/-- The orphanage after the first eviction of `make_room`. -/
def roomForPeer (o : Orphanage) (sourcePeer : Option String) : Orphanage :=
  match sourcePeer with
  | none => o
  | some peer =>
    if peer ≠ "" ∧ o.maxOrphansPerPeer ≤ (o.fromSource peer).length then o.evict (o.fromSource peer)
    else o

lemma makeRoom_eq (o : Orphanage) (sourcePeer : Option String) :
    o.makeRoom sourcePeer =
      if (o.roomForPeer sourcePeer).maxOrphans ≤ (o.roomForPeer sourcePeer).orphans.rows.length then
        (o.roomForPeer sourcePeer).evict (o.roomForPeer sourcePeer).orphans.rows
      else o.roomForPeer sourcePeer := rfl

/-- What an eviction leaves as it was. -/
structure Shrunk (o o' : Orphanage) : Prop where
  maxOrphans : o'.maxOrphans = o.maxOrphans
  maxOrphansPerPeer : o'.maxOrphansPerPeer = o.maxOrphansPerPeer
  absent : ∀ k, o.orphans.get? k = none → o'.orphans.get? k = none
  fromSource : ∀ peer, (o'.fromSource peer).length ≤ (o.fromSource peer).length

lemma Shrunk.refl (o : Orphanage) : Shrunk o o := ⟨rfl, rfl, fun _ h => h, fun _ => le_rfl⟩

lemma Shrunk.trans {o₁ o₂ : Orphanage} (h : Shrunk o o₁) (h' : Shrunk o₁ o₂) : Shrunk o o₂ :=
  ⟨h'.1.trans h.1, h'.2.trans h.2, fun k hk => h'.3 k (h.3 k hk),
    fun peer => (h'.4 peer).trans (h.4 peer)⟩

lemma shrunk_evict (o : Orphanage) (rows : List (Bytes × OrphanBlock)) : Shrunk o (o.evict rows) :=
  ⟨(limits_evict o rows).1, (limits_evict o rows).2, fun _ => get?_evict_none rows,
    length_fromSource_evict_le o rows⟩

lemma Consistent.roomForPeer (hc : o.Consistent) (hper : 1 ≤ o.maxOrphansPerPeer)
    (sourcePeer : Option String) :
    (o.roomForPeer sourcePeer).Consistent ∧ Shrunk o (o.roomForPeer sourcePeer) ∧
      ∀ peer, sourcePeer = some peer → peer ≠ "" →
        ((o.roomForPeer sourcePeer).fromSource peer).length < o.maxOrphansPerPeer := by
  unfold Orphanage.roomForPeer
  cases sourcePeer with
  | none => exact ⟨hc, .refl o, by simp⟩
  | some peer =>
    have hbound := hc.perPeer peer
    rw [peerOrphans_eq] at hbound
    by_cases hfull : peer ≠ "" ∧ o.maxOrphansPerPeer ≤ (o.fromSource peer).length
    · simp only [if_pos hfull]
      refine ⟨hc.evict _, shrunk_evict o _, ?_⟩
      rintro _ ⟨rfl⟩ -
      have hrows : o.fromSource peer ≠ [] := by
        rw [← List.length_pos_iff]
        omega
      have hlt := length_fromSource_evict_lt hrows
      omega
    · simp only [if_neg hfull]
      refine ⟨hc, .refl o, ?_⟩
      rintro _ ⟨rfl⟩ hne
      exact not_le.1 fun hle => hfull ⟨hne, hle⟩

/-- Before an orphan is added there is room for it under both limits. -/
lemma Consistent.makeRoom (hc : o.Consistent) (hmax : 1 ≤ o.maxOrphans)
    (hper : 1 ≤ o.maxOrphansPerPeer) (sourcePeer : Option String) :
    (o.makeRoom sourcePeer).Consistent ∧ Shrunk o (o.makeRoom sourcePeer) ∧
      (o.makeRoom sourcePeer).orphans.rows.length < o.maxOrphans ∧
      ∀ peer, sourcePeer = some peer → peer ≠ "" →
        ((o.makeRoom sourcePeer).fromSource peer).length < o.maxOrphansPerPeer := by
  obtain ⟨hc', hshrunk, hpeer⟩ := hc.roomForPeer hper sourcePeer
  have hsize := hc'.size
  rw [makeRoom_eq]
  split_ifs with hfull
  · have hrows : (o.roomForPeer sourcePeer).orphans.rows ≠ [] := by
      rw [← List.length_pos_iff]
      have hlimit := hshrunk.maxOrphans
      omega
    have hlt := length_orphans_evict_lt hrows
    have hshrunk' := hshrunk.trans (shrunk_evict _ (o.roomForPeer sourcePeer).orphans.rows)
    refine ⟨hc'.evict _, hshrunk', ?_, ?_⟩
    · have hlimit := hshrunk.maxOrphans
      omega
    · intro peer hsource hne
      exact (length_fromSource_evict_le _ _ peer).trans_lt (hpeer peer hsource hne)
  · refine ⟨hc', hshrunk, ?_, hpeer⟩
    rw [← hshrunk.maxOrphans]
    exact not_le.1 hfull

end evictions

/-! One orphan more. -/
section adding
variable {o} {clock : ℚ} {block : Block} {sourcePeer : Option String}

/-- `add_orphan` after the evictions. -/
def store (o : Orphanage) (clock : ℚ) (block : Block) (sourcePeer : Option String) : Orphanage :=
  { o with
    orphans := o.orphans.put (block.header.hashHex H) ⟨block, clock⟩
    sourceMap :=
      match sourcePeer with
      | none => o.sourceMap
      | some peer => if peer ≠ "" then o.sourceMap.put (block.header.hashHex H) peer else o.sourceMap
    parentMap :=
      o.parentMap.put block.header.prevBlockHash
        (if block.header.hashHex H ∈ o.childHashes block.header.prevBlockHash then
          o.childHashes block.header.prevBlockHash
        else o.childHashes block.header.prevBlockHash ++ [block.header.hashHex H]) }

lemma addOrphan_eq (o : Orphanage) (clock : ℚ) (block : Block) (sourcePeer : Option String) :
    o.addOrphan H clock block sourcePeer =
      if o.orphans.contains (block.header.hashHex H) then o
      else (o.makeRoom sourcePeer).store H clock block sourcePeer := rfl

lemma sourceMap_store (hsource : o.sourceMap.get? (block.header.hashHex H) = none) (k : Bytes) :
    (o.store H clock block sourcePeer).sourceMap.get? k =
      if k = block.header.hashHex H then sourcePeer.filter (· ≠ "") else o.sourceMap.get? k := by
  cases sourcePeer with
  | none =>
    change o.sourceMap.get? k = _
    split_ifs with hk
    · rw [hk, hsource]
      rfl
    · rfl
  | some peer =>
    change KeyedRows.get? (if peer ≠ "" then o.sourceMap.put _ peer else o.sourceMap) k = _
    by_cases hne : peer ≠ ""
    · simp [hne, Option.filter_some]
    · simp only [if_neg hne]
      split_ifs with hk
      · rw [hk, hsource]
        simp [hne, Option.filter_some]
      · rfl

lemma fromSource_store (hnew : o.orphans.get? (block.header.hashHex H) = none)
    (hsource : o.sourceMap.get? (block.header.hashHex H) = none) (peer : String) :
    ((o.store H clock block sourcePeer).fromSource peer).length =
      (o.fromSource peer).length + if sourcePeer.filter (· ≠ "") = some peer then 1 else 0 := by
  have hrows : (o.store H clock block sourcePeer).orphans.rows =
      o.orphans.rows ++ [(block.header.hashHex H, ⟨block, clock⟩)] := KeyedRows.rows_put_new _ hnew
  have hold : o.orphans.rows.filter (fun r =>
      (o.store H clock block sourcePeer).sourceMap.get? r.1 = some peer) = o.fromSource peer := by
    refine List.filter_congr ?_
    intro r hr
    have hne : r.1 ≠ block.header.hashHex H := by
      intro heq
      have hrow := KeyedRows.get?_of_mem_rows hr
      rw [heq, hnew] at hrow
      cases hrow
    rw [sourceMap_store H hsource, if_neg hne]
  rw [fromSource, hrows, List.filter_append, hold, List.length_append, List.filter_singleton,
    sourceMap_store H hsource, if_pos rfl]
  by_cases hgiven : sourcePeer.filter (· ≠ "") = some peer
  · rw [if_pos hgiven, decide_eq_true hgiven]
    rfl
  · rw [if_neg hgiven, decide_eq_false hgiven]
    rfl

lemma parentMap_store (hmem : block.header.hashHex H ∉ o.childHashes block.header.prevBlockHash)
    (parent : Bytes) :
    (o.store H clock block sourcePeer).parentMap.get? parent =
      if parent = block.header.prevBlockHash then
        some (o.childHashes parent ++ [block.header.hashHex H])
      else o.parentMap.get? parent := by
  change KeyedRows.get? (o.parentMap.put _ (if _ then _ else _)) parent = _
  rw [if_neg hmem, KeyedRows.get?_put]
  split_ifs with hparent
  · rw [hparent]
  · rfl

lemma childHashes_store (hmem : block.header.hashHex H ∉ o.childHashes block.header.prevBlockHash)
    (parent : Bytes) :
    (o.store H clock block sourcePeer).childHashes parent =
      if parent = block.header.prevBlockHash then o.childHashes parent ++ [block.header.hashHex H]
      else o.childHashes parent := by
  rw [childHashes, parentMap_store H hmem]
  split_ifs <;> rfl

lemma get?_store (k : Bytes) : (o.store H clock block sourcePeer).orphans.get? k =
    if k = block.header.hashHex H then some ⟨block, clock⟩ else o.orphans.get? k :=
  KeyedRows.get?_put ..

lemma Consistent.not_mem_childHashes (hc : o.Consistent)
    (hnew : o.orphans.get? (block.header.hashHex H) = none) (parent : Bytes) :
    block.header.hashHex H ∉ o.childHashes parent := by
  rw [hc.inverse, hnew]
  simp

/-- A new orphan joins the set of its parent. -/
lemma Consistent.inverse_store (hc : o.Consistent)
    (hnew : o.orphans.get? (block.header.hashHex H) = none) (parent child : Bytes) :
    child ∈ (o.store H clock block sourcePeer).childHashes parent ↔
      ∃ orphan, (o.store H clock block sourcePeer).orphans.get? child = some orphan ∧
        orphan.block.header.prevBlockHash = parent := by
  have hmem := hc.not_mem_childHashes H hnew
  rw [childHashes_store H (hmem _), get?_store]
  by_cases hchild : child = block.header.hashHex H
  · subst hchild
    rw [if_pos rfl]
    split_ifs with hparent
    · simp [hparent]
    · refine iff_of_false (hmem parent) ?_
      rintro ⟨orphan, horphan, hprev⟩
      rw [Option.some.injEq] at horphan
      exact hparent (by rw [← hprev, ← horphan])
  · rw [if_neg hchild, ← hc.inverse]
    split_ifs
    · simp [hchild]
    · rfl

lemma Consistent.store (hc : o.Consistent) (hnew : o.orphans.get? (block.header.hashHex H) = none)
    (hsize : o.orphans.rows.length < o.maxOrphans)
    (hpeer : ∀ peer, sourcePeer = some peer → peer ≠ "" →
      (o.fromSource peer).length < o.maxOrphansPerPeer) :
    (o.store H clock block sourcePeer).Consistent := by
  have hsource := hc.sources _ hnew
  have hmem := hc.not_mem_childHashes H hnew
  refine ⟨hc.inverse_store H hnew, ?_, ?_, ?_, ?_, ?_⟩
  · intro parent
    rw [parentMap_store H (hmem _)]
    split_ifs
    · simp
    · exact hc.nonempty parent
  · intro parent
    rw [childHashes_store H (hmem _)]
    split_ifs
    · rw [← List.concat_eq_append]
      exact (hc.nodup parent).concat (hmem parent)
    · exact hc.nodup parent
  · intro child hnone
    rw [get?_store] at hnone
    rw [sourceMap_store H hsource]
    split_ifs at hnone ⊢
    exact hc.sources child hnone
  · have hrows : (o.store H clock block sourcePeer).orphans.rows =
        o.orphans.rows ++ [(block.header.hashHex H, ⟨block, clock⟩)] :=
      KeyedRows.rows_put_new _ hnew
    rw [hrows, List.length_append, List.length_singleton]
    exact hsize
  · intro peer
    have hbound := hc.perPeer peer
    rw [peerOrphans_eq] at hbound ⊢
    rw [fromSource_store H hnew hsource]
    change _ ≤ o.maxOrphansPerPeer
    split_ifs with hgiven
    · obtain ⟨hgiven, hne⟩ := Option.filter_eq_some_iff.1 hgiven
      exact hpeer peer hgiven (of_decide_eq_true hne)
    · exact hbound

lemma Consistent.addOrphan (hc : o.Consistent) (hmax : 1 ≤ o.maxOrphans)
    (hper : 1 ≤ o.maxOrphansPerPeer) : (o.addOrphan H clock block sourcePeer).Consistent := by
  rw [addOrphan_eq]
  split_ifs with hthere
  · exact hc
  · obtain ⟨hc', hshrunk, hsize, hpeer⟩ := hc.makeRoom hmax hper sourcePeer
    have hnew : o.orphans.get? (block.header.hashHex H) = none := by
      simpa [KeyedRows.contains] using hthere
    apply hc'.store H (hshrunk.absent _ hnew)
    · rwa [hshrunk.maxOrphans]
    · intro peer hsource hne
      rw [hshrunk.maxOrphansPerPeer]
      exact hpeer peer hsource hne

lemma limits_addOrphan (hc : o.Consistent) (hmax : 1 ≤ o.maxOrphans)
    (hper : 1 ≤ o.maxOrphansPerPeer) :
    (o.addOrphan H clock block sourcePeer).maxOrphans = o.maxOrphans ∧
      (o.addOrphan H clock block sourcePeer).maxOrphansPerPeer = o.maxOrphansPerPeer := by
  rw [addOrphan_eq]
  split_ifs
  · exact ⟨rfl, rfl⟩
  · have hshrunk := (hc.makeRoom hmax hper sourcePeer).2.1
    exact ⟨hshrunk.maxOrphans, hshrunk.maxOrphansPerPeer⟩

end adding
end Orphanage

/-- A call from outside. -/
inductive OrphanageOp
  | addOrphan (clock : ℚ) (block : Block) (sourcePeer : Option String)
  | removeOrphan (blockHash : Bytes)
  | cleanupExpired (clock : ℚ)
  | clear

namespace OrphanageOp
open Orphanage
variable (H : Hashlib)

def apply : OrphanageOp → Orphanage → Orphanage
  | addOrphan clock block sourcePeer, o => o.addOrphan H clock block sourcePeer
  | removeOrphan blockHash, o => o.removeOrphan blockHash
  | cleanupExpired clock, o => o.cleanupExpired clock
  | clear, o => o.clear

/-- The invariant with limits that leave room for an orphan. -/
def Sound (o : Orphanage) : Prop := o.Consistent ∧ 1 ≤ o.maxOrphans ∧ 1 ≤ o.maxOrphansPerPeer

lemma sound_removeOrphan {o : Orphanage} (h : Sound o) (child : Bytes) : Sound (o.removeOrphan child) := by
  obtain ⟨hmax, hper⟩ := @limits_removeOrphan o child
  exact ⟨h.1.removeOrphan child, hmax ▸ h.2.1, hper ▸ h.2.2⟩

lemma consistent_empty (maxOrphans maxOrphansPerPeer : ℕ) (maxAge : ℚ) :
    Orphanage.Consistent { maxOrphans, maxAge, maxOrphansPerPeer } where
  inverse _ _ := by simp [childHashes]
  nonempty _ := by simp
  nodup _ := List.nodup_nil
  sources _ _ := rfl
  size := Nat.zero_le _
  perPeer _ := Nat.zero_le _

/-- What one call keeps. -/
lemma sound_apply (op : OrphanageOp) {o : Orphanage} (h : Sound o) : Sound (op.apply H o) := by
  obtain ⟨hc, hmax, hper⟩ := h
  cases op with
  | addOrphan clock block sourcePeer =>
    obtain ⟨hmax', hper'⟩ := @limits_addOrphan H o clock block sourcePeer hc hmax hper
    exact ⟨hc.addOrphan H hmax hper, hmax' ▸ hmax, hper' ▸ hper⟩
  | removeOrphan blockHash => exact sound_removeOrphan ⟨hc, hmax, hper⟩ blockHash
  | cleanupExpired clock =>
    have hfold (expired : List Bytes) (o : Orphanage) (h : Sound o) :
        Sound (expired.foldl Orphanage.removeOrphan o) := by
      induction expired generalizing o with
      | nil => exact h
      | cons child expired ih => exact ih _ (sound_removeOrphan h child)
    exact hfold _ o ⟨hc, hmax, hper⟩
  | clear => exact ⟨consistent_empty _ _ _, hmax, hper⟩

/-- The invariant of the orphanage holds in every state of every run. -/
theorem consistent_along (maxOrphans maxOrphansPerPeer : ℕ) (maxAge : ℚ) (hmax : 1 ≤ maxOrphans)
    (hper : 1 ≤ maxOrphansPerPeer) (ops : List OrphanageOp) :
    OperationRuns.Along (apply H) Orphanage.Consistent ops { maxOrphans, maxAge, maxOrphansPerPeer } := by
  have hempty : Sound { maxOrphans, maxAge, maxOrphansPerPeer } :=
    ⟨consistent_empty _ _ _, hmax, hper⟩
  have hrun : OperationRuns.Along (apply H) Sound ops _ :=
    OperationRuns.along_of_invariant (fun _ op h => sound_apply H op h) hempty
  exact hrun.imp fun _ h => h.1

theorem consistent_along_two :
    OperationRuns.Along (apply (Hashlib.ofDigests [])) Orphanage.Consistent
      [.addOrphan 0 ⟨⟨1, List.replicate 32 1, List.replicate 32 2, 0, 0, 0⟩, []⟩ none,
        .addOrphan 5 ⟨⟨1, List.replicate 32 3, List.replicate 32 2, 0, 0, 0⟩, []⟩
          (some "10.0.0.1:8333"),
        .cleanupExpired 3601]
      { maxOrphans := 1, maxAge := 3600, maxOrphansPerPeer := 1 } :=
  consistent_along _ 1 1 3600 (by decide) (by decide) _

end OrphanageOp
end BerzCoin
