import BerzCoin.ChainAncestry
import BerzCoin.ChainHeaders
import BerzCoin.Lineage

/-! The other operations of the block index that choose the best tip: `mark_invalid` and `load`. -/
namespace BerzCoin
open Database

/-- The order in which tips are preferred. -/
def BlockIndexEntry.rank (entry : BlockIndexEntry) : ℕ ×ₗ ℕ := toLex (entry.chainwork, entry.height)

namespace BlockIndex

/-- The entry that `load` makes of a row. -/
def loadedEntry (blockHash : Bytes) (row : HeaderRow) : BlockIndexEntry :=
  let status := if row.statusFlags = ∅ then {.HEADER} else row.statusFlags
  let status := insert (if row.isValid then .VALID else .INVALID) status
  let status := if row.chainwork.isNone then status ∪ {.INVALID, .FAILED_VALIDATION} else status
  ⟨row.height, blockHash, row.header, row.chainwork.getD 0, status⟩

def better (best : Option BlockIndexEntry) (entry : BlockIndexEntry) : Option BlockIndexEntry :=
  match best with
  | none => some entry
  | some best => if best.rank < entry.rank then some entry else some best

/-- The first of the entries that none of them is preferred to. -/
def heaviest (entries : List BlockIndexEntry) : Option BlockIndexEntry := entries.foldl better none

def withEntry (b : BlockIndex) (blockHash : Bytes) (entry : BlockIndexEntry) : BlockIndex :=
  { b with index := b.index.put blockHash entry }

/-- One turn of the loop in `load`, with `best_by_work`. -/
def loadRow (p : BlockIndex × Option BlockIndexEntry) (row : Bytes × HeaderRow) :
    BlockIndex × Option BlockIndexEntry :=
  let entry := loadedEntry row.1 row.2
  (p.1.withEntry row.1 entry, if entry.isInvalid then p.2 else better p.2 entry)

/-- `ORDER BY height`. -/
def storedRows (tables : Tables) : List (Bytes × HeaderRow) :=
  tables.blockHeaders.rows.insertionSort fun r r' => r.2.height ≤ r'.2.height

/-- `load` keeps what the index has: only `clear` empties it. -/
def load : ChainDb Unit := do
  let rows ← execute (.query storedRows)
  let (loaded, best) ← read fun b => rows.foldl loadRow (b, none)
  modify fun _ => loaded
  match best with
  | none => return ()
  | some tip =>
    modify (·.withBestChainTip tip tip.blockHash)
    persistAll (← read (·.index.rows))

def clear : ChainDb Unit := modify fun _ => empty

/-- The candidates of `_reselect_best_tip`. -/
def candidates (b : BlockIndex) : List BlockIndexEntry :=
  (b.index.rows.map Prod.snd).filter fun e => !e.isInvalid && !b.isBranchInvalid e.blockHash

def withoutTip (b : BlockIndex) : BlockIndex :=
  { b with bestHash := none, bestHeight := -1, heightIndex := fun _ => none }

def reselectBestTip : ChainDb Unit := do
  match heaviest (← read candidates) with
  | none => modify withoutTip
  | some best => setBestChainTip best.blockHash

def markedInvalid (entry : BlockIndexEntry) : BlockIndexEntry :=
  (((entry.setStatus .INVALID).setStatus .FAILED_VALIDATION).clearStatus .MAIN_CHAIN).setStatus
    .SIDE_CHAIN

def withMarkedInvalid (b : BlockIndex) (blockHash : Bytes) : BlockIndex :=
  { b with index := b.index.update blockHash markedInvalid }

def markInvalid (blockHash : Bytes) : ChainDb Unit := do
  match ← read (·.getBlock blockHash) with
  | none => return ()
  | some entry =>
    modify (·.withMarkedInvalid blockHash)
    persistStatus (markedInvalid entry)
    if (← read (·.bestHash)) = some blockHash then reselectBestTip

/-- No block on the way from `k` to its root is marked invalid. -/
def BranchValid (b : BlockIndex) (k : Bytes) : Prop :=
  ∀ x e, b.Descends k x → b.getBlock x = some e → e.isInvalid = false

def OnMainChain (b : BlockIndex) (k : Bytes) : Prop :=
  ∃ e, b.getBlock k = some e ∧ e.isMainChain = true

def IsTop (b : BlockIndex) (k : Bytes) : Prop := b.bestHash = some k ∨ b.OnMainChain k

/-- The best tip and the blocks with the flag for the main chain have no invalid ancestor. -/
def TipsValid (b : BlockIndex) : Prop := ∀ k, b.IsTop k → b.BranchValid k

/-- No block is its own ancestor. -/
def Forest (b : BlockIndex) : Prop := ∀ k, ¬ Relation.TransGen b.ParentHash k k

def Keyed (b : BlockIndex) : Prop := ∀ k e, b.getBlock k = some e → e.blockHash = k

section order

lemma better_ne_none (best : Option BlockIndexEntry) (entry : BlockIndexEntry) :
    better best entry ≠ none := by
  cases best with
  | none => simp [better]
  | some best =>
    simp only [better]
    split_ifs <;> simp

lemma heaviest_append_singleton (entries : List BlockIndexEntry) (e : BlockIndexEntry) :
    heaviest (entries ++ [e]) = better (heaviest entries) e := by
  simp [heaviest, List.foldl_append]

lemma heaviest_eq_none {entries : List BlockIndexEntry} : heaviest entries = none ↔ entries = [] := by
  induction entries using List.reverseRecOn with
  | nil => simp [heaviest]
  | append_singleton entries e ih =>
    rw [heaviest_append_singleton]
    simp [better_ne_none]

/-- Before the heaviest entry stand only lighter ones, after it none that is heavier. -/
lemma heaviest_eq_some {entries : List BlockIndexEntry} {tip : BlockIndexEntry} :
    heaviest entries = some tip ↔ ∃ before after, entries = before ++ tip :: after ∧
      (∀ e ∈ before, e.rank < tip.rank) ∧ ∀ e ∈ after, e.rank ≤ tip.rank := by
  induction entries using List.reverseRecOn generalizing tip with
  | nil => simp [heaviest]
  | append_singleton entries e ih =>
    rw [heaviest_append_singleton]
    constructor
    · intro h
      cases hbest : heaviest entries with
      | none =>
        rw [heaviest_eq_none] at hbest
        rw [hbest] at h ⊢
        simp only [better, heaviest, List.foldl_nil, Option.some.injEq] at h
        exact ⟨[], [], by simp [h], by simp, by simp⟩
      | some best =>
        obtain ⟨before, after, hsplit, hbefore, hafter⟩ := ih.1 hbest
        simp only [hbest, better] at h
        split_ifs at h with hlt
        · cases h
          refine ⟨entries, [], rfl, ?_, by simp⟩
          intro x hx
          rw [hsplit, List.mem_append, List.mem_cons] at hx
          rcases hx with hx | rfl | hx
          · exact (hbefore x hx).trans hlt
          · exact hlt
          · exact (hafter x hx).trans_lt hlt
        · cases h
          refine ⟨before, after ++ [e], by simp [hsplit], hbefore, ?_⟩
          intro x hx
          rcases List.mem_append.1 hx with hx | hx
          · exact hafter x hx
          · rw [List.mem_singleton.1 hx]
            exact not_lt.1 hlt
    · rintro ⟨before, after, hsplit, hbefore, hafter⟩
      rcases List.eq_nil_or_concat after with rfl | ⟨after, last, rfl⟩
      · obtain ⟨hentries, htip⟩ := List.append_inj' hsplit rfl
        cases htip
        cases hbest : heaviest entries with
        | none => rfl
        | some best =>
          obtain ⟨before', after', hsplit', -, -⟩ := ih.1 hbest
          have hmem : best ∈ before := by
            rw [← hentries, hsplit']
            simp
          simp [better, hbefore best hmem]
      · have hassoc : before ++ tip :: (after.concat last) = (before ++ tip :: after) ++ [last] := by simp
        rw [hassoc] at hsplit
        obtain ⟨hentries, hlast⟩ := List.append_inj' hsplit rfl
        cases hlast
        have hbest : heaviest entries = some tip :=
          ih.2 ⟨before, after, hentries, hbefore, fun x hx => hafter x (by simp [hx])⟩
        have hle := hafter e (by simp)
        rw [hbest, better, if_neg (not_lt.2 hle)]

end order

section walk
variable {b : BlockIndex}

lemma Keyed.pairwise_pathFrom (hkey : b.Keyed) (n : ℕ) (k : Bytes) :
    (b.pathFrom n k).Pairwise fun x y => Relation.TransGen b.ParentHash x.blockHash y.blockHash := by
  induction n generalizing k with
  | zero => exact List.Pairwise.nil
  | succ n ih =>
    rw [pathFrom]
    cases he : b.getBlock k with
    | none => exact List.Pairwise.nil
    | some e =>
      apply List.pairwise_cons.2
      refine ⟨?_, ih _⟩
      intro y hy
      obtain ⟨-, hdesc⟩ := mem_pathFrom hkey hy
      rw [hkey k e he]
      exact Relation.TransGen.head' (by simp [ParentHash, he]) hdesc

/-- In a forest a walk meets an entry at most once. -/
lemma Forest.length_pathFrom_le (hforest : b.Forest) (hkey : b.Keyed) (n : ℕ) (k : Bytes) :
    (b.pathFrom n k).length ≤ b.index.rows.length := by
  have hnodup : ((b.pathFrom n k).map BlockIndexEntry.blockHash).Nodup := by
    apply List.pairwise_map.2
    apply (hkey.pairwise_pathFrom n k).imp
    intro x y h heq
    rw [heq] at h
    exact hforest _ h
  have hsubset : (b.pathFrom n k).map BlockIndexEntry.blockHash ⊆ b.index.rows.map Prod.fst := by
    intro h hh
    obtain ⟨x, hx, rfl⟩ := List.mem_map.1 hh
    obtain ⟨hindexed, -⟩ := mem_pathFrom hkey hx
    exact List.mem_map.2 ⟨_, KeyedRows.mem_rows_of_get? hindexed, rfl⟩
  have hle := (hnodup.subperm hsubset).length_le
  simpa using hle

lemma pathFrom_take (b : BlockIndex) (n m : ℕ) (k : Bytes) :
    (b.pathFrom (n + m) k).take n = b.pathFrom n k := by
  induction n generalizing k with
  | zero => rfl
  | succ n ih =>
    rw [Nat.add_right_comm, pathFrom, pathFrom]
    cases b.getBlock k with
    | none => rfl
    | some e => rw [List.take_succ_cons, ih]

lemma exists_mem_pathFrom {k x : Bytes} {e : BlockIndexEntry} (hdesc : b.Descends k x)
    (he : b.getBlock x = some e) : ∃ n, e ∈ b.pathFrom n k := by
  induction hdesc using Relation.ReflTransGen.head_induction_on with
  | refl => exact ⟨1, by simp [pathFrom, he]⟩
  | @head k p hkp _ ih =>
    obtain ⟨n, hn⟩ := ih
    obtain ⟨ek, hek, hprev⟩ := Option.map_eq_some_iff.1 hkp
    refine ⟨n + 1, ?_⟩
    rw [pathFrom, hek]
    simp only [hprev, List.mem_cons, hn, or_true]

/-- The size of the index is enough to reach every ancestor. -/
lemma Forest.mem_branch (hforest : b.Forest) (hkey : b.Keyed) {k x : Bytes} {e : BlockIndexEntry}
    (hdesc : b.Descends k x) (he : b.getBlock x = some e) : e ∈ b.branch k := by
  obtain ⟨n, hn⟩ := exists_mem_pathFrom hdesc he
  have hlong : e ∈ b.pathFrom (n + b.index.rows.length) k := by
    apply List.mem_of_mem_take (i := n)
    rw [pathFrom_take]
    exact hn
  have hle := hforest.length_pathFrom_le hkey (b.index.rows.length + n) k
  rw [Nat.add_comm] at hlong
  rw [branch, ← pathFrom_take b _ n k, List.take_of_length_le hle]
  exact hlong

lemma Forest.isBranchInvalid_eq_false_iff (hforest : b.Forest) (hkey : b.Keyed) {k : Bytes} :
    b.isBranchInvalid k = false ↔ b.BranchValid k := by
  rw [isBranchInvalid, List.any_eq_false]
  constructor
  · intro h x e hdesc he
    simpa using h e (hforest.mem_branch hkey hdesc he)
  · intro h x hx
    obtain ⟨hindexed, hdesc⟩ := mem_pathFrom hkey hx
    simp [h _ x hdesc hindexed]

lemma BranchValid.below {k x : Bytes} (h : b.BranchValid k) (hdesc : b.Descends k x) :
    b.BranchValid x :=
  fun y e hy he => h y e (hdesc.trans hy) he

end walk

end BlockIndex
end BerzCoin
