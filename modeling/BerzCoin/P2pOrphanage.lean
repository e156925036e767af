import BerzCoin.KeyedRows
import BerzCoin.CoreTransaction

/-! `Orphanage`: blocks whose parent is not known yet. `clock` is `time.time()`. -/
namespace BerzCoin

structure OrphanBlock where
  block : Block
  receivedAt : ℚ

/-- `parent_map` has the hashes of the children of a block, `source_map` the peer that sent an
orphan. -/
structure Orphanage where
  maxOrphans : ℕ := 100
  maxAge : ℚ := 3600
  maxOrphansPerPeer : ℕ := 16
  orphans : KeyedRows Bytes OrphanBlock := .empty
  parentMap : KeyedRows Bytes (List Bytes) := .empty
  sourceMap : KeyedRows Bytes String := .empty

namespace Orphanage
variable (H : Hashlib) (o : Orphanage)

def removeOrphan (blockHash : Bytes) : Orphanage :=
  match o.orphans.get? blockHash with
  | none => o
  | some orphan =>
    let parentHash := orphan.block.header.prevBlockHash
    { o with
      orphans := o.orphans.delete blockHash
      parentMap :=
        match o.parentMap.get? parentHash with
        | none => o.parentMap
        | some children =>
          if children.erase blockHash = [] then o.parentMap.delete parentHash
          else o.parentMap.put parentHash (children.erase blockHash)
      sourceMap := o.sourceMap.delete blockHash }

/-- `min` by the time of arrival; the first of equal ones. -/
def oldest : List (Bytes × OrphanBlock) → Option Bytes
  | [] => none
  | (blockHash, orphan) :: rest =>
    some (rest.foldl (fun best r => if r.2.receivedAt < best.2.receivedAt then r else best)
      (blockHash, orphan)).1

def evict (rows : List (Bytes × OrphanBlock)) : Orphanage :=
  match oldest rows with
  | none => o
  | some blockHash => o.removeOrphan blockHash

def fromSource (sourcePeer : String) : List (Bytes × OrphanBlock) :=
  o.orphans.rows.filter fun r => o.sourceMap.get? r.1 = some sourcePeer

/-- The evictions before an orphan is added. -/
def makeRoom (sourcePeer : Option String) : Orphanage :=
  let o :=
    match sourcePeer with
    | none => o
    | some peer =>
      if peer ≠ "" ∧ o.maxOrphansPerPeer ≤ (o.fromSource peer).length then o.evict (o.fromSource peer)
      else o
  if o.maxOrphans ≤ o.orphans.rows.length then o.evict o.orphans.rows else o

/-- An orphan that is there already is left as it is. -/
def addOrphan (clock : ℚ) (block : Block) (sourcePeer : Option String) : Orphanage :=
  let blockHash := block.header.hashHex H
  let parentHash := block.header.prevBlockHash
  if o.orphans.contains blockHash then o
  else
    let o := o.makeRoom sourcePeer
    { o with
      orphans := o.orphans.put blockHash ⟨block, clock⟩
      sourceMap :=
        match sourcePeer with
        | none => o.sourceMap
        | some peer => if peer ≠ "" then o.sourceMap.put blockHash peer else o.sourceMap
      parentMap :=
        let children := (o.parentMap.get? parentHash).getD []
        o.parentMap.put parentHash (if blockHash ∈ children then children else children ++ [blockHash]) }

/-- The children are kept in a set. -/
def getChildren (order : SetOrder) (blockHash : Bytes) : List Block :=
  (order.list ((o.parentMap.get? blockHash).getD [])).filterMap fun child =>
    (o.orphans.get? child).map OrphanBlock.block

def cleanupExpired (clock : ℚ) : Orphanage :=
  ((o.orphans.rows.filter fun r => o.maxAge < clock - r.2.receivedAt).map Prod.fst).foldl
    removeOrphan o

end Orphanage
end BerzCoin
