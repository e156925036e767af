import BerzCoin.P2pOrphanageRuns

/-! The orphans where the blocks of a chain come before their parents. -/
namespace BerzCoin

namespace Orphanage
variable {H : Hashlib} {clock : ℚ} {o : Orphanage} {left : List Block} {a b block : Block}

/-- Each block names the one before it as its parent. -/
def Successive (H : Hashlib) (left : List Block) : Prop :=
  left.IsChain fun a b => b.header.prevBlockHash = a.header.hashHex H

/-- The orphans are blocks of a list whose first one is missing. They came at the same time, and
there is room for all of them. -/
structure Waits (H : Hashlib) (clock : ℚ) (left : List Block) (o : Orphanage) : Prop where
  maps : o.Consistent
  room : left.length ≤ o.maxOrphans
  roomForPeer : left.length ≤ o.maxOrphansPerPeer
  age : 0 ≤ o.maxAge
  early : ∀ k x, o.orphans.get? k = some x →
    x.block ∈ left.tail ∧ x.block.header.hashHex H = k ∧ x.receivedAt = clock

/-- The list goes on, and the parent of a block that is not the first. -/
lemma Successive.parent (h : Successive H left) (hblock : block ∈ left.tail) :
    ∃ a ∈ left, block.header.prevBlockHash = a.header.hashHex H := by
  induction left with
  | nil => cases hblock
  | cons a rest ih =>
    cases rest with
    | nil => cases hblock
    | cons b rest =>
      obtain ⟨hab, hrest⟩ := List.isChain_cons_cons.1 h
      rcases List.mem_cons.1 hblock with rfl | hblock
      · exact ⟨a, by simp, hab⟩
      · obtain ⟨c, hc, hprev⟩ := ih hrest hblock
        exact ⟨c, List.mem_cons_of_mem _ hc, hprev⟩

/-- Nothing is older than the age that is allowed. -/
lemma Waits.cleanupExpired (h : Waits H clock left o) : o.cleanupExpired clock = o := by
  have hnone : (o.orphans.rows.filter fun r => o.maxAge < clock - r.2.receivedAt) = [] := by
    rw [List.filter_eq_nil_iff]
    intro r hr
    have hrow := (h.early r.1 r.2 (KeyedRows.get?_of_mem_rows hr)).2.2
    rw [hrow, sub_self, decide_eq_true_eq, not_lt]
    exact h.age
  rw [Orphanage.cleanupExpired, hnone]
  rfl

/-- A block that is missing still leaves a place free. -/
lemma Waits.rows_lt (h : Waits H clock left o) (hblock : block ∈ left.tail) :
    o.orphans.rows.length < left.length := by
  have hkeys : o.orphans.rows.map Prod.fst ⊆ left.tail.map fun b => b.header.hashHex H := by
    intro k hk
    obtain ⟨r, hr, rfl⟩ := List.mem_map.1 hk
    obtain ⟨hmem, hhash, -⟩ := h.early r.1 r.2 (KeyedRows.get?_of_mem_rows hr)
    exact List.mem_map.2 ⟨r.2.block, hmem, hhash⟩
  have hle := (o.orphans.nodupKeys.subperm hkeys).length_le
  have hpos : 0 < left.tail.length := List.length_pos_of_mem hblock
  rw [List.length_map, List.length_map, List.length_tail] at hle
  rw [List.length_tail] at hpos
  omega

lemma Waits.makeRoom (h : Waits H clock left o) (hblock : block ∈ left.tail)
    (sourcePeer : Option String) : o.makeRoom sourcePeer = o := by
  have hlt := h.rows_lt hblock
  have hroom := h.room
  have hroomForPeer := h.roomForPeer
  have hpeer : o.roomForPeer sourcePeer = o := by
    cases sourcePeer with
    | none => rfl
    | some peer =>
      have hle : (o.fromSource peer).length ≤ o.orphans.rows.length := List.length_filter_le _ _
      exact if_neg (by omega)
  rw [makeRoom_eq, hpeer, if_neg (by omega)]

/-- A block that comes too early joins the orphans. -/
lemma Waits.addOrphan (h : Waits H clock left o) (hblock : block ∈ left.tail)
    (sourcePeer : Option String) :
    Waits H clock left (o.addOrphan H clock block sourcePeer) ∧
      ∀ k, (o.addOrphan H clock block sourcePeer).orphans.contains k = true ↔
        k = block.header.hashHex H ∨ o.orphans.contains k = true := by
  rw [addOrphan_eq]
  split_ifs with hthere
  · refine ⟨h, ?_⟩
    intro k
    refine ⟨.inr, ?_⟩
    rintro (rfl | hk)
    · exact hthere
    · exact hk
  · have hnew : o.orphans.get? (block.header.hashHex H) = none := by
      simpa [KeyedRows.contains] using hthere
    have hlt := h.rows_lt hblock
    have hroom := h.room
    have hroomForPeer := h.roomForPeer
    rw [h.makeRoom hblock sourcePeer]
    constructor
    · refine ⟨h.maps.store H hnew (by omega) ?_, h.room, h.roomForPeer, h.age, ?_⟩
      · intro peer _ _
        have hle : (o.fromSource peer).length ≤ o.orphans.rows.length := List.length_filter_le _ _
        omega
      · intro k x hx
        rw [get?_store] at hx
        split_ifs at hx with hk
        · cases hx
          exact ⟨hblock, hk.symm, rfl⟩
        · exact h.early k x hx
    · intro k
      simp only [KeyedRows.contains, get?_store]
      split_ifs with hk <;> simp [hk]

lemma limits_removeOrphan_age (child : Bytes) : (o.removeOrphan child).maxAge = o.maxAge := by
  unfold removeOrphan
  split <;> rfl

/-- The first block of what is left has come, and its child is taken out. -/
lemma Waits.next (h : Waits H clock (a :: b :: left) o) :
    Waits H clock (b :: left) (o.removeOrphan (b.header.hashHex H)) where
  maps := h.maps.removeOrphan _
  room := by
    have hroom := h.room
    rw [limits_removeOrphan.1]
    simp only [List.length_cons] at hroom ⊢
    omega
  roomForPeer := by
    have hroom := h.roomForPeer
    rw [limits_removeOrphan.2]
    simp only [List.length_cons] at hroom ⊢
    omega
  age := by
    rw [limits_removeOrphan_age]
    exact h.age
  early := by
    intro k x hx
    rw [orphans_removeOrphan, KeyedRows.get?_delete] at hx
    split_ifs at hx with hk
    obtain ⟨hmem, hhash, hat⟩ := h.early k x hx
    rcases List.mem_cons.1 hmem with heq | hmem
    · exact absurd (by rw [← heq, hhash]) hk
    · exact ⟨hmem, hhash, hat⟩

/-- The first block of what is left has come, and its child has not. -/
lemma Waits.stop (h : Waits H clock (a :: left) o)
    (hnext : ∀ b, left.head? = some b → o.orphans.contains (b.header.hashHex H) = false) :
    Waits H clock left o where
  maps := h.maps
  room := by
    have hroom := h.room
    rw [List.length_cons] at hroom
    omega
  roomForPeer := by
    have hroom := h.roomForPeer
    rw [List.length_cons] at hroom
    omega
  age := h.age
  early := by
    intro k x hx
    obtain ⟨hmem, hhash, hat⟩ := h.early k x hx
    refine ⟨?_, hhash, hat⟩
    cases left with
    | nil => cases hmem
    | cons b rest =>
      rcases List.mem_cons.1 hmem with heq | hmem
      · have hcontra := hnext b rfl
        rw [← heq, hhash] at hcontra
        simp [KeyedRows.contains, hx] at hcontra
      · exact hmem

/-- Only blocks of the list have orphans waiting for them. -/
lemma Waits.getChildren_other (h : Waits H clock left o) (hlinked : Successive H left) {k : Bytes}
    (hk : k ∉ left.map fun b => b.header.hashHex H) (order : SetOrder) :
    o.getChildren order k = [] := by
  have hnone : o.childHashes k = [] := by
    rw [List.eq_nil_iff_forall_not_mem]
    intro child hchild
    obtain ⟨x, hx, hprev⟩ := (h.maps.inverse k child).1 hchild
    obtain ⟨c, hc, hparent⟩ := hlinked.parent (h.early child x hx).1
    exact hk (List.mem_map.2 ⟨c, hc, by rw [← hparent, hprev]⟩)
  rw [childHashes] at hnone
  rw [getChildren, hnone, order.list_nil]
  rfl

/-- What waits for the first block is the second one. -/
lemma Waits.getChildren_first (h : Waits H clock (a :: b :: left) o)
    (hlinked : Successive H (a :: b :: left))
    (hnodup : ((a :: b :: left).map fun c => c.header.hashHex H).Nodup) (order : SetOrder) :
    o.getChildren order (a.header.hashHex H) =
      if o.orphans.contains (b.header.hashHex H) then [b] else [] := by
  have hlinked' := (List.isChain_cons_cons.1 hlinked).2
  have hall : ∀ child ∈ o.childHashes (a.header.hashHex H), child = b.header.hashHex H := by
    intro child hchild
    obtain ⟨x, hx, hprev⟩ := (h.maps.inverse _ child).1 hchild
    obtain ⟨hmem, hhash, -⟩ := h.early child x hx
    rcases List.mem_cons.1 hmem with heq | hmem
    · rw [← hhash, heq]
    · obtain ⟨c, hc, hparent⟩ := Successive.parent hlinked' hmem
      have hsame : c.header.hashHex H = a.header.hashHex H := by rw [← hparent, hprev]
      exact absurd (List.mem_map.2 ⟨c, hc, hsame⟩) (List.nodup_cons.1 hnodup).1
  cases hb : o.orphans.get? (b.header.hashHex H) with
  | none =>
    have hnone : o.childHashes (a.header.hashHex H) = [] := by
      rw [List.eq_nil_iff_forall_not_mem]
      intro child hchild
      obtain ⟨x, hx, -⟩ := (h.maps.inverse _ child).1 hchild
      rw [hall child hchild, hb] at hx
      cases hx
    rw [childHashes] at hnone
    rw [getChildren, hnone, order.list_nil, if_neg (by simp [KeyedRows.contains, hb])]
    rfl
  | some x =>
    obtain ⟨hmem, hhash, -⟩ := h.early _ x hb
    have hx : x.block = b := by
      rcases List.mem_cons.1 hmem with heq | hmem
      · exact heq
      · have hnot := (List.nodup_cons.1 (List.nodup_cons.1 hnodup).2).1
        exact absurd (List.mem_map.2 ⟨x.block, hmem, hhash⟩) hnot
    have hprev : b.header.prevBlockHash = a.header.hashHex H := (List.isChain_cons_cons.1 hlinked).1
    have hin : b.header.hashHex H ∈ o.childHashes (a.header.hashHex H) :=
      (h.maps.inverse _ _).2 ⟨x, hb, by rw [hx, hprev]⟩
    have hone : o.childHashes (a.header.hashHex H) = [b.header.hashHex H] :=
      List.perm_singleton.1 ((List.perm_ext_iff_of_nodup (h.maps.nodup _) (List.nodup_singleton _)).2
        fun child => ⟨fun hc => List.mem_singleton.2 (hall child hc),
          fun hc => by rw [List.mem_singleton.1 hc]; exact hin⟩)
    rw [childHashes] at hone
    rw [getChildren, hone, order.list_singleton, if_pos (by simp [KeyedRows.contains, hb])]
    simp [hb, hx]

end Orphanage

end BerzCoin
