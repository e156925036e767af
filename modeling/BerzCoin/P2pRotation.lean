import BerzCoin.KeyedGroups
import BerzCoin.P2pPeerScoring

/-! Rotation of the outgoing connections. Now and then the worst peer that is not protected is
disconnected; the best peer of each network group is protected. -/
namespace BerzCoin

inductive OutboundClass
  | anchor
  | fullRelay
  | blockRelayOnly
  | feeler
  deriving DecidableEq

structure OutboundPolicy where
  minAnchorNetgroups : ℤ := 2
  rotationIntervalSecs : ℤ := 30

/-- A peer with its connection, which `disconnect` takes down first. -/
structure OutboundPeer extends ConnPeer where
  connected : Bool := true
  deriving DecidableEq

/-- What the connection manager holds of its outgoing connections. A peer is filed under its
address. -/
structure OutboundConnections where
  ip : IpLibrary
  maxOutbound : ℤ := 8
  minOutboundNetgroups : ℤ := 4
  networkHardening : Bool := false
  outboundPolicy : OutboundPolicy := {}
  peerScores : PeerScoringManager := {}
  lastRotationAt : ℚ := 0
  outboundPeers : KeyedRows String OutboundPeer := .empty
  outboundClasses : KeyedRows String OutboundClass := .empty
  filed : ∀ row ∈ outboundPeers.rows, row.1 = row.2.address

/-- The order of the pairs by which peers are rated. -/
def pairLt (a b : ℤ × ℚ) : Bool := a.1 < b.1 || (a.1 = b.1 && a.2 < b.2)

/-- `protected.add(address)` for one peer after the other, until there are enough. -/
def protectUntil (minimum : ℤ) : List OutboundPeer → Finset String → Finset String
  | [], kept => kept
  | peer :: peers, kept =>
    if minimum ≤ (insert peer.address kept).card then insert peer.address kept
    else protectUntil minimum peers (insert peer.address kept)

namespace OutboundConnections
variable (s : OutboundConnections)

def outbound : List OutboundPeer := s.outboundPeers.rows.map Prod.snd

def groupOf (peer : OutboundPeer) : String := s.ip.netgroupForAddress peer.address

def score (peer : OutboundPeer) : ℤ := (s.peerScores.getScore peer.address).score

/-- `max` by score and age, the first of equals. -/
def best (peers : List OutboundPeer) : Option OutboundPeer :=
  firstLeast (fun p q => pairLt (s.score q, q.connectedAt) (s.score p, p.connectedAt)) peers

/-- The peers of each group. -/
def grouped (peers : List OutboundPeer) : KeyedRows String (List OutboundPeer) :=
  KeyedRows.groupBy s.groupOf peers

def bestOfGroups : Finset String :=
  ((s.grouped s.outbound).rows.filterMap fun group =>
    (s.best group.2).map (·.address)).toFinset

def anchors : List OutboundPeer :=
  s.outbound.filter fun p => s.outboundClasses.get? p.address = some .anchor

/-- The loop over the groups of anchors: the best of each is protected, until enough groups are
kept. -/
def protectAnchors : List (List OutboundPeer) → ℤ → Finset String → Finset String
  | [], _, kept => kept
  | group :: groups, keptGroups, kept =>
    let kept := kept ∪ ((s.best group).map (·.address)).toFinset
    if s.outboundPolicy.minAnchorNetgroups ≤ keptGroups + 1 then kept
    else protectAnchors groups (keptGroups + 1) kept

/-- The best of the groups, and long-lived peers if these are few. -/
def bestAndOldest : Finset String :=
  if (s.bestOfGroups.card : ℤ) < s.minOutboundNetgroups then
    protectUntil s.minOutboundNetgroups
      (s.outbound.mergeSort fun p q => p.connectedAt ≤ q.connectedAt) s.bestOfGroups
  else s.bestOfGroups

/-- `_protected_outbound_addresses`. -/
def protectedOutboundAddresses : Finset String :=
  if s.networkHardening then
    s.protectAnchors (((s.grouped s.anchors).rows.mergeSort fun a b => a.1 ≤ b.1).map Prod.snd) 0
      s.bestAndOldest
  else s.bestAndOldest

/-- `_outbound_netgroup_counts`, with the default of a lookup. An empty group is not counted. -/
def outboundNetgroupCount (group : String) : ℕ :=
  if group = "" then 0 else s.outbound.countP (s.groupOf · = group)

/-- The order of the tuples in `_select_rotation_candidate`. -/
def candidateLt (now : ℚ) (p q : OutboundPeer) : Bool :=
  let key (p : OutboundPeer) :=
    (s.score p, -(now - p.connectedAt), -(s.outboundNetgroupCount (s.groupOf p) : ℤ))
  (key p).1 < (key q).1 || ((key p).1 = (key q).1 && ((key p).2.1 < (key q).2.1 ||
    ((key p).2.1 = (key q).2.1 && ((key p).2.2 < (key q).2.2 ||
      ((key p).2.2 = (key q).2.2 && p.address < q.address)))))

def selectRotationCandidate (now : ℚ) : Option OutboundPeer :=
  firstLeast (s.candidateLt now) (s.outbound.filter (·.address ∉ s.protectedOutboundAddresses))

/-- `_on_peer_disconnect`. -/
def onPeerDisconnect (address : String) : OutboundConnections :=
  { s with
    outboundPeers := s.outboundPeers.delete address
    outboundClasses := s.outboundClasses.delete address
    filed := fun row hrow => s.filed row (List.mem_of_mem_filter hrow) }

/-- The peer of an address is not connected any more, but it is still on the table. -/
def takeDown (address : String) : OutboundConnections :=
  { s with
    outboundPeers := s.outboundPeers.update address fun p => { p with connected := false }
    filed := by
      intro row hrow
      obtain ⟨old, hold, rfl⟩ := List.mem_map.1 hrow
      have hfiled := s.filed old hold
      split_ifs
      · exact hfiled
      · exact hfiled }

/-- `peer.disconnect()`. The handler is called for a peer that was connected, unless closing the
stream fails. -/
def disconnect (peer : OutboundPeer) (closes : Bool) : OutboundConnections :=
  if peer.connected && closes then (s.takeDown peer.address).onPeerDisconnect peer.address
  else s.takeDown peer.address

/-- `_maybe_rotate_outbound`. It reads the clock a second time for the candidate. -/
def maybeRotateOutbound (now later : ℚ) (closes : Bool) : OutboundConnections :=
  if now - s.lastRotationAt < s.outboundPolicy.rotationIntervalSecs then s
  else
    let s := { s with lastRotationAt := now }
    if (s.outboundPeers.rows.length : ℤ) < max 2 s.maxOutbound then s
    else
      match s.selectRotationCandidate later with
      | none => s
      | some candidate => s.disconnect candidate closes

/-- `_add_peer` for an outgoing connection. -/
def addPeer (peer : OutboundPeer) (klass : OutboundClass) : OutboundConnections :=
  { s with
    outboundPeers := s.outboundPeers.put peer.address peer
    outboundClasses := s.outboundClasses.put peer.address klass
    filed := by
      intro row hrow
      rw [KeyedRows.mem_rows_iff, KeyedRows.get?_put] at hrow
      split_ifs at hrow with hkey
      · rw [hkey, ← Option.some.inj hrow]
      · exact s.filed row (KeyedRows.mem_rows_of_get? hrow) }

/-- The distinct network groups of the outgoing connections. -/
def netgroups : Finset String := (s.outbound.map s.groupOf).toFinset

variable {s}

lemma mem_outbound {p : OutboundPeer} :
    p ∈ s.outbound ↔ s.outboundPeers.get? p.address = some p := by
  constructor
  · intro hp
    obtain ⟨row, hrow, rfl⟩ := List.mem_map.1 hp
    rw [← s.filed row hrow]
    exact KeyedRows.get?_of_mem_rows hrow
  · intro hp
    exact List.mem_map.2 ⟨_, KeyedRows.mem_rows_of_get? hp, rfl⟩

lemma mem_netgroups {group : String} :
    group ∈ s.netgroups ↔ ∃ p ∈ s.outbound, s.groupOf p = group := by
  rw [netgroups, List.mem_toFinset, List.mem_map]

/-! The best peer of each group stays protected. -/

lemma subset_protectUntil (minimum : ℤ) (peers : List OutboundPeer) (kept : Finset String) :
    kept ⊆ protectUntil minimum peers kept := by
  induction peers generalizing kept with
  | nil => exact Finset.Subset.refl kept
  | cons peer peers ih =>
    have hinsert : kept ⊆ insert peer.address kept := Finset.subset_insert _ _
    rw [protectUntil]
    split_ifs
    · exact hinsert
    · exact hinsert.trans (ih _)

lemma subset_protectAnchors (groups : List (List OutboundPeer)) (keptGroups : ℤ)
    (kept : Finset String) : kept ⊆ s.protectAnchors groups keptGroups kept := by
  induction groups generalizing keptGroups kept with
  | nil => exact Finset.Subset.refl kept
  | cons group groups ih =>
    have hunion : kept ⊆ kept ∪ ((s.best group).map (·.address)).toFinset :=
      Finset.subset_union_left
    rw [protectAnchors]
    split_ifs
    · exact hunion
    · exact hunion.trans (ih _ _)

lemma bestOfGroups_subset : s.bestOfGroups ⊆ s.protectedOutboundAddresses := by
  have hkept : s.bestOfGroups ⊆ s.bestAndOldest := by
    unfold bestAndOldest
    split_ifs
    · exact subset_protectUntil _ _ _
    · exact Finset.Subset.refl _
  unfold protectedOutboundAddresses
  split_ifs
  · exact hkept.trans (subset_protectAnchors _ _ _)
  · exact hkept

/-- Each group has a peer among the best. -/
lemma exists_best {p : OutboundPeer} (hp : p ∈ s.outbound) :
    ∃ q ∈ s.outbound, s.groupOf q = s.groupOf p ∧ q.address ∈ s.bestOfGroups := by
  obtain ⟨group, hrow, hne, hgroup⟩ := KeyedRows.exists_group s.groupOf hp
  obtain ⟨q, hbest⟩ := exists_firstLeast
    (fun p q => pairLt (s.score q, q.connectedAt) (s.score p, p.connectedAt)) hne
  obtain ⟨hq, hsame⟩ := hgroup q (firstLeast_mem hbest)
  refine ⟨q, hq, hsame, ?_⟩
  rw [bestOfGroups, List.mem_toFinset, List.mem_filterMap]
  refine ⟨_, hrow, ?_⟩
  rw [best, hbest]
  rfl

/-- The candidate is not alone in its group. -/
lemma selectRotationCandidate_spec {now : ℚ} {candidate : OutboundPeer}
    (h : s.selectRotationCandidate now = some candidate) :
    candidate ∈ s.outbound ∧
      ∃ q ∈ s.outbound, q.address ≠ candidate.address ∧ s.groupOf q = s.groupOf candidate := by
  obtain ⟨hmem, hfree⟩ := List.mem_filter.1 (firstLeast_mem h)
  have hunprotected : candidate.address ∉ s.protectedOutboundAddresses := of_decide_eq_true hfree
  obtain ⟨q, hq, hgroup, hbest⟩ := exists_best hmem
  refine ⟨hmem, q, hq, ?_, hgroup⟩
  intro haddress
  exact hunprotected (bestOfGroups_subset (haddress ▸ hbest))

/-! What a disconnect leaves. -/

lemma get?_disconnect (peer : OutboundPeer) (closes : Bool) {address : String}
    (hne : address ≠ peer.address) :
    (s.disconnect peer closes).outboundPeers.get? address = s.outboundPeers.get? address := by
  unfold disconnect
  split_ifs
  · simp [onPeerDisconnect, takeDown, hne]
  · simp [takeDown, hne]

lemma mem_disconnect (peer : OutboundPeer) (closes : Bool) {q : OutboundPeer}
    (hne : q.address ≠ peer.address) :
    q ∈ (s.disconnect peer closes).outbound ↔ q ∈ s.outbound := by
  rw [mem_outbound, mem_outbound, get?_disconnect peer closes hne]

lemma disconnect_ip (peer : OutboundPeer) (closes : Bool) :
    (s.disconnect peer closes).ip = s.ip := by
  unfold disconnect
  split_ifs <;> rfl

/-- The addresses on the table are addresses from before. -/
lemma exists_of_mem_disconnect {peer : OutboundPeer} {closes : Bool} {q : OutboundPeer}
    (hq : q ∈ (s.disconnect peer closes).outbound) (hpeer : peer ∈ s.outbound) :
    ∃ p ∈ s.outbound, p.address = q.address := by
  by_cases hne : q.address = peer.address
  · exact ⟨peer, hpeer, hne.symm⟩
  · exact ⟨q, (mem_disconnect peer closes hne).1 hq, rfl⟩

/-- Either nothing changes on the table, or the candidate is disconnected. -/
lemma maybeRotateOutbound_cases (s : OutboundConnections) (now later : ℚ) (closes : Bool) :
    ∃ t : OutboundConnections, t.ip = s.ip ∧ t.outbound = s.outbound ∧
      (s.maybeRotateOutbound now later closes = t ∨
        ∃ candidate, t.selectRotationCandidate later = some candidate ∧
          s.maybeRotateOutbound now later closes = t.disconnect candidate closes) := by
  unfold maybeRotateOutbound
  split_ifs with hsoon
  · exact ⟨s, rfl, rfl, .inl rfl⟩
  · refine ⟨{ s with lastRotationAt := now }, rfl, rfl, ?_⟩
    dsimp only
    split_ifs
    · exact .inl rfl
    · cases hcandidate : selectRotationCandidate { s with lastRotationAt := now } later with
      | none => exact .inl rfl
      | some candidate => exact .inr ⟨candidate, rfl, rfl⟩

/-- Whoever leaves the table by a rotation, or loses its connection, leaves another peer of its
group there as it was. -/
lemma exists_companion (now later : ℚ) (closes : Bool) {p : OutboundPeer} (hp : p ∈ s.outbound)
    (hgone : p ∉ (s.maybeRotateOutbound now later closes).outbound) :
    ∃ q ∈ s.outbound, q ∈ (s.maybeRotateOutbound now later closes).outbound ∧
      q.address ≠ p.address ∧ s.groupOf q = s.groupOf p := by
  obtain ⟨t, hip, hsame, hafter | ⟨candidate, hcandidate, hafter⟩⟩ :=
    maybeRotateOutbound_cases s now later closes
  · rw [hafter, hsame] at hgone
    exact absurd hp hgone
  · rw [hafter] at hgone ⊢
    obtain ⟨-, q, hq, hne, hgroup⟩ := selectRotationCandidate_spec hcandidate
    have haddress : p.address = candidate.address := by
      by_contra hother
      rw [mem_disconnect candidate closes hother, hsame] at hgone
      exact hgone hp
    refine ⟨q, hsame ▸ hq, (mem_disconnect candidate closes hne).2 hq, by rwa [haddress], ?_⟩
    rw [groupOf, groupOf, hip] at hgroup
    rw [groupOf, groupOf, hgroup, haddress]

lemma maybeRotateOutbound_ip (now later : ℚ) (closes : Bool) :
    (s.maybeRotateOutbound now later closes).ip = s.ip := by
  obtain ⟨t, hip, -, hafter | ⟨candidate, -, hafter⟩⟩ :=
    maybeRotateOutbound_cases s now later closes
  · rw [hafter, hip]
  · rw [hafter, disconnect_ip, hip]

lemma netgroups_maybeRotateOutbound (s : OutboundConnections) (now later : ℚ) (closes : Bool) :
    (s.maybeRotateOutbound now later closes).netgroups = s.netgroups := by
  have hip := maybeRotateOutbound_ip (s := s) now later closes
  have hgroupOf (p : OutboundPeer) :
      (s.maybeRotateOutbound now later closes).groupOf p = s.groupOf p := by
    rw [groupOf, groupOf, hip]
  ext group
  rw [mem_netgroups, mem_netgroups]
  constructor
  · intro ⟨q, hq, hgroup⟩
    rw [hgroupOf] at hgroup
    obtain ⟨t, -, hsame, hafter | ⟨candidate, hcandidate, hafter⟩⟩ :=
      maybeRotateOutbound_cases s now later closes
    · rw [hafter, hsame] at hq
      exact ⟨q, hq, hgroup⟩
    · rw [hafter] at hq
      obtain ⟨p, hp, haddress⟩ :=
        exists_of_mem_disconnect hq (selectRotationCandidate_spec hcandidate).1
      exact ⟨p, hsame ▸ hp, by rw [← hgroup, groupOf, groupOf, haddress]⟩
  · intro ⟨p, hp, hgroup⟩
    by_cases hstays : p ∈ (s.maybeRotateOutbound now later closes).outbound
    · exact ⟨p, hstays, by rw [hgroupOf, hgroup]⟩
    · obtain ⟨q, -, hq, -, hsame⟩ := exists_companion now later closes hp hstays
      exact ⟨q, hq, by rw [hgroupOf, hsame, hgroup]⟩

/-- A rotation disconnects no peer that is alone in its network group, so the outgoing connections
are in as many groups after it as before. -/
theorem rotation_keeps_netgroups (s : OutboundConnections) (now later : ℚ) (closes : Bool) :
    (∀ p ∈ s.outbound, p ∉ (s.maybeRotateOutbound now later closes).outbound →
      ∃ q ∈ s.outbound, q ∈ (s.maybeRotateOutbound now later closes).outbound ∧
        q.address ≠ p.address ∧ s.groupOf q = s.groupOf p) ∧
    (s.maybeRotateOutbound now later closes).netgroups = s.netgroups ∧
    s.netgroups.card ≤ (s.maybeRotateOutbound now later closes).netgroups.card := by
  have hsame := netgroups_maybeRotateOutbound s now later closes
  refine ⟨?_, hsame, by rw [hsame]⟩
  intro p hp hgone
  exact exists_companion now later closes hp hgone

/-! Runs of rotations with peers that come in and ratings that change in between. -/

inductive Event
  | rotate (now later : ℚ) (closes : Bool)
  | arrive (peer : OutboundPeer) (klass : OutboundClass)
  | rate (peerScores : PeerScoringManager)

def apply : Event → OutboundConnections → OutboundConnections
  | .rotate now later closes, s => s.maybeRotateOutbound now later closes
  | .arrive peer klass, s => s.addPeer peer klass
  | .rate peerScores, s => { s with peerScores }

/-- A peer takes the place of one with its address, which is in its group. -/
lemma netgroups_subset_addPeer (s : OutboundConnections) (peer : OutboundPeer)
    (klass : OutboundClass) : s.netgroups ⊆ (s.addPeer peer klass).netgroups := by
  intro group hgroup
  obtain ⟨p, hp, rfl⟩ := mem_netgroups.1 hgroup
  rw [mem_netgroups]
  have hget (address : String) : (s.addPeer peer klass).outboundPeers.get? address =
      if address = peer.address then some peer else s.outboundPeers.get? address :=
    KeyedRows.get?_put _ _ _ _
  by_cases haddress : p.address = peer.address
  · refine ⟨peer, mem_outbound.2 ?_, ?_⟩
    · rw [hget, if_pos rfl]
    · rw [groupOf, groupOf, haddress]
      rfl
  · refine ⟨p, mem_outbound.2 ?_, rfl⟩
    rw [hget, if_neg haddress]
    exact mem_outbound.1 hp

lemma netgroups_subset_apply (event : Event) (s : OutboundConnections) :
    s.netgroups ⊆ (apply event s).netgroups := by
  cases event with
  | rotate now later closes =>
    exact (netgroups_maybeRotateOutbound s now later closes).symm.subset
  | arrive peer klass => exact netgroups_subset_addPeer s peer klass
  | rate peerScores => exact Finset.Subset.refl _

/-- No group is lost in any run. -/
theorem netgroups_of_run (events : List Event) (s : OutboundConnections) :
    OperationRuns.Along apply (fun t => s.netgroups ⊆ t.netgroups) events s :=
  OperationRuns.along_of_invariant (I := fun t => s.netgroups ⊆ t.netgroups)
    (fun t event h => h.trans (netgroups_subset_apply event t)) (Finset.Subset.refl _)

end OutboundConnections

/-! Two peers of one group and one of another. -/
namespace RotationExample

def bad : OutboundPeer :=
  { host := "2001:db8::1", port := 2001, isOutbound := true, connectedAt := 10 }

def good : OutboundPeer :=
  { host := "2001:db8::2", port := 2002, isOutbound := true, connectedAt := 20 }

def alone : OutboundPeer :=
  { host := "2001:db9::1", port := 2003, isOutbound := true, connectedAt := 30 }

/-- The groups of the three peers. -/
def ip : IpLibrary where
  ipAddress text :=
    if text = "2001:db8::1:2001" then some (.v6 0x20010db8000000000000000000012001)
    else if text = "2001:db8::2:2002" then some (.v6 0x20010db8000000000000000000022002)
    else if text = "2001:db9::1:2003" then some (.v6 0x20010db9000000000000000000012003)
    else none
  ipv6Text value :=
    if value = 0x20010db8000000000000000000000000 then "2001:db8::" else "2001:db9::"

def connections : OutboundConnections :=
  { ip
    maxOutbound := 3
    minOutboundNetgroups := 2
    peerScores :=
      { scores := ⟨[("2001:db8::1:2001", { address := "2001:db8::1:2001", score := -50 }),
          ("2001:db9::1:2003", { address := "2001:db9::1:2003", score := -55 })], by decide⟩ }
    outboundPeers := ⟨[("2001:db8::1:2001", bad), ("2001:db8::2:2002", good),
      ("2001:db9::1:2003", alone)], by decide⟩
    filed := by decide +kernel }

end RotationExample

open RotationExample in
/-- The worst peer of all is alone in its group, so another one has to go. -/
theorem OutboundConnections.rotation_keeps_netgroups_example :
    (connections.maybeRotateOutbound 100 100 true).outbound = [good, alone] ∧
      ∃ q ∈ connections.outbound, q ∈ (connections.maybeRotateOutbound 100 100 true).outbound ∧
        q.address ≠ bad.address ∧ connections.groupOf q = connections.groupOf bad := by
  have hafter : (connections.maybeRotateOutbound 100 100 true).outbound = [good, alone] := by
    decide +kernel
  refine ⟨hafter, (OutboundConnections.rotation_keeps_netgroups connections 100 100 true).1 bad
    (by decide +kernel) ?_⟩
  rw [hafter]
  decide +kernel

end BerzCoin
