import BerzCoin.P2pAuthority

/-! Accepted connections. A coroutine checks the limits, waits for the handshake of its peer, and then
registers the peer; other coroutines run while it waits. -/
namespace BerzCoin

/-- What `ipaddress.ip_address` makes of a text. -/
inductive IpAddress
  | v4
  | v6 (value : ℕ)

/-- `ipaddress`, with the text of an address of 128 bits. -/
structure IpLibrary where
  ipAddress : String → Option IpAddress
  ipv6Text : ℕ → String

/-- The host in `_split_host_port`. -/
def splitHost (address : String) : String :=
  let raw := strip address
  let chars := raw.toList
  if chars.head? = some '[' ∧ ']' ∈ chars then String.ofList (chars.tail.takeWhile (· ≠ ']'))
  else if 1 < chars.count ':' then raw
  else if ':' ∈ chars then String.ofList (chars.takeWhile (· ≠ ':'))
  else raw

/-- `_netgroup_for_address`. -/
def IpLibrary.netgroupForAddress (ip : IpLibrary) (address : String) : String :=
  let host := splitHost address
  match ip.ipAddress host with
  | none => host
  | some .v4 => String.ofList (List.intercalate ['.'] ((host.toList.splitOn '.').take 2))
  | some (.v6 value) => ip.ipv6Text (value >>> 64 <<< 64)

/-- A peer with the time since which it is connected. -/
structure ConnPeer where
  host : String
  port : ℕ
  isOutbound : Bool := false
  connectedAt : ℚ := 0
  deriving DecidableEq

def ConnPeer.address (p : ConnPeer) : String := p.host ++ ":" ++ toString p.port

/-- What the authority chain and the scores of the peers say at a step. -/
structure PeerRatings where
  canAccept : Bool := true
  shouldConnect : Bool := true
  score : String → ℤ := fun _ => 0

/-- A coroutine between its checks and its end. -/
inductive Accepting
  | evicting (newcomer worst : ConnPeer)
  | handshake (peer : ConnPeer)
  deriving DecidableEq

structure InboundServer where
  ip : IpLibrary
  maxConnections : ℕ
  maxInboundPerIp : ℕ := 8
  maxInboundPerNetgroup : ℕ := 16
  peers : KeyedRows String ConnPeer := KeyedRows.empty
  inboundPeers : KeyedRows String ConnPeer := KeyedRows.empty
  accepting : KeyedRows ℕ Accepting := KeyedRows.empty

/-- The order of tuples. -/
def tripleLt (a b : ℤ × ℤ × ℚ) : Bool :=
  a.1 < b.1 || (a.1 = b.1 && (a.2.1 < b.2.1 || (a.2.1 = b.2.1 && a.2.2 < b.2.2)))

/-- `min` with a key. -/
def firstLeast {α : Type} (lt : α → α → Bool) : List α → Option α
  | [] => none
  | p :: ps => some (ps.foldl (fun best q => if lt q best then q else best) p)

lemma firstLeast_mem {α : Type} {lt : α → α → Bool} {l : List α} {a : α}
    (h : firstLeast lt l = some a) : a ∈ l := by
  cases l with
  | nil => cases h
  | cons p ps =>
    cases h
    exact KeyedRows.foldl_better_mem (fun q best => lt q best = true) p ps

lemma exists_firstLeast {α : Type} (lt : α → α → Bool) {l : List α} (hne : l ≠ []) :
    ∃ a, firstLeast lt l = some a := by
  cases l with
  | nil => exact absurd rfl hne
  | cons p ps => exact ⟨_, rfl⟩

namespace InboundServer
variable (s : InboundServer)

def inbound : List ConnPeer := s.inboundPeers.rows.map Prod.snd

def inboundFromIp (host : String) : ℕ := s.inbound.countP (·.host = host)

def inboundSameGroup (group : String) : ℕ :=
  s.inbound.countP fun p => s.ip.netgroupForAddress p.address = group

/-- `_evict_worst_inbound_for` up to the disconnect: the peer that has to go. -/
def evictWorstInboundFor (newAddr : String) (score : String → ℤ) : Option ConnPeer :=
  let groupOf (p : ConnPeer) := s.ip.netgroupForAddress p.address
  let newGroup := s.ip.netgroupForAddress newAddr
  let isNewGroup : Bool := newGroup ≠ "" && s.inboundSameGroup newGroup = 0
  let redundant := s.inbound.filter fun p => 1 < s.inboundSameGroup (groupOf p)
  let pool := if redundant = [] then s.inbound else redundant
  let key (p : ConnPeer) := (-(s.inboundSameGroup (groupOf p) : ℤ), score p.address, p.connectedAt)
  (firstLeast (fun p q => tripleLt (key p) (key q)) pool).filter fun worst =>
    isNewGroup || score worst.address < score newAddr || score worst.address < 0

/-- The checks of `accept_connection` before the handshake. -/
def passes (newcomer : ConnPeer) (ratings : PeerRatings) : Bool :=
  let group := s.ip.netgroupForAddress newcomer.address
  ratings.canAccept && ratings.shouldConnect && s.inboundFromIp newcomer.host < s.maxInboundPerIp &&
    (group = "" || s.inboundSameGroup group < s.maxInboundPerNetgroup) &&
    !s.peers.contains newcomer.address

/-- From the checks to the handshake. -/
def enter (id : ℕ) (newcomer : ConnPeer) (ratings : PeerRatings) : InboundServer :=
  if s.passes newcomer ratings then { s with accepting := s.accepting.put id (.handshake newcomer) }
  else s

def isFull : Bool := s.maxConnections ≤ s.peers.rows.length

/-- `_on_peer_disconnect`. -/
def onPeerDisconnect (address : String) : InboundServer :=
  { s with peers := s.peers.delete address, inboundPeers := s.inboundPeers.delete address }

/-- `_add_peer` for a peer that came in. -/
def addPeer (peer : ConnPeer) : InboundServer :=
  { s with
    peers := s.peers.put peer.address peer
    inboundPeers := s.inboundPeers.put peer.address peer }

def forget (id : ℕ) : InboundServer := { s with accepting := s.accepting.delete id }

inductive Action
  | accept (id : ℕ) (peername : Option (String × ℕ)) (ratings : PeerRatings)
  /-- The disconnect of the evicted peer is over; it takes the peer off the tables unless another
  disconnect of it was under way. -/
  | evicted (id : ℕ) (newcomer worst : ConnPeer) (wasConnected : Bool) (ratings : PeerRatings)
  | evictionFailed (id : ℕ)
  | handshaken (id : ℕ) (peer : ConnPeer) (now : ℚ)
  | handshakeFailed (id : ℕ)
  | closed (address : String)

/-- The server after the eviction. -/
def afterEviction (id : ℕ) (worst : ConnPeer) (wasConnected : Bool) : InboundServer :=
  if wasConnected then (s.forget id).onPeerDisconnect worst.address else s.forget id

def apply : Action → InboundServer
  | .accept id peername ratings =>
    match peername with
    | none => s
    | some (host, port) =>
      let newcomer : ConnPeer := { host, port }
      if s.isFull then
        match s.evictWorstInboundFor newcomer.address ratings.score with
        | none => s
        | some worst => { s with accepting := s.accepting.put id (.evicting newcomer worst) }
      else s.enter id newcomer ratings
  | .evicted id newcomer worst wasConnected ratings =>
    (s.afterEviction id worst wasConnected).enter id newcomer ratings
  | .evictionFailed id => s.forget id
  | .handshaken id peer now => (s.forget id).addPeer { peer with connectedAt := now }
  | .handshakeFailed id => s.forget id
  | .closed address => s.onPeerDisconnect address

/-- The coroutine is where the action takes it on. -/
def Possible : Action → Prop
  | .accept id _ _ => s.accepting.get? id = none
  | .evicted id newcomer worst _ _ => s.accepting.get? id = some (.evicting newcomer worst)
  | .evictionFailed id => ∃ newcomer worst, s.accepting.get? id = some (.evicting newcomer worst)
  | .handshaken id peer _ => s.accepting.get? id = some (.handshake peer)
  | .handshakeFailed id => ∃ peer, s.accepting.get? id = some (.handshake peer)
  | .closed _ => True

/-- Any order of the steps of the coroutines and of closing connections. -/
inductive Run (allowed : InboundServer → Action → Prop) (start : InboundServer) :
    InboundServer → Prop
  | start : Run allowed start start
  | step {s : InboundServer} (a : Action) : Run allowed start s → s.Possible a → allowed s a →
      Run allowed start (s.apply a)

structure WithinLimits : Prop where
  connections : s.peers.rows.length ≤ s.maxConnections
  perIp : ∀ host, s.inboundFromIp host ≤ s.maxInboundPerIp
  perNetgroup : ∀ group, group ≠ "" → s.inboundSameGroup group ≤ s.maxInboundPerNetgroup

/-- The peers in handshake. -/
def shaking : List ConnPeer :=
  s.accepting.rows.filterMap fun r =>
    match r.2 with
    | .evicting _ _ => none
    | .handshake peer => some peer

/-- The newcomer has room under each limit, the peers in handshake counted in. -/
structure RoomFor (newcomer : ConnPeer) : Prop where
  connections : s.peers.rows.length + s.shaking.length < s.maxConnections
  perIp : s.inboundFromIp newcomer.host + s.shaking.countP (·.host = newcomer.host) <
    s.maxInboundPerIp
  perNetgroup : s.ip.netgroupForAddress newcomer.address ≠ "" →
    s.inboundSameGroup (s.ip.netgroupForAddress newcomer.address) + s.shaking.countP
      (fun p => s.ip.netgroupForAddress p.address = s.ip.netgroupForAddress newcomer.address) <
        s.maxInboundPerNetgroup

/-- Whoever passes the checks has room. -/
def Roomy : Action → Prop
  | .accept _ peername ratings => ∀ host port, peername = some (host, port) → s.isFull = false →
      s.passes { host, port } ratings = true → s.RoomFor { host, port }
  | .evicted id newcomer worst wasConnected ratings =>
    (s.afterEviction id worst wasConnected).passes newcomer ratings = true →
      (s.afterEviction id worst wasConnected).RoomFor newcomer
  | .evictionFailed _ => True
  | .handshaken _ _ _ => True
  | .handshakeFailed _ => True
  | .closed _ => True

/-! The peers in handshake are counted as if they were registered. -/

/-- The weight of a coroutine is that of the peer it shakes hands with. -/
def handshakeWeight (f : ConnPeer → ℕ) : Accepting → ℕ
  | .evicting _ _ => 0
  | .handshake peer => f peer

/-- The registered peers and those in handshake weigh no more than the bound. -/
def Charged (f : ConnPeer → ℕ) (bound : ℕ) (table : KeyedRows String ConnPeer)
    (accepting : KeyedRows ℕ Accepting) : Prop :=
  table.sum f + accepting.sum (handshakeWeight f) ≤ bound

namespace Charged
variable {f : ConnPeer → ℕ} {bound : ℕ} {table : KeyedRows String ConnPeer}
variable {accepting : KeyedRows ℕ Accepting}

lemma enter (id : ℕ) {newcomer : ConnPeer}
    (h : table.sum f + accepting.sum (handshakeWeight f) + f newcomer ≤ bound) :
    Charged f bound table (accepting.put id (.handshake newcomer)) := by
  have hput := KeyedRows.sum_put_le accepting id (.handshake newcomer) (handshakeWeight f)
  have hweight : handshakeWeight f (.handshake newcomer) = f newcomer := rfl
  unfold Charged
  omega

lemma evict (h : Charged f bound table accepting) (id : ℕ) (newcomer worst : ConnPeer) :
    Charged f bound table (accepting.put id (.evicting newcomer worst)) := by
  have hput := KeyedRows.sum_put_le accepting id (.evicting newcomer worst) (handshakeWeight f)
  have hweight : handshakeWeight f (.evicting newcomer worst) = 0 := rfl
  unfold Charged at h ⊢
  omega

lemma delete (h : Charged f bound table accepting) (address : String) :
    Charged f bound (table.delete address) accepting := by
  have hle := KeyedRows.sum_delete_le table address f
  unfold Charged at h ⊢
  omega

lemma forget (h : Charged f bound table accepting) (id : ℕ) :
    Charged f bound table (accepting.delete id) := by
  have hle := KeyedRows.sum_delete_le accepting id (handshakeWeight f)
  unfold Charged at h ⊢
  omega

/-- A registered peer keeps the place of its handshake. -/
lemma register (h : Charged f bound table accepting) {id : ℕ} {peer : ConnPeer}
    (hid : accepting.get? id = some (.handshake peer)) (registered : ConnPeer)
    (hweight : f registered = f peer) (address : String) : Charged f bound (table.put address registered) (accepting.delete id) := by
  have hput := KeyedRows.sum_put_le table address registered f
  have hdelete := KeyedRows.sum_delete accepting id (handshakeWeight f)
  have hcolumn : accepting.columnAt (handshakeWeight f) id = f peer := by
    rw [KeyedRows.columnAt, hid]
    rfl
  unfold Charged at h ⊢
  omega

end Charged

lemma countP_eq_sum {K : Type} (t : KeyedRows K ConnPeer) (p : ConnPeer → Bool) :
    (t.rows.map Prod.snd).countP p = t.sum fun peer => (p peer).toNat := by
  unfold KeyedRows.sum
  generalize t.rows = rows
  induction rows with
  | nil => rfl
  | cons r rows ih =>
    rw [List.map_cons, List.countP_cons, ih, List.map_cons, List.sum_cons]
    cases hp : p r.2 with
    | false => simp [hp]
    | true => simp [hp, Nat.add_comm]

lemma shaking_countP (p : ConnPeer → Bool) :
    s.shaking.countP p = s.accepting.sum (handshakeWeight fun peer => (p peer).toNat) := by
  unfold shaking KeyedRows.sum
  generalize s.accepting.rows = rows
  induction rows with
  | nil => rfl
  | cons r rows ih =>
    obtain ⟨id, phase⟩ := r
    cases phase with
    | evicting newcomer worst => simpa [handshakeWeight] using ih
    | handshake peer =>
      simp only [List.filterMap_cons, List.countP_cons, ih, List.map_cons, List.sum_cons,
        handshakeWeight]
      cases hp : p peer with
      | false => simp
      | true => simp [Nat.add_comm]

structure Reserved : Prop where
  connections : Charged (fun _ => 1) s.maxConnections s.peers s.accepting
  perIp : ∀ host, Charged (fun p => (decide (p.host = host)).toNat) s.maxInboundPerIp
    s.inboundPeers s.accepting
  perNetgroup : ∀ group, group ≠ "" →
    Charged (fun p => (decide (s.ip.netgroupForAddress p.address = group)).toNat)
      s.maxInboundPerNetgroup s.inboundPeers s.accepting

variable {s}

lemma rows_length_eq_sum {K V : Type} (t : KeyedRows K V) : t.rows.length = t.sum fun _ => 1 := by
  simp [KeyedRows.sum]

lemma Reserved.withinLimits (h : s.Reserved) : s.WithinLimits := by
  refine ⟨?_, ?_, ?_⟩
  · have hconnections := h.connections
    rw [rows_length_eq_sum]
    unfold Charged at hconnections
    omega
  · intro host
    have hip := h.perIp host
    rw [inboundFromIp, inbound, countP_eq_sum]
    unfold Charged at hip
    omega
  · intro group hgroup
    have hnetgroup := h.perNetgroup group hgroup
    rw [inboundSameGroup, inbound, countP_eq_sum]
    unfold Charged at hnetgroup
    omega

lemma WithinLimits.reserved (h : s.WithinLimits) (hidle : s.accepting = KeyedRows.empty) :
    s.Reserved := by
  refine ⟨?_, ?_, ?_⟩
  · have hconnections := h.connections
    rw [rows_length_eq_sum] at hconnections
    rw [hidle, Charged, KeyedRows.sum_empty]
    omega
  · intro host
    have hip := h.perIp host
    rw [inboundFromIp, inbound, countP_eq_sum] at hip
    rw [hidle, Charged, KeyedRows.sum_empty]
    omega
  · intro group hgroup
    have hnetgroup := h.perNetgroup group hgroup
    rw [inboundSameGroup, inbound, countP_eq_sum] at hnetgroup
    rw [hidle, Charged, KeyedRows.sum_empty]
    omega

lemma Reserved.enter (h : s.Reserved) (id : ℕ) {newcomer : ConnPeer} {ratings : PeerRatings}
    (hroom : s.passes newcomer ratings = true → s.RoomFor newcomer) :
    (s.enter id newcomer ratings).Reserved := by
  unfold InboundServer.enter
  split_ifs with hpasses
  · obtain ⟨hconnections, hip, hnetgroup⟩ := hroom hpasses
    refine ⟨?_, ?_, ?_⟩
    · apply Charged.enter
      have hall := s.shaking_countP fun _ => true
      rw [List.countP_true] at hall
      rw [rows_length_eq_sum, hall] at hconnections
      exact hconnections
    · intro host
      apply Charged.enter
      by_cases hhost : newcomer.host = host
      · subst hhost
        rw [inboundFromIp, inbound, countP_eq_sum, shaking_countP] at hip
        simpa using hip
      · have hsame := h.perIp host
        simp only [hhost, decide_false, Bool.toNat_false, Nat.add_zero]
        exact hsame
    · intro group hgroup
      apply Charged.enter
      by_cases hsame : s.ip.netgroupForAddress newcomer.address = group
      · subst hsame
        have hroom := hnetgroup hgroup
        rw [inboundSameGroup, inbound, countP_eq_sum, shaking_countP] at hroom
        simpa using hroom
      · have hother := h.perNetgroup group hgroup
        simp only [hsame, decide_false, Bool.toNat_false, Nat.add_zero]
        exact hother
  · exact h

lemma Reserved.forget (h : s.Reserved) (id : ℕ) : (s.forget id).Reserved :=
  ⟨h.connections.forget id, fun host => (h.perIp host).forget id,
    fun group hgroup => (h.perNetgroup group hgroup).forget id⟩

lemma Reserved.onPeerDisconnect (h : s.Reserved) (address : String) :
    (s.onPeerDisconnect address).Reserved :=
  ⟨h.connections.delete address, fun host => (h.perIp host).delete address,
    fun group hgroup => (h.perNetgroup group hgroup).delete address⟩

lemma Reserved.afterEviction (h : s.Reserved) (id : ℕ) (worst : ConnPeer) (wasConnected : Bool) :
    (s.afterEviction id worst wasConnected).Reserved := by
  unfold InboundServer.afterEviction
  split_ifs
  · exact (h.forget id).onPeerDisconnect worst.address
  · exact h.forget id

lemma Reserved.handshaken (h : s.Reserved) {id : ℕ} {peer : ConnPeer}
    (hid : s.accepting.get? id = some (.handshake peer)) (now : ℚ) :
    ((s.forget id).addPeer { peer with connectedAt := now }).Reserved :=
  ⟨h.connections.register hid { peer with connectedAt := now } rfl _,
    fun host => (h.perIp host).register hid { peer with connectedAt := now } rfl _,
    fun group hgroup =>
      (h.perNetgroup group hgroup).register hid { peer with connectedAt := now } rfl _⟩

/-- The step lemma. -/
lemma Reserved.apply (h : s.Reserved) {a : Action} (hpossible : s.Possible a) (hroomy : s.Roomy a) :
    (s.apply a).Reserved := by
  cases a with
  | accept id peername ratings =>
    cases peername with
    | none => exact h
    | some name =>
      obtain ⟨host, port⟩ := name
      simp only [InboundServer.apply]
      split_ifs with hfull
      · split
        · exact h
        · exact ⟨h.connections.evict .., fun ip => (h.perIp ip).evict ..,
            fun group hgroup => (h.perNetgroup group hgroup).evict ..⟩
      · exact h.enter id (hroomy host port rfl (by simpa using hfull))
  | evicted id newcomer worst wasConnected ratings =>
    exact (h.afterEviction id worst wasConnected).enter id hroomy
  | evictionFailed id => exact h.forget id
  | handshaken id peer now => exact h.handshaken hpossible now
  | handshakeFailed id => exact h.forget id
  | closed address => exact h.onPeerDisconnect address

/-- If each connection that passes the checks has room beside those in handshake, the limits hold in
every state, in whatever order the coroutines go on. -/
theorem withinLimits_of_run {start : InboundServer} (hstart : start.WithinLimits)
    (hidle : start.accepting = KeyedRows.empty) (hrun : Run Roomy start s) : s.WithinLimits := by
  have hreserved : s.Reserved := by
    induction hrun with
    | start => exact hstart.reserved hidle
    | step a _ hpossible hroomy ih => exact ih.apply hpossible hroomy
  exact hreserved.withinLimits

instance (s : InboundServer) (newcomer : ConnPeer) : Decidable (s.RoomFor newcomer) :=
  decidable_of_iff
    (s.peers.rows.length + s.shaking.length < s.maxConnections ∧
      s.inboundFromIp newcomer.host + s.shaking.countP (·.host = newcomer.host) < s.maxInboundPerIp ∧
      (s.ip.netgroupForAddress newcomer.address ≠ "" →
        s.inboundSameGroup (s.ip.netgroupForAddress newcomer.address) + s.shaking.countP
          (fun p => s.ip.netgroupForAddress p.address = s.ip.netgroupForAddress newcomer.address) <
            s.maxInboundPerNetgroup))
    ⟨fun h => ⟨h.1, h.2.1, h.2.2⟩, fun h => ⟨h.connections, h.perIp, h.perNetgroup⟩⟩

/-! Three connections at a node that takes two, and two at a node that takes one. -/
namespace InboundExample

def ip : IpLibrary where
  ipAddress _ := some .v4
  ipv6Text _ := "::"

def server : InboundServer := { ip, maxConnections := 1 }

def firstPeer : ConnPeer := { host := "198.51.100.7", port := 40000 }

def secondPeer : ConnPeer := { host := "203.0.113.9", port := 40001 }

def thirdPeer : ConnPeer := { host := "192.0.2.33", port := 40002 }

def acceptFrom (id : ℕ) (peer : ConnPeer) : Action := .accept id (some (peer.host, peer.port)) {}

def oneShaking : InboundServer := server.apply (acceptFrom 1 firstPeer)

/-- Both passed the checks before either was registered. -/
def bothShaking : InboundServer := oneShaking.apply (acceptFrom 2 secondPeer)

def both : InboundServer :=
  (bothShaking.apply (.handshaken 1 firstPeer 10)).apply (.handshaken 2 secondPeer 11)

def roomyServer : InboundServer := { ip, maxConnections := 2 }

/-- The handshakes of two peers overlap, and the third peer takes the place of one of them. -/
def actions : List Action :=
  [acceptFrom 1 firstPeer, acceptFrom 2 secondPeer, .handshaken 2 secondPeer 11,
    .handshaken 1 firstPeer 12, acceptFrom 3 thirdPeer,
    .evicted 3 thirdPeer { secondPeer with connectedAt := 11 } true {}, .handshaken 3 thirdPeer 13]

def upTo (n : ℕ) : InboundServer := (actions.take n).foldl apply roomyServer

lemma roomy_acceptFrom {s : InboundServer} {peer : ConnPeer} (id : ℕ)
    (h : s.RoomFor { host := peer.host, port := peer.port }) : Roomy s (acceptFrom id peer) := by
  intro host port hname _ _
  cases hname
  exact h

lemma empty_withinLimits {maxConnections : ℕ} :
    InboundServer.WithinLimits { ip, maxConnections } :=
  ⟨Nat.zero_le _, fun _ => Nat.zero_le _, fun _ _ => Nat.zero_le _⟩

end InboundExample

open InboundExample in
theorem withinLimits_of_run_three : (upTo 7).WithinLimits ∧ (upTo 7).peers.rows.length = 2 := by
  have h1 : Run Roomy roomyServer (upTo 1) :=
    Run.start.step (acceptFrom 1 firstPeer) rfl (roomy_acceptFrom 1 (by decide +kernel))
  have h2 : Run Roomy roomyServer (upTo 2) :=
    h1.step (acceptFrom 2 secondPeer) (by decide +kernel : (upTo 1).accepting.get? 2 = none)
      (roomy_acceptFrom 2 (by decide +kernel))
  have h3 : Run Roomy roomyServer (upTo 3) :=
    h2.step (.handshaken 2 secondPeer 11) (by decide +kernel : (upTo 2).accepting.get? 2 = _) trivial
  have h4 : Run Roomy roomyServer (upTo 4) :=
    h3.step (.handshaken 1 firstPeer 12) (by decide +kernel : (upTo 3).accepting.get? 1 = _) trivial
  have h5 : Run Roomy roomyServer (upTo 5) :=
    h4.step (acceptFrom 3 thirdPeer) (by decide +kernel : (upTo 4).accepting.get? 3 = none) <| by
      intro host port _ hfull _
      have hfour : (upTo 4).isFull = true := by decide +kernel
      rw [hfour] at hfull
      cases hfull
  have h6 : Run Roomy roomyServer (upTo 6) :=
    h5.step (.evicted 3 thirdPeer { secondPeer with connectedAt := 11 } true {})
      (by decide +kernel : (upTo 5).accepting.get? 3 = _) fun _ => by decide +kernel
  have h7 : Run Roomy roomyServer (upTo 7) :=
    h6.step (.handshaken 3 thirdPeer 13) (by decide +kernel : (upTo 6).accepting.get? 3 = _) trivial
  exact ⟨withinLimits_of_run empty_withinLimits rfl h7, by decide +kernel⟩

open InboundExample in
/-- Both connections end up registered, with one allowed. -/
theorem limits_exceeded_by_two :
    Run (fun _ _ => True) server both ∧ server.WithinLimits ∧ server.accepting = KeyedRows.empty ∧
      ¬ both.WithinLimits := by
  refine ⟨?_, ?_, rfl, ?_⟩
  · have hfirst : Run (fun _ _ => True) server oneShaking :=
      Run.start.step (acceptFrom 1 firstPeer) rfl trivial
    have hsecond : Run (fun _ _ => True) server bothShaking :=
      hfirst.step (acceptFrom 2 secondPeer) (by decide +kernel : oneShaking.accepting.get? 2 = none)
        trivial
    have hregistered : Run (fun _ _ => True) server (bothShaking.apply (.handshaken 1 firstPeer 10)) :=
      hsecond.step _ (by decide +kernel : bothShaking.accepting.get? 1 = _) trivial
    have hlast : (bothShaking.apply (.handshaken 1 firstPeer 10)).accepting.get? 2 =
        some (.handshake secondPeer) := by
      decide +kernel
    exact hregistered.step (.handshaken 2 secondPeer 11) hlast trivial
  · exact empty_withinLimits
  · intro hlimits
    exact absurd hlimits.connections (by decide +kernel)

end InboundServer
end BerzCoin
