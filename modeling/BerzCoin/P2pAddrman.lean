import BerzCoin.OperationRuns
import BerzCoin.P2pCandidates

/-! `AddrMan`: the addresses that a node knows, and the ones that it tries next. Anchors are not
written to a file. `clock` is `time.time()`. -/
namespace BerzCoin

structure AddressInfo where
  address : String
  services : ℕ := 1
  lastSeen : ℕ := 0
  lastAttempt : ℕ := 0
  successCount : ℕ := 0
  failCount : ℕ := 0
  tried : Bool := false
  deriving DecidableEq, Repr

namespace AddressInfo
variable (info : AddressInfo)

def successRate : ℚ :=
  let total := info.successCount + info.failCount
  if total = 0 then 0 else (info.successCount : ℚ) / total

def shouldRetry (clock : ℚ) : Bool :=
  if info.failCount = 0 then true
  else
    let backoff := 60 * 2 ^ min (info.failCount - 1) 10
    (backoff : ℚ) ≤ clock - info.lastAttempt

end AddressInfo

structure AddrMan where
  maxAddresses : ℕ := 10000
  addresses : KeyedRows String AddressInfo := .empty
  newAddresses : Finset String := ∅
  triedAddresses : Finset String := ∅
  staticPeers : Finset String := ∅
  staticPeerPriority : KeyedRows String ℤ := .empty
  anchorPeers : Finset String := ∅

namespace AddrMan
variable (am : AddrMan)

/-- `min` by the time of the last sight; the first of equal ones. -/
def oldest : List AddressInfo → Option AddressInfo
  | [] => none
  | info :: rest => some (rest.foldl (fun best info => if info.lastSeen < best.lastSeen then info else best) info)

def evictOldest : AddrMan :=
  match oldest (am.addresses.rows.map Prod.snd) with
  | none => am
  | some info =>
    { am with
      newAddresses := am.newAddresses.erase info.address
      triedAddresses := am.triedAddresses.erase info.address
      addresses := am.addresses.delete info.address }

def add (clock : ℚ) (address : String) (services : ℕ) : AddrMan :=
  if am.addresses.contains address then
    { am with
      addresses := am.addresses.update address fun info =>
        { info with lastSeen := ⌊clock⌋₊, services := info.services ||| services } }
  else
    let am := if am.maxAddresses ≤ am.addresses.rows.length then am.evictOldest else am
    { am with
      addresses := am.addresses.put address { address, services, lastSeen := ⌊clock⌋₊ }
      newAddresses := insert address am.newAddresses }

def addStaticPeer (clock : ℚ) (address : String) (priority : ℤ) : AddrMan :=
  let address := strip address
  if address = "" then am
  else
    let current := (am.staticPeerPriority.get? address).getD 10000
    let am := { am with
      staticPeers := insert address am.staticPeers
      staticPeerPriority := am.staticPeerPriority.put address (min current priority) }
    let am := am.add clock address 1
    { am with
      newAddresses := am.newAddresses.erase address
      triedAddresses := insert address am.triedAddresses
      addresses := am.addresses.update address fun info => { info with tried := true } }

def addAnchorPeer (clock : ℚ) (address : String) : AddrMan :=
  let text := strip address
  if text = "" then am
  else { am with anchorPeers := insert text am.anchorPeers }.add clock text 1

def markGood (clock : ℚ) (address : String) : AddrMan :=
  if am.addresses.contains address then
    let am := { am with
      addresses := am.addresses.update address fun info =>
        { info with successCount := info.successCount + 1, lastAttempt := ⌊clock⌋₊ } }
    if address ∈ am.newAddresses then
      { am with
        newAddresses := am.newAddresses.erase address
        triedAddresses := insert address am.triedAddresses
        addresses := am.addresses.update address fun info => { info with tried := true } }
    else am
  else am

def markFailed (clock : ℚ) (address : String) : AddrMan :=
  { am with
    addresses := am.addresses.update address fun info =>
      { info with failCount := info.failCount + 1, lastAttempt := ⌊clock⌋₊ } }

/-- The static peers by priority, and by address among equal ones. -/
def orderedStatic : List String :=
  (((am.staticPeers.image fun address =>
    toLex ((am.staticPeerPriority.get? address).getD 10000, address)).sort (· ≤ ·)).map ofLex).map Prod.snd

/-- A loop that appends what is wanted and not there yet, and returns as soon as there are `count`
addresses; with whether it has returned. -/
def gather (count : ℕ) (wanted : String → Bool) :
    List String → List String → List String × Bool
  | [], addresses => (addresses, false)
  | addr :: rest, addresses =>
    if wanted addr && addr ∉ addresses then
      if count ≤ (addresses ++ [addr]).length then (addresses ++ [addr], true)
      else gather count wanted rest (addresses ++ [addr])
    else gather count wanted rest addresses

/-- The orders in which a call iterates over the two sets, and what it makes of a list by shuffling. -/
structure Draw (am : AddrMan) where
  triedOrder : List String
  newOrder : List String
  shuffle : List String → List String
  tried : triedOrder.Nodup ∧ ∀ addr, addr ∈ triedOrder ↔ addr ∈ am.triedAddresses
  new : newOrder.Nodup ∧ ∀ addr, addr ∈ newOrder ↔ addr ∈ am.newAddresses
  perm : ∀ addrs, (shuffle addrs).Perm addrs

/-- The addresses of a set that can be tried again, with what is known of them; `none` for a
`KeyError`. -/
def retryable (clock : ℚ) (order : List String) : Option (List (String × AddressInfo)) :=
  (order.mapM fun addr => (am.addresses.get? addr).map fun info => (addr, info)).map
    (List.filter fun p => p.2.shouldRetry clock)

def getAddresses (clock : ℚ) (draw : am.Draw) (count : ℕ) : Option (List String) := do
  let (addresses, done) := gather count am.addresses.contains am.orderedStatic []
  if done then return addresses
  let triedList ← am.retryable clock draw.triedOrder
  let triedList := triedList.mergeSort fun p q => q.2.successRate ≤ p.2.successRate
  let (addresses, done) := gather count (fun _ => true) ((triedList.take count).map Prod.fst) addresses
  if done then return addresses
  if addresses.length < count then
    let newList ← am.retryable clock draw.newOrder
    return addresses ++ (draw.shuffle (newList.map Prod.fst)).take (count - addresses.length)
  else return addresses

/-! What is known of the addresses after each call. -/

/-- The new and the tried addresses partition the known ones, and there are not too many of them. -/
structure Partitioned (am : AddrMan) : Prop where
  known : ∀ addr, am.addresses.contains addr = true ↔ addr ∈ am.newAddresses ∨ addr ∈ am.triedAddresses
  apart : Disjoint am.newAddresses am.triedAddresses
  size : am.addresses.rows.length ≤ am.maxAddresses

/-- The rows carry their own keys. -/
structure Consistent (am : AddrMan) : Prop extends am.Partitioned where
  named : ∀ addr info, am.addresses.get? addr = some info → info.address = addr

section calls
variable {am} {clock : ℚ} {address addr : String} {services : ℕ}

lemma contains_update (t : KeyedRows String AddressInfo) (k : String) (f : AddressInfo → AddressInfo) :
    (t.update k f).contains addr = t.contains addr := by
  simp only [KeyedRows.contains, KeyedRows.get?_update]
  split_ifs
  · cases t.get? addr <;> rfl
  · rfl

lemma length_update (t : KeyedRows String AddressInfo) (k : String) (f : AddressInfo → AddressInfo) :
    (t.update k f).rows.length = t.rows.length := by
  simp [KeyedRows.update, KeyedRows.updateWhere]

lemma named_update {t : KeyedRows String AddressInfo} {k : String} {f : AddressInfo → AddressInfo}
    (hf : ∀ info, (f info).address = info.address)
    (h : ∀ addr info, t.get? addr = some info → info.address = addr) (addr : String)
    (info : AddressInfo) (hget : (t.update k f).get? addr = some info) : info.address = addr := by
  rw [KeyedRows.get?_update] at hget
  split_ifs at hget
  · obtain ⟨old, hold, rfl⟩ := Option.map_eq_some_iff.1 hget
    rw [hf]
    exact h addr old hold
  · exact h addr info hget

/-- An update of a row that leaves the sets as they are. -/
lemma Consistent.update (hc : am.Consistent) (k : String) {f : AddressInfo → AddressInfo}
    (hf : ∀ info, (f info).address = info.address) :
    Consistent { am with addresses := am.addresses.update k f } where
  known addr := by rw [contains_update, hc.known]
  apart := hc.apart
  size := by
    rw [length_update]
    exact hc.size
  named := named_update hf hc.named

/-- A known address goes over to the tried ones. -/
lemma Consistent.moveToTried (hc : am.Consistent) (hknown : am.addresses.contains address = true) :
    Consistent { am with
      newAddresses := am.newAddresses.erase address
      triedAddresses := insert address am.triedAddresses } where
  known addr := by
    rw [hc.known, Finset.mem_erase, Finset.mem_insert]
    by_cases haddr : addr = address
    · rw [hc.known] at hknown
      subst haddr
      exact iff_of_true hknown (.inr (.inl rfl))
    · simp [haddr]
  apart := by
    rw [Finset.disjoint_insert_right]
    exact ⟨Finset.notMem_erase _ _, hc.apart.mono_left (Finset.erase_subset _ _)⟩
  size := hc.size
  named := hc.named

lemma oldest_mem {infos : List AddressInfo} (h : infos ≠ []) :
    ∃ info ∈ infos, oldest infos = some info := by
  cases infos with
  | nil => exact (h rfl).elim
  | cons info rest => exact ⟨_, KeyedRows.foldl_better_mem _ info rest, rfl⟩

/-- One known address is forgotten. -/
lemma Consistent.evictOldest (hc : am.Consistent) (hrows : am.addresses.rows ≠ []) :
    ∃ forgotten, am.addresses.contains forgotten = true ∧
      am.evictOldest = { am with
        newAddresses := am.newAddresses.erase forgotten
        triedAddresses := am.triedAddresses.erase forgotten
        addresses := am.addresses.delete forgotten } ∧
      am.evictOldest.Consistent ∧ am.evictOldest.addresses.rows.length < am.addresses.rows.length := by
  obtain ⟨info, hinfo, holdest⟩ := @oldest_mem (am.addresses.rows.map Prod.snd) (by simpa using hrows)
  obtain ⟨r, hr, rfl⟩ := List.mem_map.1 hinfo
  have hget := KeyedRows.get?_of_mem_rows hr
  have hname := hc.named r.1 r.2 hget
  have hresult : am.evictOldest = { am with
      newAddresses := am.newAddresses.erase r.1
      triedAddresses := am.triedAddresses.erase r.1
      addresses := am.addresses.delete r.1 } := by
    simp only [AddrMan.evictOldest, holdest, hname]
  have hlength := KeyedRows.length_delete hget
  refine ⟨r.1, by simp [KeyedRows.contains, hget], hresult, ?_, ?_⟩
  · rw [hresult]
    refine ⟨⟨?_, ?_, ?_⟩, ?_⟩
    · intro addr
      have hknown := hc.known addr
      simp only [KeyedRows.contains] at hknown
      simp only [KeyedRows.contains, KeyedRows.get?_delete, Finset.mem_erase]
      split_ifs with haddr
      · simp [haddr]
      · simp [haddr, hknown]
    · exact (hc.apart.mono_left (Finset.erase_subset _ _)).mono_right (Finset.erase_subset _ _)
    · have hsize := hc.size
      simp only
      omega
    · intro addr info hinfo
      rw [KeyedRows.get?_delete] at hinfo
      split_ifs at hinfo
      exact hc.named addr info hinfo
  · rw [hresult]
    simp only
    omega

/-- What `add` does to the state. -/
structure Added (am am' : AddrMan) (address : String) : Prop where
  consistent : am'.Consistent
  maxAddresses : am'.maxAddresses = am.maxAddresses
  staticPeers : am'.staticPeers = am.staticPeers
  contains : am'.addresses.contains address = true
  new : ∀ addr ∈ am'.newAddresses, addr ≠ address → addr ∈ am.newAddresses
  known : am.addresses.contains address = true → am'.newAddresses = am.newAddresses
  unknown : am.addresses.contains address = false → address ∈ am'.newAddresses ∧
    (am'.addresses.get? address).map AddressInfo.failCount = some 0

lemma Consistent.insertNew (hc : am.Consistent) (hunknown : am.addresses.contains address = false)
    (hroom : am.addresses.rows.length < am.maxAddresses) (info : AddressInfo)
    (hname : info.address = address) :
    Consistent { am with
      addresses := am.addresses.put address info
      newAddresses := insert address am.newAddresses } where
  known addr := by
    have hknown := hc.known addr
    simp only [KeyedRows.contains] at hknown
    simp only [KeyedRows.contains, KeyedRows.get?_put, Finset.mem_insert]
    split_ifs with haddr
    · simp [haddr]
    · simp [haddr, hknown]
  apart := by
    rw [Finset.disjoint_insert_left]
    refine ⟨?_, hc.apart⟩
    intro hmem
    rw [(hc.known address).2 (.inr hmem)] at hunknown
    cases hunknown
  size := by
    have hnone : am.addresses.get? address = none := by simpa [KeyedRows.contains] using hunknown
    rw [KeyedRows.length_put, if_pos hnone]
    exact hroom
  named addr info' hget := by
    rw [KeyedRows.get?_put] at hget
    split_ifs at hget with haddr
    · rw [← Option.some.inj hget, hname, haddr]
    · exact hc.named addr info' hget

/-- Before a new address is inserted there is room for it. -/
lemma Consistent.room (hc : am.Consistent) (hmax : 1 ≤ am.maxAddresses)
    (hunknown : am.addresses.contains address = false) :
    ∃ am', (if am.maxAddresses ≤ am.addresses.rows.length then am.evictOldest else am) = am' ∧
      am'.Consistent ∧ am'.maxAddresses = am.maxAddresses ∧ am'.staticPeers = am.staticPeers ∧
      am'.newAddresses ⊆ am.newAddresses ∧ am'.addresses.contains address = false ∧
      am'.addresses.rows.length < am'.maxAddresses := by
  refine ⟨_, rfl, ?_⟩
  split_ifs with hfull
  · have hrows : am.addresses.rows ≠ [] := by
      rw [← List.length_pos_iff]
      omega
    obtain ⟨forgotten, -, hresult, hc', hlt⟩ := hc.evictOldest hrows
    have hsize := hc.size
    refine ⟨hc', ?_⟩
    rw [hresult] at hlt ⊢
    refine ⟨rfl, rfl, Finset.erase_subset _ _, ?_, by simp only at hlt ⊢; omega⟩
    simp only [KeyedRows.contains, KeyedRows.get?_delete] at hunknown ⊢
    split_ifs
    · rfl
    · exact hunknown
  · exact ⟨hc, rfl, rfl, Finset.Subset.refl _, hunknown, not_le.1 hfull⟩

lemma Consistent.add (hc : am.Consistent) (hmax : 1 ≤ am.maxAddresses) (clock : ℚ) (address : String)
    (services : ℕ) : Added am (am.add clock address services) address := by
  by_cases hknown : am.addresses.contains address = true
  · rw [AddrMan.add, if_pos hknown]
    refine ⟨hc.update _ fun _ => rfl, rfl, rfl, ?_, fun _ h _ => h, fun _ => rfl, ?_⟩
    · rwa [contains_update]
    · intro h
      rw [hknown] at h
      cases h
  · have hunknown := Bool.eq_false_iff.2 hknown
    obtain ⟨am', hroom, hc', hlimit, hstatic, hnew, hunknown', hlt⟩ := hc.room hmax hunknown
    rw [AddrMan.add, if_neg hknown]
    simp only [hroom]
    refine ⟨hc'.insertNew hunknown' hlt _ rfl, hlimit, hstatic, ?_, ?_, fun h => (hknown h).elim, ?_⟩
    · simp [KeyedRows.contains]
    · intro addr haddr hne
      exact hnew ((Finset.mem_insert.1 haddr).resolve_left hne)
    · intro _
      simp

/-- No static peer is among the new addresses. -/
def StaticTried (am : AddrMan) : Prop := Disjoint am.staticPeers am.newAddresses

lemma Added.staticTried {am' : AddrMan} (h : Added am am' address) (hstatic : am.StaticTried)
    (hsafe : address ∉ am.staticPeers ∨ am.addresses.contains address = true) : am'.StaticTried := by
  rw [StaticTried, h.staticPeers, Finset.disjoint_left]
  intro addr haddr hnew
  by_cases hsame : addr = address
  · subst hsame
    have hknown := hsafe.resolve_left (not_not.2 haddr)
    rw [h.known hknown] at hnew
    exact Finset.disjoint_left.1 hstatic haddr hnew
  · exact Finset.disjoint_left.1 hstatic haddr (h.new addr hnew hsame)

lemma Consistent.markGood (hc : am.Consistent) (clock : ℚ) (address : String) :
    (am.markGood clock address).Consistent := by
  by_cases hknown : am.addresses.contains address = true
  · have hmarked := hc.update address fun info => @rfl _ (AddressInfo.address
      { info with successCount := info.successCount + 1, lastAttempt := ⌊clock⌋₊ })
    rw [AddrMan.markGood, if_pos hknown]
    simp only
    split_ifs with hnew
    · have hmoved := @moveToTried _ address hmarked (by rwa [contains_update])
      exact hmoved.update address fun info => @rfl _ (AddressInfo.address { info with tried := true })
    · exact hmarked
  · rw [AddrMan.markGood, if_neg hknown]
    exact hc

lemma StaticTried.markGood (hstatic : am.StaticTried) (clock : ℚ) (address : String) :
    (am.markGood clock address).StaticTried := by
  simp only [AddrMan.markGood]
  split_ifs
  · exact hstatic.mono_right (Finset.erase_subset _ _)
  · exact hstatic
  · exact hstatic

lemma maxAddresses_markGood : (am.markGood clock address).maxAddresses = am.maxAddresses := by
  simp only [AddrMan.markGood]
  split_ifs <;> rfl

lemma Consistent.markFailed (hc : am.Consistent) (clock : ℚ) (address : String) :
    (am.markFailed clock address).Consistent := hc.update address fun _ => rfl

lemma Consistent.addStaticPeer (hc : am.Consistent) (hmax : 1 ≤ am.maxAddresses) (clock : ℚ)
    (address : String) (priority : ℤ) :
    (am.addStaticPeer clock address priority).Consistent ∧
      (am.addStaticPeer clock address priority).maxAddresses = am.maxAddresses ∧
      (am.StaticTried → (am.addStaticPeer clock address priority).StaticTried) := by
  by_cases hempty : strip address = ""
  · rw [AddrMan.addStaticPeer]
    simp only [hempty, if_true]
    exact ⟨hc, trivial, id⟩
  · have hbefore : Consistent { am with
        staticPeers := insert (strip address) am.staticPeers
        staticPeerPriority := am.staticPeerPriority.put (strip address)
          (min ((am.staticPeerPriority.get? (strip address)).getD 10000) priority) } :=
      ⟨⟨hc.known, hc.apart, hc.size⟩, hc.named⟩
    have hadded := hbefore.add hmax clock (strip address) 1
    rw [AddrMan.addStaticPeer]
    simp only [hempty, if_false]
    generalize AddrMan.add _ clock (strip address) 1 = am' at hadded ⊢
    have hmoved := hadded.consistent.moveToTried hadded.contains
    refine ⟨?_, hadded.maxAddresses, ?_⟩
    · exact hmoved.update _ fun info => @rfl _ (AddressInfo.address { info with tried := true })
    · intro hstatic
      rw [StaticTried, Finset.disjoint_left]
      intro addr haddr hnew
      obtain ⟨hne, hnew⟩ := Finset.mem_erase.1 hnew
      simp only [hadded.staticPeers] at haddr
      have hwas := (Finset.mem_insert.1 haddr).resolve_left hne
      exact Finset.disjoint_left.1 hstatic hwas (hadded.new addr hnew hne)

end calls

/-! What a query answers. -/

/-- What a loop that gathers addresses makes of those that it starts with. -/
structure Gathered (count : ℕ) (wanted : String → Bool) (rest addresses : List String)
    (result : List String × Bool) : Prop where
  nodup : result.1.Nodup
  origin : ∀ addr ∈ result.1, addr ∈ addresses ∨ addr ∈ rest ∧ wanted addr = true
  kept : ∀ addr ∈ addresses, addr ∈ result.1
  full : result.2 = true → result.1.length = count
  short : result.2 = false → result.1.length < count
  complete : result.2 = false → ∀ addr ∈ rest, wanted addr = true → addr ∈ result.1

lemma Gathered.length_le {count : ℕ} {wanted : String → Bool} {rest addresses : List String}
    {result : List String × Bool} (h : Gathered count wanted rest addresses result) :
    result.1.length ≤ count := by
  cases hdone : result.2 with
  | true => exact (h.full hdone).le
  | false => exact (h.short hdone).le

/-- The rest of the loop after an address that was appended. -/
lemma Gathered.taken {count : ℕ} {wanted : String → Bool} {addr : String}
    {rest addresses : List String} {result : List String × Bool}
    (h : Gathered count wanted rest (addresses ++ [addr]) result) (hwanted : wanted addr = true) :
    Gathered count wanted (addr :: rest) addresses result := by
  refine ⟨h.nodup, ?_, ?_, h.full, h.short, ?_⟩
  · intro x hx
    rcases h.origin x hx with hx | ⟨hx, hw⟩
    · rcases List.mem_append.1 hx with hx | hx
      · exact .inl hx
      · rw [List.mem_singleton.1 hx]
        exact .inr ⟨List.mem_cons_self, hwanted⟩
    · exact .inr ⟨List.mem_cons_of_mem _ hx, hw⟩
  · exact fun x hx => h.kept x (List.mem_append_left _ hx)
  · intro hdone x hx hw
    rcases List.mem_cons.1 hx with rfl | hx
    · exact h.kept x (by simp)
    · exact h.complete hdone x hx hw

/-- And after one that was not wanted, or there already. -/
lemma Gathered.skipped {count : ℕ} {wanted : String → Bool} {addr : String}
    {rest addresses : List String} {result : List String × Bool}
    (h : Gathered count wanted rest addresses result)
    (hskip : wanted addr = true → addr ∈ addresses) :
    Gathered count wanted (addr :: rest) addresses result := by
  refine ⟨h.nodup, ?_, h.kept, h.full, h.short, ?_⟩
  · intro x hx
    rcases h.origin x hx with hx | ⟨hx, hw⟩
    · exact .inl hx
    · exact .inr ⟨List.mem_cons_of_mem _ hx, hw⟩
  · intro hdone x hx hw
    rcases List.mem_cons.1 hx with rfl | hx
    · exact h.kept x (hskip hw)
    · exact h.complete hdone x hx hw

lemma gather_spec {count : ℕ} (wanted : String → Bool) (rest : List String)
    {addresses : List String} (hnodup : addresses.Nodup) (hlt : addresses.length < count) :
    Gathered count wanted rest addresses (gather count wanted rest addresses) := by
  induction rest generalizing addresses with
  | nil => exact ⟨hnodup, fun _ h => .inl h, fun _ h => h, nofun, fun _ => hlt, by simp⟩
  | cons addr rest ih =>
    rw [gather]
    by_cases hwanted : (wanted addr && decide (addr ∉ addresses)) = true
    · rw [if_pos hwanted]
      simp only [Bool.and_eq_true, decide_eq_true_eq] at hwanted
      have hnodup' : (addresses ++ [addr]).Nodup := by
        rw [← List.concat_eq_append]
        exact hnodup.concat hwanted.2
      split_ifs with hfull
      · -- the loop returns, with this address as the last one
        have hlength : (addresses ++ [addr]).length = count := by
          rw [List.length_append, List.length_singleton] at hfull ⊢
          omega
        have hlast : Gathered count wanted rest (addresses ++ [addr]) (addresses ++ [addr], true) :=
          ⟨hnodup', fun _ h => .inl h, fun _ h => h, fun _ => hlength, nofun, nofun⟩
        exact hlast.taken hwanted.1
      · exact (ih hnodup' (not_le.1 hfull)).taken hwanted.1
    · rw [if_neg hwanted]
      exact (ih hnodup hlt).skipped (by simpa using hwanted)

section queries
variable {am} {addr : String}

/-- No known address is missing from the table, so that there is no `KeyError`. -/
lemma retryable_spec (clock : ℚ) {order : List String}
    (hknown : ∀ addr ∈ order, am.addresses.contains addr = true) :
    ∃ pairs, am.retryable clock order = some pairs ∧ (pairs.map Prod.fst).Sublist order ∧
      ∀ addr ∈ order, (am.addresses.get? addr).map AddressInfo.failCount = some 0 →
        addr ∈ pairs.map Prod.fst := by
  induction order with
  | nil => exact ⟨[], rfl, .slnil, by simp⟩
  | cons addr order ih =>
    obtain ⟨pairs, hpairs, hsub, hmem⟩ := ih fun x hx => hknown x (List.mem_cons_of_mem _ hx)
    obtain ⟨info, hinfo⟩ := Option.isSome_iff_exists.1 (hknown addr List.mem_cons_self)
    have hresult : am.retryable clock (addr :: order) =
        some (if info.shouldRetry clock then (addr, info) :: pairs else pairs) := by
      simp only [retryable] at hpairs ⊢
      obtain ⟨all, hall, rfl⟩ := Option.map_eq_some_iff.1 hpairs
      simp [List.mapM_cons, hinfo, hall, List.filter_cons]
    refine ⟨_, hresult, ?_, ?_⟩
    · split_ifs
      · exact hsub.cons_cons addr
      · exact hsub.cons addr
    · intro x hx hfresh
      rcases List.mem_cons.1 hx with rfl | hx
      · simp only [hinfo, Option.map_some, Option.some.injEq] at hfresh
        simp [AddressInfo.shouldRetry, hfresh]
      · have hrest := hmem x hx hfresh
        split_ifs
        · exact List.mem_cons_of_mem _ hrest
        · exact hrest

lemma mem_orderedStatic : addr ∈ am.orderedStatic ↔ addr ∈ am.staticPeers := by
  simp [orderedStatic]

/-- The static and the tried addresses come first; if they are not enough, new ones follow. -/
lemma Consistent.getAddresses (hc : am.Consistent) (clock : ℚ) (draw : am.Draw) {count : ℕ}
    (hcount : 1 ≤ count) :
    ∃ gathered : List String, gathered.Nodup ∧ gathered.length ≤ count ∧
      (∀ addr ∈ gathered, addr ∈ am.staticPeers ∧ am.addresses.contains addr = true ∨
        addr ∈ am.triedAddresses) ∧
      (gathered.length = count ∧ am.getAddresses clock draw count = some gathered ∨
        (∀ addr ∈ am.staticPeers, am.addresses.contains addr = true → addr ∈ gathered) ∧
        ∃ fresh : List String, fresh.Sublist draw.newOrder ∧
          (∀ addr ∈ am.newAddresses, (am.addresses.get? addr).map AddressInfo.failCount = some 0 →
            addr ∈ fresh) ∧
          am.getAddresses clock draw count =
            some (gathered ++ (draw.shuffle fresh).take (count - gathered.length))) := by
  have hfirst := @gather_spec count am.addresses.contains am.orderedStatic [] List.nodup_nil hcount
  have hstatic (addr : String) (h : addr ∈ am.orderedStatic ∧ am.addresses.contains addr = true) :
      addr ∈ am.staticPeers ∧ am.addresses.contains addr = true := ⟨mem_orderedStatic.1 h.1, h.2⟩
  rw [AddrMan.getAddresses]
  generalize gather count am.addresses.contains am.orderedStatic [] = first at hfirst ⊢
  obtain ⟨statics, done⟩ := first
  cases done with
  | true =>
    refine ⟨statics, hfirst.nodup, hfirst.length_le, ?_, .inl ⟨hfirst.full rfl, rfl⟩⟩
    intro addr haddr
    exact .inl (hstatic addr ((hfirst.origin addr haddr).resolve_left List.not_mem_nil))
  | false =>
    obtain ⟨tried, htried, htriedSub, -⟩ := retryable_spec clock fun addr haddr =>
      (hc.known addr).2 (.inr ((draw.tried.2 addr).1 haddr))
    obtain ⟨fresh, hfresh, hfreshSub, hfreshMem⟩ := retryable_spec clock fun addr haddr =>
      (hc.known addr).2 (.inl ((draw.new.2 addr).1 haddr))
    simp only [htried, hfresh, Bool.false_eq_true, if_false, Option.bind_eq_bind, Option.bind_some,
      Option.pure_def]
    generalize htaken : ((tried.mergeSort fun p q =>
      decide (q.2.successRate ≤ p.2.successRate)).take count).map Prod.fst = taken
    have horigin (addr : String) (haddr : addr ∈ taken) : addr ∈ am.triedAddresses := by
      rw [← htaken] at haddr
      obtain ⟨p, hp, rfl⟩ := List.mem_map.1 haddr
      have hp' := List.mem_mergeSort.1 (List.mem_of_mem_take hp)
      exact (draw.tried.2 _).1 (htriedSub.subset (List.mem_map_of_mem hp'))
    have hsecond := @gather_spec count (fun _ => true) taken statics hfirst.nodup (hfirst.short rfl)
    generalize gather count (fun _ => true) taken statics = second at hsecond ⊢
    obtain ⟨gathered, done⟩ := second
    refine ⟨gathered, hsecond.nodup, hsecond.length_le, ?_, ?_⟩
    · intro addr haddr
      rcases hsecond.origin addr haddr with haddr | ⟨haddr, -⟩
      · exact .inl (hstatic addr ((hfirst.origin addr haddr).resolve_left List.not_mem_nil))
      · exact .inr (horigin addr haddr)
    · cases done with
      | true => exact .inl ⟨hsecond.full rfl, rfl⟩
      | false =>
        refine .inr ⟨?_, fresh.map Prod.fst, hfreshSub, ?_, ?_⟩
        · intro addr haddr hknown
          exact hsecond.kept addr (hfirst.complete rfl addr (mem_orderedStatic.2 haddr) hknown)
        · exact fun addr haddr => hfreshMem addr ((draw.new.2 addr).2 haddr)
        · simp [hsecond.short rfl]

/-- What is expected of an address manager: of its sets, and of the answer to each query. -/
structure Sound (am : AddrMan) : Prop extends am.Partitioned where
  answers : ∀ clock (draw : am.Draw) count, 1 ≤ count →
    ∃ result, am.getAddresses clock draw count = some result ∧ result.length ≤ count ∧
      (∀ addr ∈ result, am.addresses.contains addr = true) ∧ result.Nodup

lemma Consistent.sound (hc : am.Consistent) (hstatic : am.StaticTried) : am.Sound := by
  refine ⟨hc.toPartitioned, fun clock draw count hcount => ?_⟩
  obtain ⟨gathered, hnodup, hlength, horigin, hcases⟩ := hc.getAddresses clock draw hcount
  have hknown (addr : String) (haddr : addr ∈ gathered) : am.addresses.contains addr = true := by
    rcases horigin addr haddr with ⟨-, h⟩ | h
    · exact h
    · exact (hc.known addr).2 (.inr h)
  rcases hcases with ⟨-, hresult⟩ | ⟨-, fresh, hfresh, -, hresult⟩
  · exact ⟨gathered, hresult, hlength, hknown, hnodup⟩
  · refine ⟨_, hresult, ?_, ?_, ?_⟩
    · rw [List.length_append, List.length_take]
      omega
    · intro addr haddr
      rcases List.mem_append.1 haddr with haddr | haddr
      · exact hknown addr haddr
      · have hmem := hfresh.subset ((draw.perm fresh).subset (List.mem_of_mem_take haddr))
        exact (hc.known addr).2 (.inl ((draw.new.2 addr).1 hmem))
    · rw [List.nodup_append]
      refine ⟨hnodup, ?_, ?_⟩
      · have hshuffled := (draw.perm fresh).nodup_iff.2 (hfresh.nodup draw.new.1)
        exact hshuffled.sublist (List.take_sublist _ _)
      · rintro addr haddr _ hmem rfl
        have hmem := hfresh.subset ((draw.perm fresh).subset (List.mem_of_mem_take hmem))
        have hnew := (draw.new.2 addr).1 hmem
        rcases horigin addr haddr with ⟨h, -⟩ | h
        · exact Finset.disjoint_left.1 hstatic h hnew
        · exact Finset.disjoint_left.1 hc.apart hnew h

/-- A static peer among the new addresses is answered twice to a query for sufficiently many. -/
lemma Consistent.not_sound (hc : am.Consistent) (hstatic : addr ∈ am.staticPeers)
    (hnew : addr ∈ am.newAddresses)
    (hfresh : (am.addresses.get? addr).map AddressInfo.failCount = some 0) : ¬am.Sound := by
  intro hsound
  let draw : am.Draw :=
    { triedOrder := am.triedAddresses.toList
      newOrder := am.newAddresses.toList
      shuffle := id
      tried := ⟨Finset.nodup_toList _, fun _ => Finset.mem_toList⟩
      new := ⟨Finset.nodup_toList _, fun _ => Finset.mem_toList⟩
      perm := fun _ => .refl _ }
  have hcount : 1 ≤ am.staticPeers.card + am.triedAddresses.card + am.newAddresses.card + 1 := by omega
  obtain ⟨result, hresult, -, -, hnodup⟩ := hsound.answers 0 draw _ hcount
  obtain ⟨gathered, hgathered, hlength, horigin, hcases⟩ := hc.getAddresses 0 draw hcount
  have hfew : gathered.length ≤ am.staticPeers.card + am.triedAddresses.card := by
    have hsub : gathered.toFinset ⊆ am.staticPeers ∪ am.triedAddresses := by
      intro x hx
      rcases horigin x (List.mem_toFinset.1 hx) with ⟨h, -⟩ | h
      · exact Finset.mem_union_left _ h
      · exact Finset.mem_union_right _ h
    rw [← List.toFinset_card_of_nodup hgathered]
    exact (Finset.card_le_card hsub).trans (Finset.card_union_le _ _)
  rcases hcases with ⟨hfull, -⟩ | ⟨hmem, fresh, hsub, hfreshMem, hresult'⟩
  · omega
  · rw [hresult'] at hresult
    rw [← Option.some.inj hresult, List.nodup_append] at hnodup
    have hshort : fresh.length ≤ am.newAddresses.card := by
      rw [← Finset.length_toList]
      exact hsub.length_le
    have hall : (draw.shuffle fresh).take (am.staticPeers.card + am.triedAddresses.card +
        am.newAddresses.card + 1 - gathered.length) = fresh := by
      exact List.take_of_length_le (by simp only [draw, id]; omega)
    rw [hall] at hnodup
    exact hnodup.2.2 addr (hmem addr hstatic ((hc.known addr).2 (.inl hnew))) addr
      (hfreshMem addr hnew hfresh) rfl

end queries

/-- A static peer that has been forgotten. -/
def Forgotten (am : AddrMan) (address : String) : Prop :=
  address ∈ am.staticPeers ∧ am.addresses.contains address = false

instance (am : AddrMan) (address : String) : Decidable (am.Forgotten address) :=
  inferInstanceAs (Decidable (_ ∧ _))

/-- What all calls keep as long as no forgotten static peer is added again. -/
structure Kept (am : AddrMan) : Prop where
  consistent : am.Consistent
  limit : 1 ≤ am.maxAddresses
  staticTried : am.StaticTried

lemma Kept.initial {maxAddresses : ℕ} (hmax : 1 ≤ maxAddresses) : Kept { maxAddresses } where
  consistent :=
    { known := by simp [KeyedRows.contains]
      apart := Finset.disjoint_empty_left _
      size := Nat.zero_le _
      named := by simp }
  limit := hmax
  staticTried := Finset.disjoint_empty_right _

lemma Kept.sound {am : AddrMan} (h : am.Kept) : am.Sound := h.consistent.sound h.staticTried

lemma Kept.add {am : AddrMan} (h : am.Kept) (clock : ℚ) (address : String) (services : ℕ) :
    ((am.add clock address services).Sound ↔ ¬am.Forgotten address) ∧
      ((am.add clock address services).Sound → (am.add clock address services).Kept) := by
  have hadded := h.consistent.add h.limit clock address services
  by_cases hforgotten : am.Forgotten address
  · obtain ⟨hnew, hfresh⟩ := hadded.unknown hforgotten.2
    have hnot := hadded.consistent.not_sound (hadded.staticPeers.symm ▸ hforgotten.1) hnew hfresh
    exact ⟨iff_of_false hnot (not_not.2 hforgotten), fun hsound => (hnot hsound).elim⟩
  · have hsafe : address ∉ am.staticPeers ∨ am.addresses.contains address = true := by
      simpa [Forgotten, imp_iff_not_or] using hforgotten
    have hkept : (am.add clock address services).Kept :=
      ⟨hadded.consistent, hadded.maxAddresses ▸ h.limit, hadded.staticTried h.staticTried hsafe⟩
    exact ⟨iff_of_true hkept.sound hforgotten, fun _ => hkept⟩

end AddrMan

inductive AddrManOp where
  | add (clock : ℚ) (address : String) (services : ℕ)
  | addStaticPeer (clock : ℚ) (address : String) (priority : ℤ)
  | addAnchorPeer (clock : ℚ) (address : String)
  | markGood (clock : ℚ) (address : String)
  | markFailed (clock : ℚ) (address : String)

namespace AddrManOp

def step (op : AddrManOp) (am : AddrMan) : AddrMan :=
  match op with
  | add clock address services => am.add clock address services
  | addStaticPeer clock address priority => am.addStaticPeer clock address priority
  | addAnchorPeer clock address => am.addAnchorPeer clock address
  | markGood clock address => am.markGood clock address
  | markFailed clock address => am.markFailed clock address

/-- The call does not add a forgotten static peer, other than as a static peer again. -/
def safe (am : AddrMan) : AddrManOp → Prop
  | add _ address _ => ¬am.Forgotten address
  | addAnchorPeer _ address => strip address = "" ∨ ¬am.Forgotten (strip address)
  | _ => True

lemma step_kept {am : AddrMan} (h : am.Kept) (op : AddrManOp) :
    ((op.step am).Sound ↔ safe am op) ∧ ((op.step am).Sound → (op.step am).Kept) := by
  have hkept {am' : AddrMan} (h' : am'.Kept) : (am'.Sound ↔ True) ∧ (am'.Sound → am'.Kept) :=
    ⟨iff_of_true h'.sound trivial, fun _ => h'⟩
  cases op with
  | add clock address services => exact h.add clock address services
  | addStaticPeer clock address priority =>
    obtain ⟨hc, hlimit, hstatic⟩ := h.consistent.addStaticPeer h.limit clock address priority
    exact hkept ⟨hc, hlimit ▸ h.limit, hstatic h.staticTried⟩
  | addAnchorPeer clock address =>
    simp only [step, safe, AddrMan.addAnchorPeer]
    by_cases hempty : strip address = ""
    · rw [if_pos hempty]
      simpa [hempty] using hkept h
    · rw [if_neg hempty]
      have hbefore : AddrMan.Kept { am with anchorPeers := insert (strip address) am.anchorPeers } :=
        ⟨⟨⟨h.consistent.known, h.consistent.apart, h.consistent.size⟩, h.consistent.named⟩, h.limit,
          h.staticTried⟩
      rw [or_iff_right hempty]
      exact hbefore.add clock (strip address) 1
  | markGood clock address =>
    refine hkept ⟨h.consistent.markGood clock address, ?_, h.staticTried.markGood clock address⟩
    exact AddrMan.maxAddresses_markGood.symm ▸ h.limit
  | markFailed clock address =>
    exact hkept ⟨h.consistent.markFailed clock address, h.limit, h.staticTried⟩

/-- The sets of the address manager are sound after each call, and all queries with them, exactly when
no call adds a static peer that has been forgotten. -/
theorem sound_along_iff {maxAddresses : ℕ} (hmax : 1 ≤ maxAddresses) (ops : List AddrManOp) :
    OperationRuns.Along step AddrMan.Sound ops { maxAddresses } ↔
      OperationRuns.AllSafe step safe ops { maxAddresses } := by
  exact OperationRuns.along_iff_allSafe_of_step (fun _ h => AddrMan.Kept.sound h)
    (fun _ op h => step_kept h op) (.initial hmax)

/-- A static peer is evicted, and comes back as a static peer before it is added as an address. -/
theorem sound_along_iff_restored :
    OperationRuns.Along step AddrMan.Sound
      [.addStaticPeer 0 "10.0.0.1:8333" 50, .add 1 "10.0.0.2:8333" 1, .markGood 2 "10.0.0.2:8333",
        .addStaticPeer 3 "10.0.0.1:8333" 50, .add 4 "10.0.0.1:8333" 1]
      { maxAddresses := 1 } := by
  have hstrip : strip "10.0.0.1:8333" = "10.0.0.1:8333" := strip_of_forall (by simp [isSpace])
  apply (sound_along_iff (by decide) _).2
  simp only [OperationRuns.AllSafe, safe, step, AddrMan.addStaticPeer, hstrip]
  decide +kernel

/-- A static peer is evicted, and added again as a new address. -/
theorem sound_along_relearned :
    ¬OperationRuns.Along step AddrMan.Sound
      [.addStaticPeer 0 "10.0.0.1:8333" 50, .add 1 "10.0.0.2:8333" 1, .add 2 "10.0.0.1:8333" 1]
      { maxAddresses := 1 } := by
  rintro ⟨-, hfirst, hsecond, hthird⟩
  have hstrip : strip "10.0.0.1:8333" = "10.0.0.1:8333" := strip_of_forall (by simp [isSpace])
  have hforgotten : ((AddrMan.addStaticPeer { maxAddresses := 1 } 0 "10.0.0.1:8333" 50).add 1
      "10.0.0.2:8333" 1).Forgotten "10.0.0.1:8333" := by
    rw [AddrMan.addStaticPeer]
    simp only [hstrip]
    decide
  have hkept := (step_kept ((step_kept (AddrMan.Kept.initial (by decide)) _).2 hfirst) _).2 hsecond
  exact (step_kept hkept _).1.1 hthird hforgotten

end AddrManOp
end BerzCoin
