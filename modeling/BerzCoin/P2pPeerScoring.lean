import BerzCoin.OperationRuns
import BerzCoin.P2pBans

/-! `PeerScoringManager`: scores of peers, and the bans that they lead to. The scores in the file are
left out. `clock` is `time.time()`, which a call reads several times. -/
namespace BerzCoin

structure PeerScore where
  address : String
  score : ℤ := 0
  lastSeen : ℚ := 0
  lastConnected : ℚ := 0
  failures : ℕ := 0
  successes : ℕ := 0
  bans : ℕ := 0
  bannedUntil : ℚ := 0
  deriving DecidableEq, Repr

namespace PeerScore
variable (peer : PeerScore) (clock : ℚ)

def addScore (points : ℤ) : PeerScore :=
  { peer with score := peer.score + points, lastSeen := clock }

def recordSuccess : PeerScore :=
  { peer with successes := peer.successes + 1, lastConnected := clock, failures := 0 }.addScore
    clock 10

def recordFailure : PeerScore := { peer with failures := peer.failures + 1 }.addScore clock (-5)

end PeerScore

structure PeerScoringManager where
  scores : KeyedRows String PeerScore := .empty
  banManager : BanManager := {}

namespace PeerScoringManager
variable (m : PeerScoringManager)

/-! The thresholds of the bans. -/

def PERM_BAN : ℤ := -120
def LONG_BAN : ℤ := -80
def TEMP_BAN : ℤ := -50

/-- `reason_penalties.get(reason, 0)`. -/
def reasonPenalty (reason : String) : ℤ :=
  match reason with
  | "connect_failed" => -5
  | "handshake_failed" => -10
  | "oversized_payload" => -25
  | "protocol_violation" => -20
  | "evicted_for_inbound_slot" => -8
  | "invalid_block" => -35
  | "invalid_transaction" => -15
  | "relay_spam" => -10
  | "addr_spam" => -12
  | "stale_peer" => -6
  | "msg_rate_limit" => -12
  | _ => 0

def getScore (address : String) : PeerScore := (m.scores.get? address).getD { address }

/-- `_cleanup`, with a `max_age` of a week. -/
def cleanup (clock : ℚ) : PeerScoringManager where
  scores := m.scores.deleteAll <|
    (m.scores.rows.filter fun r => clock - r.2.lastSeen > 86400 * 7).map Prod.fst
  banManager := m.banManager.cleanupExpired clock

def recordGood (clock : ℚ) (address : String) : PeerScoringManager :=
  { m with scores := m.scores.put address ((m.getScore address).recordSuccess clock) }.cleanup clock

def applyBanPolicy (clock : ℚ) (address : String) (score : PeerScore) (reason : String) :
    PeerScoringManager :=
  if 20 ≤ score.failures ∨ score.score ≤ PERM_BAN then
    { scores := m.scores.put address { score with bans := score.bans + 1, bannedUntil := 0 }
      banManager := m.banManager.ban clock address 86400 reason true }
  else if 12 ≤ score.failures ∨ score.score ≤ LONG_BAN then
    { scores := m.scores.put address
        { score with bans := score.bans + 1, bannedUntil := clock + 86400 * 7 }
      banManager := m.banManager.ban clock address (86400 * 7) reason false }
  else if 8 ≤ score.failures ∨ score.score ≤ TEMP_BAN then
    { scores := m.scores.put address
        { score with bans := score.bans + 1, bannedUntil := clock + 86400 }
      banManager := m.banManager.ban clock address 86400 reason false }
  else
    let (banned, banManager) := m.banManager.recordOffense clock address reason
    { scores := m.scores.put address
        (if banned then { score with bans := score.bans + 1 } else score)
      banManager }

def recordBad (clock : ℚ) (address reason : String) : PeerScoringManager :=
  let score := ((m.getScore address).recordFailure clock).addScore clock (reasonPenalty reason)
  m.applyBanPolicy clock address score reason

/-! Bans that a call does not loosen. -/

/-- The new entry bans at least as long as the old one. -/
def AtLeast (entry entry' : BanEntry) : Prop :=
  entry'.permanent = true ∨ entry.permanent = false ∧ entry.bannedUntil ≤ entry'.bannedUntil

instance (entry entry' : BanEntry) : Decidable (AtLeast entry entry') :=
  inferInstanceAs (Decidable (_ ∨ _))

/-- Each ban that is active at a time is there afterwards, and at least as long. -/
def Tightens (clock : ℚ) (before after : BanManager) : Prop :=
  ∀ host entry, before.bans.get? host = some entry → entry.isActive clock = true →
    ∃ entry', after.bans.get? host = some entry' ∧ AtLeast entry entry'

/-- The term of a ban. -/
inductive Term
  | permanent
  | seconds (duration : ℕ)
  deriving DecidableEq, Repr

/-- The term that the failures and the score of a peer call for. -/
def policyTerm (failures : ℕ) (score : ℤ) : Option Term :=
  if 20 ≤ failures ∨ score ≤ PERM_BAN then some .permanent
  else if 12 ≤ failures ∨ score ≤ LONG_BAN then some (.seconds (86400 * 7))
  else if 8 ≤ failures ∨ score ≤ TEMP_BAN then some (.seconds 86400)
  else none

/-- The term that so many offenses in an hour call for. -/
def offenseTerm (count : ℕ) : Option Term :=
  if 20 ≤ count then some .permanent
  else if 10 ≤ count then some (.seconds 86400)
  else if 5 ≤ count then some (.seconds 3600)
  else none

/-- No more than the term remains of an active ban of the host. -/
def Extends (bans : KeyedRows String BanEntry) (clock : ℚ) (host : String) : Term → Prop
  | .permanent => True
  | .seconds duration => ∀ entry, bans.get? host = some entry → entry.isActive clock = true →
      entry.permanent = false ∧ entry.bannedUntil ≤ ⌊clock⌋₊ + duration

section bans
variable {clock : ℚ} {address : String} {m : BanManager}

lemma tightens_refl (bans : BanManager) : Tightens clock bans bans := by
  intro host entry hget hactive
  refine ⟨entry, hget, ?_⟩
  cases hpermanent : entry.permanent with
  | true => exact .inl hpermanent
  | false => exact .inr ⟨hpermanent, le_rfl⟩

/-- A ban overwrites what is there. -/
lemma tightens_ban_iff (duration : ℤ) (reason : String) (permanent : Bool) :
    Tightens clock m (m.ban clock address duration reason permanent) ↔
      normalizeAddress address = "" ∨ Extends m.bans clock (normalizeAddress address)
        (if permanent then .permanent else .seconds (max 1 duration).toNat) := by
  by_cases hkey : normalizeAddress address = ""
  · simp only [BanManager.ban, hkey, if_true, true_or, iff_true]
    exact tightens_refl m
  · rw [or_iff_right hkey]
    constructor
    · intro htightens
      cases permanent with
      | true => trivial
      | false =>
        intro entry hget hactive
        obtain ⟨entry', hget', hleast⟩ := htightens _ entry hget hactive
        rw [BanManager.get?_ban hkey, if_pos rfl] at hget'
        rw [← Option.some.inj hget'] at hleast
        simpa [AtLeast] using hleast
    · intro hextends host entry hget hactive
      rw [BanManager.get?_ban hkey]
      by_cases hhost : host = normalizeAddress address
      · rw [if_pos hhost]
        subst hhost
        cases permanent with
        | true => exact ⟨_, rfl, .inl rfl⟩
        | false => exact ⟨_, rfl, .inr (hextends entry hget hactive)⟩
      · rw [if_neg hhost]
        exact tightens_refl m host entry hget hactive

/-- Only bans that have expired are taken out. -/
lemma tightens_cleanupExpired : Tightens clock m (m.cleanupExpired clock) := by
  intro host entry hget hactive
  have hkept : host ∉ (m.bans.rows.filter fun r => !r.2.isActive clock).map Prod.fst := by
    intro hexpired
    obtain ⟨r, hr, rfl⟩ := List.mem_map.1 hexpired
    obtain ⟨hrow, hinactive⟩ := List.mem_filter.1 hr
    rw [KeyedRows.get?_of_mem_rows hrow, Option.some.injEq] at hget
    rw [hget, hactive] at hinactive
    cases hinactive
  obtain ⟨entry', hget', hleast⟩ := @tightens_refl clock m host entry hget hactive
  refine ⟨entry', ?_, hleast⟩
  simp [BanManager.cleanupExpired, KeyedRows.deleteAll, hkept, hget']

/-- The offenses of a host in the last hour, with the one that is recorded. -/
def offenseCount (m : BanManager) (clock : ℚ) (host : String) : ℕ :=
  (((m.offenses.get? host).getD []).filter fun t => clock - t < 3600).length + 1

/-- The offense leads to no ban, or to one that does not end before the active one. -/
def OffenseExtends (m : BanManager) (clock : ℚ) (address : String) : Prop :=
  let normalized := normalizeAddress address
  normalized = "" ∨ ∀ term, offenseTerm (offenseCount m clock normalized) = some term →
    normalizeAddress normalized = "" ∨ Extends m.bans clock (normalizeAddress normalized) term

lemma tightens_recordOffense_iff (offense : String) :
    Tightens clock m (m.recordOffense clock address offense).2 ↔ OffenseExtends m clock address := by
  simp only [BanManager.recordOffense, OffenseExtends]
  by_cases hkey : normalizeAddress address = ""
  · simp only [hkey, if_true, true_or, iff_true]
    exact tightens_refl m
  · simp only [hkey, if_false, false_or, List.length_append, List.length_singleton]
    generalize normalizeAddress address = normalized
    have hcount : offenseCount m clock normalized =
        (((m.offenses.get? normalized).getD []).filter fun t => clock - t < 3600).length + 1 := rfl
    rw [← hcount]
    -- the times of the offenses do not matter to the bans
    have hban (offenses : KeyedRows String (List ℚ)) (duration : ℤ) (reason : String)
        (permanent : Bool) :
        Tightens clock m
            ({ m with offenses }.ban clock normalized duration reason permanent) ↔
          normalizeAddress normalized = "" ∨ Extends m.bans clock (normalizeAddress normalized)
            (if permanent then .permanent else .seconds (max 1 duration).toNat) :=
      @tightens_ban_iff clock normalized { m with offenses } duration reason permanent
    unfold offenseTerm
    split_ifs
    · simp [hban]
    · simp [hban]
    · simp [hban]
    · simp only [false_implies, implies_true, iff_true]
      exact tightens_refl m

end bans

/-- The score of a peer after a bad record leads to no ban, or to one that does not end before the
active one. -/
def BadExtends (m : PeerScoringManager) (clock : ℚ) (address reason : String) : Prop :=
  let peer := m.getScore address
  match policyTerm (peer.failures + 1) (peer.score - 5 + reasonPenalty reason) with
  | some term =>
    normalizeAddress address = "" ∨ Extends m.banManager.bans clock (normalizeAddress address) term
  | none => OffenseExtends m.banManager clock address

lemma tightens_recordBad_iff (m : PeerScoringManager) (clock : ℚ) (address reason : String) :
    Tightens clock m.banManager (m.recordBad clock address reason).banManager ↔
      BadExtends m clock address reason := by
  simp only [recordBad, applyBanPolicy, BadExtends, policyTerm, PeerScore.recordFailure,
    PeerScore.addScore, ← sub_eq_add_neg]
  split_ifs
  · exact tightens_ban_iff _ _ true
  · exact tightens_ban_iff _ _ false
  · exact tightens_ban_iff _ _ false
  · exact tightens_recordOffense_iff reason
  · exact tightens_recordOffense_iff reason

/-- The policy for bans leaves the points and the failures of a peer alone. -/
lemma scores_applyBanPolicy (m : PeerScoringManager) (clock : ℚ) (address : String)
    (score : PeerScore) (reason : String) :
    ∃ score', (m.applyBanPolicy clock address score reason).scores = m.scores.put address score' ∧
      score'.score = score.score ∧ score'.failures = score.failures := by
  unfold applyBanPolicy
  split_ifs
  · exact ⟨_, rfl, rfl, rfl⟩
  · exact ⟨_, rfl, rfl, rfl⟩
  · exact ⟨_, rfl, rfl, rfl⟩
  · refine ⟨_, rfl, ?_, ?_⟩ <;> split_ifs <;> rfl

/-- A bad record costs the peer 5 points and the penalty, and no other peer anything. -/
lemma getScore_recordBad (m : PeerScoringManager) (clock : ℚ) (address reason other : String) :
    ((m.recordBad clock address reason).getScore other).score =
        (if other = address then (m.getScore address).score - 5 + reasonPenalty reason
        else (m.getScore other).score) ∧
      ((m.recordBad clock address reason).getScore other).failures =
        if other = address then (m.getScore address).failures + 1
        else (m.getScore other).failures := by
  obtain ⟨score', hscores, hscore, hfailures⟩ := m.scores_applyBanPolicy clock address
    (((m.getScore address).recordFailure clock).addScore clock (reasonPenalty reason)) reason
  have hget : (m.recordBad clock address reason).getScore other =
      if other = address then score' else m.getScore other := by
    rw [getScore, recordBad, hscores, KeyedRows.get?_put]
    split_ifs <;> rfl
  rw [hget]
  split_ifs
  · exact ⟨hscore, hfailures⟩
  · exact ⟨rfl, rfl⟩

/-- A peer at 120 points below zero is banned for good. -/
lemma bans_recordBad_permanent {m : PeerScoringManager} {clock : ℚ} {address reason : String}
    (hkey : normalizeAddress address ≠ "")
    (hscore : (m.getScore address).score - 5 + reasonPenalty reason ≤ PERM_BAN) :
    ∃ entry, (m.recordBad clock address reason).banManager.bans.get? (normalizeAddress address) =
      some entry ∧ entry.permanent = true := by
  have hban : (m.recordBad clock address reason).banManager =
      m.banManager.ban clock address 86400 reason true := by
    rw [recordBad, applyBanPolicy, if_pos (.inr hscore)]
  rw [hban, BanManager.get?_ban hkey, if_pos rfl]
  exact ⟨_, rfl, rfl⟩

end PeerScoringManager

inductive ScoringOp
  | recordBad (clock : ℚ) (address reason : String)
  | recordGood (clock : ℚ) (address : String)
  | recordOffense (clock : ℚ) (address offense : String)

namespace ScoringOp
open PeerScoringManager

def clock : ScoringOp → ℚ
  | recordBad clock _ _ | recordGood clock _ | recordOffense clock _ _ => clock

def step (op : ScoringOp) (m : PeerScoringManager) : PeerScoringManager :=
  match op with
  | recordBad clock address reason => m.recordBad clock address reason
  | recordGood clock address => m.recordGood clock address
  | recordOffense clock address offense =>
    { m with banManager := (m.banManager.recordOffense clock address offense).2 }

/-- The call loosens no active ban. -/
def tightens (m : PeerScoringManager) (op : ScoringOp) : Prop :=
  Tightens op.clock m.banManager (op.step m).banManager

/-- The call leads to no ban of a host, or to one that does not end before the active one. -/
def safe (m : PeerScoringManager) : ScoringOp → Prop
  | recordBad clock address reason => BadExtends m clock address reason
  | recordGood _ _ => True
  | recordOffense clock address _ => OffenseExtends m.banManager clock address

lemma tightens_iff_safe (m : PeerScoringManager) (op : ScoringOp) : op.tightens m ↔ op.safe m := by
  cases op with
  | recordBad clock address reason => exact tightens_recordBad_iff m clock address reason
  | recordGood clock address => exact iff_of_true tightens_cleanupExpired trivial
  | recordOffense clock address offense => exact tightens_recordOffense_iff offense

/-- No call of a run loosens an active ban exactly when each ban of the run is permanent, or at most
its own duration remains of the active ban of the host. -/
theorem tightens_along_iff (m : PeerScoringManager) (ops : List ScoringOp) :
    OperationRuns.AllSafe step tightens ops m ↔ OperationRuns.AllSafe step safe ops m := by
  have hsafe : tightens = safe := by
    funext m op
    exact propext (tightens_iff_safe m op)
  rw [hsafe]

/-- Two addresses with one key: the first is banned for good, and the other one gets a ban of a week. -/
lemma loosened {first other : String} (hkey : normalizeAddress first ≠ "")
    (hsame : normalizeAddress other = normalizeAddress first) (hne : other ≠ first) :
    ¬OperationRuns.AllSafe step tightens
      [.recordBad 0 first "invalid_block", .recordBad 0 first "invalid_block",
        .recordBad 0 first "invalid_block", .recordBad 0 other "invalid_block",
        .recordBad 0 other "invalid_block"] {} := by
  rintro ⟨-, -, -, hfourth, hfifth, -⟩
  simp only [step] at hfourth hfifth
  have hpenalty : reasonPenalty "invalid_block" = -35 := rfl
  have hzero (address : String) : (getScore {} address).score = 0 := rfl
  obtain ⟨entry, hget, hpermanent⟩ := @bans_recordBad_permanent
    ((PeerScoringManager.recordBad {} 0 first "invalid_block").recordBad 0 first "invalid_block") 0
    first "invalid_block" hkey (by
      rw [(getScore_recordBad _ _ _ _ _).1, if_pos rfl, (getScore_recordBad _ _ _ _ _).1, if_pos rfl,
        hzero, hpenalty]
      decide)
  generalize hthree : ((PeerScoringManager.recordBad {} 0 first "invalid_block").recordBad 0 first
    "invalid_block").recordBad 0 first "invalid_block" = m at hget hfourth hfifth
  obtain ⟨entry', hget', hleast⟩ := hfourth _ entry hget (by simp [BanEntry.isActive, hpermanent])
  have hpermanent' : entry'.permanent = true := by
    rcases hleast with hleast | ⟨htemporary, -⟩
    · exact hleast
    · rw [hpermanent] at htemporary
      cases htemporary
  have hfresh : (m.getScore other).score = 0 ∧ (m.getScore other).failures = 0 := by
    subst hthree
    simp only [getScore_recordBad, hne, if_false]
    exact ⟨rfl, rfl⟩
  have hbad := (tightens_iff_safe _ _).1 hfifth
  simp only [safe, BadExtends, getScore_recordBad, if_true, hfresh, hpenalty, hsame] at hbad
  have hweek := hbad.resolve_left hkey entry' hget' (by simp [BanEntry.isActive, hpermanent'])
  rw [hpermanent'] at hweek
  cases hweek.1

/-- A host that is banned for good at one port comes off with a week at another port. -/
theorem tightens_along_otherPort :
    ¬OperationRuns.AllSafe step tightens
      [.recordBad 0 (ConnPeer.address { host := "10.0.0.1", port := 8333 }) "invalid_block",
        .recordBad 0 (ConnPeer.address { host := "10.0.0.1", port := 8333 }) "invalid_block",
        .recordBad 0 (ConnPeer.address { host := "10.0.0.1", port := 8333 }) "invalid_block",
        .recordBad 0 (ConnPeer.address { host := "10.0.0.1", port := 8334 }) "invalid_block",
        .recordBad 0 (ConnPeer.address { host := "10.0.0.1", port := 8334 }) "invalid_block"] {} := by
  have hplain := BanManager.isIPv4_private.plain
  have hkey (p : ℕ) : normalizeAddress (ConnPeer.address { host := "10.0.0.1", port := p }) =
      "10.0.0.1" := by
    rw [hplain.1.normalizeAddress, if_neg hplain.2]
  refine loosened ?_ ?_ ?_
  · rw [hkey]
    decide
  · rw [hkey, hkey]
  · rw [Ne, address_inj]
    decide

end ScoringOp
end BerzCoin
