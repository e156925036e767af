import BerzCoin.P2pAdmissionRuns

/-! The handlers of admission messages of many peers at once. A handler runs up to the point where it
waits for its reply to be sent, and the rest of it runs later; other peers are served in between. -/
namespace BerzCoin
open NodeAuthorityChain

/-- What a handler has left to do when its reply was sent. -/
inductive AfterReply
  | done
  | dropChallenge (disconnect : Bool)
  deriving DecidableEq

namespace ConnectionManager
variable (cm : ConnectionManager)

/-- The counts of a `join_result` are written as 16 bits each; larger ones raise before anything is
sent, and the rest of the handler does not run. -/
def afterResult (receivedVotes : ℕ) (next : AfterReply) : Option AfterReply :=
  if cm.authorityChain.minVerifierVotes < 2 ^ 16 ∧ receivedVotes < 2 ^ 16 then some next else none

variable (C : AdmissionCrypto)

/-- The vote of an attestation, before the reply. -/
def recordAttest (now : ℕ) (checked : CheckedAttest) : ConnectionManager × Bool :=
  let (voted, accepted) := cm.authorityChain.verify C.lower checked.verifier checked.candidate
    (some ("pubkey:" ++ checked.candidatePubkey)) now
  ({ cm with
      authorityChain := if accepted then
        (voted.registerNodeIdentity C.lower checked.candidate checked.candidatePubkey).1 else voted
      seenAttestChallenges := cm.seenAttestChallenges.put checked.replayKey checked.expiresAt },
    accepted)

/-- `handle_join_attest` up to its reply; what it has left to do, if it comes to that; and whether it
recorded a vote. -/
def beginJoinAttest (peer : PeerName) (now : ℕ) (localHeight remoteHeight : Option ℕ)
    (att : JoinAttestMessage) : ConnectionManager × Option AfterReply × Bool :=
  if !cm.authorityChainEnabled then (cm, none, false)
  else
    let cm := cm.cleanupSeenAttestations now
    match cm.admissionChallenges.get? peer.address with
    | none => (cm, cm.afterResult 0 .done, false)
    | some pending =>
      if pending.expiresAt ≠ 0 && pending.expiresAt < now then
        (cm, cm.afterResult 0 (.dropChallenge false), false)
      else
        match cm.checkJoinAttest C peer pending now (cm.isVerifierReady localHeight remoteHeight)
            att with
        | .error _ => (cm, cm.afterResult 0 .done, false)
        | .ok checked =>
          let (cm', accepted) := cm.recordAttest C now checked
          let votes := cm'.authorityChain.getAttestationVoteCount checked.candidate
          (cm', cm'.afterResult votes
              (.dropChallenge (!accepted && cm'.authorityChain.admissionMode = .strict)),
            cm.authorityChain.getAttestationVoteCount checked.candidate < votes)

/-- The rest of a handler. -/
def finishJoin (address : String) : AfterReply → ConnectionManager
  | .done => cm
  | .dropChallenge _ => { cm with admissionChallenges := cm.admissionChallenges.delete address }

end ConnectionManager

/-- The connection manager with the handlers that wait for their replies, by the address of the peer,
and with a number for each challenge: the last one of each peer, and the ones behind the votes. -/
structure JoinHandlers where
  cm : ConnectionManager
  waiting : KeyedRows String AfterReply := KeyedRows.empty
  closed : Finset String := ∅
  issued : ℕ := 0
  challengeOf : KeyedRows String ℕ := KeyedRows.empty
  votes : List ℕ := []

inductive JoinAction
  | request (peer : PeerName) (now : ℕ) (clock : ℚ) (challengeId : UInt64) (challenge : Bytes)
      (message : JoinRequestMessage)
  | attest (peer : PeerName) (now : ℕ) (localHeight remoteHeight : Option ℕ)
      (message : JoinAttestMessage)
  | replySent (address : String) (rest : AfterReply)
  | replyFailed (address : String)

/-- The message that a handler starts on. -/
def JoinAction.event : JoinAction → Option JoinEvent
  | .request peer now clock challengeId challenge message =>
    some (.request peer now clock challengeId challenge message)
  | .attest peer now localHeight remoteHeight message =>
    some (.attest peer now localHeight remoteHeight message)
  | .replySent .. => none
  | .replyFailed .. => none

namespace JoinHandlers
variable (C : AdmissionCrypto)

/-- The handler of the peer ran up to its reply, or to its end. -/
def suspend (s : JoinHandlers) (address : String) (next : Option AfterReply) : JoinHandlers :=
  match next with
  | none => s
  | some rest => { s with waiting := s.waiting.put address rest }

def apply (s : JoinHandlers) : JoinAction → JoinHandlers
  | .request peer now clock challengeId challenge message =>
    let (cm, replies) := s.cm.handleJoinRequest peer now clock challengeId challenge message
    if replies = [] then { s with cm }
    else
      { s with
        cm
        waiting := s.waiting.put peer.address .done
        issued := s.issued + 1
        challengeOf := s.challengeOf.put peer.address s.issued }
  | .attest peer now localHeight remoteHeight message =>
    let (cm, next, voted) := s.cm.beginJoinAttest C peer now localHeight remoteHeight message
    { s with
      cm
      votes := if voted then s.votes ++ (s.challengeOf.get? peer.address).toList else s.votes
    }.suspend peer.address next
  | .replySent address rest =>
    { s with
      cm := s.cm.finishJoin address rest
      waiting := s.waiting.delete address
      closed := if rest = .dropChallenge true then insert address s.closed else s.closed }
  | .replyFailed address =>
    -- closing the connection failed, and the messages of this peer end
    { s with waiting := s.waiting.delete address, closed := insert address s.closed }

/-- The messages of one peer are handled one after the other, while it is connected. -/
def Possible (s : JoinHandlers) : JoinAction → Prop
  | .request peer .. => s.waiting.get? peer.address = none ∧ peer.address ∉ s.closed
  | .attest peer .. => s.waiting.get? peer.address = none ∧ peer.address ∉ s.closed
  | .replySent address rest => s.waiting.get? address = some rest
  | .replyFailed address => s.waiting.get? address ≠ none

/-- Any order of the steps of the handlers; `allowed` is asked of the state before each step. -/
inductive Run (allowed : JoinHandlers → Prop) (start : JoinHandlers) : JoinHandlers → Prop
  | start : Run allowed start start
  | step {s : JoinHandlers} (a : JoinAction) : Run allowed start s → allowed s → s.Possible a →
      Run allowed start (s.apply C a)

/-- No count of votes is near the end of 16 bits. -/
def NarrowCounts (s : JoinHandlers) : Prop :=
  s.cm.authorityChain.minVerifierVotes < 2 ^ 16 ∧
    ∀ node, s.cm.authorityChain.attestationVoteCount node + 1 < 2 ^ 16

end JoinHandlers

/-! One step. -/

namespace NodeAuthorityChain
variable {chain : NodeAuthorityChain}

lemma attestationVoteCount_addVote_le (target verifierId verifierNode source node : String) (now : ℕ) :
    (chain.addVote target verifierId verifierNode source now).attestationVoteCount node ≤
      chain.attestationVoteCount node + 1 := by
  simp only [attestationVoteCount, addVote, KeyedRows.get?_put]
  by_cases hnode : node = target
  · subst hnode
    simp only [if_true, Option.getD_some]
    split_ifs with hcontains
    · omega
    · rw [KeyedRows.length_put]
      split_ifs <;> omega
  · simp only [if_neg hnode]
    omega

/-- One attestation brings at most one vote, and the number of votes asked for stays. -/
lemma verify_counts (lower : String → String) (verifier target : String) {identity : String} (now : ℕ)
    (hidentity : identity ≠ "") (node : String) :
    (chain.verify lower verifier target (some identity) now).1.minVerifierVotes =
        chain.minVerifierVotes ∧
      (chain.verify lower verifier target (some identity) now).1.attestationVoteCount node ≤
        chain.attestationVoteCount node + 1 := by
  rcases chain.verify_cases lower verifier target now hidentity with hsame | ⟨voted, rfl, -, hvoted⟩
  · rw [hsame]
    exact ⟨rfl, by omega⟩
  · have hle := @attestationVoteCount_addVote_le chain (normalize target)
      (normalizeVerifierId lower identity) (normalize verifier) "transitive" node now
    rcases hvoted with hvoted | ⟨-, hvoted⟩
    · rw [hvoted]
      exact ⟨rfl, hle⟩
    · rw [hvoted]
      exact ⟨rfl, hle⟩

end NodeAuthorityChain

namespace ConnectionManager
variable (C : AdmissionCrypto) (cm : ConnectionManager)

lemma recordAttest_counts (now : ℕ) (checked : CheckedAttest) (node : String) :
    (cm.recordAttest C now checked).1.authorityChain.minVerifierVotes =
        cm.authorityChain.minVerifierVotes ∧
      (cm.recordAttest C now checked).1.authorityChain.attestationVoteCount node ≤
        cm.authorityChain.attestationVoteCount node + 1 := by
  have hcounts := @verify_counts cm.authorityChain C.lower checked.verifier checked.candidate _ now
    (pubkey_ne_empty checked.candidatePubkey) node
  simp only [recordAttest]
  split_ifs with haccepted
  · have hframe : ∃ identities,
        ((cm.authorityChain.verify C.lower checked.verifier checked.candidate
          (some ("pubkey:" ++ checked.candidatePubkey)) now).1.registerNodeIdentity C.lower
            checked.candidate checked.candidatePubkey).1 =
          { (cm.authorityChain.verify C.lower checked.verifier checked.candidate
            (some ("pubkey:" ++ checked.candidatePubkey)) now).1 with nodeIdentities := identities } :=
      registerNodeIdentity_frame checked.candidate checked.candidatePubkey
    obtain ⟨identities, hframe⟩ := hframe
    rw [hframe]
    exact hcounts
  · exact hcounts

lemma allowJoinRequest_challenges (host : String) (clock : ℚ) :
    (cm.allowJoinRequest host clock).1.admissionChallenges = cm.admissionChallenges := by
  unfold allowJoinRequest
  extract_lets key arr
  split_ifs
  · rfl
  · rfl

/-- A challenge is issued and kept for the peer, or nothing is sent. -/
lemma handleJoinRequest_cases (peer : PeerName) (now : ℕ) (clock : ℚ) (challengeId : UInt64)
    (challenge : Bytes) (request : JoinRequestMessage) :
    (cm.handleJoinRequest peer now clock challengeId challenge request).2 = [] ∧
        (cm.handleJoinRequest peer now clock challengeId challenge request).1.admissionChallenges =
          cm.admissionChallenges ∨
      (cm.handleJoinRequest peer now clock challengeId challenge request).2 ≠ [] ∧
        ∃ pending, (cm.handleJoinRequest peer now clock challengeId challenge
          request).1.admissionChallenges = cm.admissionChallenges.put peer.address pending := by
  have hsame := cm.allowJoinRequest_challenges peer.host clock
  unfold handleJoinRequest
  by_cases henabled : (!cm.authorityChainEnabled) = true
  · rw [if_pos henabled]
    exact .inl ⟨rfl, rfl⟩
  · rw [if_neg henabled]
    generalize cm.allowJoinRequest peer.host clock = allowance at hsame
    obtain ⟨cm', allowed⟩ := allowance
    dsimp only at hsame ⊢
    cases allowed with
    | false => exact .inl ⟨rfl, hsame⟩
    | true =>
      right
      rw [if_neg (by simp)]
      rw [← hsame]
      exact ⟨by simp, _, rfl⟩

/-- A handler that runs to its end has handled the message, whichever end it comes to. -/
lemma handleJoinAttest_eq_finish (peer : PeerName) (now : ℕ) (localHeight remoteHeight : Option ℕ)
    (att : JoinAttestMessage) :
    ∃ rest, (cm.handleJoinAttest C peer now localHeight remoteHeight att).1 =
        (cm.beginJoinAttest C peer now localHeight remoteHeight att).1.finishJoin peer.address rest ∧
      ∀ rest', (cm.beginJoinAttest C peer now localHeight remoteHeight att).2.1 = some rest' →
        rest' = rest := by
  have hsent : ∀ {cm : ConnectionManager} {votes : ℕ} {next rest : AfterReply},
      cm.afterResult votes next = some rest → rest = next := by
    intro cm votes next rest hnext
    unfold afterResult at hnext
    split_ifs at hnext
    exact (Option.some.inj hnext).symm
  unfold beginJoinAttest handleJoinAttest
  by_cases henabled : (!cm.authorityChainEnabled) = true
  · rw [if_pos henabled, if_pos henabled]
    refine ⟨.done, rfl, ?_⟩
    intro rest hrest
    cases hrest
  · rw [if_neg henabled, if_neg henabled]
    dsimp only
    cases hpending : (cm.cleanupSeenAttestations now).admissionChallenges.get? peer.address with
    | none => exact ⟨.done, rfl, fun rest hrest => hsent hrest⟩
    | some pending =>
      by_cases hexpired : (pending.expiresAt ≠ 0 && pending.expiresAt < now) = true
      · simp only [hexpired, if_true]
        exact ⟨.dropChallenge false, rfl, fun rest hrest => hsent hrest⟩
      · simp only [hexpired]
        cases hcheck : (cm.cleanupSeenAttestations now).checkJoinAttest C peer pending now
            ((cm.cleanupSeenAttestations now).isVerifierReady localHeight remoteHeight) att with
        | error e => exact ⟨.done, rfl, fun rest hrest => hsent hrest⟩
        | ok checked => exact ⟨_, rfl, fun rest hrest => hsent hrest⟩

lemma finishJoin_authorityChain (address : String) (rest : AfterReply) :
    (cm.finishJoin address rest).authorityChain = cm.authorityChain := by
  cases rest with
  | done => rfl
  | dropChallenge disconnect => rfl

/-- A handler that sends its reply and then runs to its end has handled the message. -/
lemma finish_beginJoinAttest {peer : PeerName} {now : ℕ} {localHeight remoteHeight : Option ℕ}
    {att : JoinAttestMessage} {rest : AfterReply}
    (h : (cm.beginJoinAttest C peer now localHeight remoteHeight att).2.1 = some rest) :
    (cm.beginJoinAttest C peer now localHeight remoteHeight att).1.finishJoin peer.address rest =
      (cm.handleJoinAttest C peer now localHeight remoteHeight att).1 := by
  obtain ⟨rest', hfinish, hrest⟩ :=
    cm.handleJoinAttest_eq_finish C peer now localHeight remoteHeight att
  rw [hfinish, hrest rest h]

/-- The authority chain is what it is after the message, also where the reply is not sent. -/
lemma beginJoinAttest_authorityChain (peer : PeerName) (now : ℕ) (localHeight remoteHeight : Option ℕ)
    (att : JoinAttestMessage) :
    (cm.beginJoinAttest C peer now localHeight remoteHeight att).1.authorityChain =
      (cm.handleJoinAttest C peer now localHeight remoteHeight att).1.authorityChain := by
  obtain ⟨rest, hfinish, -⟩ := cm.handleJoinAttest_eq_finish C peer now localHeight remoteHeight att
  rw [hfinish, finishJoin_authorityChain]

/-- Only a handler that found a challenge records a vote, and with narrow counts it waits to drop the
challenge. -/
lemma beginJoinAttest_spec (peer : PeerName) (now : ℕ) (localHeight remoteHeight : Option ℕ)
    (att : JoinAttestMessage) :
    (cm.beginJoinAttest C peer now localHeight remoteHeight att).1.admissionChallenges =
        cm.admissionChallenges ∧
      ((cm.beginJoinAttest C peer now localHeight remoteHeight att).2.2 = true →
        cm.admissionChallenges.get? peer.address ≠ none ∧
          (cm.authorityChain.minVerifierVotes < 2 ^ 16 →
            (∀ node, cm.authorityChain.attestationVoteCount node + 1 < 2 ^ 16) →
            ∃ disconnect, (cm.beginJoinAttest C peer now localHeight remoteHeight att).2.1 =
              some (.dropChallenge disconnect))) := by
  unfold beginJoinAttest
  by_cases henabled : (!cm.authorityChainEnabled) = true
  · simp [henabled]
  · rw [if_neg henabled]
    dsimp only
    cases hpending : (cm.cleanupSeenAttestations now).admissionChallenges.get? peer.address with
    | none => exact ⟨rfl, by simp⟩
    | some pending =>
      have hfound : cm.admissionChallenges.get? peer.address ≠ none := by
        intro hnone
        exact absurd (hpending.symm.trans hnone) (by simp)
      by_cases hexpired : (pending.expiresAt ≠ 0 && pending.expiresAt < now) = true
      · simp only [hexpired, if_true]
        exact ⟨rfl, by simp⟩
      · simp only [hexpired]
        cases hcheck : (cm.cleanupSeenAttestations now).checkJoinAttest C peer pending now
            ((cm.cleanupSeenAttestations now).isVerifierReady localHeight remoteHeight) att with
        | error e => exact ⟨rfl, by simp⟩
        | ok checked =>
          refine ⟨rfl, fun _ => ⟨hfound, ?_⟩⟩
          intro hmin hnarrow
          obtain ⟨hminSame, hcount⟩ := (cm.cleanupSeenAttestations now).recordAttest_counts C now
            checked (normalize checked.candidate)
          have hreceived : ((cm.cleanupSeenAttestations now).recordAttest C now
              checked).1.authorityChain.getAttestationVoteCount checked.candidate < 2 ^ 16 := by
            simp only [getAttestationVoteCount]
            split_ifs
            · omega
            · exact lt_of_le_of_lt hcount (hnarrow _)
          have hfits := And.intro (hminSame.trans_lt hmin) hreceived
          exact ⟨_, if_pos hfits⟩

end ConnectionManager

namespace JoinHandlers
variable {C : AdmissionCrypto} {s : JoinHandlers}

/-- The challenge that a peer can still answer has no vote, unless the handler that recorded it is
about to drop it or no message of the peer comes any more. -/
structure OneVote (s : JoinHandlers) : Prop where
  nodup : s.votes.Nodup
  voted : ∀ n ∈ s.votes, n < s.issued
  numbered : ∀ address n, s.challengeOf.get? address = some n → n < s.issued
  distinct : ∀ a b n, s.challengeOf.get? a = some n → s.challengeOf.get? b = some n → a = b
  pending : ∀ address, s.cm.admissionChallenges.get? address ≠ none → ∃ n,
    s.challengeOf.get? address = some n ∧ (n ∈ s.votes → address ∈ s.closed ∨
      ∃ disconnect, s.waiting.get? address = some (.dropChallenge disconnect))

lemma OneVote.request (h : s.OneVote) {peer : PeerName} {now : ℕ} {clock : ℚ} {challengeId : UInt64}
    {challenge : Bytes} {message : JoinRequestMessage} :
    (s.apply C (.request peer now clock challengeId challenge message)).OneVote := by
  simp only [apply]
  rcases s.cm.handleJoinRequest_cases peer now clock challengeId challenge message with ⟨hnone, hsame⟩ | ⟨hsome, pending, hput⟩
  · rw [if_pos hnone]
    refine ⟨h.nodup, h.voted, h.numbered, h.distinct, ?_⟩
    intro address hfound
    rw [hsame] at hfound
    exact h.pending address hfound
  · rw [if_neg hsome]
    refine ⟨h.nodup, ?_, ?_, ?_, ?_⟩
    · intro n hn
      exact Nat.lt_succ_of_lt (h.voted n hn)
    · intro address n hn
      simp only [KeyedRows.get?_put] at hn
      split_ifs at hn
      · cases hn
        exact Nat.lt_succ_self _
      · exact Nat.lt_succ_of_lt (h.numbered address n hn)
    · intro a b n ha hb
      simp only [KeyedRows.get?_put] at ha hb
      split_ifs at ha hb with hap hbp
      · exact hap.trans hbp.symm
      · cases ha
        exact absurd (h.numbered b _ hb) (lt_irrefl _)
      · cases hb
        exact absurd (h.numbered a _ ha) (lt_irrefl _)
      · exact h.distinct a b n ha hb
    · intro address hfound
      simp only [hput, KeyedRows.get?_put] at hfound ⊢
      by_cases haddress : address = peer.address
      · refine ⟨s.issued, by simp [haddress], ?_⟩
        intro hvoted
        exact absurd (h.voted _ hvoted) (lt_irrefl _)
      · simp only [if_neg haddress] at hfound ⊢
        exact h.pending address hfound

/-- A peer without a suspended handler suspends its own only. -/
lemma suspend_frame (s : JoinHandlers) {address : String} (hidle : s.waiting.get? address = none)
    (next : Option AfterReply) :
    (s.suspend address next).votes = s.votes ∧ (s.suspend address next).issued = s.issued ∧
      (s.suspend address next).challengeOf = s.challengeOf ∧ (s.suspend address next).closed = s.closed ∧
      (s.suspend address next).cm = s.cm ∧
      ∀ address' rest, s.waiting.get? address' = some rest →
        (s.suspend address next).waiting.get? address' = some rest := by
  cases next with
  | none => exact ⟨rfl, rfl, rfl, rfl, rfl, fun _ _ hrest => hrest⟩
  | some after =>
    refine ⟨rfl, rfl, rfl, rfl, rfl, ?_⟩
    intro address' rest hrest
    have hne : address' ≠ address := by
      intro heq
      rw [heq, hidle] at hrest
      cases hrest
    simp only [suspend, KeyedRows.get?_put, if_neg hne, hrest]

lemma OneVote.attest (h : s.OneVote) (hnarrow : s.NarrowCounts) {peer : PeerName}
    (hidle : s.waiting.get? peer.address = none) (hopen : peer.address ∉ s.closed) {now : ℕ}
    {localHeight remoteHeight : Option ℕ} {message : JoinAttestMessage} :
    (s.apply C (.attest peer now localHeight remoteHeight message)).OneVote := by
  obtain ⟨hsame, hvoted⟩ := s.cm.beginJoinAttest_spec C peer now localHeight remoteHeight message
  generalize hbegin : s.cm.beginJoinAttest C peer now localHeight remoteHeight message = begun
    at hsame hvoted
  obtain ⟨cm, next, recorded⟩ := begun
  simp only [apply, hbegin]
  cases recorded with
  | false =>
    obtain ⟨hvotes, hissued, hchallenge, hclosed, hcm, hwaiting⟩ :=
      suspend_frame { s with cm, votes := s.votes } hidle next
    simp only [Bool.false_eq_true, if_false]
    refine ⟨by rw [hvotes]; exact h.nodup, by rw [hvotes, hissued]; exact h.voted,
      by rw [hchallenge, hissued]; exact h.numbered, by rw [hchallenge]; exact h.distinct, ?_⟩
    intro address hfound
    rw [hcm, hsame] at hfound
    obtain ⟨n, hn, hpending⟩ := h.pending address hfound
    refine ⟨n, by rw [hchallenge]; exact hn, ?_⟩
    rw [hvotes, hclosed]
    intro hmem
    cases hpending hmem with
    | inl hgone => exact .inl hgone
    | inr hdrop => exact .inr (hdrop.imp fun _ => hwaiting address _)
  | true =>
    obtain ⟨hfound, hdrops⟩ := hvoted rfl
    obtain ⟨disconnect, hnext⟩ := hdrops hnarrow.1 hnarrow.2
    obtain ⟨n, hn, hpending⟩ := h.pending peer.address hfound
    have hnew : n ∉ s.votes := by
      intro hmem
      rcases hpending hmem with hgone | ⟨d, hd⟩
      · exact hopen hgone
      · rw [hidle] at hd
        cases hd
    obtain ⟨hvotes, hissued, hchallenge, hclosed, hcm, hwaiting⟩ :=
      suspend_frame { s with cm, votes := s.votes ++ [n] } hidle next
    simp only [if_true, hn, Option.toList_some]
    refine ⟨?_, ?_, by rw [hchallenge, hissued]; exact h.numbered,
      by rw [hchallenge]; exact h.distinct, ?_⟩
    · rw [hvotes, List.nodup_append]
      refine ⟨h.nodup, List.nodup_singleton n, ?_⟩
      intro a ha b hb hab
      rw [List.mem_singleton.1 hb] at hab
      exact hnew (hab ▸ ha)
    · rw [hvotes, hissued]
      intro m hm
      cases List.mem_append.1 hm with
      | inl hold => exact h.voted m hold
      | inr hlast =>
        rw [List.mem_singleton.1 hlast]
        exact h.numbered peer.address n hn
    · intro address haddress
      rw [hcm, hsame] at haddress
      obtain ⟨m, hm, hstill⟩ := h.pending address haddress
      refine ⟨m, by rw [hchallenge]; exact hm, ?_⟩
      rw [hvotes, hclosed]
      intro hmem
      cases List.mem_append.1 hmem with
      | inl hold =>
        cases hstill hold with
        | inl hgone => exact .inl hgone
        | inr hdrop => exact .inr (hdrop.imp fun _ => hwaiting address _)
      | inr hlast =>
        rw [List.mem_singleton.1 hlast] at hm
        right
        refine ⟨disconnect, ?_⟩
        rw [h.distinct address peer.address n hm hn]
        simp only at hnext
        subst hnext
        simp [suspend]

/-- A handler that goes on touches nothing of the other peers. -/
lemma OneVote.replySent (h : s.OneVote) {address : String} {rest : AfterReply}
    (hwaiting : s.waiting.get? address = some rest) : (s.apply C (.replySent address rest)).OneVote := by
  refine ⟨h.nodup, h.voted, h.numbered, h.distinct, ?_⟩
  intro other hfound
  have hclosed : ∀ a ∈ s.closed, a ∈ (s.apply C (.replySent address rest)).closed := by
    intro a ha
    simp only [apply]
    split_ifs
    · exact Finset.mem_insert_of_mem ha
    · exact ha
  by_cases hother : other = address
  · subst hother
    cases rest with
    | dropChallenge disconnect =>
      simp [apply, ConnectionManager.finishJoin] at hfound
    | done =>
      obtain ⟨n, hn, hpending⟩ := h.pending other hfound
      refine ⟨n, hn, fun hmem => ?_⟩
      rcases hpending hmem with hgone | ⟨d, hd⟩
      · exact .inl (hclosed other hgone)
      · rw [hwaiting] at hd
        cases hd
  · have hstill : s.cm.admissionChallenges.get? other ≠ none := by
      cases rest with
      | done => exact hfound
      | dropChallenge disconnect =>
        simpa [apply, ConnectionManager.finishJoin, hother] using hfound
    obtain ⟨n, hn, hpending⟩ := h.pending other hstill
    refine ⟨n, hn, fun hmem => ?_⟩
    rcases hpending hmem with hgone | ⟨d, hd⟩
    · exact .inl (hclosed other hgone)
    · right
      exact ⟨d, by simp [apply, hother, hd]⟩

lemma OneVote.replyFailed (h : s.OneVote) (address : String) :
    (s.apply C (.replyFailed address)).OneVote := by
  refine ⟨h.nodup, h.voted, h.numbered, h.distinct, ?_⟩
  intro other hfound
  obtain ⟨n, hn, hpending⟩ := h.pending other hfound
  refine ⟨n, hn, fun hmem => ?_⟩
  by_cases hother : other = address
  · exact .inl (by simp [apply, hother])
  · rcases hpending hmem with hgone | ⟨d, hd⟩
    · exact .inl (by simp [apply, hgone])
    · exact .inr ⟨d, by simp [apply, hother, hd]⟩

lemma OneVote.apply (h : s.OneVote) (hnarrow : s.NarrowCounts) {a : JoinAction}
    (hpossible : s.Possible a) : (s.apply C a).OneVote := by
  cases a with
  | request peer now clock challengeId challenge message => exact h.request
  | attest peer now localHeight remoteHeight message => exact h.attest hnarrow hpossible.1 hpossible.2
  | replySent address rest => exact h.replySent hpossible
  | replyFailed address => exact h.replyFailed address

lemma oneVote_start {cm : ConnectionManager} (h : cm.admissionChallenges = KeyedRows.empty) :
    OneVote { cm } := by
  refine ⟨List.nodup_nil, by simp, by simp, by simp, ?_⟩
  intro address hfound
  simp [h] at hfound

/-- What the peers send changes the authority chain as it does where every reply is sent at once. -/
lemma handles_apply (C : AdmissionCrypto) :
    ConnectionManager.Handles C JoinHandlers.cm (apply C) JoinAction.event where
  silent s a h := by
    cases a with
    | request => cases h
    | attest => cases h
    | replySent address rest => exact s.cm.finishJoin_authorityChain address rest
    | replyFailed address => rfl
  heard s a e h := by
    cases a with
    | request peer now clock challengeId challenge message =>
      cases h
      simp only [apply, ConnectionManager.handleJoin]
      split_ifs <;> rfl
    | attest peer now localHeight remoteHeight message =>
      cases h
      have hchain := s.cm.beginJoinAttest_authorityChain C peer now localHeight remoteHeight message
      simp only [apply, ConnectionManager.handleJoin, ← hchain]
      rcases s.cm.beginJoinAttest C peer now localHeight remoteHeight message with
        ⟨cm, _ | rest, voted⟩
      · rfl
      · rfl
    | replySent => cases h
    | replyFailed => cases h

/-- Where the handlers of the peers take turns and replies fail, a node is verified on the same terms
as in a run of whole messages: while the attestations are genuine, enough verified nodes have signed
for it. -/
theorem admitted_of_genuineSteps {C : AdmissionCrypto} {ownKey : String → String}
    {trustedNodes : List String} {k now : ℕ} {actions : List JoinAction}
    (hgenuine : ∀ before a e, before ++ [a] <+: actions → a.event = some e →
      ConnectionManager.Genuine C ownKey
        (before.foldl (apply C) { cm := .fresh trustedNodes k now }).cm e)
    {node : String}
    (hnode : node ∈ (actions.foldl (apply C)
      { cm := .fresh trustedNodes k now }).cm.authorityChain.verifiedNodes)
    (htrusted : node ∉ trustedNodes.map normalize) :
    ConnectionManager.AdmittedIn C ownKey JoinHandlers.cm (apply C) JoinAction.event
      { cm := .fresh trustedNodes k now } k actions node :=
  (((handles_apply C).spec rfl hgenuine).2.2 node hnode).resolve_left htrusted

/-- While the counts are narrow, a challenge leads to one vote at most, in whatever order the handlers
of the peers go on. -/
theorem votes_count_le_one (C : AdmissionCrypto) {cm : ConnectionManager}
    (hstart : cm.admissionChallenges = KeyedRows.empty) {s : JoinHandlers}
    (hrun : Run C NarrowCounts { cm } s) (n : ℕ) : s.votes.count n ≤ 1 := by
  have hone : s.OneVote := by
    induction hrun with
    | start => exact oneVote_start hstart
    | step a _ hnarrow hpossible ih => exact ih.apply hnarrow hpossible
  exact List.nodup_iff_count_le_one.1 hone.nodup n

end JoinHandlers
/-! A peer that signs for two candidates with one key, and the challenge it was sent. -/
namespace JoinHandlersExample
open AdmissionExample (Statement Statement.material challenge stranger trustedNodes)

def key : String := "0348a923009241b848f5908bb699cc177a60fb7cdaccf961a01ff14a71b157493a"

def firstStatement : Statement where
  candidate := "203.0.113.66:4000"
  key := key
  digest := 0x312bdaca87b46a9ad179ff65f3647cb5a83847e6ce075b5a9b4c9fa229b3d2f4
  messageHash := 0x6b23a2b8eea40170998e415e7514ed2ae6fad9cc947403ca3fa8fc4f52b58b53
  signature := 0x3045022100a0c09fb74305dd8f86f99492832215924b9297228fe68a02e8b01fca62b12b3d022069f2a99a21eb2b8c88bdd83f724940b78a1878c4e88db282f7a9a1eee09c5957

def secondStatement : Statement where
  candidate := "203.0.113.67:4000"
  key := key
  digest := 0x29d8bdab1e5c10ed14785054ba06b5ec892a8f4c01f48cadfe1dc30235f07530
  messageHash := 0x353f6d04e3f3578cdc0707fb9214a9afba1f65a4bfe87d270bf1dda302cd7285
  signature := 0x3045022100b5f3697460501dc44eb1511efc1e9f222211924425f84232b99f23f31f2aa52802202c8f34ca769bdf3cea9378ccc3b166aee7ee287e32ba52a3033f779d63966fa2

def crypto : AdmissionCrypto where
  PublicKey := String
  hashlib := Hashlib.ofDigests ([firstStatement, secondStatement].flatMap fun s =>
    [(s.material, beBytes 32 s.digest), (beBytes 32 s.digest, beBytes 32 s.messageHash)])
  publicKeyOfHex text := if text = key then some text else none
  verifySignature pub hash sig := [firstStatement, secondStatement].any fun s =>
    sig = beBytes 71 s.signature && hash = beBytes 32 s.messageHash && pub = s.key
  -- all ids and keys here are in lower case
  lower := id

def start (minVerifierVotes : ℕ) : JoinHandlers :=
  { cm := .fresh trustedNodes minVerifierVotes 1699999999 }

def request : JoinAction := .request stranger 1700000000 0 7 challenge {}

def attestation (s : Statement) : JoinAction :=
  .attest stranger 1700000010 (some 100) (some 100)
    { candidateNodeId := s.candidate
      verifierNodeId := "198.51.100.1:8333"
      verifierPubkey := s.key
      challengeId := 7
      signature := beBytes 71 s.signature
      timestamp := 1700000010 }

/-- The peer was sent its challenge. -/
def challenged (minVerifierVotes : ℕ) : JoinHandlers :=
  ((start minVerifierVotes).apply crypto request).apply crypto
    (.replySent stranger.address .done)

def attested (minVerifierVotes : ℕ) : JoinHandlers :=
  (challenged minVerifierVotes).apply crypto (attestation firstStatement)

/-- The second attestation for the challenge. -/
def attestedAgain (minVerifierVotes : ℕ) : JoinHandlers :=
  (attested minVerifierVotes).apply crypto (attestation secondStatement)

lemma narrow_challenged (s : JoinHandlers) (h : s = start 2 ∨ s = (start 2).apply crypto request ∨
    s = challenged 2) : s.NarrowCounts := by
  have hchain : s.cm.authorityChain = (start 2).cm.authorityChain := by
    rcases h with rfl | rfl | rfl
    · rfl
    · rfl
    · rfl
  have hvotes : (start 2).cm.authorityChain.attestations = KeyedRows.empty.put "198.51.100.1"
      (KeyedRows.empty.put "node:198.51.100.1"
        ⟨"node:198.51.100.1", "198.51.100.1", "bootstrap", 1699999999⟩) := by
    decide +kernel
  rw [JoinHandlers.NarrowCounts, hchain]
  refine ⟨by decide +kernel, ?_⟩
  intro node
  rw [attestationVoteCount, hvotes, KeyedRows.get?_put]
  split_ifs
  · decide
  · rw [KeyedRows.get?_empty]
    decide

lemma run_challenged (allowed : JoinHandlers → Prop) (minVerifierVotes : ℕ)
    (hstart : allowed (start minVerifierVotes))
    (hsent : allowed ((start minVerifierVotes).apply crypto request))
    (hwaiting : ((start minVerifierVotes).apply crypto request).waiting.get? stranger.address =
      some .done) :
    JoinHandlers.Run crypto allowed (start minVerifierVotes) (challenged minVerifierVotes) := by
  have hrequest : JoinHandlers.Run crypto allowed (start minVerifierVotes)
      ((start minVerifierVotes).apply crypto request) :=
    JoinHandlers.Run.start.step request hstart ⟨rfl, by simp [start]⟩
  exact hrequest.step (.replySent stranger.address .done) hsent hwaiting

/-- The steps of the run and what it comes to. -/
lemma attestedAgain_values :
    (((start 65536).apply crypto request).waiting.get? stranger.address = some .done ∧
      ((challenged 65536).waiting.get? stranger.address = none ∧
        stranger.address ∉ (challenged 65536).closed) ∧
      (attested 65536).waiting.get? stranger.address = none ∧
        stranger.address ∉ (attested 65536).closed) ∧
      (attestedAgain 65536).issued = 1 ∧ (attestedAgain 65536).votes.count 0 = 2 ∧
      (challenged 65536).cm.authorityChain.getAttestationVoteCount "203.0.113.66:4000" = 0 ∧
      (challenged 65536).cm.authorityChain.getAttestationVoteCount "203.0.113.67:4000" = 0 ∧
      (attestedAgain 65536).cm.authorityChain.getAttestationVoteCount "203.0.113.66:4000" = 1 ∧
      (attestedAgain 65536).cm.authorityChain.getAttestationVoteCount "203.0.113.67:4000" = 1 := by
  decide +kernel

end JoinHandlersExample

open JoinHandlersExample in
open AdmissionExample (stranger) in
/-- The first attestation for the challenge is its one vote. -/
theorem JoinHandlers.votes_count_le_one_attested : (attested 2).votes.count 0 ≤ 1 := by
  have hsent : ((start 2).apply crypto request).waiting.get? stranger.address = some .done := by
    decide +kernel
  have hchallenged : Run crypto NarrowCounts (start 2) (challenged 2) :=
    run_challenged NarrowCounts 2 (narrow_challenged _ (.inl rfl))
      (narrow_challenged _ (.inr (.inl rfl))) hsent
  have hidle : (challenged 2).waiting.get? stranger.address = none := by decide +kernel
  have hopen : stranger.address ∉ (challenged 2).closed := by decide +kernel
  have hattested : Run crypto NarrowCounts (start 2) (attested 2) :=
    hchallenged.step (attestation firstStatement) (narrow_challenged _ (.inr (.inr rfl)))
      ⟨hidle, hopen⟩
  have hstart : (start 2).cm.admissionChallenges = KeyedRows.empty := rfl
  exact votes_count_le_one crypto hstart hattested 0

open JoinHandlersExample in
/-- With 65536 votes asked for, no reply can be written, the challenge stays, and it brings a vote for
each of two candidates. -/
theorem JoinHandlers.two_votes_for_challenge :
    Run crypto (fun _ => True) (start 65536) (attestedAgain 65536) ∧
      (attestedAgain 65536).issued = 1 ∧ (attestedAgain 65536).votes.count 0 = 2 ∧
      (challenged 65536).cm.authorityChain.getAttestationVoteCount "203.0.113.66:4000" = 0 ∧
      (challenged 65536).cm.authorityChain.getAttestationVoteCount "203.0.113.67:4000" = 0 ∧
      (attestedAgain 65536).cm.authorityChain.getAttestationVoteCount "203.0.113.66:4000" = 1 ∧
      (attestedAgain 65536).cm.authorityChain.getAttestationVoteCount "203.0.113.67:4000" = 1 := by
  obtain ⟨hpossible, hvotes⟩ := attestedAgain_values
  refine ⟨?_, hvotes⟩
  have hchallenged : Run crypto (fun _ => True) (start 65536) (challenged 65536) :=
    run_challenged (fun _ => True) 65536 trivial trivial hpossible.1
  have hattested : Run crypto (fun _ => True) (start 65536)
      ((challenged 65536).apply crypto (attestation firstStatement)) :=
    .step _ hchallenged trivial hpossible.2.1
  have hagain : Run crypto (fun _ => True) (start 65536)
      ((attested 65536).apply crypto (attestation secondStatement)) :=
    .step _ hattested trivial hpossible.2.2
  exact hagain

end BerzCoin
