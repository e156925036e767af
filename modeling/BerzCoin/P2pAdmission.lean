import BerzCoin.P2pAuthority
import BerzCoin.ProtocolMessages

/-! `join_request` and `join_attest` as `ConnectionManager` handles them. Metrics are left
out, and every reply reaches the peer; `JoinHandlers` has the replies that fail. -/
namespace BerzCoin

/-- `PublicKey.from_bytes(bytes.fromhex(...))`, `verify_signature` and `str.lower`. -/
structure AdmissionCrypto where
  PublicKey : Type
  hashlib : Hashlib
  publicKeyOfHex : String → Option PublicKey
  verifySignature : PublicKey → Bytes → Bytes → Bool
  lower : String → String

/-- `_build_join_attestation_hash`. -/
def AdmissionCrypto.buildJoinAttestationHash (C : AdmissionCrypto)
    (candidateNodeId candidatePubkeyHex : String) (challengeId : UInt64) (challenge : Bytes) :
    Bytes :=
  let bar : Bytes := "|".toUTF8.toList
  C.hashlib.hash256 (candidateNodeId.toUTF8.toList ++ bar ++
    (candidatePubkeyHex.toList.filter (·.toNat < 128)).map (fun c => UInt8.ofNat c.toNat) ++ bar ++
    beBytes 8 challengeId.toNat ++ bar ++ challenge)

structure PendingChallenge where
  challengeId : UInt64
  challenge : Bytes
  expiresAt : ℕ
  candidateNodeId : String
  candidatePubkey : String
  deriving DecidableEq

structure ConnectionManager where
  authorityChainEnabled : Bool := true
  authorityChain : NodeAuthorityChain
  admissionChallenges : KeyedRows String PendingChallenge := KeyedRows.empty
  seenAttestChallenges : KeyedRows String ℕ := KeyedRows.empty
  joinReqTimesByHost : KeyedRows String (List ℚ) := KeyedRows.empty
  joinReqWindowSecs : ℚ := 60
  joinReqMaxPerHost : ℕ := 20
  attestationMaxSkewSecs : ℕ := 300

/-- A peer by its address and its host. -/
structure PeerName where
  address : String
  host : String
  deriving DecidableEq

inductive JoinReply
  | challenge (m : JoinChallengeMessage)
  | result (accepted : Bool) (code : ℕ) (reason : String) (requiredVotes receivedVotes : ℕ)
  | disconnect
  deriving DecidableEq

/-- What an attestation that passed the checks says. -/
structure CheckedAttest where
  candidate : String
  candidatePubkey : String
  verifier : String
  replayKey : String
  expiresAt : ℕ
  deriving DecidableEq

namespace ConnectionManager
variable (cm : ConnectionManager)

def allowJoinRequest (host : String) (clock : ℚ) : ConnectionManager × Bool :=
  let key := if strip host = "" then "unknown" else strip host
  let arr := ((cm.joinReqTimesByHost.get? key).getD []).filter
    (clock - · < cm.joinReqWindowSecs)
  if cm.joinReqMaxPerHost ≤ arr.length then
    ({ cm with joinReqTimesByHost := cm.joinReqTimesByHost.put key arr }, false)
  else ({ cm with joinReqTimesByHost := cm.joinReqTimesByHost.put key (arr ++ [clock]) }, true)

/-- `clock` is the time of the event loop; the challenge is random. -/
def handleJoinRequest (peer : PeerName) (now : ℕ) (clock : ℚ) (challengeId : UInt64)
    (challenge : Bytes) (request : JoinRequestMessage) : ConnectionManager × List JoinReply :=
  if !cm.authorityChainEnabled then (cm, [])
  else
    let (cm, allowed) := cm.allowJoinRequest peer.host clock
    if !allowed then (cm, [])
    else
      let pending : PendingChallenge :=
        { challengeId
          challenge
          expiresAt := now + 60
          candidateNodeId := if request.nodeId = "" then peer.address else request.nodeId
          candidatePubkey := request.pubkey }
      ({ cm with admissionChallenges := cm.admissionChallenges.put peer.address pending },
        [.challenge ⟨challengeId, challenge, UInt64.ofNat (now + 60)⟩])

/-- `_is_verifier_ready`, from the height of the chain state and of the best peer. -/
def isVerifierReady (localHeight remoteHeight : Option ℕ) : Bool :=
  if !cm.authorityChainEnabled then true
  else
    match localHeight, remoteHeight with
    | none, _ => false
    | some _, none => true
    | some height, some remote => remote - height ≤ 2

def rejection (code : ℕ) (reason : String) : List JoinReply :=
  [.result false code reason cm.authorityChain.minVerifierVotes 0]

def cleanupSeenAttestations (now : ℕ) : ConnectionManager :=
  { cm with
    seenAttestChallenges := cm.seenAttestChallenges.deleteWhere fun key =>
      (cm.seenAttestChallenges.get? key).any (· ≤ now) }

variable (C : AdmissionCrypto)

/-- `candidate` in `handle_join_attest`. -/
def attestCandidate (peer : PeerName) (pending : PendingChallenge) (att : JoinAttestMessage) :
    String :=
  if att.candidateNodeId ≠ "" then att.candidateNodeId
  else if pending.candidateNodeId ≠ "" then pending.candidateNodeId
  else peer.address

/-- `candidate_pubkey` in `handle_join_attest`, from the key that the message calls the
verifier's. -/
def attestPubkey (pending : PendingChallenge) (att : JoinAttestMessage) : String :=
  C.lower (strip (if att.verifierPubkey ≠ "" then att.verifierPubkey else pending.candidatePubkey))

def replayKey (candidate : String) (att : JoinAttestMessage) : String :=
  C.lower candidate ++ ":" ++ toString att.challengeId.toNat

/-- The signature check, and the one against a replay. -/
def checkSignature (peer : PeerName) (pending : PendingChallenge) (now : ℕ)
    (att : JoinAttestMessage) (candidate candidatePubkey : String) :
    Except (ℕ × String) CheckedAttest :=
  match C.publicKeyOfHex candidatePubkey with
  | none => .error (7, "bad_candidate_pubkey")
  | some pub =>
    let msgHash := C.buildJoinAttestationHash candidate candidatePubkey att.challengeId
      pending.challenge
    if !C.verifySignature pub msgHash att.signature then
      .error (8, "invalid_attestation_signature")
    else if cm.seenAttestChallenges.contains (replayKey C candidate att) then
      .error (11, "attestation_replay")
    else
      .ok
        { candidate
          candidatePubkey
          verifier := if att.verifierNodeId ≠ "" then att.verifierNodeId else peer.address
          replayKey := replayKey C candidate att
          expiresAt := if pending.expiresAt ≠ 0 then pending.expiresAt else now + 300 }

/-- The checks of `handle_join_attest` with the pending challenge of the peer. -/
def checkJoinAttest (peer : PeerName) (pending : PendingChallenge) (now : ℕ) (ready : Bool)
    (att : JoinAttestMessage) : Except (ℕ × String) CheckedAttest :=
  if cm.attestationMaxSkewSecs < ((now : ℤ) - (att.timestamp.toNat : ℤ)).natAbs then
    .error (10, "attestation_time_skew")
  else if att.challengeId ≠ pending.challengeId then .error (2, "challenge_mismatch")
  else if !ready then .error (4, "verifier_not_synced")
  else if attestPubkey C pending att = "" then .error (5, "missing_candidate_pubkey")
  else if !cm.authorityChain.validateRejoinIdentity C.lower (attestCandidate peer pending att)
      (attestPubkey C pending att) then
    .error (6, "rejoin_identity_mismatch")
  else
    cm.checkSignature C peer pending now att (attestCandidate peer pending att)
      (attestPubkey C pending att)

/-- The vote of an attestation that passed the checks. -/
def countAttest (peer : PeerName) (now : ℕ) (checked : CheckedAttest) :
    ConnectionManager × List JoinReply :=
  let (voted, accepted) := cm.authorityChain.verify C.lower checked.verifier checked.candidate
    (some ("pubkey:" ++ checked.candidatePubkey)) now
  let chain := if accepted then
    (voted.registerNodeIdentity C.lower checked.candidate checked.candidatePubkey).1 else voted
  ({ cm with
      authorityChain := chain
      seenAttestChallenges := cm.seenAttestChallenges.put checked.replayKey checked.expiresAt
      admissionChallenges := cm.admissionChallenges.delete peer.address },
    .result accepted (if accepted then 0 else 3)
        (if accepted then "accepted" else "insufficient_attestations")
        chain.minVerifierVotes (chain.getAttestationVoteCount checked.candidate) ::
      if !accepted && chain.admissionMode = .strict then [.disconnect] else [])

/-- The attestation that `handle_join_attest` hands to `authority_chain.verify`. -/
def checkedAttest (peer : PeerName) (now : ℕ) (localHeight remoteHeight : Option ℕ)
    (att : JoinAttestMessage) : Option CheckedAttest :=
  let cm := cm.cleanupSeenAttestations now
  match cm.admissionChallenges.get? peer.address with
  | none => none
  | some pending =>
    if pending.expiresAt ≠ 0 && pending.expiresAt < now then none
    else
      (cm.checkJoinAttest C peer pending now (cm.isVerifierReady localHeight remoteHeight)
        att).toOption

def handleJoinAttest (peer : PeerName) (now : ℕ) (localHeight remoteHeight : Option ℕ)
    (att : JoinAttestMessage) : ConnectionManager × List JoinReply :=
  if !cm.authorityChainEnabled then (cm, [])
  else
    let cm := cm.cleanupSeenAttestations now
    match cm.admissionChallenges.get? peer.address with
    | none => (cm, cm.rejection 1 "no_pending_challenge")
    | some pending =>
      if pending.expiresAt ≠ 0 && pending.expiresAt < now then
        ({ cm with admissionChallenges := cm.admissionChallenges.delete peer.address },
          cm.rejection 9 "challenge_expired")
      else
        match cm.checkJoinAttest C peer pending now (cm.isVerifierReady localHeight remoteHeight)
            att with
        | .error (code, reason) => (cm, cm.rejection code reason)
        | .ok checked => cm.countAttest C peer now checked

end ConnectionManager
end BerzCoin
