import BerzCoin.P2pAdmission
import BerzCoin.Quorum

/-! Runs of admission messages: whose signatures stand behind a verified node. -/
namespace BerzCoin
open NodeAuthorityChain

namespace NodeAuthorityChain
variable {chain : NodeAuthorityChain} {lower : String → String}

/-- The ids of the votes for a node. -/
def votes (chain : NodeAuthorityChain) (node : String) : List String :=
  ((chain.attestations.get? node).getD KeyedRows.empty).keys

lemma nodup_votes (node : String) : (chain.votes node).Nodup :=
  ((chain.attestations.get? node).getD KeyedRows.empty).nodupKeys

lemma attestationVoteCount_eq (node : String) :
    chain.attestationVoteCount node = (chain.votes node).length := by
  simp [attestationVoteCount, votes, KeyedRows.keys]

lemma mem_votes_addVote {target verifierId verifierNode source node vote : String} {now : ℕ}
    (h : vote ∈ (chain.addVote target verifierId verifierNode source now).votes node) :
    vote ∈ chain.votes node ∨ (node = target ∧ vote = verifierId) := by
  by_cases hnode : node = target
  · subst hnode
    simp only [votes, addVote, KeyedRows.get?_put, if_pos, Option.getD_some] at h
    split_ifs at h with hcontains
    · exact Or.inl h
    · rw [KeyedRows.mem_keys, KeyedRows.get?_put] at h
      by_cases hvote : vote = verifierId
      · exact Or.inr ⟨rfl, hvote⟩
      · rw [if_neg hvote] at h
        exact Or.inl (KeyedRows.mem_keys.2 h)
  · simp only [votes, addVote, KeyedRows.get?_put, if_neg hnode] at h
    exact Or.inl h

lemma addTrusted_cases (chain : NodeAuthorityChain) (now : ℕ) (trusted : String) :
    (chain.addTrusted now trusted).minVerifierVotes = chain.minVerifierVotes ∧
      (∀ node ∈ (chain.addTrusted now trusted).verifiedNodes,
        node = normalize trusted ∨ node ∈ chain.verifiedNodes) ∧
      ∀ node ∉ (chain.addTrusted now trusted).verifiedNodes, node ∉ chain.verifiedNodes ∧
        (chain.addTrusted now trusted).votes node = chain.votes node := by
  unfold addTrusted
  dsimp only
  split_ifs with hempty
  · exact ⟨rfl, fun node hnode => Or.inr hnode, fun node hnode => ⟨hnode, rfl⟩⟩
  · refine ⟨rfl, fun node hnode => Finset.mem_insert.1 hnode, ?_⟩
    intro node hnode
    have hnot := (Finset.mem_insert.not.1 hnode)
    push Not at hnot
    refine ⟨hnot.2, ?_⟩
    simp only [votes, KeyedRows.get?_put, if_neg hnot.1]

/-- What a vote that is not forced does: nothing, or it joins the votes for the target, which is
verified when they are enough. -/
lemma verify_cases (chain : NodeAuthorityChain) (lower : String → String)
    (verifier target : String) {identity : String} (now : ℕ) (hidentity : identity ≠ "") :
    (chain.verify lower verifier target (some identity) now).1 = chain ∨
      ∃ voted : NodeAuthorityChain,
        voted = chain.addVote (normalize target) (normalizeVerifierId lower identity)
          (normalize verifier) "transitive" now ∧
        chain.knows (normalize verifier) (normalizeVerifierId lower identity) = true ∧
        ((chain.verify lower verifier target (some identity) now).1 = voted ∨
          chain.minVerifierVotes ≤ voted.attestationVoteCount (normalize target) ∧
            (chain.verify lower verifier target (some identity) now).1 =
              voted.acceptVerified (normalize target) (normalizeVerifierId lower identity)) := by
  have hid : ((some identity).filter (· ≠ "")).getD (defaultVerifierId (normalize verifier)) =
      identity := by
    rw [Option.filter_some, if_pos (by simpa using hidentity)]
    rfl
  simp only [verify, attest]
  by_cases hnames : (normalize verifier = "" || normalize target = "") = true
  · left
    rw [if_pos hnames]
  · rw [if_neg hnames, hid]
    by_cases hempty : normalizeVerifierId lower identity = ""
    · left
      rw [if_pos hempty]
    · rw [if_neg hempty]
      by_cases hknown : chain.knows (normalize verifier) (normalizeVerifierId lower identity) = true
      · right
        refine ⟨_, rfl, hknown, ?_⟩
        rw [if_neg (by simp [hknown])]
        split_ifs with haccept
        · exact Or.inr ⟨by simpa only [Bool.false_or, decide_eq_true_eq] using haccept, rfl⟩
        · exact Or.inl rfl
      · left
        rw [if_pos (by simp [hknown])]

lemma registerNodeIdentity_frame (nodeId pubkeyHex : String) :
    ∃ identities, (chain.registerNodeIdentity lower nodeId pubkeyHex).1 =
      { chain with nodeIdentities := identities } := by
  unfold registerNodeIdentity
  dsimp only
  split_ifs
  · exact ⟨_, rfl⟩
  · split
    · split_ifs
      · exact ⟨_, rfl⟩
      · exact ⟨_, rfl⟩
    · exact ⟨_, rfl⟩

end NodeAuthorityChain

/-- A message to handle, with what the node reads off its clock, random source and chain. -/
inductive JoinEvent
  | request (peer : PeerName) (now : ℕ) (clock : ℚ) (challengeId : UInt64) (challenge : Bytes)
      (message : JoinRequestMessage)
  | attest (peer : PeerName) (now : ℕ) (localHeight remoteHeight : Option ℕ)
      (message : JoinAttestMessage)

namespace ConnectionManager
variable (C : AdmissionCrypto)

def handleJoin (cm : ConnectionManager) : JoinEvent → ConnectionManager
  | .request peer now clock challengeId challenge message =>
    (cm.handleJoinRequest peer now clock challengeId challenge message).1
  | .attest peer now localHeight remoteHeight message =>
    (cm.handleJoinAttest C peer now localHeight remoteHeight message).1

def runJoin (cm : ConnectionManager) (events : List JoinEvent) : ConnectionManager :=
  events.foldl (fun cm event => cm.handleJoin C event) cm

def voteId (pubkey : String) : String := normalizeVerifierId C.lower ("pubkey:" ++ pubkey)

variable (ownKey : String → String)

/-- An attestation of the events carries a signature for the node, valid under the verifier's
own key. -/
def SignedFor (events : List JoinEvent) (node verifier : String) : Prop :=
  ∃ peer now localHeight remoteHeight att candidate challenge pub,
    JoinEvent.attest peer now localHeight remoteHeight att ∈ events ∧
      normalize candidate = node ∧ C.publicKeyOfHex (ownKey verifier) = some pub ∧
      C.verifySignature pub
        (C.buildJoinAttestationHash candidate (ownKey verifier) att.challengeId challenge)
        att.signature = true

/-- An attestation that is handed on for a vote, by a verifier that the node knows, names a
verified node, and the key under which it is checked is that node's own. -/
def Genuine (cm : ConnectionManager) : JoinEvent → Prop
  | .request .. => True
  | .attest peer now localHeight remoteHeight att =>
    ∀ checked, cm.checkedAttest C peer now localHeight remoteHeight att = some checked →
      cm.authorityChain.knows (normalize checked.verifier) (voteId C checked.candidatePubkey) = true →
        normalize checked.verifier ∈ cm.authorityChain.verifiedNodes ∧
          checked.candidatePubkey = ownKey (normalize checked.verifier)

/-- Each vote for a node that is not verified comes from a verified node's signature for it. -/
def VotesBacked (events : List JoinEvent) (cm : ConnectionManager) : Prop :=
  ∀ node ∉ cm.authorityChain.verifiedNodes, ∀ vote ∈ cm.authorityChain.votes node,
    ∃ verifier, (verifier ∈ cm.authorityChain.verifiedNodes ∧
      SignedFor C ownKey events node verifier) ∧ voteId C (ownKey verifier) = vote

section step
variable {C ownKey} {cm : ConnectionManager}

lemma handleJoinRequest_authorityChain (peer : PeerName) (now : ℕ) (clock : ℚ)
    (challengeId : UInt64) (challenge : Bytes) (message : JoinRequestMessage) :
    (cm.handleJoinRequest peer now clock challengeId challenge message).1.authorityChain =
      cm.authorityChain := by
  unfold handleJoinRequest allowJoinRequest
  dsimp only
  split_ifs <;> rfl

lemma countAttest_authorityChain (C : AdmissionCrypto) (cm : ConnectionManager) (peer : PeerName)
    (now : ℕ) (checked : CheckedAttest) :
    ∃ identities, (cm.countAttest C peer now checked).1.authorityChain =
      { (cm.authorityChain.verify C.lower checked.verifier checked.candidate
          (some ("pubkey:" ++ checked.candidatePubkey)) now).1 with
        nodeIdentities := identities } := by
  unfold countAttest
  generalize cm.authorityChain.verify C.lower checked.verifier checked.candidate
    (some ("pubkey:" ++ checked.candidatePubkey)) now = result
  obtain ⟨voted, accepted⟩ := result
  cases accepted with
  | true => exact registerNodeIdentity_frame checked.candidate checked.candidatePubkey
  | false => exact ⟨voted.nodeIdentities, rfl⟩

/-- What an attestation does to the authority chain. -/
lemma handleJoinAttest_cases (C : AdmissionCrypto) (cm : ConnectionManager) (peer : PeerName)
    (now : ℕ) (localHeight remoteHeight : Option ℕ) (att : JoinAttestMessage) :
    (cm.handleJoinAttest C peer now localHeight remoteHeight att).1.authorityChain =
        cm.authorityChain ∨
      ∃ checked identities, cm.checkedAttest C peer now localHeight remoteHeight att = some checked ∧
        (cm.handleJoinAttest C peer now localHeight remoteHeight att).1.authorityChain =
          { (cm.authorityChain.verify C.lower checked.verifier checked.candidate
              (some ("pubkey:" ++ checked.candidatePubkey)) now).1 with
            nodeIdentities := identities } := by
  have hclean : (cm.cleanupSeenAttestations now).authorityChain = cm.authorityChain := rfl
  unfold handleJoinAttest checkedAttest
  split_ifs with henabled
  · exact Or.inl rfl
  · rw [← hclean]
    generalize cm.cleanupSeenAttestations now = clean
    dsimp only
    cases clean.admissionChallenges.get? peer.address with
    | none => exact Or.inl rfl
    | some pending =>
      dsimp only
      split_ifs with hexpired
      · exact Or.inl rfl
      · generalize clean.checkJoinAttest C peer pending now
          (clean.isVerifierReady localHeight remoteHeight) att = result
        cases result with
        | error e => exact Or.inl rfl
        | ok checked =>
          right
          obtain ⟨identities, hidentities⟩ := countAttest_authorityChain C clean peer now checked
          refine ⟨checked, identities, rfl, ?_⟩
          dsimp only
          rw [hidentities]

lemma checkSignature_ok {peer : PeerName} {pending : PendingChallenge} {now : ℕ}
    {att : JoinAttestMessage} {candidate candidatePubkey : String} {checked : CheckedAttest}
    (h : cm.checkSignature C peer pending now att candidate candidatePubkey = .ok checked) :
    checked.candidate = candidate ∧ checked.candidatePubkey = candidatePubkey ∧
      ∃ pub, C.publicKeyOfHex candidatePubkey = some pub ∧
        C.verifySignature pub (C.buildJoinAttestationHash candidate candidatePubkey
          att.challengeId pending.challenge) att.signature = true := by
  unfold checkSignature at h
  cases hpub : C.publicKeyOfHex candidatePubkey with
  | none => simp [hpub] at h
  | some pub =>
    simp only [hpub] at h
    split at h
    · cases h
    · rename_i hsignature
      split at h
      · cases h
      · cases h
        exact ⟨rfl, rfl, pub, rfl, by simpa using hsignature⟩

lemma checkJoinAttest_signature {peer : PeerName} {pending : PendingChallenge} {now : ℕ}
    {ready : Bool} {att : JoinAttestMessage} {checked : CheckedAttest}
    (h : cm.checkJoinAttest C peer pending now ready att = .ok checked) :
    ∃ pub, C.publicKeyOfHex checked.candidatePubkey = some pub ∧
      C.verifySignature pub (C.buildJoinAttestationHash checked.candidate checked.candidatePubkey
        att.challengeId pending.challenge) att.signature = true := by
  unfold checkJoinAttest at h
  split_ifs at h
  obtain ⟨hcandidate, hpubkey, hsignature⟩ := checkSignature_ok h
  rw [hcandidate, hpubkey]
  exact hsignature

lemma checkedAttest_signature {peer : PeerName} {now : ℕ} {localHeight remoteHeight : Option ℕ}
    {att : JoinAttestMessage} {checked : CheckedAttest}
    (h : cm.checkedAttest C peer now localHeight remoteHeight att = some checked) :
    ∃ challenge pub, C.publicKeyOfHex checked.candidatePubkey = some pub ∧
      C.verifySignature pub (C.buildJoinAttestationHash checked.candidate checked.candidatePubkey
        att.challengeId challenge) att.signature = true := by
  unfold checkedAttest at h
  dsimp only at h
  split at h
  · cases h
  · rename_i pending _
    split_ifs at h
    cases hcheck : (cm.cleanupSeenAttestations now).checkJoinAttest C peer pending now
        ((cm.cleanupSeenAttestations now).isVerifierReady localHeight remoteHeight) att with
    | error e =>
      rw [hcheck] at h
      cases h
    | ok result =>
      rw [hcheck] at h
      cases h
      obtain ⟨pub, hpub, hsignature⟩ := checkJoinAttest_signature hcheck
      exact ⟨pending.challenge, pub, hpub, hsignature⟩

lemma SignedFor.mono {events : List JoinEvent} {node verifier : String} (event : JoinEvent)
    (h : SignedFor C ownKey events node verifier) :
    SignedFor C ownKey (events ++ [event]) node verifier := by
  obtain ⟨peer, now, localHeight, remoteHeight, att, candidate, challenge, pub, hmem, h⟩ := h
  exact ⟨peer, now, localHeight, remoteHeight, att, candidate, challenge, pub,
    List.mem_append_left _ hmem, h⟩

/-- The supporters that a vote list has before the step. -/
def BackedBy (C : AdmissionCrypto) (ownKey : String → String) (cm : ConnectionManager)
    (events : List JoinEvent) (node vote : String) : Prop :=
  ∃ verifier, (verifier ∈ cm.authorityChain.verifiedNodes ∧
    SignedFor C ownKey events node verifier) ∧ voteId C (ownKey verifier) = vote

lemma backedBy_addVote {events : List JoinEvent} {peer : PeerName} {now : ℕ}
    {localHeight remoteHeight : Option ℕ} {att : JoinAttestMessage} {checked : CheckedAttest}
    (hbacked : VotesBacked C ownKey events cm)
    (hgenuine : Genuine C ownKey cm (.attest peer now localHeight remoteHeight att))
    (hchecked : cm.checkedAttest C peer now localHeight remoteHeight att = some checked)
    (hknown : cm.authorityChain.knows (normalize checked.verifier)
      (voteId C checked.candidatePubkey) = true) {node vote : String}
    (hnode : node ∉ cm.authorityChain.verifiedNodes)
    (hvote : vote ∈ (cm.authorityChain.addVote (normalize checked.candidate)
      (voteId C checked.candidatePubkey) (normalize checked.verifier) "transitive" now).votes node) :
    BackedBy C ownKey cm (events ++ [.attest peer now localHeight remoteHeight att]) node vote := by
  rcases mem_votes_addVote hvote with hold | ⟨rfl, rfl⟩
  · obtain ⟨verifier, ⟨hverified, hsigned⟩, hid⟩ := hbacked node hnode vote hold
    exact ⟨verifier, ⟨hverified, hsigned.mono _⟩, hid⟩
  · obtain ⟨hverified, hkey⟩ := hgenuine checked hchecked hknown
    obtain ⟨challenge, pub, hpub, hsignature⟩ := checkedAttest_signature hchecked
    rw [hkey] at hpub hsignature
    exact ⟨normalize checked.verifier, ⟨hverified, peer, now, localHeight, remoteHeight, att,
      checked.candidate, challenge, pub, by simp, rfl, hpub, hsignature⟩, by rw [hkey]⟩

/-- What a step has to do for the votes to stay backed and for the verified nodes to have enough
supporters. -/
structure Advances (C : AdmissionCrypto) (ownKey : String → String) (cm : ConnectionManager)
    (events : List JoinEvent) (next : NodeAuthorityChain) : Prop where
  minVerifierVotes : next.minVerifierVotes = cm.authorityChain.minVerifierVotes
  verified : ∀ node ∈ cm.authorityChain.verifiedNodes, node ∈ next.verifiedNodes
  backed : ∀ node ∉ cm.authorityChain.verifiedNodes, ∀ vote ∈ next.votes node,
    BackedBy C ownKey cm events node vote
  enough : ∀ node ∈ next.verifiedNodes, node ∉ cm.authorityChain.verifiedNodes →
    cm.authorityChain.minVerifierVotes ≤ (next.votes node).length

lemma Advances.votesBacked {events : List JoinEvent} {next : ConnectionManager}
    (h : Advances C ownKey cm events next.authorityChain) : VotesBacked C ownKey events next := by
  intro node hnode vote hvote
  have hbefore : node ∉ cm.authorityChain.verifiedNodes := fun hmem => hnode (h.verified node hmem)
  obtain ⟨verifier, ⟨hverified, hsigned⟩, hid⟩ := h.backed node hbefore vote hvote
  exact ⟨verifier, ⟨h.verified verifier hverified, hsigned⟩, hid⟩

lemma Advances.supported {events : List JoinEvent} {next : NodeAuthorityChain}
    (h : Advances C ownKey cm events next) {node : String} (hnode : node ∈ next.verifiedNodes)
    (hnew : node ∉ cm.authorityChain.verifiedNodes) :
    Quorum.Supported cm.authorityChain.minVerifierVotes (· ∈ cm.authorityChain.verifiedNodes)
      (SignedFor C ownKey events node) :=
  (Quorum.supported_of_votes (fun verifier => voteId C (ownKey verifier)) (nodup_votes node)
    (h.backed node hnew)).of_le (h.enough node hnode hnew)

lemma advances_of_unchanged {events : List JoinEvent} (event : JoinEvent)
    {next : NodeAuthorityChain} (hbacked : VotesBacked C ownKey events cm)
    (hnext : next = cm.authorityChain) : Advances C ownKey cm (events ++ [event]) next := by
  subst hnext
  refine ⟨rfl, fun node hnode => hnode, ?_, fun node hmem hnew => absurd hmem hnew⟩
  intro node hnode vote hvote
  obtain ⟨verifier, ⟨hverified, hsigned⟩, hid⟩ := hbacked node hnode vote hvote
  exact ⟨verifier, ⟨hverified, hsigned.mono event⟩, hid⟩

lemma pubkey_ne_empty (pubkey : String) : "pubkey:" ++ pubkey ≠ "" := by
  intro h
  have hlist := congrArg String.toList h
  simp at hlist

/-- One message, when it is genuine. -/
lemma advances_handleJoin {events : List JoinEvent} {event : JoinEvent}
    (hbacked : VotesBacked C ownKey events cm) (hgenuine : Genuine C ownKey cm event) :
    Advances C ownKey cm (events ++ [event]) (cm.handleJoin C event).authorityChain := by
  cases event with
  | request peer now clock challengeId challenge message =>
    exact advances_of_unchanged _ hbacked
      (handleJoinRequest_authorityChain peer now clock challengeId challenge message)
  | attest peer now localHeight remoteHeight att =>
    rcases handleJoinAttest_cases C cm peer now localHeight remoteHeight att with
      hchain | ⟨checked, identities, hchecked, hchain⟩
    · exact advances_of_unchanged _ hbacked hchain
    · rw [handleJoin, hchain]
      rcases verify_cases cm.authorityChain C.lower checked.verifier checked.candidate now
        (pubkey_ne_empty checked.candidatePubkey) with
        hsame | ⟨voted, hvoted, hknown, hvote | ⟨henough, haccepted⟩⟩
      · rw [hsame]
        have h := advances_of_unchanged (.attest peer now localHeight remoteHeight att) hbacked rfl
        exact ⟨rfl, h.verified, h.backed, h.enough⟩
      · rw [hvote]
        subst hvoted
        refine ⟨rfl, fun node hnode => hnode, ?_, fun node hmem hnew => absurd hmem hnew⟩
        intro node hnode vote hmem
        exact backedBy_addVote hbacked hgenuine hchecked hknown hnode hmem
      · rw [haccepted]
        subst hvoted
        refine ⟨rfl, fun node hnode => Finset.mem_insert_of_mem hnode, ?_, ?_⟩
        · intro node hnode vote hmem
          exact backedBy_addVote hbacked hgenuine hchecked hknown hnode hmem
        · intro node hmem hnew
          cases Finset.mem_insert.1 hmem with
          | inl heq =>
            subst heq
            rw [attestationVoteCount_eq] at henough
            exact henough
          | inr hold => exact absurd hold hnew

end step

/-- A system each step of which does to the authority chain what the message that it handles does, if
it handles one. -/
structure Handles {S A : Type} (cm : S → ConnectionManager) (step : S → A → S)
    (event : A → Option JoinEvent) : Prop where
  silent : ∀ s a, event a = none → (cm (step s a)).authorityChain = (cm s).authorityChain
  heard : ∀ s a e, event a = some e →
    (cm (step s a)).authorityChain = ((cm s).handleJoin C e).authorityChain

/-- The node became verified at a step of the system, and by then enough nodes that were already
verified had each signed for it. -/
def AdmittedIn {S A : Type} (cm : S → ConnectionManager) (step : S → A → S)
    (event : A → Option JoinEvent) (start : S) (k : ℕ) (actions : List A) (node : String) : Prop :=
  ∃ before a, before ++ [a] <+: actions ∧
    node ∉ (cm (before.foldl step start)).authorityChain.verifiedNodes ∧
    Quorum.Supported k (· ∈ (cm (before.foldl step start)).authorityChain.verifiedNodes)
      (SignedFor C ownKey ((before ++ [a]).filterMap event) node)

/-- A node with strict admission that has handled no message. -/
def fresh (trustedNodes : List String) (minVerifierVotes now : ℕ) : ConnectionManager :=
  { authorityChain := NodeAuthorityChain.init trustedNodes minVerifierVotes .strict now }

/-- The node became verified at a message of the run, and by then enough nodes that were already
verified had each signed for it. -/
def Admitted (start : ConnectionManager) (k : ℕ) (events : List JoinEvent) (node : String) : Prop :=
  ∃ before event, before ++ [event] <+: events ∧
    node ∉ (start.runJoin C before).authorityChain.verifiedNodes ∧
    Quorum.Supported k (· ∈ (start.runJoin C before).authorityChain.verifiedNodes)
      (SignedFor C ownKey (before ++ [event]) node)

/-- The condition on the steps of a run. -/
def GenuineRun (start : ConnectionManager) (events : List JoinEvent) : Prop :=
  ∀ before event, before ++ [event] <+: events → Genuine C ownKey (start.runJoin C before) event

section run
variable {C ownKey} {trustedNodes : List String} {k now : ℕ} {events : List JoinEvent}

/-- Only trusted nodes are verified, and no other node has a vote. -/
lemma init_spec (trustedNodes : List String) (k now : ℕ) (mode : AdmissionMode) :
    (NodeAuthorityChain.init trustedNodes k mode now).minVerifierVotes = max 1 k ∧
      (∀ node ∈ (NodeAuthorityChain.init trustedNodes k mode now).verifiedNodes,
        node ∈ trustedNodes.map normalize) ∧
      ∀ node ∉ (NodeAuthorityChain.init trustedNodes k mode now).verifiedNodes,
        (NodeAuthorityChain.init trustedNodes k mode now).votes node = [] := by
  induction trustedNodes using List.reverseRecOn with
  | nil =>
    refine ⟨rfl, ?_, fun node _ => rfl⟩
    intro node hnode
    simp [NodeAuthorityChain.init] at hnode
  | append_singleton trustedNodes trusted ih =>
    obtain ⟨hmin, hverified, hvotes⟩ := ih
    have hinit : NodeAuthorityChain.init (trustedNodes ++ [trusted]) k mode now =
        (NodeAuthorityChain.init trustedNodes k mode now).addTrusted now trusted := by
      simp [NodeAuthorityChain.init, List.foldl_append]
    obtain ⟨hmin', hverified', hvotes'⟩ :=
      addTrusted_cases (NodeAuthorityChain.init trustedNodes k mode now) now trusted
    rw [hinit]
    refine ⟨?_, ?_, ?_⟩
    · rw [hmin', hmin]
    · intro node hnode
      rw [List.map_append, List.mem_append]
      apply (hverified' node hnode).symm.imp (hverified node)
      intro heq
      rw [heq]
      exact List.mem_singleton_self (normalize trusted)
    · intro node hnode
      obtain ⟨hold, hsame⟩ := hvotes' node hnode
      rw [hsame, hvotes node hold]

/-- The votes and the admissions along a run of a system whose steps are genuine. -/
lemma Handles.spec {S A : Type} {cm : S → ConnectionManager} {step : S → A → S}
    {event : A → Option JoinEvent} (h : Handles C cm step event) {start : S}
    (hstart : (cm start).authorityChain = NodeAuthorityChain.init trustedNodes k .strict now)
    {actions : List A}
    (hgenuine : ∀ before a e, before ++ [a] <+: actions → event a = some e →
      Genuine C ownKey (cm (before.foldl step start)) e) :
    (cm (actions.foldl step start)).authorityChain.minVerifierVotes = max 1 k ∧
      VotesBacked C ownKey (actions.filterMap event) (cm (actions.foldl step start)) ∧
      ∀ node ∈ (cm (actions.foldl step start)).authorityChain.verifiedNodes,
        node ∈ trustedNodes.map normalize ∨
          AdmittedIn C ownKey cm step event start k actions node := by
  induction actions using List.reverseRecOn with
  | nil =>
    obtain ⟨hmin, hverified, hvotes⟩ := init_spec trustedNodes k now .strict
    simp only [List.foldl_nil, VotesBacked, hstart]
    refine ⟨hmin, ?_, fun node hnode => Or.inl (hverified node hnode)⟩
    intro node hnode vote hvote
    rw [hvotes node hnode] at hvote
    cases hvote
  | append_singleton actions a ih =>
    obtain ⟨hmin, hbacked, hverified⟩ := ih fun before last e hpre =>
      hgenuine before last e (hpre.trans (List.prefix_append _ _))
    have hmono {node : String} (hadmitted : AdmittedIn C ownKey cm step event start k actions node) :
        AdmittedIn C ownKey cm step event start k (actions ++ [a]) node := by
      obtain ⟨before, last, hpre, hrest⟩ := hadmitted
      exact ⟨before, last, hpre.trans (List.prefix_append _ _), hrest⟩
    cases he : event a with
    | none =>
      have hsame := h.silent (actions.foldl step start) a he
      simp only [List.foldl_append, List.foldl_cons, List.foldl_nil, List.filterMap_append,
        List.filterMap_cons, he, List.filterMap_nil, List.append_nil, VotesBacked, hsame]
      exact ⟨hmin, hbacked, fun node hnode => (hverified node hnode).imp id hmono⟩
    | some e =>
      have hadvances := advances_handleJoin hbacked (hgenuine actions a e List.prefix_rfl he)
      rw [← h.heard (actions.foldl step start) a e he] at hadvances
      have hevents : (actions ++ [a]).filterMap event = actions.filterMap event ++ [e] := by
        simp [he]
      rw [List.foldl_append, hevents]
      refine ⟨hadvances.minVerifierVotes.trans hmin, hadvances.votesBacked, ?_⟩
      intro node hnode
      by_cases hbefore : node ∈ (cm (actions.foldl step start)).authorityChain.verifiedNodes
      · exact (hverified node hbefore).imp id hmono
      · right
        have hsupported := hadvances.supported hnode hbefore
        rw [hmin] at hsupported
        refine ⟨actions, a, List.prefix_rfl, hbefore, ?_⟩
        rw [hevents]
        exact hsupported.of_le (le_max_right 1 k)

lemma handles_runJoin (C : AdmissionCrypto) :
    Handles C id (fun cm event => cm.handleJoin C event) some where
  silent cm event h := by cases h
  heard cm event e h := by
    cases h
    rfl

theorem admitted_of_genuineRun (hgenuine : GenuineRun C ownKey (fresh trustedNodes k now) events)
    {node : String}
    (hnode : node ∈ ((fresh trustedNodes k now).runJoin C events).authorityChain.verifiedNodes)
    (htrusted : node ∉ trustedNodes.map normalize) :
    Admitted C ownKey (fresh trustedNodes k now) k events node := by
  have hspec := @Handles.spec C ownKey trustedNodes k now _ _ _ _ _ (handles_runJoin C)
    (fresh trustedNodes k now) rfl events ?_
  · obtain ⟨before, event, hpre, hbefore, hsupported⟩ :=
      (hspec.2.2 node hnode).resolve_left htrusted
    rw [List.filterMap_some] at hsupported
    exact ⟨before, event, hpre, hbefore, hsupported⟩
  · intro before event e hpre he
    cases he
    exact hgenuine before event hpre

end run
end ConnectionManager

/-! The trusted node signs for a newcomer; a stranger signs for itself with its own key and names
the trusted node as the verifier. -/
namespace AdmissionExample

def trustedKey : String := "0300dd9037103f6b042ccaeccc2263e851d0cfc59122980b1bff177a1ef122e4d9"

def strangerKey : String := "0256d450629fe7c5297b28ca6c879911221ab729ae45fcf4202c48d7ebf2320feb"

def challenge : Bytes := List.replicate 32 0x5a

/-- A statement of a key about a candidate, with the digests of it and the signature. -/
structure Statement where
  candidate : String
  key : String
  digest : ℕ
  messageHash : ℕ
  signature : ℕ

def trustedStatement : Statement where
  candidate := "203.0.113.80:8333"
  key := trustedKey
  digest := 0xeb2fa55e2bb6ee676b753cbdfc50a3fc7796814fe5379011f1a35367b27bb487
  messageHash := 0x38e01cfa4b5a14d8dae7197f0cec8947b953a10cef0d72c8c3e8f66d48d62eb4
  signature := 0x3045022100d282d98e85313b223c7b5cb138617a69aca594a8db5bd10c8301ff1671c16cf602203e68a7300e46683999e8b20511b01508402a771d549aff467af35df912ecb533

def strangerStatement : Statement where
  candidate := "203.0.113.66:4000"
  key := strangerKey
  digest := 0x593281528760350bc3076c88ed4eb291cf4d753267b7d69bcd3cf86787adb9b1
  messageHash := 0x66dd0cad9f0e390bab52ffc01dd67d2b06b6346e8f6e467f169d7a0048d185a1
  signature := 0x304502210099500617badb5f233ba2d0808bcb9bc67092c706294acd201b1cc384177cc45902202e7a98076f44b607c36a432617afd1bdfbf28f51fcdc48728de33d8f42921a24

def Statement.material (s : Statement) : Bytes :=
  (s.candidate ++ "|" ++ s.key ++ "|").toUTF8.toList ++ beBytes 8 7 ++ "|".toUTF8.toList ++ challenge

/-- Keys are given by their hexadecimal texts; the two signatures are the valid ones. -/
def crypto : AdmissionCrypto where
  PublicKey := String
  hashlib := Hashlib.ofDigests ([trustedStatement, strangerStatement].flatMap fun s =>
    [(s.material, beBytes 32 s.digest), (beBytes 32 s.digest, beBytes 32 s.messageHash)])
  publicKeyOfHex text := if text ∈ [trustedKey, strangerKey] then some text else none
  verifySignature pub hash sig := [trustedStatement, strangerStatement].any fun s =>
    pub = s.key && hash = beBytes 32 s.messageHash && sig = beBytes 71 s.signature
  -- all ids and keys here are in lower case
  lower := id

def newcomer : PeerName := ⟨"203.0.113.80:8333", "203.0.113.80"⟩

def stranger : PeerName := ⟨"203.0.113.66:4000", "203.0.113.66"⟩

def request (peer : PeerName) : JoinEvent := .request peer 1700000000 0 7 challenge {}

def attestation (peer : PeerName) (s : Statement) : JoinEvent :=
  .attest peer 1700000010 (some 100) (some 100)
    { candidateNodeId := s.candidate
      verifierNodeId := "198.51.100.1:8333"
      verifierPubkey := s.key
      challengeId := 7
      signature := beBytes 71 s.signature
      timestamp := 1700000010 }

def trustedNodes : List String := ["198.51.100.1:8333"]

def start : ConnectionManager := .fresh trustedNodes 1 1699999999

def ownKey (node : String) : String :=
  if node = "198.51.100.1" then trustedKey else strangerKey

lemma prefix_cases {α : Type} {before : List α} {a b event : α} (h : before ++ [event] <+: [a, b]) :
    (before = [] ∧ event = a) ∨ (before = [a] ∧ event = b) := by
  obtain ⟨rest, heq⟩ := h
  match before with
  | [] => simp_all
  | [c] => simp_all
  | c :: d :: others => simp at heq

lemma genuineRun_newcomer :
    ConnectionManager.GenuineRun crypto ownKey start
      [request newcomer, attestation newcomer trustedStatement] := by
  intro before event hpre
  rcases prefix_cases hpre with ⟨rfl, rfl⟩ | ⟨rfl, rfl⟩
  · trivial
  · intro checked hchecked _
    have hvalue : (start.runJoin crypto [request newcomer]).checkedAttest crypto newcomer 1700000010
        (some 100) (some 100)
        { candidateNodeId := "203.0.113.80:8333"
          verifierNodeId := "198.51.100.1:8333"
          verifierPubkey := trustedKey
          challengeId := 7
          signature := beBytes 71 trustedStatement.signature
          timestamp := 1700000010 } =
        some ⟨"203.0.113.80:8333", trustedKey, "198.51.100.1:8333", "203.0.113.80:8333:7",
          1700000060⟩ := by
      decide +kernel
    cases hvalue.symm.trans hchecked
    decide +kernel

lemma verified_before {before : List JoinEvent}
    (h : before = [] ∨ before = [request stranger]) :
    (start.runJoin crypto before).authorityChain.verifiedNodes = {"198.51.100.1"} := by
  cases h with
  | inl hnil =>
    subst hnil
    decide +kernel
  | inr hrequest =>
    subst hrequest
    decide +kernel

lemma verifySignature_stranger (hash : Bytes) :
    crypto.verifySignature trustedKey hash (beBytes 71 strangerStatement.signature) = false := by
  have hsignature : beBytes 71 strangerStatement.signature ≠
      beBytes 71 trustedStatement.signature := by
    decide +kernel
  have hkey : trustedKey ≠ strangerStatement.key := by decide +kernel
  simp [crypto, hsignature, hkey]

lemma not_signedFor {events : List JoinEvent} {node : String}
    (hevents : events <+: [request stranger, attestation stranger strangerStatement]) :
    ¬ConnectionManager.SignedFor crypto ownKey events node "198.51.100.1" := by
  intro hsigned
  obtain ⟨peer, now, localHeight, remoteHeight, att, candidate, hashed, pub, hmem, _, hpub,
    hsignature⟩ := hsigned
  have hkey : pub = trustedKey := by
    have hvalue : crypto.publicKeyOfHex (ownKey "198.51.100.1") = some trustedKey := by
      simp [crypto, ownKey]
    exact Option.some.inj (hpub.symm.trans hvalue)
  subst hkey
  have hcases := hevents.subset hmem
  simp only [request, attestation, List.mem_cons, List.not_mem_nil, or_false, reduceCtorEq,
    false_or, JoinEvent.attest.injEq] at hcases
  obtain ⟨_, _, _, _, rfl⟩ := hcases
  rw [verifySignature_stranger] at hsignature
  cases hsignature

end AdmissionExample

open AdmissionExample in
theorem ConnectionManager.admitted_newcomer :
    ConnectionManager.Admitted crypto ownKey start 1
      [request newcomer, attestation newcomer trustedStatement] "203.0.113.80" :=
  ConnectionManager.admitted_of_genuineRun genuineRun_newcomer (by decide +kernel)
    (by decide +kernel)

open AdmissionExample in
theorem ConnectionManager.stranger_verified :
    "203.0.113.66" ∈ (start.runJoin crypto
        [request stranger, attestation stranger strangerStatement]).authorityChain.verifiedNodes ∧
      "203.0.113.66" ∉ trustedNodes.map NodeAuthorityChain.normalize ∧
      ¬ConnectionManager.Admitted crypto ownKey start 1
        [request stranger, attestation stranger strangerStatement] "203.0.113.66" := by
  refine ⟨by decide +kernel, by decide +kernel, ?_⟩
  intro hadmitted
  obtain ⟨before, event, hpre, _, supporters, hcard, hsupport⟩ := hadmitted
  obtain ⟨verifier, hmem⟩ := Finset.card_pos.1 hcard
  obtain ⟨hverified, hsigned⟩ := hsupport verifier hmem
  have hbefore : before = [] ∨ before = [request stranger] :=
    (prefix_cases hpre).imp And.left And.left
  rw [verified_before hbefore, Finset.mem_singleton] at hverified
  subst hverified
  exact not_signedFor hpre hsigned

end BerzCoin
