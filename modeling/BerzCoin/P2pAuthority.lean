import BerzCoin.KeyedRows

/-! The authority chain of a node: who is verified, and by whose votes. The state is not
written to a store. `lower` is `str.lower`. -/
namespace BerzCoin

/-- The characters that `str.strip` removes. -/
def isSpace (c : Char) : Bool :=
  c.toNat ∈ [0x20, 0x85, 0xa0, 0x1680, 0x2028, 0x2029, 0x202f, 0x205f, 0x3000] ||
    (0x09 ≤ c.toNat && c.toNat ≤ 0x0d) || (0x1c ≤ c.toNat && c.toNat ≤ 0x1f) ||
    (0x2000 ≤ c.toNat && c.toNat ≤ 0x200a)

@[irreducible] def strip (s : String) : String :=
  String.ofList (((s.toList.dropWhile isSpace).reverse.dropWhile isSpace).reverse)

/-- Nothing is stripped where there is no space. -/
lemma stripped_of_forall {l : List Char} (h : ∀ c ∈ l, isSpace c = false) :
    ((l.dropWhile isSpace).reverse.dropWhile isSpace).reverse = l := by
  have hkeep (l : List Char) (hl : ∀ c ∈ l, isSpace c = false) : l.dropWhile isSpace = l := by
    cases l with
    | nil => rfl
    | cons c l => rw [List.dropWhile_cons, hl c List.mem_cons_self, if_neg (by simp)]
  rw [hkeep _ h, hkeep _ (by simpa using h), List.reverse_reverse]

lemma strip_of_forall {s : String} (h : ∀ c ∈ s.toList, isSpace c = false) : strip s = s := by
  rw [strip, stripped_of_forall h, String.ofList_toList]

inductive AdmissionMode
  | open'
  | assisted
  | strict
  deriving DecidableEq, Repr

/-- One entry of `attestations`. -/
structure Attestation where
  verifierId : String
  verifierNode : String
  source : String
  timestamp : ℕ
  deriving DecidableEq

structure NodeAuthorityChain where
  minVerifierVotes : ℕ
  admissionMode : AdmissionMode
  verifiedNodes : Finset String := ∅
  verifiers : Finset String := ∅
  verifierIds : Finset String := ∅
  verifiedBy : KeyedRows String String := KeyedRows.empty
  nodeIdentities : KeyedRows String String := KeyedRows.empty
  attestations : KeyedRows String (KeyedRows String Attestation) := KeyedRows.empty

namespace NodeAuthorityChain

/-- `_normalize`: without the port, which is what follows the last colon. -/
@[irreducible] def normalize (addr : String) : String :=
  let raw := strip addr
  if ':' ∈ raw.toList then
    String.ofList ((raw.toList.reverse.dropWhile (· ≠ ':')).tail).reverse
  else raw

def defaultVerifierId (node : String) : String := "node:" ++ normalize node

variable (lower : String → String)

def normalizeVerifierId (verifierId : String) : String := lower (strip verifierId)

section methods
variable (chain : NodeAuthorityChain)

/-- `_attestation_vote_count`. -/
def attestationVoteCount (node : String) : ℕ :=
  ((chain.attestations.get? node).getD KeyedRows.empty).rows.length

def getAttestationVoteCount (target : String) : ℕ :=
  let node := normalize target
  if node = "" then 0 else chain.attestationVoteCount node

/-- `_accept_verified`. -/
def acceptVerified (node verifiedById : String) : NodeAuthorityChain :=
  { chain with
    verifiedNodes := insert node chain.verifiedNodes
    verifiers := insert node chain.verifiers
    verifierIds := insert (defaultVerifierId node) chain.verifierIds
    verifiedBy := if chain.verifiedBy.contains node then chain.verifiedBy
      else chain.verifiedBy.put node verifiedById }

/-- The vote of `verifier_id`, unless the bucket of the target has one of that id. -/
def addVote (targetNode verifierId verifierNode source : String) (now : ℕ) : NodeAuthorityChain :=
  let bucket := (chain.attestations.get? targetNode).getD KeyedRows.empty
  { chain with
    verifierIds := insert verifierId chain.verifierIds
    attestations := chain.attestations.put targetNode
      (if bucket.contains verifierId then bucket
        else bucket.put verifierId ⟨verifierId, verifierNode, source, now⟩) }

/-- The verifier, or the id it votes under, is known. -/
def knows (verifierNode verifierId : String) : Bool :=
  verifierNode ∈ chain.verifiers || verifierId ∈ chain.verifierIds

def attest (target verifier : String) (verifierIdentity : Option String) (source : String)
    (forceAccept : Bool) (now : ℕ) : NodeAuthorityChain × Bool :=
  let verifierNode := normalize verifier
  let targetNode := normalize target
  if verifierNode = "" || targetNode = "" then (chain, false)
  else
    let verifierId := normalizeVerifierId lower
      ((verifierIdentity.filter (· ≠ "")).getD (defaultVerifierId verifierNode))
    if verifierId = "" then (chain, false)
    else if !forceAccept && !chain.knows verifierNode verifierId then (chain, false)
    else
      let voted := chain.addVote targetNode verifierId verifierNode source now
      if forceAccept || chain.minVerifierVotes ≤ voted.attestationVoteCount targetNode then
        (voted.acceptVerified targetNode verifierId, true)
      else (voted, false)

def verify (verifier target : String) (verifierIdentity : Option String) (now : ℕ) :
    NodeAuthorityChain × Bool :=
  chain.attest lower target verifier verifierIdentity "transitive" false now

def pickConnectedVerifier (connectedPeers : List String) : Option String :=
  (connectedPeers.map normalize).find? (· ∈ chain.verifiers)

def canAccept (target : String) (connectedPeers : List String) : Bool :=
  let targetNode := normalize target
  if targetNode = "" then false
  else if chain.admissionMode = .open' then true
  else if targetNode ∈ chain.verifiedNodes then true
  else if chain.admissionMode = .strict then
    chain.minVerifierVotes ≤ chain.attestationVoteCount targetNode
  else (chain.pickConnectedVerifier connectedPeers).isSome

def registerNodeIdentity (nodeId pubkeyHex : String) : NodeAuthorityChain × Bool :=
  let nid := lower (strip nodeId)
  let pkh := lower (strip pubkeyHex)
  if nid = "" || pkh = "" then (chain, false)
  else
    match (chain.nodeIdentities.get? nid).filter (· ≠ "") with
    | some existing =>
      if existing ≠ pkh then (chain, false)
      else ({ chain with nodeIdentities := chain.nodeIdentities.put nid pkh }, true)
    | none => ({ chain with nodeIdentities := chain.nodeIdentities.put nid pkh }, true)

def validateRejoinIdentity (nodeId pubkeyHex : String) : Bool :=
  let nid := lower (strip nodeId)
  let pkh := lower (strip pubkeyHex)
  if nid = "" || pkh = "" then false
  else
    match chain.nodeIdentities.get? nid with
    | none => true
    | some existing => existing = pkh

def addTrusted (now : ℕ) (trusted : String) : NodeAuthorityChain :=
  let node := normalize trusted
  if node = "" then chain
  else
    let vid := defaultVerifierId node
    let bucket := (chain.attestations.get? node).getD KeyedRows.empty
    { chain with
      verifiedNodes := insert node chain.verifiedNodes
      verifiers := insert node chain.verifiers
      verifierIds := insert vid chain.verifierIds
      verifiedBy := chain.verifiedBy.put node "bootstrap"
      attestations := chain.attestations.put node (bucket.put vid ⟨vid, node, "bootstrap", now⟩) }

end methods

/-- `NodeAuthorityChain(trusted_nodes, ...)` with nothing stored. -/
def init (trustedNodes : List String) (minVerifierVotes : ℕ) (admissionMode : AdmissionMode)
    (now : ℕ) : NodeAuthorityChain :=
  trustedNodes.foldl (fun chain trusted => chain.addTrusted now trusted)
    { minVerifierVotes := max 1 minVerifierVotes, admissionMode }

end NodeAuthorityChain
end BerzCoin
