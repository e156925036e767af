import BerzCoin.P2pAdmissionRuns

/-! Which candidates share their votes. An id is cut at its last colon before it keys the tables. -/
namespace BerzCoin
open NodeAuthorityChain

lemma mem_toList_of_mem_strip {s : String} {c : Char} (h : c ∈ (strip s).toList) : c ∈ s.toList := by
  rw [strip, String.toList_ofList, List.mem_reverse] at h
  have hkept := List.dropWhile_subset _ h
  rw [List.mem_reverse] at hkept
  exact List.dropWhile_subset _ hkept

namespace NodeAuthorityChain

def isHexDigit (c : Char) : Bool :=
  (0x30 ≤ c.toNat && c.toNat ≤ 0x39) || (0x61 ≤ c.toNat && c.toNat ≤ 0x66)

/-- The id in `_load_or_create_node_identity` when none is stored. -/
def defaultNodeId (pubkeyHex : String) : String :=
  "node:" ++ String.ofList (pubkeyHex.toList.take 16)

inductive GeneratedId : String → Prop
  | default (pubkeyHex : String) (hlength : pubkeyHex.length = 66)
      (hhex : ∀ c ∈ pubkeyHex.toList, isHexDigit c = true) : GeneratedId (defaultNodeId pubkeyHex)
  | named (id : String) (hcolon : ':' ∉ id.toList) : GeneratedId id

/-- What is left of a generated id. -/
def candidateKey (id : String) : String :=
  if ':' ∈ id.toList then "node" else strip id

lemma hexDigit_plain {c : Char} (hc : isHexDigit c = true) : isSpace c = false ∧ c ≠ ':' := by
  have hrange : (0x30 ≤ c.toNat ∧ c.toNat ≤ 0x39) ∨ (0x61 ≤ c.toNat ∧ c.toNat ≤ 0x66) := by
    simpa [isHexDigit] using hc
  constructor
  · simp [isSpace]
    omega
  · rintro rfl
    simp at hrange

lemma normalize_defaultNodeId {pubkeyHex : String}
    (hhex : ∀ c ∈ pubkeyHex.toList, isHexDigit c = true) :
    normalize (defaultNodeId pubkeyHex) = "node" := by
  have hlist : (defaultNodeId pubkeyHex).toList = "node:".toList ++ pubkeyHex.toList.take 16 := by
    rw [defaultNodeId, String.toList_append]
    exact congrArg ("node:".toList ++ ·) String.toList_ofList
  have htake : ∀ c ∈ pubkeyHex.toList.take 16, isSpace c = false ∧ c ≠ ':' :=
    fun c hc => hexDigit_plain (hhex c (List.mem_of_mem_take hc))
  have hstrip : strip (defaultNodeId pubkeyHex) = defaultNodeId pubkeyHex := by
    apply strip_of_forall
    intro c hc
    rw [hlist, List.mem_append] at hc
    cases hc with
    | inl hprefix =>
      have hall : ∀ d ∈ "node:".toList, isSpace d = false := by simp [isSpace]
      exact hall c hprefix
    | inr hrest => exact (htake c hrest).1
  have hreverse : (defaultNodeId pubkeyHex).toList.reverse =
      (pubkeyHex.toList.take 16).reverse ++ "node:".toList.reverse := by
    rw [hlist, List.reverse_append]
  have hcolon : ':' ∈ (defaultNodeId pubkeyHex).toList := by
    rw [hlist]
    exact List.mem_append_left _ (by decide)
  have hdrop : ((pubkeyHex.toList.take 16).reverse ++ "node:".toList.reverse).dropWhile (· ≠ ':') =
      "node:".toList.reverse := by
    rw [List.dropWhile_append_of_pos]
    · rfl
    · intro c hc
      simpa using (htake c (List.mem_reverse.1 hc)).2
  simp only [normalize, hstrip, if_pos hcolon, hreverse, hdrop]
  rfl

lemma normalize_named {id : String} (hcolon : ':' ∉ id.toList) : normalize id = strip id := by
  have hstrip : ':' ∉ (strip id).toList := fun h => hcolon (mem_toList_of_mem_strip h)
  simp only [normalize, if_neg hstrip]

lemma GeneratedId.normalize_eq {id : String} (h : GeneratedId id) :
    normalize id = candidateKey id := by
  cases h with
  | default pubkeyHex hlength hhex =>
    have hcolon : ':' ∈ (defaultNodeId pubkeyHex).toList := by
      rw [defaultNodeId, String.toList_append]
      exact List.mem_append_left _ (by decide)
    rw [candidateKey, if_pos hcolon, normalize_defaultNodeId hhex]
  | named id hcolon => rw [candidateKey, if_neg hcolon, normalize_named hcolon]

/-- The candidate has the same votes and the same status in both states. -/
structure SameStanding (chain chain' : NodeAuthorityChain) (id : String) : Prop where
  votes : chain'.votes (normalize id) = chain.votes (normalize id)
  count : chain'.getAttestationVoteCount id = chain.getAttestationVoteCount id
  verified : normalize id ∈ chain'.verifiedNodes ↔ normalize id ∈ chain.verifiedNodes

lemma SameStanding.refl (chain : NodeAuthorityChain) (id : String) : SameStanding chain chain id :=
  ⟨rfl, rfl, Iff.rfl⟩

/-- A vote for one candidate leaves the others alone. -/
lemma attest_sameStanding (chain : NodeAuthorityChain) (lower : String → String) {target id : String}
    (hne : normalize target ≠ normalize id) (verifier : String) (verifierIdentity : Option String)
    (source : String) (forceAccept : Bool) (now : ℕ) :
    SameStanding chain
      (chain.attest lower target verifier verifierIdentity source forceAccept now).1 id := by
  have hvoted : ∀ verifierId verifierNode,
      SameStanding chain (chain.addVote (normalize target) verifierId verifierNode source now) id := by
    intro verifierId verifierNode
    have hget : (chain.addVote (normalize target) verifierId verifierNode source now).attestations.get?
        (normalize id) = chain.attestations.get? (normalize id) := by
      rw [addVote, KeyedRows.get?_put, if_neg hne.symm]
    refine ⟨?_, ?_, Iff.rfl⟩
    · rw [NodeAuthorityChain.votes, hget, NodeAuthorityChain.votes]
    · simp only [getAttestationVoteCount, attestationVoteCount, hget]
  unfold attest
  dsimp only
  split_ifs with hempty hid hunknown haccepted
  · exact .refl chain id
  · exact .refl chain id
  · exact .refl chain id
  · have h := hvoted (normalizeVerifierId lower
      ((verifierIdentity.filter (· ≠ "")).getD (defaultVerifierId (normalize verifier))))
      (normalize verifier)
    refine ⟨h.votes, h.count, ?_⟩
    rw [acceptVerified, Finset.mem_insert, or_iff_right hne.symm]
    exact h.verified
  · exact hvoted _ _

/-- A chain that trusts one verifier, and no candidate. -/
def trustingOne : NodeAuthorityChain :=
  { minVerifierVotes := 1, admissionMode := .strict, verifiers := {"v"} }

lemma votes_trustingOne (node : String) : trustingOne.votes node = [] := rfl

/-- The vote of the trusted verifier counts for the candidate. -/
lemma votes_attest_trustingOne {lower : String → String} (hlower : ∀ s, lower s = "" → s = "")
    {target : String} (htarget : normalize target ≠ "") :
    (trustingOne.attest lower target "v" none "transitive" false 0).1.votes (normalize target) ≠ [] := by
  have hverifier : normalize "v" = "v" := by decide +kernel
  have hdefault : strip (defaultVerifierId "v") = "node:v" := by decide +kernel
  have hid : normalizeVerifierId lower (defaultVerifierId "v") ≠ "" := by
    intro hempty
    rw [normalizeVerifierId, hdefault] at hempty
    exact absurd (hlower _ hempty) (by decide)
  have hknown : trustingOne.knows "v" (normalizeVerifierId lower (defaultVerifierId "v")) = true := by
    simp [knows, trustingOne]
  have hvotes : ∀ node, ((trustingOne.addVote node (normalizeVerifierId lower (defaultVerifierId "v"))
      "v" "transitive" 0).votes node) ≠ [] := by
    intro node hnil
    have hmem : normalizeVerifierId lower (defaultVerifierId "v") ∈ (trustingOne.addVote node
        (normalizeVerifierId lower (defaultVerifierId "v")) "v" "transitive" 0).votes node := by
      simp [NodeAuthorityChain.votes, addVote, trustingOne, KeyedRows.mem_keys, KeyedRows.contains]
    rw [hnil] at hmem
    cases hmem
  unfold attest
  simp only [hverifier, Option.filter_none, Option.getD_none, hknown, Bool.not_false, Bool.not_true,
    Bool.and_false, Bool.false_eq_true, if_false, hid, htarget, Bool.false_or, decide_false]
  split_ifs with hempty haccepted
  · simp at hempty
  · exact hvotes _
  · exact hvotes _

/-- A vote for `target` never changes the standing of `id` exactly when what is left of the two ids
differs, or is nothing. -/
theorem attest_leaves_candidate_iff (lower : String → String) (hlower : ∀ s, lower s = "" → s = "")
    {target id : String} (htarget : GeneratedId target) (hid : GeneratedId id) :
    (∀ (chain : NodeAuthorityChain) (verifier : String) (verifierIdentity : Option String)
      (source : String) (forceAccept : Bool) (now : ℕ), SameStanding chain
        (chain.attest lower target verifier verifierIdentity source forceAccept now).1 id) ↔
      candidateKey target ≠ candidateKey id ∨ candidateKey target = "" := by
  rw [← htarget.normalize_eq, ← hid.normalize_eq]
  constructor
  · intro hsame
    by_cases heq : normalize target = normalize id
    · right
      by_contra hne
      have hstanding := (hsame trustingOne "v" none "transitive" false 0).votes
      rw [← heq, votes_trustingOne] at hstanding
      exact votes_attest_trustingOne hlower hne hstanding
    · exact .inl heq
  · intro h chain verifier verifierIdentity source forceAccept now
    cases h with
    | inl hne => exact attest_sameStanding chain lower hne ..
    | inr hempty =>
      have hrefused : (chain.attest lower target verifier verifierIdentity source forceAccept now).1 =
          chain := by
        simp [attest, hempty]
      rw [hrefused]
      exact .refl chain id

theorem attest_leaves_candidate_iff_named : normalize "alice" ≠ normalize "bob" ∧
    ∀ (chain : NodeAuthorityChain) (verifier : String) (verifierIdentity : Option String)
      (source : String) (forceAccept : Bool) (now : ℕ), SameStanding chain
        (chain.attest id "alice" verifier verifierIdentity source forceAccept now).1 "bob" := by
  refine ⟨by decide +kernel, ?_⟩
  exact (attest_leaves_candidate_iff id (fun _ h => h) (.named "alice" (by decide))
    (.named "bob" (by decide))).2 (.inl (by decide +kernel))

/-- A vote for one default id is a vote for every other one, and verifies it. -/
theorem default_ids_share_votes :
    GeneratedId "node:0279be667ef9dcbb" ∧ GeneratedId "node:02c6047f9441ed7d" ∧
      trustingOne.getAttestationVoteCount "node:02c6047f9441ed7d" = 0 ∧
      (trustingOne.attest id "node:0279be667ef9dcbb" "v" none "transitive" false
        0).1.getAttestationVoteCount "node:02c6047f9441ed7d" = 1 ∧
      normalize "node:02c6047f9441ed7d" ∉ trustingOne.verifiedNodes ∧
      normalize "node:02c6047f9441ed7d" ∈ (trustingOne.attest id "node:0279be667ef9dcbb" "v" none
        "transitive" false 0).1.verifiedNodes := by
  refine ⟨?_, ?_, by decide +kernel, by decide +kernel, by decide +kernel, by decide +kernel⟩
  · exact .default "0279be667ef9dcbbac55a06295ce870b07029bfcdb2dce28d959f2815b16f81798"
      (by decide) (List.all_eq_true.1 (by decide +kernel))
  · exact .default "02c6047f9441ed7d6d3045406e95c07cd85c778e4b8cef3ca7abac09b95c709ee5"
      (by decide) (List.all_eq_true.1 (by decide +kernel))

end NodeAuthorityChain
end BerzCoin
