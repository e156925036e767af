import BerzCoin.ConsensusRules
import BerzCoin.PairTree

/-! What the Merkle root of a header says about the transactions of an accepted block. -/
namespace BerzCoin

/-- No two of the strings have one digest. -/
def Hashlib.NoCollision (H : Hashlib) (strings : List Bytes) : Prop :=
  ∀ x ∈ strings, ∀ y ∈ strings, H.hash256 x = H.hash256 y → x = y

instance (H : Hashlib) (strings : List Bytes) : Decidable (H.NoCollision strings) :=
  inferInstanceAs (Decidable (∀ x ∈ strings, ∀ y ∈ strings, _))

section tree
variable (H : Hashlib)

def merkleNode (p : Bytes × Bytes) : Bytes := H.hash256 (p.1 ++ p.2)

lemma pairUp_eq_level (hashes : List Bytes) :
    merkleRootAux.pairUp H hashes = PairTree.level (merkleNode H) hashes := by
  induction hashes using PairTree.pairs.induct with
  | case1 a b rest ih => simpa [merkleRootAux.pairUp, PairTree.level, PairTree.pairs, merkleNode] using ih
  | case2 a => simp [merkleRootAux.pairUp, PairTree.level, PairTree.pairs, merkleNode]
  | case3 => simp [merkleRootAux.pairUp, PairTree.level, PairTree.pairs]

lemma merkleRootAux_eq {fuel : ℕ} {hashes : List Bytes} {root : Bytes}
    (hfuel : hashes.length ≤ fuel)
    (hroot : (PairTree.level (merkleNode H))^[PairTree.depth hashes] hashes = [root]) :
    merkleRootAux H fuel hashes = some root := by
  induction fuel generalizing hashes with
  | zero =>
    rw [List.length_eq_zero_iff.1 (Nat.le_zero.1 hfuel)] at hroot
    simp [PairTree.depth] at hroot
  | succ fuel ih =>
    match hashes with
    | [] => simp [PairTree.depth] at hroot
    | [h] => simpa [PairTree.depth, merkleRootAux] using hroot
    | a :: b :: rest =>
      have hdepth : PairTree.depth (a :: b :: rest) =
          PairTree.depth (PairTree.level (merkleNode H) (a :: b :: rest)) + 1 := by
        rw [PairTree.depth, PairTree.clog_succ_half (by simp), PairTree.depth, PairTree.length_level]
      rw [hdepth, Function.iterate_succ_apply] at hroot
      simp only [merkleRootAux]
      rw [pairUp_eq_level]
      apply ih _ hroot
      rw [PairTree.length_level]
      simp only [List.length_cons] at hfuel ⊢
      omega

lemma merkleRoot_eq_of_level (hashes : List Bytes) (htwo : 2 ≤ hashes.length) :
    ∃ root, merkleRoot H hashes = some root ∧
      (PairTree.level (merkleNode H))^[PairTree.depth (PairTree.level (merkleNode H) hashes)]
        (PairTree.level (merkleNode H) hashes) = [root] := by
  have hne : hashes ≠ [] := List.ne_nil_of_length_pos (by omega)
  obtain ⟨root, hroot⟩ := PairTree.levels_depth (merkleNode H) hne
  refine ⟨root, merkleRootAux_eq H le_rfl hroot, ?_⟩
  rw [PairTree.depth, PairTree.clog_succ_half htwo, Function.iterate_succ_apply] at hroot
  rw [PairTree.depth, PairTree.length_level]
  exact hroot

/-- The last of an odd number of hashes can be repeated under the same root. -/
theorem merkleRoot_repeat_last {hashes : List Bytes} (last : Bytes) (hne : hashes ≠ [])
    (heven : hashes.length % 2 = 0) :
    merkleRoot H (hashes ++ [last, last]) = merkleRoot H (hashes ++ [last]) := by
  have hpos := List.length_pos_iff.2 hne
  obtain ⟨root, hroot, hlevels⟩ :=
    merkleRoot_eq_of_level H (hashes ++ [last, last]) (by simp)
  obtain ⟨root', hroot', hlevels'⟩ :=
    merkleRoot_eq_of_level H (hashes ++ [last]) (by simp; omega)
  rw [PairTree.level_append_last _ _ _ heven, hlevels'] at hlevels
  rw [hroot, hroot', (List.cons.inj hlevels).1]

end tree

namespace Block
variable (H : Hashlib)

def txids (block : Block) : List Bytes := block.transactions.map (·.txid H)

/-- The pairs of hashes that `calculate_merkle_root` hashes. -/
def merklePairs (block : Block) : List (Bytes × Bytes) :=
  PairTree.pairsBelow (merkleNode H) (PairTree.depth (block.txids H)) (block.txids H)

/-- What is hashed for the Merkle root: the transactions, then the pairs. -/
def hashedStrings (block : Block) : List Bytes :=
  block.transactions.map (·.serialize false) ++ (block.merklePairs H).map fun p => p.1 ++ p.2

/-- No level of the tree pairs a hash with itself, apart from a last one without neighbour, and
no transaction has the size of a pair. -/
def Unambiguous (block : Block) : Prop :=
  PairTree.UnrepeatedBelow (merkleNode H) (PairTree.depth (block.txids H)) (block.txids H) ∧
    ∀ tx ∈ block.transactions, (tx.serialize false).length ≠ 64

variable {H}

lemma levels_of_verifyMerkleRoot {block : Block} (hne : block.transactions ≠ [])
    (h : block.verifyMerkleRoot H = true) :
    (PairTree.level (merkleNode H))^[PairTree.depth (block.txids H)] (block.txids H) =
      [block.header.merkleRoot] := by
  have hids : block.txids H ≠ [] := by simpa [txids] using hne
  obtain ⟨root, hroot⟩ := PairTree.levels_depth (merkleNode H) hids
  have hmerkle : merkleRoot H (block.txids H) = some root := merkleRootAux_eq H le_rfl hroot
  have hheader : block.calculateMerkleRoot H = block.header.merkleRoot := by
    simpa [verifyMerkleRoot] using h
  rw [calculateMerkleRoot, ← txids, hmerkle] at hheader
  rw [hroot, ← hheader]
  rfl

variable (hlength : ∀ data, (H.sha256 data).length = 32)
include hlength

lemma length_of_mem_merklePairs {block : Block} {p : Bytes × Bytes} (hp : p ∈ block.merklePairs H) :
    p.1.length = 32 ∧ p.2.length = 32 := by
  apply PairTree.pairsBelow_forall (P := fun hash => hash.length = 32) (merkleNode H) _ _ hp
  · intro p
    exact hlength _
  · intro x hx
    obtain ⟨tx, _, rfl⟩ := List.mem_map.1 hx
    exact hlength _

lemma injOn_merkleNode {block₁ block₂ : Block}
    (hcollision : H.NoCollision (block₁.hashedStrings H ++ block₂.hashedStrings H)) :
    Set.InjOn (merkleNode H) {p | p ∈ block₁.merklePairs H ∨ p ∈ block₂.merklePairs H} := by
  have hstring : ∀ p, p ∈ block₁.merklePairs H ∨ p ∈ block₂.merklePairs H →
      p.1 ++ p.2 ∈ block₁.hashedStrings H ++ block₂.hashedStrings H ∧ p.1.length = 32 := by
    intro p hp
    cases hp with
    | inl hp =>
      exact ⟨by simp only [hashedStrings, List.mem_append, List.mem_map]; grind,
        (length_of_mem_merklePairs hlength hp).1⟩
    | inr hp =>
      exact ⟨by simp only [hashedStrings, List.mem_append, List.mem_map]; grind,
        (length_of_mem_merklePairs hlength hp).1⟩
  intro p hp q hq h
  obtain ⟨hpmem, hplength⟩ := hstring p hp
  obtain ⟨hqmem, hqlength⟩ := hstring q hq
  have happend := hcollision _ hpmem _ hqmem h
  obtain ⟨hfst, hsnd⟩ := List.append_inj happend (hplength.trans hqlength.symm)
  exact Prod.ext hfst hsnd

/-- Trees of the same number of transactions. -/
lemma txids_eq_of_length {block₁ block₂ : Block}
    (hcollision : H.NoCollision (block₁.hashedStrings H ++ block₂.hashedStrings H))
    (hne : block₁.transactions ≠ []) (hroot₁ : block₁.verifyMerkleRoot H = true)
    (hroot₂ : block₂.verifyMerkleRoot H = true)
    (hheader : block₁.header.merkleRoot = block₂.header.merkleRoot)
    (hcount : block₁.transactions.length = block₂.transactions.length) :
    block₁.txids H = block₂.txids H := by
  have hne₂ : block₂.transactions ≠ [] := by
    rw [← List.length_pos_iff, ← hcount]
    exact List.length_pos_iff.2 hne
  have hids : (block₁.txids H).length = (block₂.txids H).length := by simpa [txids] using hcount
  have hdepth : PairTree.depth (block₁.txids H) = PairTree.depth (block₂.txids H) := by
    rw [PairTree.depth, PairTree.depth, hids]
  have hlevels₁ := levels_of_verifyMerkleRoot hne hroot₁
  have hlevels₂ := levels_of_verifyMerkleRoot hne₂ hroot₂
  have hinj := injOn_merkleNode hlength hcollision
  simp only [merklePairs, ← hdepth] at hinj
  rw [← hdepth] at hlevels₂
  apply PairTree.leaves_eq_of_length hinj hids
  rw [hlevels₁, hlevels₂, hheader]

/-- A transaction whose id is the hash of a pair is the pair. -/
lemma not_mem_txids_of_merklePair {block₁ block₂ : Block} {p : Bytes × Bytes}
    (hcollision : H.NoCollision (block₁.hashedStrings H ++ block₂.hashedStrings H))
    (hsize : ∀ tx ∈ block₁.transactions, (tx.serialize false).length ≠ 64)
    (hp : p ∈ block₂.merklePairs H) : merkleNode H p ∉ block₁.txids H := by
  intro hmem
  obtain ⟨tx, htx, hid⟩ := List.mem_map.1 hmem
  have hpair := length_of_mem_merklePairs hlength hp
  have heq : tx.serialize false = p.1 ++ p.2 := by
    apply hcollision _ _ _ _ hid
    · simp only [hashedStrings, List.mem_append, List.mem_map]
      grind
    · simp only [hashedStrings, List.mem_append, List.mem_map]
      grind
  apply hsize tx htx
  rw [heq, List.length_append, hpair.1, hpair.2]

lemma txids_eq_of_unambiguous {block₁ block₂ : Block}
    (hcollision : H.NoCollision (block₁.hashedStrings H ++ block₂.hashedStrings H))
    (hne₁ : block₁.transactions ≠ []) (hne₂ : block₂.transactions ≠ [])
    (hroot₁ : block₁.verifyMerkleRoot H = true) (hroot₂ : block₂.verifyMerkleRoot H = true)
    (hheader : block₁.header.merkleRoot = block₂.header.merkleRoot)
    (h₁ : block₁.Unambiguous H) (h₂ : block₂.Unambiguous H) :
    block₁.txids H = block₂.txids H := by
  have hids₁ : block₁.txids H ≠ [] := by simpa [txids] using hne₁
  have hids₂ : block₂.txids H ≠ [] := by simpa [txids] using hne₂
  have hlevels₁ := levels_of_verifyMerkleRoot hne₁ hroot₁
  have hlevels₂ := levels_of_verifyMerkleRoot hne₂ hroot₂
  have hcollision' : H.NoCollision (block₂.hashedStrings H ++ block₁.hashedStrings H) :=
    fun x hx y hy => hcollision x (by grind) y (by grind)
  rw [← hheader] at hlevels₂
  apply PairTree.leaves_eq_of_root_eq hids₁ hids₂ (injOn_merkleNode hlength hcollision) h₁.1 h₂.1
    _ _ hlevels₁ hlevels₂
  · intro p hp
    exact not_mem_txids_of_merklePair hlength hcollision h₁.2 hp
  · intro p hp
    exact not_mem_txids_of_merklePair hlength hcollision' h₂.2 hp

end Block

namespace ConsensusRules
variable {H : Hashlib} {params : ConsensusParams} {outputValueLookup : Outpoint → Option ℕ}
  {now₁ now₂ height : ℕ} {block₁ block₂ : Block}

lemma verifyMerkleRoot_of_validateBlock {now : ℕ} {block : Block}
    (h : validateBlock H params outputValueLookup now block height = .ok ()) :
    block.transactions ≠ [] ∧ block.verifyMerkleRoot H = true := by
  unfold validateBlock at h
  obtain ⟨_, _, h⟩ := except_bind_eq_ok h
  cases htxs : block.transactions with
  | nil =>
    rw [htxs] at h
    cases h
  | cons coinbase rest =>
    rw [htxs] at h
    obtain ⟨_, _, h⟩ := except_bind_eq_ok h
    obtain ⟨_, _, h⟩ := except_bind_eq_ok h
    obtain ⟨_, hroot, h⟩ := except_bind_eq_ok h
    refine ⟨List.cons_ne_nil _ _, ?_⟩
    unfold require at hroot
    split_ifs at hroot with hok
    exact hok

/-- Two accepted lists under one header are one list exactly when they have the same number of
transactions. -/
theorem txids_eq_iff_length (hlength : ∀ data, (H.sha256 data).length = 32)
    (hcollision : H.NoCollision (block₁.hashedStrings H ++ block₂.hashedStrings H))
    (h₁ : validateBlock H params outputValueLookup now₁ block₁ height = .ok ())
    (h₂ : validateBlock H params outputValueLookup now₂ block₂ height = .ok ())
    (hheader : block₁.header = block₂.header) :
    block₁.txids H = block₂.txids H ↔
      block₁.transactions.length = block₂.transactions.length := by
  obtain ⟨hne, hroot₁⟩ := verifyMerkleRoot_of_validateBlock h₁
  obtain ⟨_, hroot₂⟩ := verifyMerkleRoot_of_validateBlock h₂
  constructor
  · intro hids
    simpa [Block.txids] using congrArg List.length hids
  · intro hcount
    exact Block.txids_eq_of_length hlength hcollision hne hroot₁ hroot₂ (by rw [hheader]) hcount

/-- Accepted lists without a repetition on any level of the tree. -/
theorem txids_eq_of_unambiguous (hlength : ∀ data, (H.sha256 data).length = 32)
    (hcollision : H.NoCollision (block₁.hashedStrings H ++ block₂.hashedStrings H))
    (h₁ : validateBlock H params outputValueLookup now₁ block₁ height = .ok ())
    (h₂ : validateBlock H params outputValueLookup now₂ block₂ height = .ok ())
    (hheader : block₁.header = block₂.header)
    (hunambiguous₁ : block₁.Unambiguous H) (hunambiguous₂ : block₂.Unambiguous H) :
    block₁.txids H = block₂.txids H := by
  obtain ⟨hne₁, hroot₁⟩ := verifyMerkleRoot_of_validateBlock h₁
  obtain ⟨hne₂, hroot₂⟩ := verifyMerkleRoot_of_validateBlock h₂
  exact Block.txids_eq_of_unambiguous hlength hcollision hne₁ hne₂ hroot₁ hroot₂
    (by rw [hheader]) hunambiguous₁ hunambiguous₂

end ConsensusRules

/-! One header over two lists: the doubled block spends the coin of its last transaction twice. -/
namespace MerkleExample
open ConsensusRules BlockExample

def spend (n : UInt8) (value : UInt64) : Transaction :=
  { version := 1
    vin := [⟨List.replicate 32 n, 0, [], 0xffffffff, []⟩]
    vout := [⟨value, [0x51]⟩]
    locktime := 0 }

def root : ℕ := 0xfbb881746824715dc77be81581bc00083df669ee3ed0d7e714070c1b0cfc0d8b

def block : Block := blockOn 0 root 1000 0 [coinbase 1, spend 0x11 900, spend 0x22 800]

def doubled : Block :=
  ⟨block.header, [coinbase 1, spend 0x11 900, spend 0x22 800, spend 0x22 800]⟩

def firstId : ℕ := 0x416cb77891d4fe988575cc9535cbf957d42870712531129ac2b8027c56509f40

def secondId : ℕ := 0xba597f6a674c64ba965f95d7b3f504f15d56485bd380598258d56dbc3d0b5ab8

def ids : List Bytes := [coinbase1Id, firstId, secondId].map (beBytes 32)

def left : ℕ := 0x628e9e2d39c5109937e88a9a876f7441bfa950ae6ceb5736a492d119bebad8ae

def right : ℕ := 0xf4239e8dfdfb62746791568251925ebb10aefe0c472d3e34526738b93da24e2a

def hashlib : Hashlib := Hashlib.padded <| BlockExample.hashlib.withDigests [
  ((spend 0x11 900).serialize false,
    0x92115ad02a5158631c010b7cf89de0ade23f23d2e150fc3f324a0ab19eae0359, firstId),
  ((spend 0x22 800).serialize false,
    0xf893109b8929159567eb7e580ddfa0a8f448cb40ee896f769a3ee386a51edb64, secondId),
  (beBytes 32 coinbase1Id ++ beBytes 32 firstId,
    0x6966210eda55511e42fc7c7045609b23224ae92f2872d45347ae48136a83dc4c, left),
  (beBytes 32 secondId ++ beBytes 32 secondId,
    0xf6a33accc5b6463bec570a27056874d6e5d79164ef712928801f34c0b2f8e496, right),
  (beBytes 32 left ++ beBytes 32 right,
    0xd3046f86f4fbb58a6b5fec4ea4eb6631d32055a7952c73ab8eb601ddd87722ae, root),
  (block.header.serialize,
    0x8fd72c1fd16b312d69635796b03bac9af1155c7017a0f550da66d8170e7149fa,
    0x1a298c6cfbef31496b27f6fc3919d7448f17cf4f7d65eb31a622fb7fa7f43f2b)]

def coins (outpoint : Outpoint) : Option ℕ :=
  if outpoint ∈ [(List.replicate 32 0x11, 0), (List.replicate 32 0x22, 0)] then some 1000 else none

lemma length_sha256 (data : Bytes) : (hashlib.sha256 data).length = 32 := Hashlib.length_padded _ data

lemma block_accepted :
    validateBlock hashlib .regtest coins 2000 block 1 = .ok () := by
  decide +kernel

lemma doubled_accepted :
    validateBlock hashlib .regtest coins 2000 doubled 1 = .ok () := by
  decide +kernel

lemma noCollision : hashlib.NoCollision (block.hashedStrings hashlib ++ doubled.hashedStrings hashlib) := by
  decide +kernel

end MerkleExample

open MerkleExample in
theorem ConsensusRules.txids_eq_iff_length_doubled :
    block.header = doubled.header ∧
      (block.txids hashlib = doubled.txids hashlib ↔
        block.transactions.length = doubled.transactions.length) :=
  ⟨rfl, ConsensusRules.txids_eq_iff_length length_sha256 noCollision block_accepted
    doubled_accepted rfl⟩

open MerkleExample in
theorem ConsensusRules.header_with_two_lists :
    block.header = doubled.header ∧
      hashlib.NoCollision (block.hashedStrings hashlib ++ doubled.hashedStrings hashlib) ∧
      ConsensusRules.validateBlock hashlib .regtest coins 2000 block 1 = .ok () ∧
      ConsensusRules.validateBlock hashlib .regtest coins 2000 doubled 1 = .ok () ∧
      block.txids hashlib ≠ doubled.txids hashlib :=
  ⟨rfl, noCollision, block_accepted, doubled_accepted, by decide +kernel⟩

end BerzCoin
