import BerzCoin.ConsensusMerkle

/-! `MerkleTree` with its proofs, and the three ways to compute a Merkle root. -/
namespace BerzCoin

section levels
variable (H : Hashlib)

/-- `current + [current[-1]]` if the number is odd. -/
def duplicateLast (current : List Bytes) : List Bytes :=
  if current.length % 2 = 1 then current ++ current.getLast?.toList else current

/-- The loop over `range(0, len(current), 2)`. -/
def nextLevel (current : List Bytes) : List Bytes :=
  (List.range (current.length / 2)).map fun i =>
    H.hash256 (current.getD (2 * i) [] ++ current.getD (2 * i + 1) [])

end levels

/-- `hashes` are the leaves, `levels` goes from them to the root. -/
structure MerkleTree where
  hashes : List Bytes
  levels : List (List Bytes)
  deriving DecidableEq

namespace MerkleTree
variable (H : Hashlib)

/-- The `while` loop of `_build_tree`, at most `fuel` times. -/
def buildLevels : ℕ → List Bytes → List (List Bytes)
  | 0, current => [current]
  | fuel + 1, current =>
    if 1 < current.length then current :: buildLevels fuel (nextLevel H (duplicateLast current))
    else [current]

def buildTree (hashes : List Bytes) : List (List Bytes) :=
  if hashes = [] then [] else buildLevels H hashes.length hashes

def init (hashes : List Bytes) : MerkleTree := ⟨hashes, buildTree H hashes⟩

def root (tree : MerkleTree) : Option Bytes := tree.levels.getLast?.bind List.head?

def siblingIndex (level : List Bytes) (index : ℕ) : ℕ :=
  if index % 2 = 0 then if level.length ≤ index + 1 then index else index + 1 else index - 1

def collectProof : List (List Bytes) → ℕ → List Bytes
  | [], _ => []
  | level :: levels, index => level[siblingIndex level index]?.toList ++ collectProof levels (index / 2)

def getProof (tree : MerkleTree) (index : ℤ) : Except PyError (List Bytes) :=
  if index < 0 ∨ (tree.hashes.length : ℤ) ≤ index then
    .error (.indexError ("Index " ++ toString index ++ " out of range"))
  else .ok (collectProof tree.levels.dropLast index.toNat)

/-- The loop of `verify_proof`. -/
def climb : Bytes → ℤ → List Bytes → Bytes
  | current, _, [] => current
  | current, index, sibling :: proof =>
    climb (H.hash256 (if index % 2 = 0 then current ++ sibling else sibling ++ current)) (index / 2) proof

def verifyProof (leaf : Bytes) (proof : List Bytes) (root : Bytes) (index : ℤ) : Bool :=
  climb H leaf index proof = root

end MerkleTree

namespace Hash
variable (H : Hashlib)

/-- `Hash.merkle_root` with the argument as it is afterwards: the list of the caller grows by the
duplicate. The number of leaves bounds the calls. -/
def merkleRootAux : ℕ → List Bytes → Bytes × List Bytes
  | _, [] => (zeroHash, [])
  | _, [hash] => (hash, [hash])
  | 0, hashes => (zeroHash, hashes)
  | fuel + 1, hashes =>
    ((merkleRootAux fuel (nextLevel H (duplicateLast hashes))).1, duplicateLast hashes)

def merkleRoot (hashes : List Bytes) : Bytes × List Bytes := merkleRootAux H hashes.length hashes

end Hash

/-! A level is the level of the pair tree. -/
section levels
variable (H : Hashlib)

lemma duplicateLast_even {xs : List Bytes} (h : xs.length % 2 = 0) : duplicateLast xs = xs := by
  rw [duplicateLast, if_neg (by omega)]

lemma duplicateLast_odd {xs : List Bytes} (x : Bytes) (h : xs.length % 2 = 0) :
    duplicateLast (xs ++ [x]) = xs ++ [x, x] := by
  have hodd : (xs ++ [x]).length % 2 = 1 := by
    simp only [List.length_append, List.length_singleton]
    omega
  rw [duplicateLast, if_pos hodd]
  simp

lemma nextLevel_cons (a b : Bytes) (rest : List Bytes) :
    nextLevel H (a :: b :: rest) = H.hash256 (a ++ b) :: nextLevel H rest := by
  have hlength : (a :: b :: rest).length / 2 = rest.length / 2 + 1 := by
    simp only [List.length_cons]
    omega
  rw [nextLevel, hlength, List.range_succ_eq_map, List.map_cons, List.map_map, nextLevel]
  rfl

lemma duplicateLast_cons (a b : Bytes) (rest : List Bytes) :
    duplicateLast (a :: b :: rest) = a :: b :: duplicateLast rest := by
  have hlength : (a :: b :: rest).length % 2 = rest.length % 2 := by
    simp only [List.length_cons]
    omega
  rw [duplicateLast, duplicateLast, hlength]
  split_ifs with hodd
  · cases rest with
    | nil => simp at hodd
    | cons c rest => simp
  · rfl

lemma nextLevel_eq_level (xs : List Bytes) :
    nextLevel H (duplicateLast xs) = PairTree.level (merkleNode H) xs := by
  induction xs using PairTree.pairs.induct with
  | case1 a b rest ih =>
    rw [duplicateLast_cons, nextLevel_cons, ih]
    rfl
  | case2 a =>
    simp [duplicateLast, nextLevel, List.range_succ, PairTree.level, PairTree.pairs, merkleNode]
  | case3 => rfl

end levels

namespace MerkleTree
variable (H : Hashlib) {hashes : List Bytes}

lemma buildLevels_succ {fuel : ℕ} {current : List Bytes} (htwo : 2 ≤ current.length) :
    buildLevels H (fuel + 1) current =
      current :: buildLevels H fuel (PairTree.level (merkleNode H) current) := by
  rw [buildLevels, if_pos (by omega), nextLevel_eq_level]

lemma buildLevels_ne_nil (fuel : ℕ) (current : List Bytes) : buildLevels H fuel current ≠ [] := by
  cases fuel with
  | zero => exact List.cons_ne_nil _ _
  | succ fuel =>
    rw [buildLevels]
    split_ifs
    · exact List.cons_ne_nil _ _
    · exact List.cons_ne_nil _ _

/-- The index of `get_proof` is the one of the sibling. -/
lemma getElem?_siblingIndex (level : List Bytes) (index : ℕ) :
    level[siblingIndex level index]? = PairTree.sibling level index := by
  unfold siblingIndex PairTree.sibling
  split_ifs with heven hlast
  · rw [List.getElem?_eq_none hlast, Option.none_or]
  · rw [List.getElem?_eq_getElem (by omega), Option.some_or]
  · rfl

/-- The root of the levels, and where the proof of each leaf leads. -/
structure Proves (root : Bytes) (leaves : List Bytes) (levels : List (List Bytes)) : Prop where
  last : levels.getLast? = some [root]
  climb : ∀ {index : ℕ} {leaf : Bytes}, leaves[index]? = some leaf →
    climb H leaf index (collectProof levels.dropLast index) = root

lemma proves_single (hash : Bytes) : Proves H hash [hash] [[hash]] where
  last := rfl
  climb := by
    intro index leaf hleaf
    cases index with
    | zero => exact (Option.some.inj hleaf).symm
    | succ index => cases hleaf

/-- One level down, the proof of a leaf starts with its sibling. -/
lemma Proves.down {root : Bytes} {level : List Bytes} {levels : List (List Bytes)}
    (h : Proves H root (PairTree.level (merkleNode H) level) levels) (hne : levels ≠ []) :
    Proves H root level (level :: levels) where
  last := by rw [List.getLast?_cons_of_ne_nil hne, h.last]
  climb := by
    intro index leaf hleaf
    obtain ⟨sibling, hsibling, hparent⟩ := PairTree.level_sibling (merkleNode H) hleaf
    have hhalf : ((index : ℤ) / 2) = ((index / 2 : ℕ) : ℤ) := by omega
    have hnode : H.hash256 (if (index : ℤ) % 2 = 0 then leaf ++ sibling else sibling ++ leaf) =
        merkleNode H (PairTree.beside index leaf sibling) := by
      unfold merkleNode PairTree.beside
      by_cases heven : index % 2 = 0
      · rw [if_pos (by omega), if_pos heven]
      · rw [if_neg (by omega), if_neg heven]
    rw [List.dropLast_cons_of_ne_nil hne, collectProof, getElem?_siblingIndex, hsibling,
      Option.toList_some, List.singleton_append, MerkleTree.climb, hnode, hhalf]
    exact h.climb hparent

/-- What a number of turns computes from a list of hashes. -/
def Agrees (fuel : ℕ) (hashes : List Bytes) : Prop :=
  ∃ root, Proves H root hashes (buildLevels H fuel hashes) ∧
    merkleRootAux H fuel hashes = some root ∧ (Hash.merkleRootAux H fuel hashes).1 = root

lemma agrees_single (fuel : ℕ) (hash : Bytes) : Agrees H fuel [hash] := by
  refine ⟨hash, ?_, by cases fuel <;> rfl, by cases fuel <;> rfl⟩
  cases fuel with
  | zero => exact proves_single H hash
  | succ fuel => exact proves_single H hash

lemma exists_cons_cons {hashes : List Bytes} (htwo : 2 ≤ hashes.length) :
    ∃ a b rest, hashes = a :: b :: rest := by
  cases hashes with
  | nil => simp at htwo
  | cons a tail =>
    cases tail with
    | nil => simp at htwo
    | cons b rest => exact ⟨a, b, rest, rfl⟩

lemma agrees_above {fuel : ℕ} {hashes : List Bytes} (htwo : 2 ≤ hashes.length)
    (h : Agrees H fuel (PairTree.level (merkleNode H) hashes)) : Agrees H (fuel + 1) hashes := by
  obtain ⟨root, hproves, hmerkle, hhash⟩ := h
  obtain ⟨a, b, rest, rfl⟩ := exists_cons_cons htwo
  refine ⟨root, ?_, ?_, ?_⟩
  · rw [buildLevels_succ H htwo]
    exact hproves.down H (buildLevels_ne_nil H _ _)
  · simp only [merkleRootAux]
    rw [pairUp_eq_level, hmerkle]
  · simp only [Hash.merkleRootAux]
    rw [nextLevel_eq_level, hhash]

/-- The three computations agree level by level. -/
lemma agrees (hne : hashes ≠ []) {fuel : ℕ} (hfuel : hashes.length ≤ fuel) : Agrees H fuel hashes := by
  apply PairTree.levels_induction (merkleNode H) (P := fun hashes =>
    ∀ fuel, hashes.length ≤ fuel → Agrees H fuel hashes) _ _ hne fuel hfuel
  · intro hash fuel _
    exact agrees_single H fuel hash
  · intro level htwo ih fuel hfuel
    obtain ⟨fuel, rfl⟩ := Nat.exists_eq_add_of_le' (show 1 ≤ fuel by omega)
    apply agrees_above H htwo
    apply ih
    rw [PairTree.length_level]
    omega

lemma getProof_of_lt (tree : MerkleTree) {index : ℕ} (h : index < tree.hashes.length) :
    tree.getProof index = .ok (collectProof tree.levels.dropLast index) := by
  rw [getProof, if_neg (by omega), Int.toNat_natCast]

/-- The three roots are one, and every proof that the tree gives is a proof of its leaf. -/
theorem root_and_proofs (hne : hashes ≠ []) :
    ∃ root, (init H hashes).root = some root ∧ merkleRoot H hashes = some root ∧
      (Hash.merkleRoot H hashes).1 = root ∧
      ∀ (index : ℕ) (h : index < hashes.length), ∃ proof,
        (init H hashes).getProof index = .ok proof ∧
          verifyProof H hashes[index] proof root index = true := by
  obtain ⟨root, hproves, hmerkle, hhash⟩ := agrees H hne le_rfl
  have hlevels : (init H hashes).levels = buildLevels H hashes.length hashes := by
    rw [init, buildTree, if_neg hne]
  refine ⟨root, ?_, hmerkle, hhash, ?_⟩
  · rw [MerkleTree.root, hlevels, hproves.last]
    rfl
  · intro index h
    refine ⟨_, getProof_of_lt (init H hashes) h, ?_⟩
    rw [verifyProof, hlevels, hproves.climb (List.getElem?_eq_getElem h)]
    exact decide_eq_true rfl

open MerkleExample in
/-- The last of three leaves stands beside itself. -/
theorem root_and_proofs_three :
    (init hashlib ids).root = some (beBytes 32 MerkleExample.root) ∧
      ∃ proof, (init hashlib ids).getProof 2 = .ok proof ∧
        verifyProof hashlib (beBytes 32 secondId) proof (beBytes 32 MerkleExample.root) 2 = true := by
  have hroot : (init hashlib ids).root = some (beBytes 32 MerkleExample.root) := by
    decide +kernel
  obtain ⟨root, hinit, _, _, hproofs⟩ := root_and_proofs hashlib (List.cons_ne_nil _ _ : ids ≠ [])
  obtain rfl : beBytes 32 MerkleExample.root = root := Option.some.inj (hroot.symm.trans hinit)
  exact ⟨hroot, hproofs 2 (by decide)⟩

/-- The list that `Hash.merkle_root` leaves to its caller has the same root. -/
theorem root_of_argument (hashes : List Bytes) :
    merkleRoot H (Hash.merkleRoot H hashes).2 = merkleRoot H hashes := by
  by_cases htwo : 2 ≤ hashes.length
  · have hargument : (Hash.merkleRoot H hashes).2 = duplicateLast hashes := by
      obtain ⟨a, b, rest, rfl⟩ := exists_cons_cons htwo
      simp only [Hash.merkleRoot, List.length_cons, Hash.merkleRootAux]
    have hne : hashes ≠ [] := List.ne_nil_of_length_pos (by omega)
    obtain ⟨init, last, rfl⟩ : ∃ init last, hashes = init ++ [last] :=
      ⟨_, _, (List.dropLast_append_getLast hne).symm⟩
    rw [hargument]
    simp only [List.length_append, List.length_singleton] at htwo
    by_cases heven : init.length % 2 = 0
    · rw [duplicateLast_odd last heven]
      exact merkleRoot_repeat_last H last (List.ne_nil_of_length_pos (by omega)) heven
    · rw [duplicateLast_even (by simp only [List.length_append, List.length_singleton]; omega)]
  · have hargument : (Hash.merkleRoot H hashes).2 = hashes := by
      cases hashes with
      | nil => rfl
      | cons hash rest =>
        obtain rfl : rest = [] := List.length_eq_zero_iff.1 (by simp only [List.length_cons] at htwo; omega)
        rfl
    rw [hargument]

end MerkleTree

/-! Lists of the same length under one root. -/
section injective
variable {H : Hashlib} {hashes others : List Bytes}

/-- What `merkle_root` hashes: on each level both hashes of each pair. -/
def merkleInputs (H : Hashlib) (hashes : List Bytes) : List Bytes :=
  (PairTree.pairsBelow (merkleNode H) (PairTree.depth hashes) hashes).map fun p => p.1 ++ p.2

/-- The inputs of 64 bytes in two computations of a root. -/
def PairInputs (H : Hashlib) (hashes others : List Bytes) : Set Bytes :=
  {data | data.length = 64 ∧ (data ∈ merkleInputs H hashes ∨ data ∈ merkleInputs H others)}

lemma length_of_mem_pairsBelow (hlength : ∀ data, (H.sha256 data).length = 32)
    (hhashes : ∀ hash ∈ hashes, hash.length = 32) {p : Bytes × Bytes} {d : ℕ}
    (hp : p ∈ PairTree.pairsBelow (merkleNode H) d hashes) : p.1.length = 32 ∧ p.2.length = 32 :=
  PairTree.pairsBelow_forall (P := fun hash => hash.length = 32) (merkleNode H)
    (fun _ => hlength _) hhashes hp

/-- Two hashes of 32 bytes are put together without loss. -/
lemma injOn_merkleNode_of_inputs (hlength : ∀ data, (H.sha256 data).length = 32)
    (hhashes : ∀ hash ∈ hashes, hash.length = 32) (hothers : ∀ hash ∈ others, hash.length = 32)
    (hinj : Set.InjOn H.hash256 (PairInputs H hashes others)) :
    Set.InjOn (merkleNode H) {p |
      p ∈ PairTree.pairsBelow (merkleNode H) (PairTree.depth hashes) hashes ∨
        p ∈ PairTree.pairsBelow (merkleNode H) (PairTree.depth others) others} := by
  have hinput : ∀ p, p ∈ PairTree.pairsBelow (merkleNode H) (PairTree.depth hashes) hashes ∨
      p ∈ PairTree.pairsBelow (merkleNode H) (PairTree.depth others) others →
        p.1 ++ p.2 ∈ PairInputs H hashes others ∧ p.1.length = 32 := by
    intro p hp
    have hpair : p.1.length = 32 ∧ p.2.length = 32 := by
      cases hp with
      | inl hp => exact length_of_mem_pairsBelow hlength hhashes hp
      | inr hp => exact length_of_mem_pairsBelow hlength hothers hp
    refine ⟨⟨by rw [List.length_append, hpair.1, hpair.2], ?_⟩, hpair.1⟩
    exact hp.imp (fun hp => List.mem_map.2 ⟨p, hp, rfl⟩) (fun hp => List.mem_map.2 ⟨p, hp, rfl⟩)
  intro p hp q hq h
  obtain ⟨hpinput, hplength⟩ := hinput p hp
  obtain ⟨hqinput, hqlength⟩ := hinput q hq
  have happend : p.1 ++ p.2 = q.1 ++ q.2 := hinj hpinput hqinput h
  obtain ⟨hfst, hsnd⟩ := List.append_inj happend (hplength.trans hqlength.symm)
  exact Prod.ext hfst hsnd

/-- Lists of hashes of the same length have the same root only if they are equal, unless two
inputs of 64 bytes that are hashed on the way have one digest. -/
theorem merkleRoot_inj_of_length (hlength : ∀ data, (H.sha256 data).length = 32)
    (hhashes : ∀ hash ∈ hashes, hash.length = 32) (hothers : ∀ hash ∈ others, hash.length = 32)
    (hcount : hashes.length = others.length)
    (hinj : Set.InjOn H.hash256 (PairInputs H hashes others))
    (hroot : merkleRoot H hashes = merkleRoot H others) : hashes = others := by
  by_cases hne : hashes = []
  · rw [hne, List.length_nil] at hcount
    rw [hne, List.eq_nil_of_length_eq_zero hcount.symm]
  · have hne' : others ≠ [] := by
      rw [← List.length_pos_iff, ← hcount]
      exact List.length_pos_iff.2 hne
    have hdepth : PairTree.depth hashes = PairTree.depth others := by
      rw [PairTree.depth, PairTree.depth, hcount]
    obtain ⟨root, hlevels⟩ := PairTree.levels_depth (merkleNode H) hne
    obtain ⟨root', hlevels'⟩ := PairTree.levels_depth (merkleNode H) hne'
    rw [merkleRoot, merkleRoot, merkleRootAux_eq H le_rfl hlevels,
      merkleRootAux_eq H le_rfl hlevels', Option.some.injEq] at hroot
    have hnode := injOn_merkleNode_of_inputs hlength hhashes hothers hinj
    rw [← hdepth] at hnode hlevels'
    exact PairTree.leaves_eq_of_length hnode hcount (by rw [hlevels, hlevels', hroot])

end injective

open MerkleExample in
/-- The ids of three transactions and a list of the same length with their root. -/
theorem merkleRoot_inj_of_length_three :
    merkleRoot hashlib (block.txids hashlib) = some (beBytes 32 MerkleExample.root) ∧
      block.txids hashlib = ids := by
  have hinj : hashlib.NoCollision (merkleInputs hashlib (block.txids hashlib) ++
      merkleInputs hashlib ids) := by decide +kernel
  refine ⟨by decide +kernel, merkleRoot_inj_of_length length_sha256 (by decide +kernel)
    (by decide +kernel) (by decide +kernel) ?_ (by decide +kernel)⟩
  intro x hx y hy h
  exact hinj x (List.mem_append.2 hx.2) y (List.mem_append.2 hy.2) h

end BerzCoin
