import BerzCoin.CoreSerialization

/-! Transactions and blocks as the wire format carries them. The integer fields have
the width of their wire encoding, so every value can be serialized. -/
namespace BerzCoin

/-- The digests of Python's `hashlib` that the code uses. -/
structure Hashlib where
  sha256 : Bytes → Bytes
  ripemd160 : Bytes → Bytes
  sha1 : Bytes → Bytes

namespace Hashlib

def hash256 (H : Hashlib) (data : Bytes) : Bytes := H.sha256 (H.sha256 data)
def hash160 (H : Hashlib) (data : Bytes) : Bytes := H.ripemd160 (H.sha256 data)

/-- The tag is given by the bytes of its name. -/
def taggedHash (H : Hashlib) (tag data : Bytes) : Bytes :=
  H.sha256 (H.sha256 tag ++ H.sha256 tag ++ data)

/-- A table of SHA-256 digests, for evaluation on known data. -/
def ofDigests (digests : List (Bytes × Bytes)) : Hashlib where
  sha256 data := (digests.lookup data).getD []
  ripemd160 _ := []
  sha1 _ := []

/-- `H` with the digests of strings that are hashed twice, each with its first and second one. -/
def withDigests (H : Hashlib) (digests : List (Bytes × ℕ × ℕ)) : Hashlib :=
  { H with
    sha256 := fun data =>
      ((digests.flatMap fun d => [(d.1, beBytes 32 d.2.1), (beBytes 32 d.2.1, beBytes 32 d.2.2)]).lookup
        data).getD (H.sha256 data) }

lemma sha256_withDigests (H : Hashlib) (digests : List (Bytes × ℕ × ℕ)) (data : Bytes) :
    (H.withDigests digests).sha256 data = H.sha256 data ∨
      ∃ d ∈ digests, ∃ digest ∈ [d.2.1, d.2.2],
        (H.withDigests digests).sha256 data = beBytes 32 digest := by
  rw [withDigests]
  cases hlookup : (digests.flatMap fun d =>
      [(d.1, beBytes 32 d.2.1), (beBytes 32 d.2.1, beBytes 32 d.2.2)]).lookup data with
  | none => exact .inl (by simp only [hlookup, Option.getD_none])
  | some value =>
    obtain ⟨before, after, heq, -⟩ := List.lookup_eq_some_iff.1 hlookup
    have hmem : (data, value) ∈ digests.flatMap fun d =>
        [(d.1, beBytes 32 d.2.1), (beBytes 32 d.2.1, beBytes 32 d.2.2)] := by
      rw [heq]
      simp
    obtain ⟨d, hd, hpair⟩ := List.mem_flatMap.1 hmem
    refine .inr ⟨d, hd, ?_⟩
    simp only [hlookup, Option.getD_some]
    simp only [List.mem_cons, Prod.mk.injEq, List.not_mem_nil, or_false] at hpair
    obtain ⟨-, rfl⟩ | ⟨-, rfl⟩ := hpair
    · exact ⟨d.2.1, by simp, rfl⟩
    · exact ⟨d.2.2, by simp, rfl⟩

def ofDoubleDigests (digests : List (Bytes × ℕ × ℕ)) : Hashlib := (ofDigests []).withDigests digests

/-- `H` with 32 bytes for every string. -/
def padded (H : Hashlib) : Hashlib :=
  { H with sha256 := fun data => (H.sha256 data ++ List.replicate 32 0).take 32 }

lemma length_padded (H : Hashlib) (data : Bytes) : (H.padded.sha256 data).length = 32 := by
  simp [padded]

end Hashlib

open Serializer

structure TxIn where
  prevTxHash : Bytes
  prevTxIndex : UInt32
  scriptSig : Bytes
  sequence : UInt32
  witness : List Bytes
  deriving DecidableEq, Repr

structure TxOut where
  value : UInt64
  scriptPubkey : Bytes
  deriving DecidableEq, Repr

structure Transaction where
  version : UInt32
  vin : List TxIn
  vout : List TxOut
  locktime : UInt32
  deriving DecidableEq, Repr

structure BlockHeader where
  version : UInt32
  prevBlockHash : Bytes
  merkleRoot : Bytes
  timestamp : UInt32
  bits : UInt32
  nonce : UInt32
  deriving DecidableEq, Repr

structure Block where
  header : BlockHeader
  transactions : List Transaction
  deriving DecidableEq, Repr

/-- `b'\x00' * 32`. -/
def zeroHash : Bytes := List.replicate 32 0

namespace Witness

def serialize (items : List Bytes) : Bytes :=
  if items = [] then [] else writeVarint items.length ++ items.flatMap writeBytes

def deserialize : Reader (List Bytes) := fun data offset =>
  if data.length ≤ offset then .ok ([], offset)
  else
    (do let nItems ← readVarint
        readMany (do let length ← readVarint; readBytes length) nItems : Reader (List Bytes))
      data offset

end Witness

namespace TxIn

def isCoinbase (txin : TxIn) : Bool :=
  txin.prevTxHash = zeroHash && txin.prevTxIndex = 0xffffffff

/-- An empty witness stack writes nothing, even when witnesses are included. -/
def serialize (txin : TxIn) (includeWitness : Bool) : Bytes :=
  txin.prevTxHash ++ (writeUint32 txin.prevTxIndex ++ (writeBytes txin.scriptSig ++
    (writeUint32 txin.sequence ++ if includeWitness then Witness.serialize txin.witness else [])))

def deserialize (hasWitness : Bool) : Reader TxIn := do
  let prevTxHash ← readBytes 32
  let prevTxIndex ← readUint32
  let scriptSig ← (do let sigLen ← readVarint; readBytes sigLen)
  let sequence ← readUint32
  let witness ← if hasWitness then Witness.deserialize else pure []
  pure ⟨prevTxHash, prevTxIndex, scriptSig, sequence, witness⟩

end TxIn

namespace TxOut

def serialize (txout : TxOut) : Bytes :=
  writeUint64 txout.value ++ writeBytes txout.scriptPubkey

def deserialize : Reader TxOut := do
  let value ← readUint64
  let scriptPubkey ← (do let spkLen ← readVarint; readBytes spkLen)
  pure ⟨value, scriptPubkey⟩

/-- `script_pubkey and script_pubkey[0] == 0x6a`. -/
def isOpReturn (txout : TxOut) : Bool := txout.scriptPubkey.head? = some 0x6a

end TxOut

namespace Transaction

def hasWitness (tx : Transaction) : Bool := tx.vin.any fun txin => txin.witness ≠ []

def isCoinbase (tx : Transaction) : Bool :=
  match tx.vin with
  | [txin] => txin.isCoinbase
  | _ => false

def serialize (tx : Transaction) (includeWitness : Bool) : Bytes :=
  let hasWitness := includeWitness && tx.hasWitness
  writeUint32 tx.version ++ ((if hasWitness then [0x00, 0x01] else []) ++
    (writeVarint tx.vin.length ++ (tx.vin.flatMap (·.serialize hasWitness) ++
      (writeVarint tx.vout.length ++ (tx.vout.flatMap TxOut.serialize ++
        writeUint32 tx.locktime)))))

/-- A zero byte after the version announces a marker and a flag byte, whatever the
flag is; only flag `0x01` makes the inputs carry witnesses. -/
def readMarker : Reader Bool := fun data offset =>
  if data[offset]? = some 0x00 then
    match data[offset + 1]? with
    | none => .error (.indexError "index out of range")
    | some flag => .ok (flag = 0x01, offset + 2)
  else .ok (false, offset)

def deserialize : Reader Transaction := do
  let version ← readUint32
  let hasWitness ← readMarker
  let nInputs ← readVarint
  let inputs ← readMany (TxIn.deserialize hasWitness) nInputs
  let nOutputs ← readVarint
  let outputs ← readMany TxOut.deserialize nOutputs
  let locktime ← readUint32
  pure ⟨version, inputs, outputs, locktime⟩

def txid (H : Hashlib) (tx : Transaction) : Bytes := H.hash256 (tx.serialize false)

def size (tx : Transaction) : ℕ := (tx.serialize true).length

/-- `calculate_transaction_weight`. -/
def weight (tx : Transaction) : ℕ := (tx.serialize false).length * 3 + (tx.serialize true).length

/-- Copy of the transaction that forgets its witnesses. -/
def stripWitness (tx : Transaction) : Transaction :=
  { tx with vin := tx.vin.map fun txin => { txin with witness := [] } }

end Transaction

namespace BlockHeader

def serialize (header : BlockHeader) : Bytes :=
  writeUint32 header.version ++ (header.prevBlockHash ++ (header.merkleRoot ++
    (writeUint32 header.timestamp ++ (writeUint32 header.bits ++ writeUint32 header.nonce))))

def deserialize : Reader BlockHeader := do
  let version ← readUint32
  let prevBlockHash ← readBytes 32
  let merkleRoot ← readBytes 32
  let timestamp ← readUint32
  let bits ← readUint32
  let nonce ← readUint32
  pure ⟨version, prevBlockHash, merkleRoot, timestamp, bits, nonce⟩

def hash (H : Hashlib) (header : BlockHeader) : Bytes := H.hash256 header.serialize

/-- `hash_hex()`: the digest in display order. It is the key of the block index, and
`prev_block_hash.hex()` is compared with it, so it is kept as bytes. -/
def hashHex (H : Hashlib) (header : BlockHeader) : Bytes := (header.hash H).reverse

def isValidPow (H : Hashlib) (header : BlockHeader) (target : ℕ) : Bool :=
  beNat (header.hash H) ≤ target

end BlockHeader

/-- `merkle_root`, for at most `fuel` levels; the number of leaves is enough. -/
def merkleRootAux (H : Hashlib) : ℕ → List Bytes → Option Bytes
  | _, [] => none
  | _, [h] => some h
  | 0, _ => none
  | fuel + 1, hashes =>
    let rec pairUp : List Bytes → List Bytes
      | a :: b :: rest => H.hash256 (a ++ b) :: pairUp rest
      | [a] => [H.hash256 (a ++ a)]
      | [] => []
    merkleRootAux H fuel (pairUp hashes)

def merkleRoot (H : Hashlib) (hashes : List Bytes) : Option Bytes :=
  merkleRootAux H hashes.length hashes

namespace Block

def serialize (block : Block) (includeWitness : Bool) : Bytes :=
  block.header.serialize ++ (writeVarint block.transactions.length ++
    block.transactions.flatMap (·.serialize includeWitness))

def deserialize : Reader Block := do
  let header ← BlockHeader.deserialize
  let nTransactions ← readVarint
  let transactions ← readMany Transaction.deserialize nTransactions
  pure ⟨header, transactions⟩

def calculateMerkleRoot (H : Hashlib) (block : Block) : Bytes :=
  (merkleRoot H (block.transactions.map (·.txid H))).getD zeroHash

def verifyMerkleRoot (H : Hashlib) (block : Block) : Bool :=
  block.calculateMerkleRoot H = block.header.merkleRoot

/-- `block.size()`, without witnesses. -/
def size (block : Block) : ℕ := (block.serialize false).length

/-- `calculate_block_weight`. -/
def weight (block : Block) : ℕ := (block.transactions.map Transaction.weight).sum

end Block

/-! The blocks of the examples: a genesis block and two branches over it. -/
namespace BlockExample

def coinbaseWith (scriptSig : Bytes) (value : UInt64) (scriptPubkey : Bytes) : Transaction where
  version := 1
  vin := [⟨zeroHash, 0xffffffff, scriptSig, 0xffffffff, []⟩]
  vout := [⟨value, scriptPubkey⟩]
  locktime := 0

/-- Anyone can spend it. -/
def coinbase (n : UInt8) : Transaction := coinbaseWith [0x01, n] 50 [0x51]

def blockOn (prevBlockHash merkleRoot : ℕ) (timestamp nonce : UInt32)
    (transactions : List Transaction) : Block where
  header :=
    { version := 1
      prevBlockHash := beBytes 32 prevBlockHash
      merkleRoot := beBytes 32 merkleRoot
      timestamp
      bits := 0x207fffff
      nonce }
  transactions

def coinbase0Id : ℕ := 0xd55d6e66f27454a34885482a4449efa5b3935e8e5e0a440bda048a906b32deca

def coinbase1Id : ℕ := 0x29c38d44c8052782e51122a1142356ebafc8f72a1e19079f9a804ddd59fb2929

def coinbase2Id : ℕ := 0xe532a9ee4322f6d21c0d6a32b45eaf05a8598a2e627b0a312dd0a07c0a3182ca

def coinbase3Id : ℕ := 0xbe312db3a443837c20ad442d873f63b472dda4b2d0da312aae5a0ca9fe71ba4d

def genesis : Block := blockOn 0 coinbase0Id 1000 0 [coinbase 0]

def genesisHash : ℕ := 0x0026fd8166ff9b0d97a472646302b3bd76749f2b207bf9fa726cc1f59f1af20a

def blockA : Block := blockOn genesisHash coinbase1Id 1001 0 [coinbase 1]

def blockAHash : ℕ := 0x14a75ae54cceb064dff44ef01fd20ed18aacb66766579fa62b9bd27c28060d69

def blockA2 : Block := blockOn blockAHash coinbase3Id 1002 0 [coinbase 3]

def blockB : Block := blockOn genesisHash coinbase2Id 1001 2 [coinbase 2]

def blockBHash : ℕ := 0xc3c20d4494e4b339885bf572e5882c644c0b86f828197f9f292352aa77fd7266

def blockB2 : Block := blockOn blockBHash coinbase3Id 1002 1 [coinbase 3]

def digests : List (Bytes × ℕ × ℕ) :=
  [((coinbase 0).serialize false,
      0x251c9e6de74e3232b3c718655605c205781f0d2b904d0510f9aa78c8bb9b90da, coinbase0Id),
    ((coinbase 1).serialize false,
      0xf134d143006a51204c3e88a2beaf303b7a580ce200ce6b117703851a96e3efb9, coinbase1Id),
    ((coinbase 2).serialize false,
      0xc251de7a6c867e24a408f3d8c8382f2a1f14528a4f01d217112bfe555f1ba6f7, coinbase2Id),
    ((coinbase 3).serialize false,
      0x6f9fcd92481f2f6ec1a3aacf32e758a78d8f39dfc19d31d27bc119a9ad2e92c5, coinbase3Id),
    (genesis.header.serialize,
      0xc8cb6ef563fa737143d294e729a5855dde9dcfc0417c5d7d6ce4bfab5293139e,
      0x0af21a9ff5c16c72faf97b202b9f7476bdb302636472a4970d9bff6681fd2600),
    (blockA.header.serialize,
      0x7402e9863ad2bc8e6a5a6e11587e20edeaabc0d03d0a30d09b74ed2e8a669e37,
      0x690d06287cd29b2ba69f576667b6ac8ad10ed21ff04ef4df64b0ce4ce55aa714),
    (blockA2.header.serialize,
      0xd5479bce3e6235bed1c6ee7898fc94df52a4b86f5d9d0888ef83c9dec4d43daa,
      0x3bef4572a9150f1fff01e41e33b23147291a2519fa96d2b04cd10ee5b30878f9),
    (blockB.header.serialize,
      0x720355330ef725b0a6b5217c5ad1f1995e4b227020134e6e1574a1fffec817df,
      0x6672fd77aa5223299f7f1928f8860b4c642c88e572f55b8839b3e494440dc2c3),
    (blockB2.header.serialize,
      0x97379b466b70f814eec3c7158aacbd47bbc119819252eef83ae4d1f7207370cf,
      0x197a36fd4371d980ae3aec80dc9db82701f26e8fffd4e12584ba016b4486dc3e)]

def hashlib : Hashlib := Hashlib.ofDoubleDigests digests

end BlockExample

/-- Field ranges of a decoded input that its Lean type does not already impose. -/
structure TxIn.InRange (txin : TxIn) : Prop where
  prevTxHash : txin.prevTxHash.length = 32
  scriptSig : txin.scriptSig.length < 2 ^ 64

structure Transaction.InRange (tx : Transaction) : Prop where
  vin : ∀ txin ∈ tx.vin, txin.InRange
  vinLength : tx.vin.length < 2 ^ 64
  vout : ∀ txout ∈ tx.vout, txout.scriptPubkey.length < 2 ^ 64
  voutLength : tx.vout.length < 2 ^ 64

instance (txin : TxIn) : Decidable txin.InRange :=
  decidable_of_iff (txin.prevTxHash.length = 32 ∧ txin.scriptSig.length < 2 ^ 64)
    ⟨fun h => ⟨h.1, h.2⟩, fun h => ⟨h.1, h.2⟩⟩

instance (tx : Transaction) : Decidable tx.InRange :=
  decidable_of_iff ((∀ txin ∈ tx.vin, txin.InRange) ∧ tx.vin.length < 2 ^ 64 ∧
      (∀ txout ∈ tx.vout, txout.scriptPubkey.length < 2 ^ 64) ∧ tx.vout.length < 2 ^ 64)
    ⟨fun h => ⟨h.1, h.2.1, h.2.2.1, h.2.2.2⟩, fun h => ⟨h.1, h.2, h.3, h.4⟩⟩

lemma TxIn.deserialize_decodes {txin : TxIn} (h : txin.InRange) :
    Reader.Decodes (TxIn.deserialize false) (txin.serialize false) { txin with witness := [] } := by
  unfold TxIn.deserialize TxIn.serialize
  refine (readBytes_decodes h.prevTxHash).bind ((readUint32_decodes _).bind
    ((readVarBytes_decodes h.scriptSig).bind ((readUint32_decodes _).bind ?_)))
  exact Reader.Decodes.pure _

lemma TxOut.deserialize_decodes {txout : TxOut} (h : txout.scriptPubkey.length < 2 ^ 64) :
    Reader.Decodes TxOut.deserialize txout.serialize txout := by
  unfold TxOut.deserialize TxOut.serialize
  exact (readUint64_decodes _).bind ((readVarBytes_decodes h).map (g := TxOut.mk txout.value))

namespace Transaction

/-- Reader of the serialization without witnesses. Unlike `deserialize` it has no
marker, so it also recovers a transaction without inputs. -/
def readBase : Reader Transaction := do
  let version ← readUint32
  let nInputs ← readVarint
  let inputs ← readMany (TxIn.deserialize false) nInputs
  let nOutputs ← readVarint
  let outputs ← readMany TxOut.deserialize nOutputs
  let locktime ← readUint32
  pure ⟨version, inputs, outputs, locktime⟩

lemma readBase_decodes {tx : Transaction} (h : tx.InRange) :
    Reader.Decodes readBase (tx.serialize false) tx.stripWitness := by
  have hin : Reader.Decodes (readMany (TxIn.deserialize false) tx.vin.length)
      (tx.vin.flatMap (·.serialize false)) tx.stripWitness.vin := by
    have hs : tx.vin.flatMap (·.serialize false) =
        tx.stripWitness.vin.flatMap (·.serialize false) := by
      simp [stripWitness, List.flatMap_map, TxIn.serialize]
    have hl : tx.vin.length = tx.stripWitness.vin.length := by simp [stripWitness]
    rw [hs, hl]
    apply Reader.Decodes.many
    intro txin hm
    obtain ⟨orig, ho, rfl⟩ := List.mem_map.mp hm
    have hr := h.vin orig ho
    exact TxIn.deserialize_decodes ⟨hr.prevTxHash, hr.scriptSig⟩
  have hout := Reader.Decodes.many tx.vout fun txout ho => TxOut.deserialize_decodes (h.vout txout ho)
  unfold readBase serialize
  simp only [Bool.false_and, Bool.false_eq_true, if_false, List.nil_append]
  exact (readUint32_decodes _).bind ((readVarint_decodes h.vinLength).bind (hin.bind
    ((readVarint_decodes h.voutLength).bind (hout.bind ((readUint32_decodes _).map
      (g := Transaction.mk tx.version tx.stripWitness.vin tx.vout))))))

/-- The bytes that are hashed to the txid determine everything but the witnesses. -/
theorem stripWitness_eq_of_serialize_eq {tx tx' : Transaction} (h : tx.InRange) (h' : tx'.InRange)
    (he : tx.serialize false = tx'.serialize false) : tx.stripWitness = tx'.stripWitness := by
  have hd := readBase_decodes h
  rw [he] at hd
  exact hd.unique (readBase_decodes h')

end Transaction
end BerzCoin
