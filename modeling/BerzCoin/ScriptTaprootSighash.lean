import BerzCoin.ScriptSighash

/-! What a Taproot key-path digest commits to. A spend whose hash type is `SIGHASH_SINGLE` and that
has no output beside its input is not hashed at all: its digest is the same 32 zero bytes in every
transaction. -/
namespace BerzCoin.Script
open Serializer

/-- The arguments of `calculate_taproot_keypath_sighash`. -/
structure KeypathSpend where
  tx : Transaction
  inputIndex : ℕ
  amount : ℕ
  scriptPubkey : Bytes
  sighashType : ℕ
  annex : Bytes

namespace KeypathSpend

def sighash (H : Hashlib) (s : KeypathSpend) : Except PyError Bytes :=
  calculateTaprootKeypathSighash H s.tx s.inputIndex s.amount s.scriptPubkey s.sighashType s.annex

/-- The hash types are those that `verify_input_script` lets through on the key path. -/
structure Admitted (s : KeypathSpend) : Prop where
  tx : s.tx.InRange
  inputIndex : s.inputIndex < s.tx.vin.length
  scriptPubkey : s.scriptPubkey.length < 2 ^ 64
  sighashType : s.sighashType ∈ TAPROOT_SIGHASH_TYPES

def baseType (s : KeypathSpend) : ℕ :=
  if s.sighashType &&& 0x03 = 0 then SIGHASH_ALL else s.sighashType &&& 0x03

def anyoneCanPay (s : KeypathSpend) : Bool := s.sighashType &&& SIGHASH_ANYONECANPAY ≠ 0

/-- There is no output for `SIGHASH_SINGLE` to cover. -/
def Unmatched (s : KeypathSpend) : Prop :=
  s.baseType = SIGHASH_SINGLE ∧ s.tx.vout.length ≤ s.inputIndex

/-- The outputs that the hash type covers. -/
def committedOutputs (s : KeypathSpend) : List TxOut :=
  if s.baseType = SIGHASH_ALL then s.tx.vout
  else if s.baseType = SIGHASH_SINGLE then s.tx.vout[s.inputIndex]?.toList
  else []

def inputAmounts (s : KeypathSpend) : List ℕ :=
  (List.range s.tx.vin.length).map fun idx => if idx = s.inputIndex then s.amount else 0

def inputScriptPubkeys (s : KeypathSpend) : List Bytes :=
  (List.range s.tx.vin.length).map fun idx => if idx = s.inputIndex then s.scriptPubkey else []

def amountsData (s : KeypathSpend) : Bytes := s.inputAmounts.flatMap (leBytes 8)

def scriptPubkeysData (s : KeypathSpend) : Bytes := s.inputScriptPubkeys.flatMap writeBytes

def outputsData (s : KeypathSpend) : Bytes := s.committedOutputs.flatMap TxOut.serialize

def unlessAnyone (H : Hashlib) (s : KeypathSpend) (data : Bytes) : Bytes :=
  if s.anyoneCanPay then zeroHash else H.sha256 data

def hashSequences (H : Hashlib) (s : KeypathSpend) : Bytes :=
  if !s.anyoneCanPay && s.baseType = SIGHASH_ALL then H.sha256 (sequencesData s.tx.vin)
  else zeroHash

def hashOutputs (H : Hashlib) (s : KeypathSpend) : Bytes :=
  if s.baseType = SIGHASH_ALL ∨ s.baseType = SIGHASH_SINGLE then H.sha256 s.outputsData
  else zeroHash

def spendType (s : KeypathSpend) : ℕ := if s.annex ≠ [] then 1 else 0

/-- The part of the preimage that every hash type has. -/
def head (H : Hashlib) (s : KeypathSpend) : Bytes :=
  leBytes 1 0 ++ (leBytes 1 s.sighashType ++ (writeUint32 s.tx.version ++
    (writeUint32 s.tx.locktime ++ (s.unlessAnyone H (prevoutsData s.tx.vin) ++
      (s.unlessAnyone H s.amountsData ++ (s.unlessAnyone H s.scriptPubkeysData ++
        (s.hashSequences H ++ (s.hashOutputs H ++ leBytes 1 s.spendType))))))))

def input (s : KeypathSpend) (txin : TxIn) : Bytes :=
  if s.anyoneCanPay then txin.prevTxHash ++ (writeUint32 txin.prevTxIndex ++ (leBytes 8 s.amount ++
    (writeBytes s.scriptPubkey ++ writeUint32 txin.sequence)))
  else leBytes 4 s.inputIndex

def annexHash (H : Hashlib) (s : KeypathSpend) : Bytes :=
  if s.annex ≠ [] then H.sha256 (writeBytes s.annex) else []

/-- The preimage, for the input that is signed. -/
def preimage (H : Hashlib) (s : KeypathSpend) : Bytes :=
  s.head H ++ ((s.tx.vin[s.inputIndex]?.map s.input).getD [] ++ s.annexHash H)

/-- What is hashed on the way to the digest, before the preimage is. -/
def hashedData (s : KeypathSpend) : Set Bytes :=
  {data | ¬ s.Unmatched ∧
    (data = s.amountsData ∨ data = s.scriptPubkeysData ∨ data = s.outputsData)}

def hashedPreimage (H : Hashlib) (s : KeypathSpend) : Set Bytes :=
  {data | ¬ s.Unmatched ∧ data = s.preimage H}

/-- The hash functions do not collide on what is hashed for two spends, and give no zero digest. -/
structure Apart (H : Hashlib) (s s' : KeypathSpend) : Prop where
  data : Set.InjOn H.sha256 (s.hashedData ∪ s'.hashedData)
  preimage : Set.InjOn (H.taggedHash (asciiBytes "TapSighash"))
    (s.hashedPreimage H ∪ s'.hashedPreimage H)
  nonzero : ∀ data ∈ s.hashedPreimage H ∪ s'.hashedPreimage H,
    H.taggedHash (asciiBytes "TapSighash") data ≠ zeroHash

/-! The function in terms of its preimage. -/
section preimage
variable {H : Hashlib} {s s' : KeypathSpend} {digest : Bytes}

end preimage

/-! The fields of a preimage. -/
section fields
variable {H : Hashlib} {s s' : KeypathSpend}

lemma writeBytes_ne_nil (data : Bytes) : writeBytes data ≠ [] := by
  intro hnil
  have hlen := congrArg List.length hnil
  simp only [writeBytes, writeVarint, List.length_append, List.length_nil] at hlen
  split_ifs at hlen <;> simp at hlen

end fields

section commits
variable {H : Hashlib} {s s' : KeypathSpend}

end commits
end KeypathSpend

/-! The second input signs for the second output, which is not there, in two payments to two
receivers. -/
namespace KeypathExample

def txin (txid : UInt8) : TxIn := ⟨List.replicate 32 txid, 0, [], 0xffffffff, []⟩

/-- `SIGHASH_SINGLE` for the last of some inputs. -/
def spend (vin : List TxIn) (script : Bytes) : KeypathSpend where
  tx := { version := 2, vin, vout := [⟨50, script⟩], locktime := 0 }
  inputIndex := vin.length - 1
  amount := 60
  scriptPubkey := 0x51 :: 0x20 :: List.replicate 32 0x02
  sighashType := SIGHASH_SINGLE
  annex := []

def single : KeypathSpend := spend [txin 0x11] [0x51]

def parts : Hashlib := Hashlib.ofDigests [
  (asciiBytes "TapSighash",
    beBytes 32 0xf40a48df4b2a70c8b4924bf2654661ed3d95fd66a313eb87237597c628e4a031),
  (prevoutsData single.tx.vin,
    beBytes 32 0x075fce99a18c5a946572efe571afdbc79505361d2e43f8ed10b9b4c47f64538e),
  (single.amountsData,
    beBytes 32 0x3fe8adee83a670dd3131f667e963775b2256f3f59d5a996984eb47f8375efd7c),
  (single.scriptPubkeysData,
    beBytes 32 0x9fbd0253f1c4d3ad5ece2e1fb4d636ae4598d5821f93d18aa55c51ebf98c6b67),
  (single.outputsData,
    beBytes 32 0x27b82a4fb66f27fd892e88e3574cec34dc4219e7bf2065d132f1245118571b0b)]

def singleDigest : Bytes :=
  beBytes 32 0xdf6039b98acc74a323efd292f1dead96a9adc6b26079780ccbee0920974eb585

def hashlib : Hashlib := Hashlib.padded
  { parts with
    sha256 := fun data =>
      if data = parts.sha256 (asciiBytes "TapSighash") ++ parts.sha256 (asciiBytes "TapSighash") ++
          single.preimage parts then singleDigest
      else parts.sha256 data }

end KeypathExample

open KeypathExample

end BerzCoin.Script
