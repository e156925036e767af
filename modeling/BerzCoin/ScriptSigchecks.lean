import BerzCoin.CoreTransaction
import BerzCoin.ScriptOpcodes

/-! Signature hashes and the signature checker. Curve arithmetic enters through the
three verification functions of `Crypto`; everything around them is the source's. -/
namespace BerzCoin.Script
open Serializer

/-- Verification on the curve. `verifySignature` also decodes the public key, and each
function may raise on malformed input. -/
structure Crypto extends Hashlib where
  verifySignature : (pubkey sighash sigDer : Bytes) → Except PyError Bool
  verifySchnorrSignature : (pubkeyXonly sighash sig : Bytes) → Except PyError Bool
  taprootTweakPubkey : (internalKey merkleRoot : Bytes) → Except PyError (Option (Bytes × ℕ))

/-- No signature is valid. -/
def Crypto.ofHashlib (H : Hashlib) : Crypto where
  toHashlib := H
  verifySignature _ _ _ := .ok false
  verifySchnorrSignature _ _ _ := .ok false
  taprootTweakPubkey _ _ := .ok none

def SIGHASH_ALL : ℕ := 0x01
def SIGHASH_NONE : ℕ := 0x02
def SIGHASH_SINGLE : ℕ := 0x03
def SIGHASH_ANYONECANPAY : ℕ := 0x80

def SUPPORTED_ECDSA_SIGHASH_TYPES : List ℕ :=
  [SIGHASH_ALL, SIGHASH_NONE, SIGHASH_SINGLE, SIGHASH_ALL ||| SIGHASH_ANYONECANPAY,
    SIGHASH_NONE ||| SIGHASH_ANYONECANPAY, SIGHASH_SINGLE ||| SIGHASH_ANYONECANPAY]

def TAPROOT_SIGHASH_TYPES : List ℕ := [0x00, 0x01, 0x02, 0x03, 0x81, 0x82, 0x83]

/-- `int(n).to_bytes(width, 'little')`, which raises when the value does not fit. -/
def toBytes (width n : ℕ) : Except PyError Bytes :=
  if n < 256 ^ width then .ok (leBytes width n) else .error (.overflowError "int too big to convert")

/-- `items[i]`. -/
def getItem {α : Type} (items : List α) (i : ℕ) : Except PyError α :=
  match items[i]? with
  | some a => .ok a
  | none => .error (.indexError "list index out of range")

def clearOtherSequences (vin : List TxIn) (keep : ℕ) : List TxIn :=
  vin.mapIdx fun i txin => if i = keep then txin else { txin with sequence := 0 }

def singleBugHash : Bytes := 0x01 :: List.replicate 31 0

def calculateLegacySighash (H : Hashlib) (tx : Transaction) (inputIndex sighashType : ℕ)
    (scriptCode : Bytes) : Except PyError Bytes := do
  if tx.vin.length ≤ inputIndex then return zeroHash
  let (txCopy, _) ← Transaction.deserialize (tx.serialize false) 0
  let blank := txCopy.vin.map fun txin => { txin with scriptSig := [] }
  let target ← getItem blank inputIndex
  let anyoneCanPay : Bool := sighashType &&& SIGHASH_ANYONECANPAY ≠ 0
  let signed := { target with scriptSig := scriptCode }
  let vin := if anyoneCanPay then [signed] else blank.set inputIndex signed
  let inputIndex := if anyoneCanPay then 0 else inputIndex
  let baseType := sighashType &&& 0x1f
  let finish (vin : List TxIn) (vout : List TxOut) : Except PyError Bytes := do
    let suffix ← toBytes 4 sighashType
    return H.hash256 ({ txCopy with vin := vin, vout := vout }.serialize false ++ suffix)
  if baseType = SIGHASH_NONE then finish (clearOtherSequences vin inputIndex) []
  else if baseType = SIGHASH_SINGLE then
    match txCopy.vout[inputIndex]? with
    | none => return singleBugHash
    | some keep =>
      finish (clearOtherSequences vin inputIndex)
        (List.replicate inputIndex ⟨0xffffffffffffffff, []⟩ ++ [keep])
  else finish vin txCopy.vout

def prevoutsData (vin : List TxIn) : Bytes :=
  vin.flatMap fun txin => txin.prevTxHash ++ writeUint32 txin.prevTxIndex

def sequencesData (vin : List TxIn) : Bytes := vin.flatMap fun txin => writeUint32 txin.sequence

def calculateSegwitV0Sighash (H : Hashlib) (tx : Transaction) (inputIndex amount : ℕ)
    (scriptCode : Bytes) (sighashType : ℕ) : Except PyError Bytes := do
  match tx.vin[inputIndex]? with
  | none => return zeroHash
  | some txin =>
    let baseType := sighashType &&& 0x1f
    let anyoneCanPay : Bool := sighashType &&& SIGHASH_ANYONECANPAY ≠ 0
    let hashPrevouts := if anyoneCanPay then zeroHash else H.hash256 (prevoutsData tx.vin)
    let hashSequence :=
      if anyoneCanPay || baseType = SIGHASH_NONE || baseType = SIGHASH_SINGLE then zeroHash
      else H.hash256 (sequencesData tx.vin)
    if baseType = SIGHASH_SINGLE ∧ tx.vout.length ≤ inputIndex then return singleBugHash
    let hashOutputs :=
      if baseType = SIGHASH_ALL then H.hash256 (tx.vout.flatMap TxOut.serialize)
      else if baseType = SIGHASH_SINGLE then
        H.hash256 ((tx.vout[inputIndex]?.map TxOut.serialize).getD [])
      else zeroHash
    let amountBytes ← toBytes 8 amount
    let typeBytes ← toBytes 4 sighashType
    return H.hash256 (writeUint32 tx.version ++ hashPrevouts ++ hashSequence ++ txin.prevTxHash ++
      writeUint32 txin.prevTxIndex ++ writeBytes scriptCode ++ amountBytes ++
      writeUint32 txin.sequence ++ hashOutputs ++ writeUint32 tx.locktime ++ typeBytes)

/-- ASCII bytes of a tag name. -/
def asciiBytes (s : String) : Bytes := s.toList.map fun c => UInt8.ofNat c.toNat

def calculateTaprootKeypathSighash (H : Hashlib) (tx : Transaction) (inputIndex amount : ℕ)
    (scriptPubkey : Bytes) (sighashType : ℕ) (annex : Bytes) : Except PyError Bytes := do
  match tx.vin[inputIndex]? with
  | none => return zeroHash
  | some txin =>
    let hashType := sighashType &&& 0xff
    let baseType := if hashType &&& 0x03 = 0 then SIGHASH_ALL else hashType &&& 0x03
    let anyoneCanPay : Bool := hashType &&& SIGHASH_ANYONECANPAY ≠ 0
    if hashType ∉ TAPROOT_SIGHASH_TYPES then return zeroHash
    if baseType = SIGHASH_SINGLE ∧ tx.vout.length ≤ inputIndex then return zeroHash
    let amountBytes ← toBytes 8 amount
    let amounts := (List.range tx.vin.length).flatMap fun idx =>
      if idx = inputIndex then amountBytes else leBytes 8 0
    let scriptpubkeys := (List.range tx.vin.length).flatMap fun idx =>
      writeBytes (if idx = inputIndex then scriptPubkey else [])
    let unlessAnyone (data : Bytes) : Bytes := if anyoneCanPay then zeroHash else H.sha256 data
    let hashSequences :=
      if !anyoneCanPay && baseType = SIGHASH_ALL then H.sha256 (sequencesData tx.vin) else zeroHash
    let hashOutputs :=
      if baseType = SIGHASH_ALL then H.sha256 (tx.vout.flatMap TxOut.serialize)
      else if baseType = SIGHASH_SINGLE then
        H.sha256 ((tx.vout[inputIndex]?.map TxOut.serialize).getD [])
      else zeroHash
    let spendType := if annex ≠ [] then 1 else 0
    let head := leBytes 1 0 ++ leBytes 1 hashType ++ writeUint32 tx.version ++
      writeUint32 tx.locktime ++ unlessAnyone (prevoutsData tx.vin) ++ unlessAnyone amounts ++
      unlessAnyone scriptpubkeys ++ hashSequences ++ hashOutputs ++ leBytes 1 spendType
    let indexBytes ← if anyoneCanPay then pure [] else toBytes 4 inputIndex
    let input :=
      if anyoneCanPay then txin.prevTxHash ++ writeUint32 txin.prevTxIndex ++ amountBytes ++
        writeBytes scriptPubkey ++ writeUint32 txin.sequence
      else indexBytes
    let tail := if annex ≠ [] then H.sha256 (writeBytes annex) else []
    return H.taggedHash (asciiBytes "TapSighash") (head ++ input ++ tail)

def calculateTapleafHash (H : Hashlib) (script : Bytes) (leafVersion : UInt8) : Bytes :=
  H.taggedHash (asciiBytes "TapLeaf") ((leafVersion &&& 0xfe) :: writeBytes script)

def calculateTaprootScriptpathSighash (H : Hashlib) (tx : Transaction) (inputIndex amount : ℕ)
    (scriptPubkey tapleafHash : Bytes) (sighashType : ℕ) (annex : Bytes) :
    Except PyError Bytes := do
  if tapleafHash.length ≠ 32 then return zeroHash
  let base ← calculateTaprootKeypathSighash H tx inputIndex amount scriptPubkey sighashType annex
  if base = zeroHash then return base
  return H.taggedHash (asciiBytes "TapSighash") (base ++ tapleafHash ++ [0x00] ++
    leBytes 4 0xffffffff)

def SECP256K1_ORDER : ℕ := 0xFFFFFFFFFFFFFFFFFFFFFFFFFFFFFFFEBAAEDCE6AF48A03BBFD25E8CD0364141

/-- A DER integer is positive and minimally encoded. -/
def derIntegerOk (sig : Bytes) (start length : ℕ) : Bool :=
  (sig.getD start 0 &&& 0x80 = 0) &&
    !(1 < length && sig.getD start 0 = 0x00 && sig.getD (start + 1) 0 &&& 0x80 = 0)

def parseDerSignature (sig : Bytes) : Except PyError (Option (ℕ × ℕ)) := do
  if sig.length < 8 ∨ 72 < sig.length then return none
  if sig.getD 0 0 ≠ 0x30 then return none
  if (sig.getD 1 0).toNat ≠ sig.length - 2 then return none
  if sig.getD 2 0 ≠ 0x02 then return none
  let rLen := (sig.getD 3 0).toNat
  let rEnd := 4 + rLen
  if rLen = 0 ∨ sig.length ≤ rEnd then return none
  if !derIntegerOk sig 4 rLen then return none
  if sig.getD rEnd 0 ≠ 0x02 then return none
  -- the byte after the tag may lie past the end
  let sLen := (← getItem sig (rEnd + 1)).toNat
  let sStart := rEnd + 2
  if sLen = 0 ∨ sStart + sLen ≠ sig.length then return none
  if !derIntegerOk sig sStart sLen then return none
  return some (beNat (slice sig 4 rLen), beNat (slice sig sStart sLen))

def isLowS (sig : Bytes) : Except PyError Bool := do
  match ← parseDerSignature sig with
  | none => return false
  | some (_, s) => return 1 ≤ s && s ≤ SECP256K1_ORDER / 2

/-- The checker is built with an integer by `verify_input_script` and with the
engine's `ScriptFlags` object by `ScriptEngine.execute`. -/
inductive CheckerFlags
  | int (flags : ℕ)
  | object (flags : ScriptFlags)
  deriving DecidableEq, Repr

/-- `self.flags & flag`: `ScriptFlags` defines no such operator. -/
def CheckerFlags.and : CheckerFlags → ℕ → Except PyError Bool
  | .int flags, flag => .ok (flags &&& flag ≠ 0)
  | .object _, _ => .error (.typeError "unsupported operand type(s) for &: 'ScriptFlags' and 'int'")

structure SignatureChecker where
  tx : Transaction
  inputIndex : ℕ
  amount : ℕ
  flags : CheckerFlags
  scriptCode : Bytes := []
  useSegwitV0 : Bool := false
  useTaprootScriptpath : Bool := false
  tapleafHash : Bytes := []
  annex : Bytes := []

namespace SignatureChecker

def getSighash (H : Hashlib) (c : SignatureChecker) (signature scriptCode : Bytes) :
    Except PyError Bytes :=
  match signature.getLast? with
  | none => .ok zeroHash
  | some last =>
    if c.useSegwitV0 then
      calculateSegwitV0Sighash H c.tx c.inputIndex c.amount scriptCode last.toNat
    else if c.useTaprootScriptpath then
      calculateTaprootScriptpathSighash H c.tx c.inputIndex c.amount scriptCode c.tapleafHash
        last.toNat c.annex
    else calculateLegacySighash H c.tx c.inputIndex last.toNat scriptCode

def isCompressedPubkey (pubkey : Bytes) : Bool :=
  pubkey.length = 33 && (pubkey.head? = some 0x02 || pubkey.head? = some 0x03)

/-- The body of the `try` block of `check_signature`. -/
def checkSignatureBody (C : Crypto) (c : SignatureChecker) (signature pubkey scriptCode : Bytes) :
    Except PyError Bool := do
  let sighashType := (signature.getLastD 0).toNat
  if sighashType ∉ SUPPORTED_ECDSA_SIGHASH_TYPES then return false
  let sigDer := signature.dropLast
  if ← c.flags.and ScriptFlags.VERIFY_DERSIG then
    if (← parseDerSignature sigDer).isNone then return false
  if ← c.flags.and ScriptFlags.VERIFY_LOW_S then
    if !(← isLowS sigDer) then return false
  if ← c.flags.and ScriptFlags.VERIFY_STRICTENC then
    if !isCompressedPubkey pubkey then return false
  if c.useSegwitV0 then
    if ← c.flags.and ScriptFlags.VERIFY_WITNESS_PUBKEYTYPE then
      if !isCompressedPubkey pubkey then return false
  let sighash ← c.getSighash C.toHashlib signature scriptCode
  C.verifySignature pubkey sighash sigDer

def checkSignature (C : Crypto) (c : SignatureChecker) (signature pubkey : Bytes)
    (scriptCode : Option Bytes := none) : Bool :=
  if signature = [] ∨ pubkey = [] then false
  else
    match c.checkSignatureBody C signature pubkey (scriptCode.getD c.scriptCode) with
    | .ok verified => verified
    | .error _ => false

/-- Signatures are matched to public keys greedily, in order. -/
def checkMultisig (C : Crypto) (c : SignatureChecker) (signatures pubkeys : List Bytes) : Bool :=
  match signatures, pubkeys with
  | [], _ => true
  | _ :: _, [] => false
  | sig :: sigs, key :: keys =>
    if c.checkSignature C sig key then checkMultisig C c sigs keys
    else checkMultisig C c (sig :: sigs) keys
termination_by structural pubkeys

def checkSchnorrSignature (C : Crypto) (c : SignatureChecker) (signature pubkeyXonly : Bytes) :
    Except PyError Bool := do
  if pubkeyXonly.length ≠ 32 then return false
  if signature.length ≠ 64 ∧ signature.length ≠ 65 then return false
  let sighashType := if signature.length = 65 then (signature.getD 64 0).toNat else 0x00
  if sighashType ∉ TAPROOT_SIGHASH_TYPES then return false
  let withType := if signature.length = 65 then signature else signature ++ [0x00]
  -- the sighash is computed outside the `try`
  let sighash ← c.getSighash C.toHashlib withType c.scriptCode
  match C.verifySchnorrSignature pubkeyXonly sighash (signature.take 64) with
  | .ok verified => return verified
  | .error _ => return false

end SignatureChecker
end BerzCoin.Script
