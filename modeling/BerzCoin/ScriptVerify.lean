import BerzCoin.ScriptTapscript

/-! Verification of one input: the four output templates and the generic fallback, which
runs the two scripts as one. -/
namespace BerzCoin.Script

def takePush (size : ℕ) (script : Bytes) (message : String) :
    Except PyError (Bytes × Bytes) :=
  if script.length < size then .error (.valueError message)
  else .ok (script.take size, script.drop size)

/-- One item of a push-only script and the bytes after it. -/
def parsePushOnlyItem (opcode : UInt8) (rest : Bytes) : Except PyError (Bytes × Bytes) :=
  let sized (width : ℕ) (missing truncated : String) : Except PyError (Bytes × Bytes) := do
    if rest.length < width then throw (.valueError missing)
    takePush (leNat (rest.take width)) (rest.drop width) truncated
  if opcode = 0 then .ok ([], rest)
  else if opcode.toNat ≤ 75 then takePush opcode.toNat rest "truncated push in scriptSig"
  else if opcode = 0x4c then sized 1 "missing OP_PUSHDATA1 length" "truncated OP_PUSHDATA1"
  else if opcode = 0x4d then sized 2 "missing OP_PUSHDATA2 length" "truncated OP_PUSHDATA2"
  else if opcode = 0x4e then sized 4 "missing OP_PUSHDATA4 length" "truncated OP_PUSHDATA4"
  else if opcode = 0x4f then .ok ([0x81], rest)
  else if 0x51 ≤ opcode ∧ opcode ≤ 0x60 then .ok ([opcode - 0x50], rest)
  else .error (.valueError "non-push opcode in scriptSig")

def parsePushOnlyLoop : ℕ → Bytes → Except PyError (List Bytes)
  | 0, _ => .ok []
  | _ + 1, [] => .ok []
  | fuel + 1, opcode :: rest => do
      let (item, rest) ← parsePushOnlyItem opcode rest
      return item :: (← parsePushOnlyLoop fuel rest)

/-- The items come in script order, bottom of the stack first. -/
def parsePushOnlyItems (script : Bytes) : Except PyError (List Bytes) :=
  parsePushOnlyLoop script.length script

def splitTaprootAnnex (witnessItems : List Bytes) : List Bytes × Bytes :=
  match witnessItems.getLast? with
  | some last => if last.head? = some 0x50 then (witnessItems.dropLast, last) else (witnessItems, [])
  | none => (witnessItems, [])

def isP2WPKH (scriptPubkey : Bytes) : Bool :=
  scriptPubkey.length = 22 && scriptPubkey.getD 0 0 = 0x00 && scriptPubkey.getD 1 0 = 0x14

def isP2TR (scriptPubkey : Bytes) : Bool :=
  scriptPubkey.length = 34 && scriptPubkey.getD 0 0 = 0x51 && scriptPubkey.getD 1 0 = 0x20

def isP2SH (scriptPubkey : Bytes) : Bool :=
  scriptPubkey.length = 23 && scriptPubkey.getD 0 0 = 0xa9 && scriptPubkey.getD 1 0 = 0x14 &&
    scriptPubkey.getD 22 0 = 0x87

def isP2PKH (scriptPubkey : Bytes) : Bool :=
  scriptPubkey.length = 25 && scriptPubkey.getD 0 0 = 0x76 && scriptPubkey.getD 1 0 = 0xa9 &&
    scriptPubkey.getD 2 0 = 0x14 && scriptPubkey.getD 23 0 = 0x88 && scriptPubkey.getD 24 0 = 0xac

section
variable (C : Crypto) (tx : Transaction) (inputIndex : ℕ)

def verifyP2WPKH (scriptSig scriptPubkey : Bytes) (amount flags : ℕ) : Except PyError Bool := do
  if scriptSig ≠ [] then return false
  let txin ← getItem tx.vin inputIndex
  match txin.witness with
  | [signature, pubkey] =>
    if C.hash160 pubkey ≠ slice scriptPubkey 2 20 then return false
    let scriptCode : Bytes := [0x76, 0xa9, 0x14] ++ slice scriptPubkey 2 20 ++ [0x88, 0xac]
    let checker : SignatureChecker :=
      { tx := tx, inputIndex := inputIndex, amount := amount, flags := .int flags,
        scriptCode := scriptCode, useSegwitV0 := true }
    return checker.checkSignature C signature pubkey (some scriptCode)
  | _ => return false

def verifyTaprootKeypath (scriptPubkey : Bytes) (amount : ℕ) (sigWithType annex : Bytes) :
    Except PyError Bool := do
  if sigWithType.length ≠ 64 ∧ sigWithType.length ≠ 65 then return false
  let sighashType := if sigWithType.length = 65 then (sigWithType.getD 64 0).toNat else 0x00
  if sighashType ∉ TAPROOT_SIGHASH_TYPES then return false
  let sighash ← calculateTaprootKeypathSighash C.toHashlib tx inputIndex amount scriptPubkey
    sighashType annex
  C.verifySchnorrSignature (slice scriptPubkey 2 32) sighash (sigWithType.take 64)

def verifyTaprootScriptpath (scriptPubkey : Bytes) (amount flags : ℕ)
    (stackItems : List Bytes) (script controlBlock annex : Bytes) : Except PyError Bool := do
  if !(← verifyTaprootScriptpathCommitment C scriptPubkey script controlBlock) then return false
  let leafVer := controlBlock.getD 0 0 &&& 0xfe
  if leafVer ≠ 0xc0 then return false
  let checker : SignatureChecker :=
    { tx := tx, inputIndex := inputIndex, amount := amount, flags := .int flags,
      scriptCode := scriptPubkey, useTaprootScriptpath := true,
      tapleafHash := calculateTapleafHash C.toHashlib script leafVer, annex := annex }
  executeTapscript C script stackItems checker ⟨flags⟩

def verifyP2TR (scriptSig scriptPubkey : Bytes) (amount flags : ℕ) : Except PyError Bool := do
  if scriptSig ≠ [] then return false
  let txin ← getItem tx.vin inputIndex
  let (witnessItems, annex) := splitTaprootAnnex txin.witness
  match witnessItems.reverse with
  | [] => return false
  | [sigWithType] => verifyTaprootKeypath C tx inputIndex scriptPubkey amount sigWithType annex
  | controlBlock :: script :: stackItems =>
    verifyTaprootScriptpath C tx inputIndex scriptPubkey amount flags stackItems.reverse script
      controlBlock annex

def runEngine (flags : ℕ) (script : Bytes) (amount : ℕ) (initialStack : Stack.Items) :
    Except ScriptError Bool :=
  execute (engineContext C tx inputIndex amount flags) script initialStack

/-- `nested` is the recursive call on a witness program found in a redeem script. -/
def verifyP2SH (nested : Bytes → Bool) (scriptSig scriptPubkey : Bytes) (amount flags : ℕ) :
    Except ScriptError Bool := do
  if flags &&& ScriptFlags.VERIFY_P2SH = 0 then return false
  let items ← (parsePushOnlyItems scriptSig).mapError .raised
  match items.getLast? with
  | none => return false
  | some redeemScript =>
    if C.hash160 redeemScript ≠ slice scriptPubkey 2 20 then return false
    if (redeemScript.length = 22 ∨ redeemScript.length = 34) ∧
        (redeemScript.getD 0 0 = 0x00 ∨ redeemScript.getD 0 0 = 0x51) then
      return nested redeemScript
    runEngine C tx inputIndex flags redeemScript amount items.dropLast.reverse

def verifyP2PKH (scriptSig scriptPubkey : Bytes) (amount flags : ℕ) : Except PyError Bool := do
  match ← parsePushOnlyItems scriptSig with
  | [signature, pubkey] =>
    if C.hash160 pubkey ≠ slice scriptPubkey 3 20 then return false
    let checker : SignatureChecker :=
      { tx := tx, inputIndex := inputIndex, amount := amount, flags := .int flags,
        scriptCode := scriptPubkey }
    return checker.checkSignature C signature pubkey (some scriptPubkey)
  | _ => return false

/-- The body of the `try` block of `verify_input_script`. -/
def verifyInputScriptBody (nested : Bytes → Bool) (scriptSig scriptPubkey : Bytes)
    (amount flags : ℕ) : Except ScriptError Bool :=
  if isP2WPKH scriptPubkey then
    (verifyP2WPKH C tx inputIndex scriptSig scriptPubkey amount flags).mapError .raised
  else if isP2TR scriptPubkey then
    (verifyP2TR C tx inputIndex scriptSig scriptPubkey amount flags).mapError .raised
  else if isP2SH scriptPubkey then
    verifyP2SH C tx inputIndex nested scriptSig scriptPubkey amount flags
  else if isP2PKH scriptPubkey then
    (verifyP2PKH C tx inputIndex scriptSig scriptPubkey amount flags).mapError .raised
  else runEngine C tx inputIndex flags (scriptSig ++ scriptPubkey) amount []

/-- `except Exception: return False`. -/
def catchFalse : Except ScriptError Bool → Bool
  | .ok result => result
  | .error _ => false

/-- A nested call gets a redeem script of 22 or 34 bytes, which is never of the P2SH form,
so its own nested call is not reached. -/
def verifyInputScript (scriptSig scriptPubkey : Bytes) (amount flags : ℕ) : Bool :=
  let nested (redeemScript : Bytes) : Bool :=
    catchFalse (verifyInputScriptBody C tx inputIndex (fun _ => false) [] redeemScript amount flags)
  catchFalse (verifyInputScriptBody C tx inputIndex nested scriptSig scriptPubkey amount flags)

end

def isGeneric (scriptPubkey : Bytes) : Bool :=
  !isP2WPKH scriptPubkey && !isP2TR scriptPubkey && !isP2SH scriptPubkey && !isP2PKH scriptPubkey

lemma verifyInputScriptBody_generic (C : Crypto) (tx : Transaction) (inputIndex : ℕ)
    (nested : Bytes → Bool) (scriptSig : Bytes) {scriptPubkey : Bytes} (amount flags : ℕ)
    (h : isGeneric scriptPubkey = true) :
    verifyInputScriptBody C tx inputIndex nested scriptSig scriptPubkey amount flags =
      runEngine C tx inputIndex flags (scriptSig ++ scriptPubkey) amount [] := by
  simp only [isGeneric, Bool.and_eq_true, Bool.not_eq_true'] at h
  obtain ⟨⟨⟨hwpkh, htr⟩, hsh⟩, hpkh⟩ := h
  simp [verifyInputScriptBody, hwpkh, htr, hsh, hpkh]

theorem verifyInputScript_generic (C : Crypto) (tx : Transaction) (inputIndex : ℕ)
    {scriptSig scriptPubkey : Bytes} (amount flags : ℕ) (h : isGeneric scriptPubkey = true) :
    verifyInputScript C tx inputIndex scriptSig scriptPubkey amount flags = true ↔
      execute (engineContext C tx inputIndex amount flags) (scriptSig ++ scriptPubkey) [] =
        .ok true := by
  rw [verifyInputScript, verifyInputScriptBody_generic C tx inputIndex _ scriptSig amount flags h,
    runEngine]
  cases execute (engineContext C tx inputIndex amount flags) (scriptSig ++ scriptPubkey) [] with
  | error e => simp [catchFalse]
  | ok result => simp [catchFalse]

end BerzCoin.Script
