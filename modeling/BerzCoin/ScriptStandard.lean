import BerzCoin.ScriptPushes
import BerzCoin.MempoolPolicy

/-! The output forms that the relay policy calls standard, and what it takes to spend them. -/
namespace BerzCoin.Script
open Stack (Items)

/-- The standard forms other than data carriers, with the data they commit to. -/
inductive OutputForm
  | p2pk (pubkey : Bytes)
  | p2pkh (pubkeyHash : Bytes)
  | p2sh (scriptHash : Bytes)
  | p2wpkh (pubkeyHash : Bytes)
  | p2wsh (scriptHash : Bytes)
  | p2tr (outputKey : Bytes)
  deriving DecidableEq, Repr

namespace OutputForm

def scriptPubkey : OutputForm → Bytes
  | p2pk pubkey => 0x21 :: (pubkey ++ [0xac])
  | p2pkh pubkeyHash => [0x76, 0xa9, 0x14] ++ pubkeyHash ++ [0x88, 0xac]
  | p2sh scriptHash => [0xa9, 0x14] ++ scriptHash ++ [0x87]
  | p2wpkh pubkeyHash => [0x00, 0x14] ++ pubkeyHash
  | p2wsh scriptHash => [0x00, 0x20] ++ scriptHash
  | p2tr outputKey => [0x51, 0x20] ++ outputKey

/-- The length of the data in an output of the form. -/
def Sized : OutputForm → Prop
  | p2pk pubkey => pubkey.length = 33
  | p2pkh pubkeyHash => pubkeyHash.length = 20
  | p2sh scriptHash => scriptHash.length = 20
  | p2wpkh pubkeyHash => pubkeyHash.length = 20
  | p2wsh scriptHash => scriptHash.length = 32
  | p2tr outputKey => outputKey.length = 32

end OutputForm

lemma split_at (l : Bytes) (i j : ℕ) : l.take i ++ slice l i j ++ l.drop (i + j) = l := by
  rw [slice, List.append_assoc, ← List.drop_drop, List.take_append_drop, List.take_append_drop]

/-- The policy accepts the forms and, apart from `OP_RETURN` outputs, nothing else. -/
lemma exists_form_of_isStandardOutput {spk : Bytes} (hreturn : spk.head? ≠ some 0x6a)
    (h : MempoolPolicy.isStandardOutput spk = true) :
    ∃ form : OutputForm, form.Sized ∧ form.scriptPubkey = spk := by
  cases hspk : spk with
  | nil => simp [hspk, MempoolPolicy.isStandardOutput] at h
  | cons first rest =>
    simp only [hspk, MempoolPolicy.isStandardOutput, Bool.or_eq_true, Bool.and_eq_true,
      decide_eq_true_eq] at h
    rw [← hspk] at h ⊢
    rcases h with (((((⟨⟨hlen, hfirst⟩, hlast⟩ | ⟨⟨hlen, htake⟩, hdrop⟩) |
      ⟨⟨hlen, htake⟩, hdrop⟩) | ⟨hlen, htake⟩) | ⟨hlen, htake⟩) | ⟨hlen, htake⟩) | ⟨hfirst, -⟩
    · obtain ⟨pre, hpre⟩ := List.getLast?_eq_some_iff.1 hlast
      cases pre with
      | nil => simp [hpre] at hlen
      | cons b pubkey =>
        have hb : b = 0x21 := by
          rw [hspk, hfirst] at hpre
          simpa using (List.cons.inj hpre).1.symm
        refine ⟨.p2pk pubkey, ?_, ?_⟩
        · simpa [OutputForm.Sized, hpre] using hlen
        · rw [hpre, hb]
          rfl
    · refine ⟨.p2pkh (slice spk 3 20), slice_length (by omega), ?_⟩
      rw [OutputForm.scriptPubkey, ← htake, ← hdrop]
      exact split_at spk 3 20
    · refine ⟨.p2sh (slice spk 2 20), slice_length (by omega), ?_⟩
      rw [OutputForm.scriptPubkey, ← htake, ← hdrop]
      exact split_at spk 2 20
    · refine ⟨.p2wpkh (spk.drop 2), by simp [OutputForm.Sized, hlen], ?_⟩
      rw [OutputForm.scriptPubkey, ← htake, List.take_append_drop]
    · refine ⟨.p2wsh (spk.drop 2), by simp [OutputForm.Sized, hlen], ?_⟩
      rw [OutputForm.scriptPubkey, ← htake, List.take_append_drop]
    · refine ⟨.p2tr (spk.drop 2), by simp [OutputForm.Sized, hlen], ?_⟩
      rw [OutputForm.scriptPubkey, ← htake, List.take_append_drop]
    · rw [hspk, hfirst] at hreturn
      exact absurd rfl hreturn

/-- The opcode that pushes a number up to 16. -/
def opSmallInt (n : ℕ) : Except PyError UInt8 :=
  if 16 < n then .error (.valueError "small int opcode out of range")
  else if n = 0 then .ok (Opcode.toByte .OP_0)
  else .ok (Opcode.toByte .OP_1 + UInt8.ofNat (n - 1))

def pushPubkeys : List Bytes → Except PyError Bytes
  | [] => .ok []
  | pk :: pks => do
      if pk.length ≠ 33 ∧ pk.length ≠ 65 then throw (.valueError "Invalid pubkey length")
      return UInt8.ofNat pk.length :: pk ++ (← pushPubkeys pks)

def makeMultisigRedeemScript (required : ℕ) (pubkeys : List Bytes) : Except PyError Bytes := do
  if required = 0 ∨ pubkeys.length < required ∨ 16 < pubkeys.length then
    throw (.valueError "Invalid multisig threshold/pubkey count")
  let first ← opSmallInt required
  let keys ← pushPubkeys pubkeys
  let last ← opSmallInt pubkeys.length
  return first :: keys ++ [last, Opcode.toByte .OP_CHECKMULTISIG]

lemma pushPubkeys_cons {pk keys : Bytes} {pks : List Bytes} (h : pushPubkeys (pk :: pks) = .ok keys) :
    (pk.length = 33 ∨ pk.length = 65) ∧ ∃ t, keys = UInt8.ofNat pk.length :: pk ++ t := by
  simp only [pushPubkeys, bind, Except.bind, pure, Except.pure, throw, throwThe,
    MonadExceptOf.throw] at h
  split_ifs at h with hlen
  cases hrest : pushPubkeys pks with
  | error e => simp [hrest] at h
  | ok t =>
    simp only [hrest, Except.ok.injEq] at h
    exact ⟨by tauto, t, h.symm⟩

lemma opSmallInt_push {n : ℕ} {b : UInt8} (h : opSmallInt n = .ok b) :
    ∃ items, parsePushOnlyItems [b] = .ok items := by
  have hall : ∀ n : Fin 17, ∃ b ∈ (opSmallInt n).toOption,
      (parsePushOnlyItems [b]).toOption.isSome = true := by decide +kernel
  by_cases hn : 16 < n
  · simp [opSmallInt, hn] at h
  · obtain ⟨b', hb', hparse⟩ := hall ⟨n, by omega⟩
    rw [h] at hb'
    cases hb'
    cases hitems : parsePushOnlyItems [b] with
    | error e => simp [hitems, Except.toOption] at hparse
    | ok items => exact ⟨items, rfl⟩

/-- The redeem script is a small integer followed by a direct push of the first key. -/
lemma makeMultisigRedeemScript_shape {required : ℕ} {pubkeys : List Bytes} {redeemScript : Bytes}
    (h : makeMultisigRedeemScript required pubkeys = .ok redeemScript) :
    34 < redeemScript.length ∧
      ∃ first b t items, redeemScript = [first] ++ b :: t ∧
        parsePushOnlyItems [first] = .ok items ∧ IsDirectPush b := by
  simp only [makeMultisigRedeemScript, bind, Except.bind, pure, Except.pure, throw, throwThe,
    MonadExceptOf.throw] at h
  split_ifs at h with hcount
  cases hfirst : opSmallInt required with
  | error e => simp [hfirst] at h
  | ok first =>
    cases hkeys : pushPubkeys pubkeys with
    | error e => simp [hfirst, hkeys] at h
    | ok keys =>
      cases hlast : opSmallInt pubkeys.length with
      | error e => simp [hfirst, hkeys, hlast] at h
      | ok last =>
        simp only [hfirst, hkeys, hlast, Except.ok.injEq] at h
        subst h
        cases pubkeys with
        | nil =>
          simp only [List.length_nil] at hcount
          omega
        | cons pk pks =>
          obtain ⟨hlen, t, rfl⟩ := pushPubkeys_cons hkeys
          obtain ⟨items, hitems⟩ := opSmallInt_push hfirst
          refine ⟨?_, first, UInt8.ofNat pk.length, _, items, rfl, hitems, ?_⟩
          · simp only [List.cons_append, List.length_cons, List.length_append]
            omega
          · rcases hlen with hlen | hlen <;> rw [hlen] <;> decide

/-- A signature with its hash type that verifies for the input's signature hash and is
encoded as the flags ask. -/
structure GoodSignature (C : Crypto) (flags : ℕ) (sighash : ℕ → Except PyError Bytes)
    (signature pubkey : Bytes) : Prop where
  nonempty : signature ≠ []
  hashType : (signature.getLastD 0).toNat ∈ SUPPORTED_ECDSA_SIGHASH_TYPES
  der : flags &&& ScriptFlags.VERIFY_DERSIG ≠ 0 →
    ∃ rs, parseDerSignature signature.dropLast = .ok (some rs)
  lowS : flags &&& ScriptFlags.VERIFY_LOW_S ≠ 0 → isLowS signature.dropLast = .ok true
  pubkey_nonempty : pubkey ≠ []
  verifies : ∃ hash, sighash (signature.getLastD 0).toNat = .ok hash ∧
    C.verifySignature pubkey hash signature.dropLast = .ok true

/-- The flags do not ask for a compressed key, or the key is one. -/
def KeyAdmitted (flags : ℕ) (segwit : Bool) (pubkey : Bytes) : Prop :=
  flags &&& ScriptFlags.VERIFY_STRICTENC ≠ 0 ∨
      segwit = true ∧ flags &&& ScriptFlags.VERIFY_WITNESS_PUBKEYTYPE ≠ 0 →
    SignatureChecker.isCompressedPubkey pubkey = true

/-- A good signature passes the check exactly under a key that the flags admit. -/
lemma GoodSignature.checkSignature_iff {C : Crypto} {flags : ℕ} {segwit : Bool}
    {sighash : ℕ → Except PyError Bytes} {signature pubkey scriptCode : Bytes}
    {checker : SignatureChecker} (h : GoodSignature C flags sighash signature pubkey)
    (hflags : checker.flags = .int flags) (hsegwit : checker.useSegwitV0 = segwit)
    (hsighash : checker.getSighash C.toHashlib signature scriptCode =
      sighash (signature.getLastD 0).toNat) :
    checker.checkSignature C signature pubkey (some scriptCode) = true ↔
      KeyAdmitted flags segwit pubkey := by
  obtain ⟨hash, hhash, hverify⟩ := h.verifies
  have hfinal : (checker.getSighash C.toHashlib signature scriptCode >>= fun sighash =>
      C.verifySignature pubkey sighash signature.dropLast) = .ok true := by
    rw [hsighash, hhash]
    exact hverify
  -- a check of the encoding is off or it is one that the signature passes
  have hder : flags &&& ScriptFlags.VERIFY_DERSIG = 0 ∨
      ∃ rs, parseDerSignature signature.dropLast = .ok (some rs) := by
    exact or_iff_not_imp_left.2 h.der
  have hlowS : flags &&& ScriptFlags.VERIFY_LOW_S = 0 ∨ isLowS signature.dropLast = .ok true :=
    or_iff_not_imp_left.2 h.lowS
  have hkey : ∀ keyOk, SignatureChecker.isCompressedPubkey pubkey = keyOk →
      checker.checkSignatureBody C signature pubkey scriptCode =
        if flags &&& ScriptFlags.VERIFY_STRICTENC ≠ 0 ∨
            segwit = true ∧ flags &&& ScriptFlags.VERIFY_WITNESS_PUBKEYTYPE ≠ 0
        then .ok keyOk else .ok true := by
    intro keyOk hkeyOk
    simp only [SignatureChecker.checkSignatureBody, h.hashType, not_true, if_false, hflags,
      CheckerFlags.and, hfinal, hsegwit, hkeyOk]
    rcases hder with hder | ⟨rs, hder⟩ <;> rcases hlowS with hlowS | hlowS <;>
      cases keyOk <;> cases segwit <;>
      by_cases hstrict : flags &&& ScriptFlags.VERIFY_STRICTENC = 0 <;>
      by_cases htype : flags &&& ScriptFlags.VERIFY_WITNESS_PUBKEYTYPE = 0 <;>
      simp [hder, hlowS, hstrict, htype, bind, Except.bind, pure, Except.pure]
  have hbody := hkey _ rfl
  simp only [SignatureChecker.checkSignature, h.nonempty, h.pubkey_nonempty, or_self, if_false,
    Option.getD_some, hbody, KeyAdmitted]
  split_ifs with hasked
  · simp [hasked]
  · simp [hasked]

section unlock
variable (C : Crypto) (tx : Transaction) (inputIndex : ℕ) (txin : TxIn) (amount flags : ℕ)

/-- A signature of the input as a legacy output with the given script code asks for it. -/
def LegacySigned (scriptCode signature pubkey : Bytes) : Prop :=
  GoodSignature C flags
    (fun type => calculateLegacySighash C.toHashlib tx inputIndex type scriptCode) signature pubkey

/-- A signature of the input for a witness program of version 0. -/
def SegwitSigned (scriptCode signature pubkey : Bytes) : Prop :=
  GoodSignature C flags
    (fun type => calculateSegwitV0Sighash C.toHashlib tx inputIndex amount scriptCode type)
    signature pubkey

/-- A key path signature of the input, with its hash type when there is a 65th byte. -/
def KeypathSigned (spk outputKey signature annex : Bytes) : Prop :=
  (signature.length = 64 ∨ signature.length = 65) ∧
    let type := if signature.length = 65 then (signature.getD 64 0).toNat else 0x00
    type ∈ TAPROOT_SIGHASH_TYPES ∧
    ∃ hash, calculateTaprootKeypathSighash C.toHashlib tx inputIndex amount spk type annex = .ok hash ∧
      C.verifySchnorrSignature outputKey hash (signature.take 64) = .ok true

/-- The input holds correctly formed unlocking data for an output of the form. What the script
of a P2WSH output asks of the other witness items is left open. -/
def OutputForm.Unlocks (form : OutputForm) : Prop :=
  match form with
  | p2pk pubkey =>
      ∃ signature, parsePushOnlyItems txin.scriptSig = .ok [signature] ∧
        LegacySigned C tx inputIndex flags form.scriptPubkey signature pubkey
  | p2pkh pubkeyHash =>
      ∃ signature pubkey, parsePushOnlyItems txin.scriptSig = .ok [signature, pubkey] ∧
        C.hash160 pubkey = pubkeyHash ∧
        LegacySigned C tx inputIndex flags form.scriptPubkey signature pubkey
  | p2sh scriptHash =>
      ∃ required pubkeys redeemScript signatures keys,
        makeMultisigRedeemScript required pubkeys = .ok redeemScript ∧
        C.hash160 redeemScript = scriptHash ∧
        parsePushOnlyItems txin.scriptSig = .ok ([] :: signatures ++ [redeemScript]) ∧
        signatures.length = required ∧ keys.Sublist pubkeys ∧
        List.Forall₂ (LegacySigned C tx inputIndex flags redeemScript) signatures keys
  | p2wpkh pubkeyHash =>
      txin.scriptSig = [] ∧ ∃ signature pubkey, txin.witness = [signature, pubkey] ∧
        C.hash160 pubkey = pubkeyHash ∧
        SegwitSigned C tx inputIndex amount flags
          ([0x76, 0xa9, 0x14] ++ pubkeyHash ++ [0x88, 0xac]) signature pubkey
  | p2wsh scriptHash =>
      txin.scriptSig = [] ∧ ∃ items witnessScript, txin.witness = items ++ [witnessScript] ∧
        C.sha256 witnessScript = scriptHash
  | p2tr outputKey =>
      txin.scriptSig = [] ∧ ∃ signature,
        (txin.witness = [signature] ∧
          KeypathSigned C tx inputIndex amount form.scriptPubkey outputKey signature []) ∨
        ∃ annex, annex.head? = some 0x50 ∧ txin.witness = [signature, annex] ∧
          KeypathSigned C tx inputIndex amount form.scriptPubkey outputKey signature annex

end unlock

/-- Key hash outputs under a key that the flags admit; taproot outputs unless the only witness item
starts with the byte of an annex. -/
def OutputForm.Spendable (form : OutputForm) (txin : TxIn) (flags : ℕ) : Prop :=
  match form with
  | p2pkh _ => ∀ signature pubkey, parsePushOnlyItems txin.scriptSig = .ok [signature, pubkey] →
      KeyAdmitted flags false pubkey
  | p2wpkh _ => ∀ signature pubkey, txin.witness = [signature, pubkey] → KeyAdmitted flags true pubkey
  | p2tr _ => ∀ signature, txin.witness = [signature] → signature.head? ≠ some 0x50
  | _ => False

section spend
variable {C : Crypto} {tx : Transaction} {inputIndex : ℕ} {txin : TxIn} {amount flags : ℕ}

lemma verifyInputScript_p2pk {pubkey : Bytes} (hsize : pubkey.length = 33)
    (h : (OutputForm.p2pk pubkey).Unlocks C tx inputIndex txin amount flags) :
    verifyInputScript C tx inputIndex txin.scriptSig (OutputForm.p2pk pubkey).scriptPubkey amount
      flags ≠ true := by
  obtain ⟨signature, hparse, -⟩ := h
  have hgeneric : isGeneric (OutputForm.p2pk pubkey).scriptPubkey = true := by
    simp [isGeneric, isP2WPKH, isP2TR, isP2SH, isP2PKH, OutputForm.scriptPubkey, hsize]
  rw [Ne, verifyInputScript_generic C tx inputIndex amount flags hgeneric]
  exact execute_directPush_ne_true _ hparse (by decide) []

lemma verifyInputScript_p2wsh {scriptHash : Bytes} (hsize : scriptHash.length = 32)
    (h : (OutputForm.p2wsh scriptHash).Unlocks C tx inputIndex txin amount flags) :
    verifyInputScript C tx inputIndex txin.scriptSig (OutputForm.p2wsh scriptHash).scriptPubkey amount
      flags ≠ true := by
  obtain ⟨hsig, -⟩ := h
  have hgeneric : isGeneric (OutputForm.p2wsh scriptHash).scriptPubkey = true := by
    simp [isGeneric, isP2WPKH, isP2TR, isP2SH, isP2PKH, OutputForm.scriptPubkey, hsize]
  rw [Ne, verifyInputScript_generic C tx inputIndex amount flags hgeneric, hsig]
  -- `OP_0`, then the length byte of the program
  have hparse : parsePushOnlyItems [0x00] = .ok [[]] := rfl
  exact execute_directPush_ne_true _ hparse (by decide : IsDirectPush 0x20) []

lemma verifyInputScript_p2sh {scriptHash : Bytes} (hsize : scriptHash.length = 20)
    (h : (OutputForm.p2sh scriptHash).Unlocks C tx inputIndex txin amount flags) :
    verifyInputScript C tx inputIndex txin.scriptSig (OutputForm.p2sh scriptHash).scriptPubkey amount
      flags ≠ true := by
  obtain ⟨required, pubkeys, redeemScript, signatures, keys, hmake, -, hparse, -⟩ := h
  obtain ⟨hlength, first, b, t, items, hshape, hitems, hb⟩ := makeMultisigRedeemScript_shape hmake
  have hengine : runEngine C tx inputIndex flags redeemScript amount
      ([] :: signatures).reverse ≠ .ok true := by
    rw [hshape]
    exact execute_directPush_ne_true _ hitems hb _
  have hlast : ([] :: signatures ++ [redeemScript]).getLast? = some redeemScript :=
    List.getLast?_concat ..
  have hdrop : ([] :: signatures ++ [redeemScript]).dropLast = [] :: signatures :=
    List.dropLast_concat ..
  have hnested : ¬ ((redeemScript.length = 22 ∨ redeemScript.length = 34) ∧
      (redeemScript.getD 0 0 = 0x00 ∨ redeemScript.getD 0 0 = 0x51)) := by omega
  have hwpkh : isP2WPKH (OutputForm.p2sh scriptHash).scriptPubkey = false := by
    simp [isP2WPKH, OutputForm.scriptPubkey, hsize]
  have htr : isP2TR (OutputForm.p2sh scriptHash).scriptPubkey = false := by
    simp [isP2TR, OutputForm.scriptPubkey, hsize]
  have hsh : isP2SH (OutputForm.p2sh scriptHash).scriptPubkey = true := by
    simp [isP2SH, OutputForm.scriptPubkey, hsize]
  simp only [verifyInputScript, verifyInputScriptBody, hwpkh, htr, hsh, if_true, Bool.false_eq_true,
    if_false, verifyP2SH, hparse, Except.mapError, bind, Except.bind, hlast, hdrop, hnested]
  split_ifs
  · simp [catchFalse, pure, Except.pure]
  · simp [catchFalse, pure, Except.pure]
  · cases hresult : runEngine C tx inputIndex flags redeemScript amount
        ([] :: signatures).reverse with
    | error e => simp [catchFalse]
    | ok result =>
      rw [hresult] at hengine
      simpa [catchFalse] using hengine

lemma getLast?_eq_getLastD {signature : Bytes} (h : signature ≠ []) :
    signature.getLast? = some (signature.getLastD 0) := by
  rw [List.getLastD_eq_getLast?, List.getLast?_eq_some_getLast h]
  rfl

/-- The data of an output of a form that pays to a hash, as the verifier cuts it out. -/
lemma slice_scriptPubkey (pre data post : Bytes) (h : data.length = 20) (n : ℕ)
    (hn : n = pre.length) : slice (pre ++ data ++ post) n 20 = data := by
  rw [hn, ← h, List.append_assoc]
  exact slice_append_right pre data post

lemma verifyInputScript_p2pkh {pubkeyHash : Bytes} (hsize : pubkeyHash.length = 20)
    (h : (OutputForm.p2pkh pubkeyHash).Unlocks C tx inputIndex txin amount flags) :
    verifyInputScript C tx inputIndex txin.scriptSig (OutputForm.p2pkh pubkeyHash).scriptPubkey
      amount flags = true ↔ (OutputForm.p2pkh pubkeyHash).Spendable txin flags := by
  obtain ⟨signature, pubkey, hparse, hhash, hsigned⟩ := h
  have hspendable : (OutputForm.p2pkh pubkeyHash).Spendable txin flags ↔
      KeyAdmitted flags false pubkey := by
    simp only [OutputForm.Spendable, hparse, Except.ok.injEq, List.cons.injEq, and_true]
    exact ⟨fun h => h signature pubkey ⟨rfl, rfl⟩, fun h _ _ heq => heq.2 ▸ h⟩
  have hwpkh : isP2WPKH (OutputForm.p2pkh pubkeyHash).scriptPubkey = false := by
    simp [isP2WPKH, OutputForm.scriptPubkey, hsize]
  have htr : isP2TR (OutputForm.p2pkh pubkeyHash).scriptPubkey = false := by
    simp [isP2TR, OutputForm.scriptPubkey, hsize]
  have hsh : isP2SH (OutputForm.p2pkh pubkeyHash).scriptPubkey = false := by
    simp [isP2SH, OutputForm.scriptPubkey, hsize]
  have hpkh : isP2PKH (OutputForm.p2pkh pubkeyHash).scriptPubkey = true := by
    simp [isP2PKH, OutputForm.scriptPubkey, hsize]
  have hslice : slice (OutputForm.p2pkh pubkeyHash).scriptPubkey 3 20 = pubkeyHash :=
    slice_scriptPubkey [0x76, 0xa9, 0x14] pubkeyHash [0x88, 0xac] hsize 3 rfl
  simp only [verifyInputScript, verifyInputScriptBody, hwpkh, htr, hsh, hpkh, if_true,
    Bool.false_eq_true, if_false, verifyP2PKH, hparse, bind, Except.bind, hslice, hhash, ne_eq,
    not_true, pure, Except.pure, Except.mapError, catchFalse, hspendable]
  refine GoodSignature.checkSignature_iff hsigned rfl rfl ?_
  rw [SignatureChecker.getSighash, getLast?_eq_getLastD (GoodSignature.nonempty hsigned)]
  rfl

lemma verifyInputScript_p2wpkh {pubkeyHash : Bytes} (hsize : pubkeyHash.length = 20)
    (htxin : tx.vin[inputIndex]? = some txin)
    (h : (OutputForm.p2wpkh pubkeyHash).Unlocks C tx inputIndex txin amount flags) :
    verifyInputScript C tx inputIndex txin.scriptSig (OutputForm.p2wpkh pubkeyHash).scriptPubkey
      amount flags = true ↔ (OutputForm.p2wpkh pubkeyHash).Spendable txin flags := by
  obtain ⟨hsig, signature, pubkey, hwitness, hhash, hsigned⟩ := h
  have hspendable : (OutputForm.p2wpkh pubkeyHash).Spendable txin flags ↔
      KeyAdmitted flags true pubkey := by
    simp only [OutputForm.Spendable, hwitness, List.cons.injEq, and_true]
    exact ⟨fun h => h signature pubkey ⟨rfl, rfl⟩, fun h _ _ heq => heq.2 ▸ h⟩
  have hwpkh : isP2WPKH (OutputForm.p2wpkh pubkeyHash).scriptPubkey = true := by
    simp [isP2WPKH, OutputForm.scriptPubkey, hsize]
  have hslice : slice (OutputForm.p2wpkh pubkeyHash).scriptPubkey 2 20 = pubkeyHash := by
    simp [slice, OutputForm.scriptPubkey, ← hsize]
  simp only [verifyInputScript, verifyInputScriptBody, hwpkh, if_true, verifyP2WPKH, hsig, ne_eq,
    not_true, if_false, getItem, htxin, bind, Except.bind, hwitness, hslice, hhash, pure,
    Except.pure, Except.mapError, catchFalse, hspendable]
  refine GoodSignature.checkSignature_iff hsigned rfl rfl ?_
  rw [SignatureChecker.getSighash, getLast?_eq_getLastD (GoodSignature.nonempty hsigned)]
  rfl

/-- A witness of one item is taken apart by its first byte. -/
lemma splitTaprootAnnex_single (signature : Bytes) :
    splitTaprootAnnex [signature] =
      if signature.head? = some 0x50 then ([], signature) else ([signature], []) := rfl

lemma verifyTaprootKeypath_of_signed {outputKey signature annex : Bytes}
    (hsize : outputKey.length = 32)
    (h : KeypathSigned C tx inputIndex amount (OutputForm.p2tr outputKey).scriptPubkey outputKey
      signature annex) :
    verifyTaprootKeypath C tx inputIndex (OutputForm.p2tr outputKey).scriptPubkey amount signature
      annex = .ok true := by
  obtain ⟨hlength, htype, hash, hhash, hverify⟩ := h
  have hslice : slice (OutputForm.p2tr outputKey).scriptPubkey 2 32 = outputKey := by
    simp [slice, OutputForm.scriptPubkey, ← hsize]
  have hlength' : ¬ (signature.length ≠ 64 ∧ signature.length ≠ 65) := by omega
  simp only [verifyTaprootKeypath, hlength', if_false, htype, not_true, bind, Except.bind, hhash,
    hslice, hverify]

lemma verifyInputScript_p2tr {outputKey : Bytes} (hsize : outputKey.length = 32)
    (htxin : tx.vin[inputIndex]? = some txin)
    (h : (OutputForm.p2tr outputKey).Unlocks C tx inputIndex txin amount flags) :
    verifyInputScript C tx inputIndex txin.scriptSig (OutputForm.p2tr outputKey).scriptPubkey
      amount flags = true ↔ (OutputForm.p2tr outputKey).Spendable txin flags := by
  obtain ⟨hsig, signature, hcase⟩ := h
  have hwpkh : isP2WPKH (OutputForm.p2tr outputKey).scriptPubkey = false := by
    simp [isP2WPKH, OutputForm.scriptPubkey, hsize]
  have htr : isP2TR (OutputForm.p2tr outputKey).scriptPubkey = true := by
    simp [isP2TR, OutputForm.scriptPubkey, hsize]
  simp only [verifyInputScript, verifyInputScriptBody, hwpkh, Bool.false_eq_true, htr, if_true,
    if_false, verifyP2TR, hsig, ne_eq, not_true, getItem, htxin, bind, Except.bind,
    OutputForm.Spendable]
  rcases hcase with ⟨hwitness, hsigned⟩ | ⟨annex, hannex, hwitness, hsigned⟩
  · rw [hwitness, splitTaprootAnnex_single]
    by_cases hfirst : signature.head? = some 0x50
    · simp [hfirst, pure, Except.pure, Except.mapError, catchFalse]
    · simp [hfirst, verifyTaprootKeypath_of_signed hsize hsigned, Except.mapError, catchFalse]
  · have hsplit : splitTaprootAnnex [signature, annex] = ([signature], annex) := by
      simp [splitTaprootAnnex, hannex]
    simp [hwitness, hsplit, verifyTaprootKeypath_of_signed hsize hsigned, Except.mapError, catchFalse]

end spend

lemma OutputForm.scriptPubkey_injective {form form' : OutputForm}
    (h : form.scriptPubkey = form'.scriptPubkey) : form = form' := by
  cases form <;> cases form' <;> simp_all [OutputForm.scriptPubkey]

/-- Every standard output is of one of the forms, and correctly formed unlocking data spend it
exactly when the form is a key hash and the flags admit the key, or a taproot key whose signature is
not taken for an annex. -/
theorem standardOutput_spendable_iff (spk : Bytes) (hreturn : spk.head? ≠ some 0x6a)
    (hstandard : MempoolPolicy.isStandardOutput spk = true) :
    (∃ form : OutputForm, form.scriptPubkey = spk) ∧
      ∀ form : OutputForm, form.scriptPubkey = spk →
      ∀ (C : Crypto) (tx : Transaction) (inputIndex : ℕ) (txin : TxIn) (amount flags : ℕ),
        tx.vin[inputIndex]? = some txin → form.Unlocks C tx inputIndex txin amount flags →
        (verifyInputScript C tx inputIndex txin.scriptSig spk amount flags = true ↔
          form.Spendable txin flags) := by
  obtain ⟨form, hsize, rfl⟩ := exists_form_of_isStandardOutput hreturn hstandard
  refine ⟨⟨form, rfl⟩, fun form' hform C tx inputIndex txin amount flags htxin hunlocks => ?_⟩
  obtain rfl := OutputForm.scriptPubkey_injective hform
  cases form' with
  | p2pk pubkey => simpa [OutputForm.Spendable] using verifyInputScript_p2pk hsize hunlocks
  | p2pkh pubkeyHash => exact verifyInputScript_p2pkh hsize hunlocks
  | p2sh scriptHash => simpa [OutputForm.Spendable] using verifyInputScript_p2sh hsize hunlocks
  | p2wpkh pubkeyHash => exact verifyInputScript_p2wpkh hsize htxin hunlocks
  | p2wsh scriptHash => simpa [OutputForm.Spendable] using verifyInputScript_p2wsh hsize hunlocks
  | p2tr outputKey => exact verifyInputScript_p2tr hsize htxin hunlocks

namespace StandardExample

def pubkey : Bytes := beBytes 33 0x03f3942d52ec6685bd017bead8579ff7b926fca15bdc65837d1927a12e0937eeda

def pubkeyHash : Bytes := beBytes 20 0x767d909240a9c617b5ff3a8e29a652ce2ab1a2b2

def toKeyHash : OutputForm := .p2pkh pubkeyHash

def toKey : OutputForm := .p2pk pubkey

def txinWith (scriptSig : Bytes) : TxIn :=
  { prevTxHash := List.replicate 32 0x11, prevTxIndex := 0, scriptSig := scriptSig,
    sequence := 0xffffffff, witness := [] }

def spendWith (scriptSig : Bytes) : Transaction :=
  { version := 1, vin := [txinWith scriptSig], vout := [{ value := 1000, scriptPubkey := [0x51] }],
    locktime := 0 }

/-- Signatures by the key of `pubkey` with the hash type `SIGHASH_ALL`. -/
def keyHashSignature : Bytes := beBytes 71
  0x30440220112d0c5c47cdb45f8b0bc402b2e2c0847bc3f7883ce41ec9fbf4c6911485f315022061090d2d832a39ec6bc81263acdc9c10008412a8502e02fe1b0b3f83674068ce01

def keySignature : Bytes := beBytes 71
  0x3044022062e25d3af09482a6d2c675ff0e48462475407af729f5538dd0a5de4b2f87179802203df3dd3e94f522d6b72cfacdf3acb31fb378d363b32b181efb73565ce0aa3c6001

/-- The signed message for an output script, before it is hashed. -/
def message (spk : Bytes) : Bytes := (spendWith spk).serialize false ++ [0x01, 0x00, 0x00, 0x00]

def keyHashSighash : Bytes :=
  beBytes 32 0x8029d8645d2713ad9537f92e6c95659decb43df8cdbd2fda6c15f50af46b43a4

def keySighash : Bytes :=
  beBytes 32 0xc8d8e78a5793c036b4f16ce9d3539286d7cc63ac7c50c35eac6fd654fceaeffb

def crypto : Crypto :=
  { Hashlib.ofDigests [
      (message toKeyHash.scriptPubkey,
        beBytes 32 0xb2b907eb29933b17b581240df2198c43ea980b007cfb572b25442968d427b605),
      (beBytes 32 0xb2b907eb29933b17b581240df2198c43ea980b007cfb572b25442968d427b605, keyHashSighash),
      (message toKey.scriptPubkey,
        beBytes 32 0xebd7086d93506699d6cf2733ebe5ad63ea4ad79a4f5bc35c613cb186ffffca02),
      (beBytes 32 0xebd7086d93506699d6cf2733ebe5ad63ea4ad79a4f5bc35c613cb186ffffca02, keySighash),
      (pubkey, beBytes 32 0x25edc6264d9d405daa26475e9ed347d2c97221b62861b33398253a22f080ff43)] with
    ripemd160 := fun data =>
      if data = beBytes 32 0x25edc6264d9d405daa26475e9ed347d2c97221b62861b33398253a22f080ff43 then
        pubkeyHash else []
    verifySignature := fun key sighash der => .ok (key = pubkey &&
      ((sighash = keyHashSighash && der = keyHashSignature.dropLast) ||
        (sighash = keySighash && der = keySignature.dropLast)))
    verifySchnorrSignature := fun _ _ _ => .ok false
    taprootTweakPubkey := fun _ _ => .ok none }

def keyHashTxin : TxIn := txinWith (0x47 :: keyHashSignature ++ 0x21 :: pubkey)

def keyTxin : TxIn := txinWith (0x47 :: keySignature)

lemma signed_of_strict {tx : Transaction} {spk signature : Bytes} (hash : Bytes) (rs : ℕ × ℕ)
    (htype : (signature.getLastD 0).toNat ∈ SUPPORTED_ECDSA_SIGHASH_TYPES)
    (hder : parseDerSignature signature.dropLast = .ok (some rs))
    (hlowS : isLowS signature.dropLast = .ok true)
    (hhash : calculateLegacySighash crypto.toHashlib tx 0 (signature.getLastD 0).toNat spk = .ok hash)
    (hverify : crypto.verifySignature pubkey hash signature.dropLast = .ok true) :
    LegacySigned crypto tx 0 ScriptFlags.STANDARD_VERIFY_FLAGS spk signature pubkey where
  nonempty := by
    rintro rfl
    cases hder
  hashType := htype
  der _ := ⟨rs, hder⟩
  lowS _ := hlowS
  pubkey_nonempty := by decide +kernel
  verifies := ⟨hash, hhash, hverify⟩

lemma unlocks_toKeyHash :
    toKeyHash.Unlocks crypto (spendWith keyHashTxin.scriptSig) 0 keyHashTxin 2000
      ScriptFlags.STANDARD_VERIFY_FLAGS :=
  ⟨keyHashSignature, pubkey, by decide +kernel, by decide +kernel,
    signed_of_strict keyHashSighash
      (0x112d0c5c47cdb45f8b0bc402b2e2c0847bc3f7883ce41ec9fbf4c6911485f315,
        0x61090d2d832a39ec6bc81263acdc9c10008412a8502e02fe1b0b3f83674068ce)
      (by decide +kernel) (by decide +kernel) (by decide +kernel) (by decide +kernel)
      (by decide +kernel)⟩

lemma spendable_toKeyHash :
    toKeyHash.Spendable keyHashTxin ScriptFlags.STANDARD_VERIFY_FLAGS := by
  have hparse : parsePushOnlyItems keyHashTxin.scriptSig = .ok [keyHashSignature, pubkey] := by
    decide +kernel
  intro signature key hkey _
  rw [hparse, Except.ok.injEq, List.cons.injEq, List.cons.injEq] at hkey
  rw [← hkey.2.1]
  decide +kernel

lemma unlocks_toKey :
    toKey.Unlocks crypto (spendWith keyTxin.scriptSig) 0 keyTxin 2000
      ScriptFlags.STANDARD_VERIFY_FLAGS :=
  ⟨keySignature, by decide +kernel,
    signed_of_strict keySighash
      (0x62e25d3af09482a6d2c675ff0e48462475407af729f5538dd0a5de4b2f871798,
        0x3df3dd3e94f522d6b72cfacdf3acb31fb378d363b32b181efb73565ce0aa3c60)
      (by decide +kernel) (by decide +kernel) (by decide +kernel) (by decide +kernel)
      (by decide +kernel)⟩

end StandardExample

open StandardExample in
/-- A signed spend of a key hash output. -/
theorem standardOutput_spendable_iff_toKeyHash :
    verifyInputScript crypto (spendWith keyHashTxin.scriptSig) 0 keyHashTxin.scriptSig
      toKeyHash.scriptPubkey 2000 ScriptFlags.STANDARD_VERIFY_FLAGS = true :=
  ((standardOutput_spendable_iff toKeyHash.scriptPubkey (by decide +kernel) (by decide +kernel)).2
    toKeyHash rfl crypto (spendWith keyHashTxin.scriptSig) 0 keyHashTxin 2000
    ScriptFlags.STANDARD_VERIFY_FLAGS rfl unlocks_toKeyHash).2 spendable_toKeyHash

open StandardExample in
/-- A signed spend of a pay-to-pubkey output is refused. -/
theorem toKey_standard_unspendable :
    MempoolPolicy.isStandardOutput toKey.scriptPubkey = true ∧
      toKey.Unlocks crypto (spendWith keyTxin.scriptSig) 0 keyTxin 2000
        ScriptFlags.STANDARD_VERIFY_FLAGS ∧
      verifyInputScript crypto (spendWith keyTxin.scriptSig) 0 keyTxin.scriptSig toKey.scriptPubkey
        2000 ScriptFlags.STANDARD_VERIFY_FLAGS = false :=
  ⟨by decide +kernel, unlocks_toKey, by decide +kernel⟩

end BerzCoin.Script
