import BerzCoin.BigEndian
import BerzCoin.ScriptBoundary

/-! Redeem scripts of P2SH outputs, and those that are taken for a witness program. -/
namespace BerzCoin.Script
open Stack (Items)

/-- The scripts that the code means to hand to its witness rules. -/
def isWitnessProgram (script : Bytes) : Bool :=
  isP2WPKH script ||
    (script.length = 34 && script.getD 0 0 = 0x00 && script.getD 1 0 = 0x20) || isP2TR script

/-- The length and the first byte of a witness program. -/
def ProgramShaped (script : Bytes) : Prop :=
  (script.length = 22 ∨ script.length = 34) ∧ (script.getD 0 0 = 0x00 ∨ script.getD 0 0 = 0x51)

instance (script : Bytes) : Decidable (ProgramShaped script) :=
  inferInstanceAs (Decidable (_ ∧ _))

section
variable (C : Crypto) (tx : Transaction) (inputIndex : ℕ)

lemma isP2WPKH_of_length {script : Bytes} (h : script.length ≠ 22) : isP2WPKH script = false := by
  simp [isP2WPKH, h]

lemma isP2TR_of_length {script : Bytes} (h : script.length ≠ 34) : isP2TR script = false := by
  simp [isP2TR, h]

lemma isP2SH_length {script : Bytes} (h : isP2SH script = true) : script.length = 23 := by
  simp only [isP2SH, Bool.and_eq_true, decide_eq_true_eq] at h
  exact h.1.1.1

lemma isP2PKH_length {script : Bytes} (h : isP2PKH script = true) : script.length = 25 := by
  simp only [isP2PKH, Bool.and_eq_true, decide_eq_true_eq] at h
  exact h.1.1.1.1.1

/-- A script with the shape of a program that is none falls through to the generic case. -/
lemma isGeneric_of_programShaped {script : Bytes} (hshape : ProgramShaped script)
    (hprogram : isWitnessProgram script = false) : isGeneric script = true := by
  simp only [isWitnessProgram, Bool.or_eq_false_iff] at hprogram
  have hsh : isP2SH script = false := by
    rw [Bool.eq_false_iff]
    intro h
    have hlength := isP2SH_length h
    have := hshape.1
    omega
  have hpkh : isP2PKH script = false := by
    rw [Bool.eq_false_iff]
    intro h
    have hlength := isP2PKH_length h
    have := hshape.1
    omega
  simp [isGeneric, hprogram.1.1, hprogram.2, hsh, hpkh]

lemma catchFalse_eq_true {result : Except ScriptError Bool} :
    catchFalse result = true ↔ result = .ok true := by
  cases result with
  | error e => simp [catchFalse]
  | ok accepted => simp [catchFalse]

variable {scriptSig scriptPubkey redeemScript : Bytes} {items : List Bytes}

/-- A P2SH spend, up to the choice between the engine and the nested call. -/
lemma verifyInputScript_scriptHash (amount : ℕ) {flags : ℕ} (hpubkey : isP2SH scriptPubkey = true)
    (hflag : flags &&& ScriptFlags.VERIFY_P2SH ≠ 0) (hitems : parsePushOnlyItems scriptSig = .ok items)
    (hlast : items.getLast? = some redeemScript)
    (hhash : C.hash160 redeemScript = slice scriptPubkey 2 20) :
    verifyInputScript C tx inputIndex scriptSig scriptPubkey amount flags =
      if ProgramShaped redeemScript then
        catchFalse (verifyInputScriptBody C tx inputIndex (fun _ => false) [] redeemScript amount flags)
      else catchFalse (runEngine C tx inputIndex flags redeemScript amount items.dropLast.reverse) := by
  have hlength := isP2SH_length hpubkey
  unfold verifyInputScript
  dsimp only
  rw [verifyInputScriptBody, isP2WPKH_of_length (by omega), isP2TR_of_length (by omega), hpubkey]
  simp only [Bool.false_eq_true, if_false, if_true]
  unfold verifyP2SH
  rw [if_neg hflag, hitems]
  simp only [Except.mapError, bind, Except.bind, hlast]
  rw [if_neg (by simpa using hhash)]
  by_cases hshape : ProgramShaped redeemScript
  · exact (congrArg catchFalse (if_pos hshape)).trans (if_pos hshape).symm
  · exact (congrArg catchFalse (if_neg hshape)).trans (if_neg hshape).symm

theorem verifyInputScript_scriptHash_iff (amount : ℕ) {flags : ℕ} (hpubkey : isP2SH scriptPubkey = true)
    (hflag : flags &&& ScriptFlags.VERIFY_P2SH ≠ 0) (hitems : parsePushOnlyItems scriptSig = .ok items)
    (hlast : items.getLast? = some redeemScript)
    (hhash : C.hash160 redeemScript = slice scriptPubkey 2 20)
    (hprogram : isWitnessProgram redeemScript = false) :
    (verifyInputScript C tx inputIndex scriptSig scriptPubkey amount flags = true ↔
        execute (engineContext C tx inputIndex amount flags) redeemScript items.dropLast.reverse =
          .ok true) ↔
      (ProgramShaped redeemScript →
        (execute (engineContext C tx inputIndex amount flags) redeemScript [] = .ok true ↔
          execute (engineContext C tx inputIndex amount flags) redeemScript items.dropLast.reverse =
            .ok true)) := by
  rw [verifyInputScript_scriptHash C tx inputIndex amount hpubkey hflag hitems hlast hhash]
  by_cases hshape : ProgramShaped redeemScript
  · rw [if_pos hshape, verifyInputScriptBody_generic C tx inputIndex _ [] amount flags
      (isGeneric_of_programShaped hshape hprogram), List.nil_append, catchFalse_eq_true]
    exact ⟨fun h _ => h, fun h => h hshape⟩
  · rw [if_neg hshape, catchFalse_eq_true]
    exact iff_of_true Iff.rfl (fun h => absurd h hshape)

end

section examples

/-- `OP_1 OP_EQUAL`, and a script with the length and the first byte of a program that compares the
item it is given with 1 as well. -/
def equalRedeem : Bytes := [0x51, 0x87]
def compareRedeem : Bytes := equalRedeem ++ List.replicate 20 0x61

def redeemDigests : List (Bytes × ℕ × ℕ) :=
  [(equalRedeem, 0x2715be8e2c2c8febd01a6de9f4651a25c5d5540a022010caab1abd37365b10a5,
      0x01b084353e301dad11492341307598f6822fd0c3),
    (compareRedeem, 0x7a476088c46bb06a890d4c0051da085a448b8c02ffdbfaa0915c2cf015e29de4,
      0x233b485f3b93b96bb56722ce26ea67ab9631266e)]

def redeemCrypto : Crypto := .ofHashlib
  { Hashlib.ofDigests (redeemDigests.map fun d => (d.1, beBytes 32 d.2.1)) with
    ripemd160 := fun data =>
      ((redeemDigests.map fun d => (beBytes 32 d.2.1, beBytes 20 d.2.2)).lookup data).getD [] }

def scriptHashPubkey (redeemScript : Bytes) : Bytes :=
  [0xa9, 0x14] ++ redeemCrypto.hash160 redeemScript ++ [0x87]

theorem verifyInputScript_scriptHash_iff_equal :
    verifyInputScript redeemCrypto spendingTx 0 ([0x51, 0x02] ++ equalRedeem)
        (scriptHashPubkey equalRedeem) 0 ScriptFlags.STANDARD_VERIFY_FLAGS = true ∧
      execute (engineContext redeemCrypto spendingTx 0 0 ScriptFlags.STANDARD_VERIFY_FLAGS)
        equalRedeem [[0x01]] = .ok true := by
  have hruns : execute (engineContext redeemCrypto spendingTx 0 0 ScriptFlags.STANDARD_VERIFY_FLAGS)
      equalRedeem [[0x01]] = .ok true := by decide +kernel
  have hshape : ¬ ProgramShaped equalRedeem := by decide
  have hiff := @verifyInputScript_scriptHash_iff redeemCrypto spendingTx 0 ([0x51, 0x02] ++ equalRedeem)
    (scriptHashPubkey equalRedeem) equalRedeem [[0x01], equalRedeem] 0
    ScriptFlags.STANDARD_VERIFY_FLAGS (by decide +kernel) (by decide) (by decide +kernel) rfl
    (by decide +kernel) (by decide)
  exact ⟨(hiff.2 fun h => absurd h hshape).2 hruns, hruns⟩

theorem compareRedeem_unspendable :
    isP2SH (scriptHashPubkey compareRedeem) = true ∧
      parsePushOnlyItems ([0x51, 0x16] ++ compareRedeem) = .ok [[0x01], compareRedeem] ∧
      redeemCrypto.hash160 compareRedeem = slice (scriptHashPubkey compareRedeem) 2 20 ∧
      isWitnessProgram compareRedeem = false ∧
      execute (engineContext redeemCrypto spendingTx 0 0 ScriptFlags.STANDARD_VERIFY_FLAGS)
        compareRedeem [[0x01]] = .ok true ∧
      verifyInputScript redeemCrypto spendingTx 0 ([0x51, 0x16] ++ compareRedeem)
        (scriptHashPubkey compareRedeem) 0 ScriptFlags.STANDARD_VERIFY_FLAGS = false :=
  ⟨by decide +kernel, by decide +kernel, by decide +kernel, by decide, by decide +kernel,
    by decide +kernel⟩

end examples
end BerzCoin.Script
