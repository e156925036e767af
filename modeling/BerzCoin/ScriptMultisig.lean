import BerzCoin.OrderedMatching
import BerzCoin.ScriptEngine

/-! `check_multisig` accepts exactly when the signatures can be matched to the public keys in order,
and `OP_CHECKMULTISIG` asks it so for the items of the stack. -/
namespace BerzCoin.Script
open Stack (Items)

namespace SignatureChecker
variable {C : Crypto} {c : SignatureChecker}

/-- The signatures have public keys of their own, in the same order, that verify them. -/
def Matched (C : Crypto) (c : SignatureChecker) (signatures pubkeys : List Bytes) : Prop :=
  OrderedMatching (fun sig key => c.checkSignature C sig key = true) signatures pubkeys

lemma checkMultisig_iff_matched (signatures pubkeys : List Bytes) :
    c.checkMultisig C signatures pubkeys = true ↔ c.Matched C signatures pubkeys := by
  have hcons := @orderedMatching_cons_of_fits _ _ fun sig key => c.checkSignature C sig key = true
  have hskip := @orderedMatching_cons_of_misfits _ _ fun sig key => c.checkSignature C sig key = true
  induction pubkeys generalizing signatures with
  | nil =>
    cases signatures with
    | nil => simp [checkMultisig, Matched, orderedMatching_nil]
    | cons sig sigs => simp [checkMultisig, Matched, not_orderedMatching_cons_nil]
  | cons key keys ih =>
    cases signatures with
    | nil => simp [checkMultisig, Matched, orderedMatching_nil]
    | cons sig sigs =>
      rw [checkMultisig]
      by_cases hfits : c.checkSignature C sig key = true
      · rw [if_pos hfits]
        exact (ih sigs).trans (hcons hfits).symm
      · rw [if_neg hfits]
        exact (ih (sig :: sigs)).trans (hskip hfits).symm

end SignatureChecker

lemma popMany_append (e : ScriptError) (items s : Items) :
    popMany e items.length (items ++ s) = .ok (items, s) := by
  induction items with
  | nil => rfl
  | cons a items ih =>
    simp only [List.length_cons, List.cons_append, popMany, popOr]
    simp only [bind, Except.bind, ih]
    rfl

/-- Where the counts fit, the opcode takes its items and pushes the answer of the checker. -/
lemma opCheckmultisig_items (ctx : Context) {signatures pubkeys : List Bytes} {nItem mItem : Bytes}
    (rest : Items) (hn : castToInt nItem = pubkeys.length) (hm : castToInt mItem = signatures.length)
    (hle : signatures.length ≤ pubkeys.length) (hmax : pubkeys.length ≤ 20) :
    opCheckmultisig ctx (nItem :: (pubkeys ++ mItem :: (signatures ++ [] :: rest))) =
      .ok (true, boolItem (ctx.checker.checkMultisig ctx.crypto signatures pubkeys) :: rest) := by
  have hkeys := popMany_append .missingPubkey pubkeys (mItem :: (signatures ++ [] :: rest))
  have hsigs := popMany_append .missingSignature signatures ([] :: rest)
  have hcount : ¬ ((pubkeys.length : ℤ) < 0 ∨ 20 < (pubkeys.length : ℤ)) := by omega
  have hcount' : ¬ ((signatures.length : ℤ) < 0 ∨ (pubkeys.length : ℤ) < signatures.length) := by omega
  simp only [opCheckmultisig, List.head?_cons, Option.getD_some, List.tail_cons, hn, if_neg hcount,
    Int.toNat_natCast, hkeys, bind, Except.bind, hm, if_neg hcount', hsigs]
  simp [pure, Except.pure]

/-- `check_multisig` is complete as well as sound, and `OP_CHECKMULTISIG` takes exactly its items and
pushes true exactly then. The signatures and keys are in the order in which they were pushed. -/
theorem checkMultisig_complete (ctx : Context) (signatures pubkeys : List Bytes) :
    (ctx.checker.checkMultisig ctx.crypto signatures pubkeys = true ↔
      ctx.checker.Matched ctx.crypto signatures pubkeys) ∧
    ∀ (nItem mItem : Bytes) (rest : Items), castToInt nItem = pubkeys.length →
      castToInt mItem = signatures.length → signatures.length ≤ pubkeys.length →
      pubkeys.length ≤ 20 →
      ∃ valid, opCheckmultisig ctx
          (nItem :: (pubkeys.reverse ++ mItem :: (signatures.reverse ++ [] :: rest))) =
            .ok (true, boolItem valid :: rest) ∧
        (valid = true ↔ ctx.checker.Matched ctx.crypto signatures pubkeys) := by
  refine ⟨SignatureChecker.checkMultisig_iff_matched signatures pubkeys, ?_⟩
  intro nItem mItem rest hn hm hle hmax
  rw [← List.length_reverse] at hn hm
  refine ⟨_, opCheckmultisig_items ctx rest hn hm (by simpa using hle) (by simpa using hmax), ?_⟩
  rw [SignatureChecker.checkMultisig_iff_matched]
  exact orderedMatching_reverse

/-! Two signatures against three public keys, of which the first fits none. -/
namespace MultisigExample

/-- A signature verifies under the key that starts with the same byte. -/
def crypto : Crypto where
  sha256 := id
  ripemd160 := id
  sha1 := id
  verifySignature pubkey _ sigDer := .ok (pubkey.head? = sigDer.head?)
  verifySchnorrSignature _ _ _ := .ok false
  taprootTweakPubkey _ _ := .ok none

def context : Context where
  crypto := crypto
  checker :=
    { tx := { version := 1, vin := [⟨List.replicate 32 0x11, 0, [], 0xffffffff, []⟩]
              vout := [⟨1, [0x51]⟩], locktime := 0 }
      inputIndex := 0
      amount := 0
      flags := .int 0 }
  flags := ⟨0⟩

end MultisigExample

open MultisigExample in
theorem checkMultisig_complete_two_of_three :
    ∃ valid, opCheckmultisig context ([0x03] :: ([[0x0c], [0x0b], [0x0a]] ++
        [0x02] :: ([[0x0c, 0x01], [0x0b, 0x01]] ++ [] :: [[0x51]]))) =
          .ok (true, boolItem valid :: [[0x51]]) ∧
      (valid = true ↔ context.checker.Matched context.crypto [[0x0b, 0x01], [0x0c, 0x01]]
        [[0x0a], [0x0b], [0x0c]]) :=
  (checkMultisig_complete context [[0x0b, 0x01], [0x0c, 0x01]] [[0x0a], [0x0b], [0x0c]]).2 [0x03] [0x02]
    [[0x51]] (by decide) (by decide) (by decide) (by decide)

end BerzCoin.Script
