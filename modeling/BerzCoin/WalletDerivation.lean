import BerzCoin.CryptoKeys
import BerzCoin.WalletKeys

/-! `xpub.py`: public derivation beside the private derivation of `hd.py`. -/
namespace BerzCoin
open Secp256k1

/-- `PrivateKey(key).public_key().to_bytes()`, for a key in range. -/
def publicKeyBytes (key : ℕ) : Bytes :=
  match privateToPublic key with
  | some (x, y) => (PublicKey.toBytes ⟨x, y⟩).toOption.getD []
  | none => []

namespace Xpub

def compressPoint (x y : ℤ) : Except PyError Bytes := do
  let leading : UInt8 := if y % 2 = 0 then 0x02 else 0x03
  let xBytes ← bytes32 x
  return leading :: xBytes

/-- `_hmac_sha512` is the one of `hd.py`. The index is not negative. -/
def deriveChildPubkey (hmacSha512 : Bytes → Bytes → Bytes) (parentPubkeyBytes parentChainCode : Bytes)
    (index : ℕ) : Except PyError (Bytes × Bytes) :=
  if 2 ^ 31 ≤ index then .error (.valueError "xpub cannot derive hardened children")
  else if parentChainCode.length ≠ 32 then .error (.valueError "invalid chain code length")
  else
    let i := hmacSha512 parentChainCode (parentPubkeyBytes ++ beBytes 4 index)
    let tweak := beNat (i.take 32)
    if tweak = 0 ∨ N ≤ tweak then .error (.valueError "invalid child tweak")
    else do
      let parentPk ← PublicKey.fromBytes parentPubkeyBytes
      match (GENERATOR.multiply tweak).add (.affine parentPk.x parentPk.y) with
      | .infinity => .error (.valueError "invalid derived child point")
      | .affine x y =>
        let childBytes ← compressPoint x y
        return (childBytes, i.drop 32)

end Xpub

section points
variable {x y : F}

/-- The compressed encoding of a point. -/
def pointBytes (x y : F) : Bytes := (if (y.val : ℤ) % 2 = 0 then 0x02 else 0x03) :: beBytes 32 x.val

lemma bytes32_coordinate (x : F) : bytes32 x.val = .ok (beBytes 32 x.val) := by
  have hlt : (x.val : ℤ) < P := by exact_mod_cast ZMod.val_lt x
  exact (bytes32_of_range (Int.natCast_nonneg x.val) (hlt.trans P_lt)).1

lemma toBytes_coordinates (x y : F) : PublicKey.toBytes ⟨x.val, y.val⟩ = .ok (pointBytes x y) := by
  rw [PublicKey.toBytes, bytes32_coordinate]
  rfl

lemma compressPoint_coordinates (x y : F) :
    Xpub.compressPoint x.val y.val = .ok (pointBytes x y) := by
  rw [Xpub.compressPoint, bytes32_coordinate]
  rfl

lemma fromBytes_pointBytes (h : curve.Nonsingular x y) :
    PublicKey.fromBytes (pointBytes x y) = .ok ⟨x.val, y.val⟩ := by
  have hcurve := nonsingular_iff.1 h
  have hvalue : beNat (beBytes 32 x.val) = x.val :=
    beNat_beBytes ((ZMod.val_lt x).trans (by decide))
  have hsquare : IsSquare ((beNat (beBytes 32 x.val) : F) ^ 3 + 7) := by
    rw [hvalue, ZMod.natCast_zmod_val]
    exact ⟨y, by rw [← hcurve, pow_two]⟩
  obtain ⟨leading, hleading⟩ : ∃ leading : UInt8,
      leading = if (y.val : ℤ) % 2 = 0 then 0x02 else 0x03 := ⟨_, rfl⟩
  have hcases : leading = 0x02 ∨ leading = 0x03 := by
    rw [hleading]
    split_ifs
    · exact .inl rfl
    · exact .inr rfl
  have hsign : leading = 0x02 ↔ (y.val : ℤ) % 2 = 0 := by
    rw [hleading]
    split_ifs with heven
    · exact iff_of_true rfl heven
    · exact iff_of_false (by decide) heven
  obtain ⟨y', hdecoded, hsq, hparity⟩ :=
    PublicKey.fromBytes_of_square (beBytes_length 32 x.val) hcases hsquare
  rw [hvalue, ZMod.natCast_zmod_val, ← hcurve] at hsq
  have hsame : y = y' := root_unique hsq.symm (y_ne_zero h.1) (hsign.symm.trans hparity.symm)
  rw [pointBytes, ← hleading, hdecoded, hvalue, hsame]

lemma publicKeyBytes_eq {k : ℕ} {h : curve.Nonsingular x y} (hpoint : (k : ℤ) • G = .some x y h) :
    publicKeyBytes k = pointBytes x y := by
  have hpublic : privateToPublic k = some ((x.val : ℤ), (y.val : ℤ)) := by
    rw [privateToPublic, GENERATOR_multiply (Int.natCast_nonneg k), hpoint, ofPoint]
  rw [publicKeyBytes, hpublic]
  dsimp only
  rw [toBytes_coordinates]
  rfl

end points

section derivation
variable {Sealed : Type} (L : WalletLib Sealed) {k i : ℕ} {c : Bytes}

/-- The number that the derivation adds to a key. -/
def childTweak (k : ℕ) (c : Bytes) (i : ℕ) : ℕ :=
  beNat ((L.hmacSha512 c (publicKeyBytes k ++ beBytes 4 i)).take 32)

/-- The private derivation, over the public keys of the curve. -/
def ckdPriv (k : ℕ) (c : Bytes) (i : ℕ) : Except PyError (ℕ × Bytes) :=
  Hd.bip32CkdPriv { L with privateToPublic := publicKeyBytes } (k, c) i

/-- Both derivations fail, or the child of the public key is the public key of the child. -/
def DerivationsAgree (k : ℕ) (c : Bytes) (i : ℕ) : Prop :=
  match ckdPriv L k c i, Xpub.deriveChildPubkey L.hmacSha512 (publicKeyBytes k) c i with
  | .error _, .error _ => True
  | .ok (child, chainCode), .ok (childBytes, chainCode') =>
    childBytes = publicKeyBytes child ∧ chainCode' = chainCode
  | _, _ => False

variable {L}

lemma order_eq : PrivateKey.SECP256K1_ORDER = N := rfl

/-- The private derivation checks the child only. -/
lemma ckdPriv_eq (hpos : 0 < k) (hlt : k < N) (hi : i < 2 ^ 31) (hc : c.length = 32) :
    ckdPriv L k c i =
      if (childTweak L k c i + k) % N = 0 then .error (.valueError "Derived invalid child key")
      else .ok ((childTweak L k c i + k) % N,
        (L.hmacSha512 c (publicKeyBytes k ++ beBytes 4 i)).drop 32) := by
  unfold ckdPriv Hd.bip32CkdPriv
  dsimp only
  have hrange : ¬ (k = 0 ∨ PrivateKey.SECP256K1_ORDER ≤ k) := by
    rw [order_eq]
    omega
  rw [if_neg (by omega : ¬ 2 ^ 32 ≤ i), if_neg (not_not.2 hc), if_neg hrange,
    if_neg (by omega : ¬ 0x80000000 ≤ i)]
  rfl

lemma child_smul (tweak : ℕ) :
    ((tweak : ℤ) + k) • G = (((tweak + k) % N : ℕ) : ℤ) • G := by
  rw [smul_G_eq_iff]
  push_cast
  rfl

/-- The public derivation checks the tweak, and adds the points. -/
lemma deriveChildPubkey_eq (hpos : 0 < k) (hlt : k < N) (hi : i < 2 ^ 31) (hc : c.length = 32) :
    Xpub.deriveChildPubkey L.hmacSha512 (publicKeyBytes k) c i =
      if childTweak L k c i = 0 ∨ N ≤ childTweak L k c i then
        .error (.valueError "invalid child tweak")
      else if (childTweak L k c i + k) % N = 0 then
        .error (.valueError "invalid derived child point")
      else .ok (publicKeyBytes ((childTweak L k c i + k) % N),
        (L.hmacSha512 c (publicKeyBytes k ++ beBytes 4 i)).drop 32) := by
  obtain ⟨x, y, h, hparent⟩ := exists_affine (smul_G_ne_zero (k := k) (by omega) (by omega))
  unfold Xpub.deriveChildPubkey
  dsimp only
  rw [if_neg (by omega), if_neg (not_not.2 hc)]
  change (if childTweak L k c i = 0 ∨ N ≤ childTweak L k c i then _ else _) = _
  by_cases htweak : childTweak L k c i = 0 ∨ N ≤ childTweak L k c i
  · rw [if_pos htweak, if_pos htweak]
  rw [if_neg htweak, if_neg htweak]
  have hsum : (GENERATOR.multiply (childTweak L k c i)).add (.affine x.val y.val) =
      ofPoint ((((childTweak L k c i + k) % N : ℕ) : ℤ) • G) := by
    have haffine : Point.affine x.val y.val = ofPoint ((k : ℤ) • G) := by
      rw [hparent]
      rfl
    rw [GENERATOR_multiply (Int.natCast_nonneg _), haffine, add_ofPoint, ← add_zsmul, child_smul]
  have hread : PublicKey.fromBytes (publicKeyBytes k) = .ok ⟨x.val, y.val⟩ := by
    rw [publicKeyBytes_eq hparent, fromBytes_pointBytes h]
  have htweakDef : beNat ((L.hmacSha512 c (publicKeyBytes k ++ beBytes 4 i)).take 32) =
      childTweak L k c i := rfl
  rw [hread]
  simp only [bind, Except.bind]
  rw [htweakDef, hsum]
  by_cases hzero : (childTweak L k c i + k) % N = 0
  · rw [if_pos hzero, hzero, Nat.cast_zero, zero_zsmul]
    rfl
  · have hchildlt : (childTweak L k c i + k) % N < N := Nat.mod_lt _ (by decide)
    obtain ⟨x', y', h', hchild⟩ :=
      exists_affine (smul_G_ne_zero (k := ((childTweak L k c i + k) % N : ℕ)) (by omega) (by omega))
    rw [if_neg hzero, publicKeyBytes_eq hchild, hchild, ofPoint]
    dsimp only
    rw [compressPoint_coordinates]
    rfl

theorem derivationsAgree_iff (hpos : 0 < k) (hlt : k < N) (hi : i < 2 ^ 31) :
    DerivationsAgree L k c i ↔
      c.length ≠ 32 ∨ (0 < childTweak L k c i ∧ childTweak L k c i < N) ∨
        (childTweak L k c i + k) % N = 0 := by
  by_cases hc : c.length = 32
  · rw [DerivationsAgree, ckdPriv_eq hpos hlt hi hc, deriveChildPubkey_eq hpos hlt hi hc]
    by_cases htweak : childTweak L k c i = 0 ∨ N ≤ childTweak L k c i
    · rw [if_pos htweak]
      by_cases hzero : (childTweak L k c i + k) % N = 0
      · rw [if_pos hzero]
        exact iff_of_true trivial (.inr (.inr hzero))
      · rw [if_neg hzero]
        apply iff_of_false
        · exact id
        · omega
    · rw [if_neg htweak]
      by_cases hzero : (childTweak L k c i + k) % N = 0
      · rw [if_pos hzero, if_pos hzero]
        exact iff_of_true trivial (.inr (.inr hzero))
      · rw [if_neg hzero, if_neg hzero]
        exact iff_of_true ⟨rfl, rfl⟩ (.inr (.inl (by omega)))
  · have hpriv : ckdPriv L k c i = .error (.valueError "Invalid parent chain code length") := by
      rw [ckdPriv, Hd.bip32CkdPriv, if_neg (by omega), if_pos hc]
    have hpub : Xpub.deriveChildPubkey L.hmacSha512 (publicKeyBytes k) c i =
        .error (.valueError "invalid chain code length") := by
      rw [Xpub.deriveChildPubkey, if_neg (by omega), if_pos hc]
    rw [DerivationsAgree, hpriv, hpub]
    exact iff_of_true trivial (.inl hc)

lemma not_derivationsAgree {child : ℕ × Bytes} {e : PyError} (hpriv : ckdPriv L k c i = .ok child)
    (hpub : Xpub.deriveChildPubkey L.hmacSha512 (publicKeyBytes k) c i = .error e) :
    ¬ DerivationsAgree L k c i := by
  rw [DerivationsAgree, hpriv, hpub]
  exact not_false

/-- A library that is only asked for HMACs. -/
def hmacLib (hmacSha512 : Bytes → Bytes → Bytes) : WalletLib Unit where
  sha256 := id
  ripemd160 := id
  sha1 := id
  lower := id
  hmacSha512 := hmacSha512
  mnemonicToSeed _ := []
  mnemonicFromPrivateKey _ := []
  privateToPublic _ := []
  parseXpub _ := .error (.valueError "unsupported xpub version")
  deriveXpubExternalPubkey _ _ := .error (.valueError "invalid xpub payload length")
  encrypt _ _ _ := ()
  decrypt _ _ := none

/-- The digest for the first child of the key 1 under a chain code of zeros. -/
def firstChildLib : WalletLib Unit := hmacLib fun _ _ =>
  beBytes 64 0x23f2740ea906f427c10cd03910c510f0c468e703f042a8d06c5b7721f2c15b338aedbb4c67c846b9ed458f1fb89b9c7c62d695f210ab89c9c3f99989302a85c7

theorem derivationsAgree_iff_firstChild :
    DerivationsAgree firstChildLib 1 (List.replicate 32 0) 0 ↔
      (List.replicate 32 (0 : UInt8)).length ≠ 32 ∨
        (0 < childTweak firstChildLib 1 (List.replicate 32 0) 0 ∧
          childTweak firstChildLib 1 (List.replicate 32 0) 0 < N) ∨
        (childTweak firstChildLib 1 (List.replicate 32 0) 0 + 1) % N = 0 :=
  derivationsAgree_iff (by decide) (by decide) (by decide)

/-- A tweak of zero is refused by the public derivation only. -/
theorem zero_tweak_disagrees :
    ckdPriv (hmacLib fun _ _ => List.replicate 64 0) 1 (List.replicate 32 0) 0 =
        .ok (1, List.replicate 32 0) ∧
      Xpub.deriveChildPubkey (fun _ _ => List.replicate 64 0) (publicKeyBytes 1)
        (List.replicate 32 0) 0 = .error (.valueError "invalid child tweak") ∧
      ¬ DerivationsAgree (hmacLib fun _ _ => List.replicate 64 0) 1 (List.replicate 32 0) 0 := by
  have hpriv : ckdPriv (hmacLib fun _ _ => List.replicate 64 0) 1 (List.replicate 32 0) 0 =
      .ok (1, List.replicate 32 0) := by decide +kernel
  have hpub : Xpub.deriveChildPubkey (fun _ _ => List.replicate 64 0) (publicKeyBytes 1)
      (List.replicate 32 0) 0 = .error (.valueError "invalid child tweak") := by decide +kernel
  exact ⟨hpriv, hpub, not_derivationsAgree hpriv hpub⟩

end derivation
end BerzCoin
