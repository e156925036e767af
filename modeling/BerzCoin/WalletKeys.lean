import BerzCoin.P2pAuthority
import BerzCoin.ValidationConnect

/-! Private keys, their hexadecimal texts, and the wallets made from them. -/
namespace BerzCoin

def HEX_DIGITS : Text :=
  ['0', '1', '2', '3', '4', '5', '6', '7', '8', '9', 'a', 'b', 'c', 'd', 'e', 'f']

/-- `int(text, 16)` for a text of lower-case hexadecimal digits. -/
def hexValue (text : Text) : ℕ := text.foldl (fun n c => 16 * n + HEX_DIGITS.idxOf c) 0

/-- The last `width` hexadecimal digits of a number. -/
def hexText : ℕ → ℕ → Text
  | 0, _ => []
  | width + 1, n => hexText width (n / 16) ++ [HEX_DIGITS.getD (n % 16) '0']

def hexOfBytes (data : Bytes) : Text := (hex data).toList

def stripText (text : Text) : Text :=
  ((text.dropWhile isSpace).reverse.dropWhile isSpace).reverse

structure SimpleWallet where
  privateKeyHex : Text
  publicKeyHex : Text
  address : Text
  mnemonic : Text
  walletType : Text
  walletId : Text
  derivationPath : Text
  coinType : ℕ
  account : ℕ
  externalIndex : ℕ
  internalIndex : ℕ
  watchOnly : Bool
  xpub : Text
  label : Text
  trackedAddresses : List Text
  network : Network
  createdAt : ℚ
  deriving DecidableEq

/-- What the wallet code takes from elsewhere. -/
structure WalletLib (Sealed : Type) extends Hashlib where
  /-- `str.lower`. -/
  lower : Text → Text
  hmacSha512 : Bytes → Bytes → Bytes
  mnemonicToSeed : Text → Bytes
  /-- The words that stand in for a mnemonic of an imported key. -/
  mnemonicFromPrivateKey : Text → Text
  /-- The compressed point of a private key. -/
  privateToPublic : ℕ → Bytes
  /-- The network of an xpub, once it is decoded. -/
  parseXpub : Text → Except PyError Network
  deriveXpubExternalPubkey : Text → ℕ → Except PyError Bytes
  /-- AES-GCM under a key from the passphrase, with a salt and a nonce. -/
  encrypt : Text → SimpleWallet → Bytes → Sealed
  decrypt : Text → Sealed → Option SimpleWallet

variable {Sealed : Type} (L : WalletLib Sealed)

/-- `normalize_private_key_hex`. -/
def normalizePrivateKeyHex (privateKey : Text) : Except PyError Text :=
  let key := L.lower (stripText privateKey)
  let key := if ['0', 'x'].isPrefixOf key then key.drop 2 else key
  if key = [] then .error (.valueError "Private key required")
  else if 64 < key.length then .error (.valueError "Private key too long")
  else if key.any fun ch => ch ∉ HEX_DIGITS then .error (.valueError "Invalid private key hex")
  else .ok (List.replicate (64 - key.length) '0' ++ key)

namespace PrivateKey

/-- `N` of `secp256k1`. -/
def SECP256K1_ORDER : ℕ := 0xFFFFFFFFFFFFFFFFFFFFFFFFFFFFFFFEBAAEDCE6AF48A03BBFD25E8CD0364141

/-- The integers that `PrivateKey` takes. -/
def check (key : ℕ) : Except PyError ℕ :=
  if key = 0 ∨ SECP256K1_ORDER ≤ key then .error (.valueError "Invalid private key range") else .ok key

/-- `hex(self.key)[2:].zfill(64)`. -/
def toHex (key : ℕ) : Text := hexText 64 key

/-- `public_key().to_bytes().hex()`. -/
def publicKeyHex (key : ℕ) : Text := hexOfBytes (L.privateToPublic key)

end PrivateKey

/-- `public_key_to_address` for a compressed key. -/
def publicKeyToAddress (publicKey : Bytes) (network : Network) (segwit : Bool) : Except PyError Text :=
  if segwit then Bech32.bech32Encode network.addressPrefixes.hrp 0 (L.hash160 publicKey)
  else
    .ok (Base58.base58CheckEncode L.toHashlib (network.addressPrefixes.p2pkh :: L.hash160 publicKey))

/-! `shared.crypto.hd`. -/
namespace Hd
open PrivateKey

def bip32MasterKeyFromSeed (seed : Bytes) : Except PyError (ℕ × Bytes) :=
  let i := L.hmacSha512 ("Bitcoin seed".toUTF8.toList) seed
  let k := beNat (i.take 32)
  if k = 0 ∨ SECP256K1_ORDER ≤ k then .error (.valueError "Invalid master key from seed")
  else .ok (k, i.drop 32)

def bip32CkdPriv (parent : ℕ × Bytes) (index : ℕ) : Except PyError (ℕ × Bytes) :=
  if 2 ^ 32 ≤ index then .error (.valueError "Invalid child index")
  else if parent.2.length ≠ 32 then .error (.valueError "Invalid parent chain code length")
  else if parent.1 = 0 ∨ SECP256K1_ORDER ≤ parent.1 then
    .error (.valueError "Invalid parent private key")
  else
    let data := if 0x80000000 ≤ index then 0 :: beBytes 32 parent.1 else L.privateToPublic parent.1
    let i := L.hmacSha512 parent.2 (data ++ beBytes 4 index)
    let child := (beNat (i.take 32) + parent.1) % SECP256K1_ORDER
    if child = 0 then .error (.valueError "Derived invalid child key") else .ok (child, i.drop 32)

def path (coinType account change addressIndex : ℕ) : Text :=
  s!"m/44'/{coinType}'/{account}'/{change}/{addressIndex}".toList

/-- The indices are not negative. -/
def deriveBip44PrivateKey (seed : Bytes) (coinType account change addressIndex : ℕ) :
    Except PyError (ℕ × Text) := do
  if 1 < change then throw (.valueError "Invalid BIP44 path elements")
  let master ← bip32MasterKeyFromSeed L seed
  let (k, _) ← [44 ||| 0x80000000, coinType ||| 0x80000000, account ||| 0x80000000, change,
    addressIndex].foldlM (bip32CkdPriv L) master
  return (k, path coinType account change addressIndex)

end Hd

namespace SimpleWallet

def coinTypeOf (network : Network) : ℕ := if network = .mainnet then 0 else 1

def fromMnemonic (mnemonic : Text) (network : Network) (externalIndex account internalIndex : ℕ)
    (createdAt : ℚ) : Except PyError SimpleWallet := do
  let coinType := coinTypeOf network
  let derived ←
    Hd.deriveBip44PrivateKey L (L.mnemonicToSeed mnemonic) coinType account 0 externalIndex
  let key ← PrivateKey.check derived.1
  let address ← publicKeyToAddress L (L.privateToPublic key) network false
  return {
    privateKeyHex := PrivateKey.toHex key, publicKeyHex := PrivateKey.publicKeyHex L key, address
    mnemonic, walletType := "deterministic".toList, walletId := address
    derivationPath := derived.2, coinType, account, externalIndex, internalIndex, watchOnly := false, xpub := [], label := []
    trackedAddresses := [address], network, createdAt }

/-- `create`, with the mnemonic that it generates. -/
def create (network : Network) (mnemonic : Text) (createdAt : ℚ) : Except PyError SimpleWallet :=
  fromMnemonic L mnemonic network 0 0 0 createdAt

def fromPrivateKey (privateKeyHex : Text) (network : Network) (createdAt : ℚ) :
    Except PyError SimpleWallet := do
  let normalizedKey ← normalizePrivateKeyHex L privateKeyHex
  let key ← PrivateKey.check (hexValue normalizedKey)
  let address ← publicKeyToAddress L (L.privateToPublic key) network false
  return {
    privateKeyHex := normalizedKey, publicKeyHex := PrivateKey.publicKeyHex L key, address
    mnemonic := L.mnemonicFromPrivateKey normalizedKey, walletType := "imported".toList
    walletId := address, derivationPath := "imported".toList, coinType := coinTypeOf network
    account := 0, externalIndex := 0, internalIndex := 0, watchOnly := false, xpub := [], label := []
    trackedAddresses := [address], network, createdAt }

def checkXpubNetwork (nodeNet network : Network) : Except PyError Unit :=
  let expected := if network = .regtest then .testnet else network
  if nodeNet ≠ expected then .error (.valueError "xpub network mismatch") else .ok ()

def fromXpub (xpub : Text) (network : Network) (externalIndex : ℕ) (label : Text) (createdAt : ℚ) :
    Except PyError SimpleWallet := do
  let nodeNet ← L.parseXpub xpub
  checkXpubNetwork nodeNet network
  let pubkeyBytes ← L.deriveXpubExternalPubkey xpub externalIndex
  let address ← publicKeyToAddress L pubkeyBytes network true
  let digest := hexOfBytes (L.sha256 (String.ofList xpub).toUTF8.toList)
  return {
    privateKeyHex := [], publicKeyHex := hexOfBytes pubkeyBytes, address, mnemonic := []
    walletType := "watch_only_xpub".toList, walletId := "xpub_".toList ++ digest.take 24
    derivationPath := s!"xpub/0/{externalIndex}".toList, coinType := coinTypeOf network, account := 0
    externalIndex, internalIndex := 0, watchOnly := true, xpub, label
    trackedAddresses := [address], network, createdAt }

/-- `to_dict` and back: a wallet without an id goes by its address. -/
def toRecord (wallet : SimpleWallet) : SimpleWallet :=
  { wallet with walletId := if wallet.walletId = [] then wallet.address else wallet.walletId }

/-- The private key of a wallet, if it has one, can be used and belongs to its public key. -/
def KeyPair (wallet : SimpleWallet) : Prop :=
  wallet.privateKeyHex ≠ [] → ∃ key, normalizePrivateKeyHex L wallet.privateKeyHex = .ok key ∧
    wallet.publicKeyHex = PrivateKey.publicKeyHex L (hexValue key)

end SimpleWallet

/-- What is used of the code outside: lower-case digits stay, and what decrypts was encrypted. -/
structure WalletLib.Lawful : Prop where
  lower_hex : ∀ text : Text, (∀ c ∈ text, c ∈ HEX_DIGITS) → L.lower text = text
  decrypt_encrypt : ∀ passphrase passphrase' wallet salt wallet',
    L.decrypt passphrase' (L.encrypt passphrase wallet salt) = some wallet' → wallet' = wallet

/-- The form of a normalized key. -/
def Hex64 (text : Text) : Prop := text.length = 64 ∧ ∀ c ∈ text, c ∈ HEX_DIGITS

section hex

lemma hexDigit_spec {n : ℕ} (h : n < 16) :
    HEX_DIGITS.getD n '0' ∈ HEX_DIGITS ∧ HEX_DIGITS.idxOf (HEX_DIGITS.getD n '0') = n := by
  have hall : ∀ n < 16, HEX_DIGITS.getD n '0' ∈ HEX_DIGITS ∧
      HEX_DIGITS.idxOf (HEX_DIGITS.getD n '0') = n := by
    decide
  exact hall n h

lemma isSpace_of_mem_hexDigits {c : Char} (h : c ∈ HEX_DIGITS) : isSpace c = false ∧ c ≠ 'x' := by
  have hall : ∀ c ∈ HEX_DIGITS, (0x30 ≤ c.toNat ∧ c.toNat ≤ 0x39) ∨ (0x61 ≤ c.toNat ∧ c.toNat ≤ 0x66) := by
    simp [HEX_DIGITS]
  have hrange := hall c h
  constructor
  · simp [isSpace]
    omega
  · rintro rfl
    simp at hrange

lemma hexText_length (width n : ℕ) : (hexText width n).length = width := by
  induction width generalizing n with
  | zero => rfl
  | succ width ih => simp [hexText, ih]

lemma mem_hexText {width n : ℕ} {c : Char} (h : c ∈ hexText width n) : c ∈ HEX_DIGITS := by
  induction width generalizing n with
  | zero => cases h
  | succ width ih =>
    rw [hexText, List.mem_append, List.mem_singleton] at h
    cases h with
    | inl h => exact ih h
    | inr h =>
      rw [h]
      exact (hexDigit_spec (Nat.mod_lt n (by omega))).1

lemma hexValue_hexText {width n : ℕ} (h : n < 16 ^ width) : hexValue (hexText width n) = n := by
  induction width generalizing n with
  | zero =>
    have hzero : n = 0 := by simpa using h
    rw [hzero]
    rfl
  | succ width ih =>
    have hdiv : n / 16 < 16 ^ width := by
      rw [pow_succ] at h
      omega
    have hmod := (hexDigit_spec (Nat.mod_lt n (show 0 < 16 by omega))).2
    rw [hexText, hexValue, List.foldl_append, List.foldl_cons, List.foldl_nil, hmod]
    have hrest := ih hdiv
    rw [hexValue] at hrest
    rw [hrest]
    omega

lemma hex64_toHex (key : ℕ) : Hex64 (PrivateKey.toHex key) :=
  ⟨hexText_length 64 key, fun _ hc => mem_hexText hc⟩

variable {L}

/-- A normalized key is its own normal form. -/
lemma Hex64.normalize (hlib : L.Lawful) {text : Text} (h : Hex64 text) :
    normalizePrivateKeyHex L text = .ok text := by
  obtain ⟨hlength, hdigits⟩ := h
  have hstrip : stripText text = text :=
    stripped_of_forall fun c hc => (isSpace_of_mem_hexDigits (hdigits c hc)).1
  have hprefix : ['0', 'x'].isPrefixOf text = false := by
    match text, hdigits with
    | [], _ => rfl
    | [_], _ => simp [List.isPrefixOf]
    | a :: b :: rest, hdigits =>
      have hb := (isSpace_of_mem_hexDigits (hdigits b (by simp))).2
      have hb' : ¬ 'x' = b := fun heq => hb heq.symm
      simp [List.isPrefixOf, hb']
  have hne : text ≠ [] := by
    rintro rfl
    cases hlength
  simp only [normalizePrivateKeyHex, hstrip, hlib.lower_hex text hdigits, hprefix, Bool.false_eq_true,
    if_false, hne, hlength]
  simpa using hdigits

lemma hex64_of_normalize {text key : Text} (h : normalizePrivateKeyHex L text = .ok key) : Hex64 key := by
  simp only [normalizePrivateKeyHex] at h
  generalize (if ['0', 'x'].isPrefixOf (L.lower (stripText text)) then
    (L.lower (stripText text)).drop 2 else L.lower (stripText text)) = digits at h
  split_ifs at h with hnil hlong hany
  cases h
  constructor
  · simp
    omega
  · intro c hc
    rcases List.mem_append.1 hc with hc | hc
    · rw [List.eq_of_mem_replicate hc]
      decide
    · by_contra hbad
      exact hany (List.any_eq_true.2 ⟨c, hc, by simpa using hbad⟩)

lemma check_ok {key key' : ℕ} (h : PrivateKey.check key = .ok key') : key' = key ∧ key < 16 ^ 64 := by
  rw [PrivateKey.check] at h
  split_ifs at h with hrange
  cases h
  have hlt : key < PrivateKey.SECP256K1_ORDER := by omega
  exact ⟨rfl, hlt.trans (by decide)⟩

lemma keyPair_fromMnemonic (hlib : L.Lawful) {mnemonic : Text} {network : Network}
    {externalIndex account internalIndex : ℕ} {createdAt : ℚ} {wallet : SimpleWallet}
    (h : SimpleWallet.fromMnemonic L mnemonic network externalIndex account internalIndex createdAt =
      .ok wallet) : wallet.KeyPair L ∧ Hex64 wallet.privateKeyHex := by
  obtain ⟨derived, -, h⟩ := except_bind_eq_ok h
  obtain ⟨key, hkey, h⟩ := except_bind_eq_ok h
  obtain ⟨address, -, h⟩ := except_bind_eq_ok h
  obtain ⟨hk, hlt⟩ := check_ok hkey
  rw [← hk] at hlt
  have hhex : Hex64 (PrivateKey.toHex key) := hex64_toHex key
  have hprivate : wallet.privateKeyHex = PrivateKey.toHex key := by
    rw [← Except.ok.inj h]
  have hpublic : wallet.publicKeyHex = PrivateKey.publicKeyHex L key := by
    rw [← Except.ok.inj h]
  rw [hprivate]
  refine ⟨?_, hhex⟩
  intro _
  rw [hprivate, hpublic]
  refine ⟨PrivateKey.toHex key, hhex.normalize hlib, ?_⟩
  rw [PrivateKey.toHex, hexValue_hexText hlt]

lemma keyPair_fromPrivateKey (hlib : L.Lawful) {text : Text} {network : Network} {createdAt : ℚ}
    {wallet : SimpleWallet} (h : SimpleWallet.fromPrivateKey L text network createdAt = .ok wallet) :
    wallet.KeyPair L ∧ normalizePrivateKeyHex L text = .ok wallet.privateKeyHex := by
  obtain ⟨normalizedKey, hnormal, h⟩ := except_bind_eq_ok h
  obtain ⟨key, hkey, h⟩ := except_bind_eq_ok h
  obtain ⟨address, -, h⟩ := except_bind_eq_ok h
  cases h
  obtain ⟨rfl, -⟩ := check_ok hkey
  refine ⟨?_, hnormal⟩
  intro _
  exact ⟨_, (hex64_of_normalize hnormal).normalize hlib, rfl⟩

lemma privateKeyHex_fromXpub {xpub label : Text} {network : Network} {externalIndex : ℕ} {createdAt : ℚ}
    {wallet : SimpleWallet}
    (h : SimpleWallet.fromXpub L xpub network externalIndex label createdAt = .ok wallet) :
    wallet.privateKeyHex = [] := by
  obtain ⟨nodeNet, -, h⟩ := except_bind_eq_ok h
  obtain ⟨-, -, h⟩ := except_bind_eq_ok h
  obtain ⟨pubkeyBytes, -, h⟩ := except_bind_eq_ok h
  obtain ⟨address, -, h⟩ := except_bind_eq_ok h
  cases h
  rfl

end hex

end BerzCoin
