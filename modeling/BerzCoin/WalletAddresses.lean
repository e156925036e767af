import BerzCoin.CryptoAddressIndex
import BerzCoin.CryptoBech32
import BerzCoin.P2pAuthority

/-! From an address to the script that pays to it: the check of the wallet's handlers and the
transaction builder. -/
namespace BerzCoin
open Base58 Bech32

/-- `text.strip()`. -/
def Text.strip (text : Text) : Text := (text.dropWhile isSpace).rdropWhile isSpace

/-- `text.startswith(("bc1", "tb1", "bcrt1"))`. -/
def hasWitnessPrefix (text : Text) : Bool :=
  "bc1".toList.isPrefixOf text || "tb1".toList.isPrefixOf text || "bcrt1".toList.isPrefixOf text

namespace WalletHandlers
variable (H : Hashlib)

/-- `base58_versions`. -/
def base58Versions : Network → List UInt8
  | .mainnet => [0x00, 0x05]
  | .testnet => [0x6f, 0xc4]
  | .regtest => [0x6f, 0xc4]

/-- `bech32_hrp`. -/
def bech32Hrp : Network → Text
  | .mainnet => "bc".toList
  | .testnet => "tb".toList
  | .regtest => "bcrt".toList

/-- The exception that leaves the `try` block. -/
def recipientError : PyError → PyError
  | .valueError msg => .valueError msg
  | _ => .valueError "Invalid recipient address"

/-- `_validate_destination_address`. -/
def validateDestinationAddress (address : Text) (network : Network) : Except PyError Unit :=
  let addr := Text.strip address
  if addr = [] then .error (.valueError "Recipient address required")
  else if hasWitnessPrefix addr then
    match bech32Decode addr with
    | .error e => .error (recipientError e)
    | .ok none => .error (.valueError "Invalid bech32 address")
    | .ok (some (hrp, witver, witprog)) =>
      if hrp ≠ bech32Hrp network then
        .error (.valueError ("Address network mismatch (expected " ++ String.ofList (bech32Hrp network) ++ ")"))
      else if 16 < witver then .error (.valueError "Unsupported witness version")
      else if witprog.length < 2 ∨ 40 < witprog.length then
        .error (.valueError "Invalid witness program length")
      else .ok ()
  else
    match base58CheckDecode H addr with
    | .error e => .error (recipientError e)
    | .ok payload =>
      if payload.length ≠ 21 then .error (.valueError "Invalid base58 address payload length")
      else if payload.getD 0 0 ∉ base58Versions network then
        .error (.valueError "Address network mismatch")
      else .ok ()

end WalletHandlers

namespace TransactionBuilder
variable (H : Hashlib)

def createP2pkhScript (address : Text) : Except PyError Bytes := do
  let payload ← base58CheckDecode H address
  return [0x76, 0xa9, 0x14] ++ payload.drop 1 ++ [0x88, 0xac]

def createP2shScript (address : Text) : Except PyError Bytes := do
  let payload ← base58CheckDecode H address
  return [0xa9, 0x14] ++ payload.drop 1 ++ [0x87]

/-- The witness version is written as it is. -/
def createP2wpkhScript (address : Text) : Except PyError Bytes := do
  match ← bech32Decode address with
  | none => throw (.valueError ("Invalid bech32 address: " ++ String.ofList address))
  | some (_, witver, witprog) =>
    return [UInt8.ofNat witver, UInt8.ofNat witprog.length] ++ witprog

def createScriptPubkey (address : Text) : Except PyError Bytes :=
  if hasWitnessPrefix address then createP2wpkhScript address
  else if "3".toList.isPrefixOf address then createP2shScript H address
  else createP2pkhScript H address

end TransactionBuilder

/-! What an address says. -/

inductive AddressForm
  | p2pkh (hash : Bytes)
  | p2sh (hash : Bytes)
  | witness (version : ℕ) (program : Bytes)
  deriving DecidableEq, Repr

namespace AddressForm

/-- The script that pays to an address of this form. -/
def script : AddressForm → Bytes
  | p2pkh hash => [0x76, 0xa9, 0x14] ++ hash ++ [0x88, 0xac]
  | p2sh hash => [0xa9, 0x14] ++ hash ++ [0x87]
  | witness version program =>
    [UInt8.ofNat (if version = 0 then 0 else 0x50 + version), UInt8.ofNat program.length] ++ program

/-- The forms that have an address in the tables. -/
def HasAddress : AddressForm → Prop
  | p2pkh _ => True
  | p2sh _ => True
  | witness version program => version = 0 ∧ program.length = 20

/-- The forms that the builder knows on a network. -/
def Buildable (network : Network) : AddressForm → Prop
  | p2pkh _ => True
  | p2sh _ => network = .mainnet
  | witness version _ => version = 0

end AddressForm

/-- The form of an address by its version byte, or by its witness version. -/
def addressForm (H : Hashlib) (address : Text) : Option AddressForm :=
  if hasWitnessPrefix address then
    match bech32Decode address with
    | .ok (some (_, witver, witprog)) => some (.witness witver witprog)
    | _ => none
  else
    match base58CheckDecode H address with
    | .ok (version :: hash) =>
      if version = 0x00 ∨ version = 0x6f then some (.p2pkh hash)
      else if version = 0x05 ∨ version = 0xc4 then some (.p2sh hash)
      else none
    | _ => none

/-! White space around a text. -/

lemma strip_eq_self {text : Text} {first last : Char} (hfirst : text.head? = some first)
    (hlast : text.getLast? = some last) (hfirstSpace : isSpace first = false)
    (hlastSpace : isSpace last = false) : Text.strip text = text := by
  have hdrop : text.dropWhile isSpace = text := by
    cases text with
    | nil => rfl
    | cons c rest =>
      obtain rfl : c = first := by simpa using hfirst
      exact List.dropWhile_cons_of_neg (by simp [hfirstSpace])
  rw [Text.strip, hdrop, List.rdropWhile, List.reverse_eq_iff]
  cases hreverse : text.reverse with
  | nil => rfl
  | cons c rest =>
    have hhead : text.reverse.head? = some last := by rw [List.head?_reverse, hlast]
    obtain rfl : c = last := by simpa [hreverse] using hhead
    exact List.dropWhile_cons_of_neg (by simp [hlastSpace])

lemma isSpace_of_alphabet {char : Char} (h : char ∈ Base58.ALPHABET) : isSpace char = false := by
  obtain ⟨hindex, hchar⟩ := Base58.charOf_index h
  have hall : ∀ digit < 58, isSpace (Base58.charOf digit) = false := by decide +kernel
  rw [← hchar]
  exact hall _ hindex

lemma isSpace_of_bech32 {char : Char} (h : char ∈ BECH32_ALPHABET) : isSpace char = false := by
  obtain ⟨hindex, hchar⟩ := Bech32.charOf_index h
  have hall : ∀ group < 32, isSpace (Bech32.charOf group) = false := by decide +kernel
  rw [← hchar]
  exact hall _ hindex

/-! The first character of a Base58 address. -/
section first
variable {H : Hashlib} {address : Text} {version : UInt8} {hash : Bytes}

/-- An address of 20 bytes after its version has a checksum of four bytes. -/
lemma exists_checksum (h : base58CheckDecode H address = .ok (version :: hash)) :
    ∃ checksum : Bytes, checksum.length = 4 ∧ address = base58Encode (version :: (hash ++ checksum)) := by
  unfold base58CheckDecode at h
  cases hdecode : base58Decode address with
  | error e => simp [hdecode] at h
  | ok decoded =>
    simp only [hdecode] at h
    split_ifs at h
    have hpayload := Except.ok.inj h
    obtain ⟨data, hdata, hencode⟩ := base58Encode_of_decode (alphabet_of_base58Decode hdecode)
    obtain rfl : decoded = data := Except.ok.inj (hdecode.symm.trans hdata)
    refine ⟨decoded.drop (decoded.length - 4), ?_, ?_⟩
    · have hlength := congrArg List.length hpayload
      simp only [List.length_take, List.length_cons] at hlength
      rw [List.length_drop]
      omega
    · rw [← List.cons_append, ← hpayload, List.take_append_drop, hencode]

lemma head_of_zero (rest : Bytes) : (base58Encode (0 :: rest)).head? = some '1' := rfl

/-- The first character of an address that does not start with zero. -/
lemma head_of_digit {rest : Bytes} {k : ℕ} (hne : version ≠ 0)
    (hpos : 0 < beNat (version :: rest) / 58 ^ k) (hlt : beNat (version :: rest) / 58 ^ k < 58) :
    (base58Encode (version :: rest)).head? =
      some (Base58.charOf (beNat (version :: rest) / 58 ^ k)) := by
  have hhead : (version :: rest).head? ≠ some 0 := by simpa using hne
  have hencode := base58Encode_zeros_append 0 hhead
  obtain ⟨digits, hdigits⟩ := Numerals.digits_eq_cons hpos hlt
  simp only [List.replicate_zero, List.nil_append] at hencode
  rw [hencode, hdigits]
  rfl

lemma beNat_bounds {rest : Bytes} (hlength : rest.length = 24) :
    version.toNat * 256 ^ 24 ≤ beNat (version :: rest) ∧
      beNat (version :: rest) < (version.toNat + 1) * 256 ^ 24 := by
  have hrest := beNat_lt rest
  rw [hlength] at hrest
  rw [beNat_cons, hlength]
  omega

lemma charOf_eq_three_iff {digit : ℕ} (h : digit < 58) : Base58.charOf digit = '3' ↔ digit = 2 :=
  @Base58.charOf_inj digit 2 h (by norm_num)

/-- Bounds on the first digit, from the version alone. -/
lemma digit_bounds (version : UInt8) {rest : Bytes} (k lower upper : ℕ) (hlength : rest.length = 24)
    (hlower : lower * 58 ^ k ≤ version.toNat * 256 ^ 24)
    (hupper : (version.toNat + 1) * 256 ^ 24 ≤ upper * 58 ^ k) :
    lower ≤ beNat (version :: rest) / 58 ^ k ∧ beNat (version :: rest) / 58 ^ k < upper := by
  obtain ⟨hge, hlt⟩ := @beNat_bounds version rest hlength
  constructor
  · exact (Nat.le_div_iff_mul_le (by positivity)).2 (hlower.trans hge)
  · exact (Nat.div_lt_iff_lt_mul (by positivity)).2 (hlt.trans_le hupper)

/-- Whether an address starts with a `3` is read off bounds on its first digit. -/
lemma head_eq_three_iff {rest : Bytes} (k lower upper : ℕ) (hlength : rest.length = 24) (hne : version ≠ 0)
    (hpos : 0 < lower) (hupper58 : upper ≤ 58) (hlower : lower * 58 ^ k ≤ version.toNat * 256 ^ 24)
    (hupper : (version.toNat + 1) * 256 ^ 24 ≤ upper * 58 ^ k) :
    ∃ digit, lower ≤ digit ∧ digit < upper ∧
      ((base58Encode (version :: rest)).head? = some '3' ↔ digit = 2) := by
  obtain ⟨hge, hlt⟩ := digit_bounds version k lower upper hlength hlower hupper
  refine ⟨_, hge, hlt, ?_⟩
  rw [head_of_digit hne (hpos.trans_le hge) (hlt.trans_le hupper58), Option.some.injEq,
    charOf_eq_three_iff (hlt.trans_le hupper58)]

/-- Only the version of script hashes on the main network leads to a `3`. -/
lemma head_of_version {rest : Bytes} (hlength : rest.length = 24)
    (hversion : version = 0x00 ∨ version = 0x05 ∨ version = 0x6f ∨ version = 0xc4) :
    (base58Encode (version :: rest)).head? = some '3' ↔ version = 0x05 := by
  obtain rfl | rfl | rfl | rfl := hversion
  · rw [head_of_zero]
    decide
  · obtain ⟨digit, hge, hlt, hiff⟩ := @head_eq_three_iff 0x05 rest 33 2 3 hlength (by decide) (by decide)
      (by decide) (by decide) (by decide)
    rw [hiff]
    exact iff_of_true (by omega) rfl
  · obtain ⟨digit, hge, hlt, hiff⟩ := @head_eq_three_iff 0x6f rest 33 44 46 hlength (by decide) (by decide)
      (by decide) (by decide) (by decide)
    rw [hiff]
    exact iff_of_false (by omega) (by decide)
  · obtain ⟨digit, hge, hlt, hiff⟩ := @head_eq_three_iff 0xc4 rest 34 1 2 hlength (by decide) (by decide)
      (by decide) (by decide) (by decide)
    rw [hiff]
    exact iff_of_false (by omega) (by decide)

lemma isPrefixOf_three (text : Text) : "3".toList.isPrefixOf text = true ↔ text.head? = some '3' := by
  cases text with
  | nil => decide
  | cons c rest =>
    change (('3' == c) && true) = true ↔ _
    rw [Bool.and_true, beq_iff_eq, List.head?_cons, Option.some.injEq, eq_comm]

/-- The builder takes an address for one of a script hash by its first character. -/
lemma startsWith_three_iff (h : base58CheckDecode H address = .ok (version :: hash))
    (hlength : hash.length = 20)
    (hversion : version = 0x00 ∨ version = 0x05 ∨ version = 0x6f ∨ version = 0xc4) :
    "3".toList.isPrefixOf address = true ↔ version = 0x05 := by
  obtain ⟨checksum, hchecksum, rfl⟩ := exists_checksum h
  rw [isPrefixOf_three]
  exact head_of_version (by rw [List.length_append, hlength, hchecksum]) hversion

end first

/-! What the check and the builder do with an address. -/
section build
variable {H : Hashlib} {network : Network} {address : Text}

/-- An address that the check accepts. -/
inductive Checked (H : Hashlib) (network : Network) (addr : Text) : Prop
  | witness (witver : ℕ) (witprog : Bytes) (hstart : hasWitnessPrefix addr = true)
      (hdecode : bech32Decode addr = .ok (some (network.addressPrefixes.hrp, witver, witprog)))
      (hversion : witver ≤ 16)
  | base58 (version : UInt8) (hash : Bytes) (hstart : hasWitnessPrefix addr = false)
      (hdecode : base58CheckDecode H addr = .ok (version :: hash)) (hlength : hash.length = 20)
      (hversion : version = network.addressPrefixes.p2pkh ∨ version = network.addressPrefixes.p2sh)

lemma mem_base58Versions (network : Network) (version : UInt8) :
    version ∈ WalletHandlers.base58Versions network ↔
      version = network.addressPrefixes.p2pkh ∨ version = network.addressPrefixes.p2sh := by
  cases network <;> simp [WalletHandlers.base58Versions, Network.addressPrefixes]

lemma checked_of_validate (h : WalletHandlers.validateDestinationAddress H address network = .ok ()) :
    Checked H network (Text.strip address) := by
  obtain ⟨addr, haddr⟩ : ∃ addr, Text.strip address = addr := ⟨_, rfl⟩
  unfold WalletHandlers.validateDestinationAddress at h
  simp only [haddr] at h ⊢
  have hhrp : WalletHandlers.bech32Hrp network = network.addressPrefixes.hrp := by
    cases network <;> rfl
  split_ifs at h with hnil hstart
  · cases hdecode : bech32Decode addr with
    | error e => simp [hdecode] at h
    | ok result =>
      cases result with
      | none => simp [hdecode] at h
      | some result =>
        obtain ⟨hrp, witver, witprog⟩ := result
        simp only [hdecode] at h
        split_ifs at h with hnetwork hversion hlength
        rw [hhrp, ne_eq, not_not] at hnetwork
        rw [hnetwork] at hdecode
        exact .witness witver witprog hstart hdecode (by omega)
  · rw [Bool.not_eq_true] at hstart
    cases hdecode : base58CheckDecode H addr with
    | error e => simp [hdecode] at h
    | ok payload =>
      simp only [hdecode] at h
      split_ifs at h with hlength hversion
      cases payload with
      | nil => simp at hlength
      | cons version hash =>
        rw [not_not] at hlength
        exact .base58 version hash hstart hdecode (by simpa using hlength)
          ((mem_base58Versions network version).1 hversion)

lemma strip_of_base58 {payload : Bytes} (h : base58CheckDecode H address = .ok payload) :
    Text.strip address = address := by
  have halphabet : ∀ char ∈ address, char ∈ Base58.ALPHABET := by
    unfold base58CheckDecode at h
    cases hdecode : base58Decode address with
    | error e => simp [hdecode] at h
    | ok decoded => exact alphabet_of_base58Decode hdecode
  cases hfirst : address.head? with
  | none =>
    rw [List.head?_eq_none_iff.1 hfirst]
    rfl
  | some first =>
    have hne : address ≠ [] := by
      rintro rfl
      cases hfirst
    apply strip_eq_self hfirst (List.getLast?_eq_some_getLast hne)
    · exact isSpace_of_alphabet (halphabet _ (List.mem_of_mem_head? hfirst))
    · exact isSpace_of_alphabet (halphabet _ (List.getLast_mem hne))

lemma head_of_witnessPrefix (h : hasWitnessPrefix address = true) :
    ∃ first, address.head? = some first ∧ isSpace first = false := by
  simp only [hasWitnessPrefix, Bool.or_eq_true, List.isPrefixOf_iff_prefix] at h
  obtain (⟨rest, rfl⟩ | ⟨rest, rfl⟩) | ⟨rest, rfl⟩ := h
  · exact ⟨'b', rfl, by decide⟩
  · exact ⟨'t', rfl, by decide⟩
  · exact ⟨'b', rfl, by decide⟩

lemma strip_of_bech32 {result : Text × ℕ × Bytes} (hstart : hasWitnessPrefix address = true)
    (h : bech32Decode address = .ok (some result)) : Text.strip address = address := by
  obtain ⟨first, hfirst, hfirstSpace⟩ := head_of_witnessPrefix hstart
  obtain ⟨hrp, data, rfl, -, hparts⟩ := bech32Decode_some h
  obtain ⟨witver, groups, out, haccepted, -⟩ := decodeParts_some hparts
  have hdata := haccepted.data_eq
  obtain ⟨decoded, rfl, hlt, -⟩ := haccepted.verifies
  have hne : decoded ≠ [] := by
    rintro rfl
    simp at hdata
  have hlast : (hrp ++ '1' :: decoded.map Bech32.charOf).getLast? =
      some (Bech32.charOf (decoded.getLast hne)) := by
    rw [List.getLast?_append, List.getLast?_cons, List.getLast?_map, List.getLast?_eq_some_getLast hne]
    rfl
  apply strip_eq_self hfirst hlast hfirstSpace
  exact isSpace_of_bech32 (Bech32.index_charOf (hlt _ (List.getLast_mem hne))).1

lemma createP2wpkhScript_ok {script : Bytes} (h : TransactionBuilder.createP2wpkhScript address = .ok script) :
    ∃ hrp witver witprog, bech32Decode address = .ok (some (hrp, witver, witprog)) ∧
      script = [UInt8.ofNat witver, UInt8.ofNat witprog.length] ++ witprog := by
  obtain ⟨result, hdecode, h⟩ := except_bind_eq_ok h
  cases result with
  | none => cases h
  | some result =>
    obtain ⟨hrp, witver, witprog⟩ := result
    exact ⟨hrp, witver, witprog, hdecode, (Except.ok.inj h).symm⟩

/-- A text that the builder takes has no white space around it. -/
lemma strip_of_createScriptPubkey {script : Bytes}
    (h : TransactionBuilder.createScriptPubkey H address = .ok script) : Text.strip address = address := by
  unfold TransactionBuilder.createScriptPubkey at h
  split_ifs at h with hstart hthree
  · obtain ⟨hrp, witver, witprog, hdecode, -⟩ := createP2wpkhScript_ok h
    exact strip_of_bech32 hstart hdecode
  · obtain ⟨payload, hdecode, -⟩ := except_bind_eq_ok h
    exact strip_of_base58 hdecode
  · obtain ⟨payload, hdecode, -⟩ := except_bind_eq_ok h
    exact strip_of_base58 hdecode

/-- The script for an address that the check accepts as it is. -/
lemma createScriptPubkey_witness {hrp : Text} {witver : ℕ} {witprog : Bytes}
    (hstart : hasWitnessPrefix address = true)
    (hdecode : bech32Decode address = .ok (some (hrp, witver, witprog))) :
    TransactionBuilder.createScriptPubkey H address =
      .ok ([UInt8.ofNat witver, UInt8.ofNat witprog.length] ++ witprog) := by
  rw [TransactionBuilder.createScriptPubkey, if_pos hstart, TransactionBuilder.createP2wpkhScript, hdecode]
  rfl

lemma createScriptPubkey_base58 {version : UInt8} {hash : Bytes} (hstart : hasWitnessPrefix address = false)
    (hdecode : base58CheckDecode H address = .ok (version :: hash)) (hlength : hash.length = 20)
    (hversion : version = network.addressPrefixes.p2pkh ∨ version = network.addressPrefixes.p2sh) :
    TransactionBuilder.createScriptPubkey H address =
      .ok (if version = 0x05 then (AddressForm.p2sh hash).script else (AddressForm.p2pkh hash).script) := by
  have hversions : version = 0x00 ∨ version = 0x05 ∨ version = 0x6f ∨ version = 0xc4 := by
    cases network <;> simp only [Network.addressPrefixes] at hversion <;> tauto
  have hthree := startsWith_three_iff hdecode hlength hversions
  rw [TransactionBuilder.createScriptPubkey, if_neg (by simp [hstart])]
  by_cases hfive : version = 0x05
  · rw [if_pos (hthree.2 hfive), if_pos hfive, TransactionBuilder.createP2shScript, hdecode]
    rfl
  · rw [if_neg (mt hthree.1 hfive), if_neg hfive, TransactionBuilder.createP2pkhScript, hdecode]
    rfl

/-! The way back. -/

lemma extractAddress_p2pkh (H : Hashlib) (network : Network) {hash : Bytes} (hlength : hash.length = 20) :
    extractAddress H network (AddressForm.p2pkh hash).script =
      .ok (some (base58CheckEncode H (network.addressPrefixes.p2pkh :: hash))) := by
  have hslice : slice ([0x76, 0xa9, 0x14] ++ hash ++ [0x88, 0xac]) 3 20 = hash := by
    have h := slice_append_right [0x76, 0xa9, 0x14] hash [0x88, 0xac]
    rwa [hlength, ← List.append_assoc] at h
  have hshape : ([0x76, 0xa9, 0x14] ++ hash ++ [0x88, 0xac]).length = 25 ∧
      ([0x76, 0xa9, 0x14] ++ hash ++ [0x88, 0xac]).getD 0 0 = 0x76 ∧
      ([0x76, 0xa9, 0x14] ++ hash ++ [0x88, 0xac]).getD 1 0 = 0xa9 := ⟨by simp [hlength], rfl, rfl⟩
  simp only [extractAddress, AddressForm.script, if_pos hshape, hslice]

lemma extractAddress_p2sh (H : Hashlib) (network : Network) {hash : Bytes} (hlength : hash.length = 20) :
    extractAddress H network (AddressForm.p2sh hash).script =
      .ok (some (base58CheckEncode H (network.addressPrefixes.p2sh :: hash))) := by
  have hslice : slice ([0xa9, 0x14] ++ hash ++ [0x87]) 2 20 = hash := by
    have h := slice_append_right [0xa9, 0x14] hash [0x87]
    rwa [hlength, ← List.append_assoc] at h
  have hlength' : ([0xa9, 0x14] ++ hash ++ [0x87]).length = 23 := by simp [hlength]
  have hhead : ([0xa9, 0x14] ++ hash ++ [0x87]).getD 0 0 = 0xa9 := rfl
  simp only [extractAddress, AddressForm.script, hlength', hhead, hslice]
  rfl

lemma extractAddress_witness (H : Hashlib) (network : Network) {program : Bytes} {addr : Text}
    (hlength : program.length = 20)
    (hencode : bech32Encode network.addressPrefixes.hrp 0 program = .ok addr) :
    extractAddress H network (AddressForm.witness 0 program).script = .ok (some addr) := by
  have hslice : slice ([0x00, 0x14] ++ program) 2 20 = program := by
    have h := slice_append_right [0x00, 0x14] program []
    rwa [hlength, List.append_nil] at h
  have hscript : (AddressForm.witness 0 program).script = [0x00, 0x14] ++ program := by
    rw [AddressForm.script, hlength]
    rfl
  have hlength' : ([0x00, 0x14] ++ program).length = 22 := by simp [hlength]
  have hhead : ([0x00, 0x14] ++ program).getD 0 0 = 0x00 := rfl
  have hpush : ([0x00, 0x14] ++ program).getD 1 0 = 0x14 := rfl
  simp only [hscript, extractAddress, hlength', hhead, hpush, hslice, hencode]
  rfl

/-- The script of the form of an address, and the address again for the forms that have one. -/
def Pays (H : Hashlib) (network : Network) (address : Text) : Prop :=
  ∃ form, addressForm H (Text.strip address) = some form ∧
    TransactionBuilder.createScriptPubkey H address = .ok form.script ∧
      (form.HasAddress → extractAddress H network form.script = .ok (some address))

lemma addressForm_witness {hrp : Text} {witver : ℕ} {witprog : Bytes}
    (hstart : hasWitnessPrefix address = true)
    (hdecode : bech32Decode address = .ok (some (hrp, witver, witprog))) :
    addressForm H address = some (.witness witver witprog) := by
  simp only [addressForm, hstart, hdecode, if_true]

lemma addressForm_p2pkh {hash : Bytes} (hstart : hasWitnessPrefix address = false)
    (hdecode : base58CheckDecode H address = .ok (network.addressPrefixes.p2pkh :: hash)) :
    addressForm H address = some (.p2pkh hash) := by
  have hversion : network.addressPrefixes.p2pkh = 0x00 ∨ network.addressPrefixes.p2pkh = 0x6f := by
    cases network <;> decide
  simp only [addressForm, hstart, hdecode, Bool.false_eq_true, if_false, if_pos hversion]

lemma addressForm_p2sh {hash : Bytes} (hstart : hasWitnessPrefix address = false)
    (hdecode : base58CheckDecode H address = .ok (network.addressPrefixes.p2sh :: hash)) :
    addressForm H address = some (.p2sh hash) := by
  have hkey : ¬ (network.addressPrefixes.p2sh = 0x00 ∨ network.addressPrefixes.p2sh = 0x6f) := by
    cases network <;> decide
  have hversion : network.addressPrefixes.p2sh = 0x05 ∨ network.addressPrefixes.p2sh = 0xc4 := by
    cases network <;> decide
  simp only [addressForm, hstart, hdecode, Bool.false_eq_true, if_false, if_neg hkey, if_pos hversion]

/-- The builder writes the opcode of a witness version only for version 0. -/
lemma script_witness_iff {witver : ℕ} (program : Bytes) (hversion : witver ≤ 16) :
    [UInt8.ofNat witver, UInt8.ofNat program.length] ++ program = (AddressForm.witness witver program).script ↔
      witver = 0 := by
  constructor
  · intro hscript
    have hhead := (List.cons.inj hscript).1
    by_contra hne
    rw [if_neg hne] at hhead
    have hbyte := congrArg UInt8.toNat hhead
    simp only [UInt8.toNat_ofNat'] at hbyte
    omega
  · rintro rfl
    rfl

lemma script_p2pkh_ne_p2sh (hash : Bytes) : (AddressForm.p2pkh hash).script ≠ (AddressForm.p2sh hash).script := by
  intro hscript
  have hhead : (0x76 : UInt8) = 0xa9 := (List.cons.inj hscript).1
  exact absurd hhead (by decide)

lemma pays_witness {witver : ℕ} {witprog : Bytes} (hstrip : Text.strip address = address)
    (hstart : hasWitnessPrefix address = true)
    (hdecode : bech32Decode address = .ok (some (network.addressPrefixes.hrp, witver, witprog)))
    (hversion : witver ≤ 16) : Pays H network address ↔ witver = 0 := by
  have hscript := @createScriptPubkey_witness H _ _ _ _ hstart hdecode
  rw [Pays, hstrip, addressForm_witness hstart hdecode, hscript]
  constructor
  · rintro ⟨form, hform, hpays, -⟩
    rw [← Option.some.inj hform] at hpays
    exact (script_witness_iff witprog hversion).1 (Except.ok.inj hpays)
  · intro hzero
    refine ⟨_, rfl, congrArg _ ((script_witness_iff witprog hversion).2 hzero), ?_⟩
    rintro ⟨-, hlength⟩
    subst hzero
    exact extractAddress_witness H network hlength (encode_of_decode hdecode)

lemma pays_p2pkh {hash : Bytes} (hstrip : Text.strip address = address) (hstart : hasWitnessPrefix address = false)
    (hdecode : base58CheckDecode H address = .ok (network.addressPrefixes.p2pkh :: hash))
    (hlength : hash.length = 20) : Pays H network address := by
  have hscript := createScriptPubkey_base58 hstart hdecode hlength (.inl rfl)
  have hversion : network.addressPrefixes.p2pkh ≠ 0x05 := by cases network <;> decide
  rw [if_neg hversion] at hscript
  rw [Pays, hstrip, addressForm_p2pkh hstart hdecode]
  refine ⟨_, rfl, hscript, ?_⟩
  intro _
  rw [extractAddress_p2pkh H network hlength, base58CheckEncode_of_decode H hdecode]

lemma pays_p2sh {hash : Bytes} (hstrip : Text.strip address = address) (hstart : hasWitnessPrefix address = false)
    (hdecode : base58CheckDecode H address = .ok (network.addressPrefixes.p2sh :: hash))
    (hlength : hash.length = 20) : Pays H network address ↔ network = .mainnet := by
  have hscript := createScriptPubkey_base58 hstart hdecode hlength (.inr rfl)
  have hmainnet : network.addressPrefixes.p2sh = 0x05 ↔ network = .mainnet := by cases network <;> decide
  simp only [hmainnet] at hscript
  rw [Pays, hstrip, addressForm_p2sh hstart hdecode, hscript]
  constructor
  · rintro ⟨form, hform, hpays, -⟩
    by_contra hnetwork
    rw [← Option.some.inj hform, if_neg hnetwork] at hpays
    exact script_p2pkh_ne_p2sh hash (Except.ok.inj hpays)
  · intro hnetwork
    refine ⟨_, rfl, by rw [if_pos hnetwork], ?_⟩
    intro _
    rw [extractAddress_p2sh H network hlength, base58CheckEncode_of_decode H hdecode]

/-- On an address without white space, for each form. -/
lemma pays_of_checked (hstrip : Text.strip address = address) (h : Checked H network address) :
    ∃ form, addressForm H address = some form ∧ (Pays H network address ↔ form.Buildable network) := by
  cases h with
  | witness witver witprog hstart hdecode hversion =>
    exact ⟨_, addressForm_witness hstart hdecode, pays_witness hstrip hstart hdecode hversion⟩
  | base58 version hash hstart hdecode hlength hversion =>
    cases hversion with
    | inl hkey =>
      subst hkey
      exact ⟨_, addressForm_p2pkh hstart hdecode,
        iff_of_true (pays_p2pkh hstrip hstart hdecode hlength) trivial⟩
    | inr hscript =>
      subst hscript
      exact ⟨_, addressForm_p2sh hstart hdecode, pays_p2sh hstrip hstart hdecode hlength⟩

/-- For an address that the wallet accepts, its own script and the way back come out exactly where
nothing stands around it and its form is one that the builder knows. -/
theorem pays_iff (h : WalletHandlers.validateDestinationAddress H address network = .ok ()) :
    Pays H network address ↔ Text.strip address = address ∧
      ∀ form, addressForm H address = some form → form.Buildable network := by
  have hchecked := checked_of_validate h
  by_cases hstrip : Text.strip address = address
  · rw [hstrip] at hchecked
    obtain ⟨form, hform, hiff⟩ := pays_of_checked hstrip hchecked
    rw [hiff]
    constructor
    · intro hbuildable
      refine ⟨hstrip, ?_⟩
      intro form' hform'
      rw [hform, Option.some.injEq] at hform'
      exact hform' ▸ hbuildable
    · rintro ⟨-, hall⟩
      exact hall form hform
  · constructor
    · rintro ⟨form, -, hscript, -⟩
      exact absurd (strip_of_createScriptPubkey hscript) hstrip
    · rintro ⟨hsame, -⟩
      exact absurd hsame hstrip

end build

/-! The address of the hash of zeros on the main network, and those of its scripts on the others. -/
namespace AddressExample

def keyAddress : Text := "1111111111111111111114oLvT2".toList

def scriptAddress : Text := "2MsFDzHRUAMpjHxKyoEHU3aMCMsVtMqs1PV".toList

/-- Version 1 with the program of the generator's key. -/
def versionOneAddress : Text := "bc1pw508d6qejxtdg4y5r3zarvary0c5xw7k8e76x7".toList

end AddressExample

open AddressExample in
/-- The address of a key hash is paid. -/
theorem pays_iff_keyAddress :
    WalletHandlers.validateDestinationAddress hashlib keyAddress .mainnet = .ok () ∧
      Pays hashlib .mainnet keyAddress := by
  have hvalid : WalletHandlers.validateDestinationAddress hashlib keyAddress .mainnet = .ok () := by
    decide +kernel
  have hform : addressForm hashlib keyAddress = some (.p2pkh (List.replicate 20 0)) := by decide +kernel
  refine ⟨hvalid, (pays_iff hvalid).2 ⟨by decide +kernel, ?_⟩⟩
  intro form h
  rw [hform, Option.some.injEq] at h
  rw [← h]
  trivial

open AddressExample in
/-- Coins for a script hash of the regtest network go to a key hash. -/
theorem scriptAddress_pays_keyHash :
    WalletHandlers.validateDestinationAddress hashlib scriptAddress .regtest = .ok () ∧
      addressForm hashlib scriptAddress = some (.p2sh (List.replicate 20 0)) ∧
      TransactionBuilder.createScriptPubkey hashlib scriptAddress =
        .ok (AddressForm.p2pkh (List.replicate 20 0)).script ∧
      ¬ Pays hashlib .regtest scriptAddress := by
  have hform : addressForm hashlib scriptAddress = some (.p2sh (List.replicate 20 0)) := by decide +kernel
  have hstrip : Text.strip scriptAddress = scriptAddress := by decide +kernel
  have hscript : TransactionBuilder.createScriptPubkey hashlib scriptAddress =
      .ok (AddressForm.p2pkh (List.replicate 20 0)).script := by
    decide +kernel
  refine ⟨by decide +kernel, hform, hscript, ?_⟩
  rintro ⟨form, hform', hpays, -⟩
  rw [hstrip, hform] at hform'
  rw [← Option.some.inj hform', hscript] at hpays
  exact script_p2pkh_ne_p2sh _ (Except.ok.inj hpays)

open AddressExample in
/-- The version 1 goes into the script as a push of one byte. -/
example : TransactionBuilder.createScriptPubkey hashlib versionOneAddress =
    .ok ([0x01, 0x14] ++ Bech32.generatorProgram) := by
  decide +kernel

end BerzCoin
