import BerzCoin.CoreTransaction

/-! Address texts: Base58Check and Bech32 encoding, and the address of an output script. -/
namespace BerzCoin

abbrev Text := List Char

instance : LawfulBEq Text := inferInstance

namespace Base58

def ALPHABET : Text := "123456789ABCDEFGHJKLMNPQRSTUVWXYZabcdefghijkmnopqrstuvwxyz".toList

/-- Leading zero bytes become leading `1`s, the rest is the number in base 58. -/
def base58Encode (data : Bytes) : Text :=
  List.replicate (data.takeWhile (· = 0)).length '1' ++
    ((Nat.digits 58 (beNat data)).map fun d => ALPHABET.getD d '1').reverse

def base58CheckEncode (H : Hashlib) (data : Bytes) : Text :=
  base58Encode (data ++ (H.hash256 data).take 4)

end Base58

namespace Bech32

def BECH32_ALPHABET : Text := "qpzry9x8gf2tvdw0s3jn54khce6mua7l".toList

def generator : List ℕ := [0x3b6a57b2, 0x26508e6d, 0x1ea119fa, 0x3d4233dd, 0x2a1462b3]

def polymodStep (chk v : ℕ) : ℕ :=
  let b := chk >>> 25
  let chk := ((chk &&& 0x1ffffff) <<< 5) ^^^ v
  (List.range 5).foldl (fun chk i =>
    chk ^^^ if (b >>> i) &&& 1 = 1 then generator.getD i 0 else 0) chk

def bech32Polymod (values : List ℕ) : ℕ := values.foldl polymodStep 1

def bech32HrpExpand (hrp : Text) : List ℕ :=
  hrp.map (fun x => x.toNat >>> 5) ++ [0] ++ hrp.map fun x => x.toNat &&& 31

def bech32CreateChecksum (hrp : Text) (data : List ℕ) : List ℕ :=
  let polymod := bech32Polymod (bech32HrpExpand hrp ++ data ++ [0, 0, 0, 0, 0, 0]) ^^^ 1
  (List.range 6).map fun i => (polymod >>> (5 * (5 - i))) &&& 31

/-- The inner `while bits >= tobits`, at most `fuel` times. -/
def convertbitsEmit (acc tobits : ℕ) : ℕ → ℕ → List ℕ × ℕ
  | 0, bits => ([], bits)
  | fuel + 1, bits =>
    if tobits ≤ bits then
      let (out, left) := convertbitsEmit acc tobits fuel (bits - tobits)
      (((acc >>> (bits - tobits)) &&& (1 <<< tobits - 1)) :: out, left)
    else ([], bits)

/-- The loop over the input, carrying the accumulator and the number of bits in it. -/
def convertbitsLoop (frombits tobits : ℕ) : List ℕ → ℕ → ℕ → Option (List ℕ × ℕ × ℕ)
  | [], acc, bits => some ([], acc, bits)
  | value :: data, acc, bits =>
    if value >>> frombits ≠ 0 then none
    else
      let acc := ((acc <<< frombits) ||| value) &&& (1 <<< (frombits + tobits - 1) - 1)
      let (out, left) := convertbitsEmit acc tobits (bits + frombits) (bits + frombits)
      (convertbitsLoop frombits tobits data acc left).map fun (rest, final) => (out ++ rest, final)

def convertbits (data : List ℕ) (frombits tobits : ℕ) (pad : Bool) : Option (List ℕ) :=
  match convertbitsLoop frombits tobits data 0 0 with
  | none => none
  | some (out, acc, bits) =>
    let last := (acc <<< (tobits - bits)) &&& (1 <<< tobits - 1)
    if pad then some (if bits ≠ 0 then out ++ [last] else out)
    else if frombits ≤ bits ∨ last ≠ 0 then none
    else some out

def bech32Encode (hrp : Text) (witver : ℕ) (witprog : Bytes) : Except PyError Text :=
  if 16 < witver then .error (.valueError "Invalid witness version")
  else if witprog.length < 2 ∨ 40 < witprog.length then
    .error (.valueError "Invalid witness program length")
  else
    match convertbits (witprog.map UInt8.toNat) 8 5 true with
    | none => .error (.typeError "can only concatenate list (not \"NoneType\") to list")
    | some converted =>
      let data := witver :: converted
      .ok (hrp ++ ['1'] ++ (data ++ bech32CreateChecksum hrp data).map fun d =>
        BECH32_ALPHABET.getD d 'q')

lemma convertbitsLoop_isSome {frombits tobits : ℕ} {data : List ℕ}
    (h : ∀ value ∈ data, value >>> frombits = 0) (acc bits : ℕ) :
    (convertbitsLoop frombits tobits data acc bits).isSome = true := by
  induction data generalizing acc bits with
  | nil => rfl
  | cons value data ih =>
    have hvalue := h value (List.mem_cons_self ..)
    have hrest := ih fun v hv => h v (List.mem_cons_of_mem _ hv)
    simp only [convertbitsLoop, hvalue, ne_eq, not_true_eq_false, if_false, Option.isSome_map, hrest]

end Bech32

inductive Network
  | mainnet
  | testnet
  | regtest
  deriving DecidableEq, Repr

/-- The prefixes that `_extract_address` picks for a network. -/
structure AddressPrefixes where
  p2pkh : UInt8
  p2sh : UInt8
  hrp : Text
  deriving DecidableEq, Repr

def Network.addressPrefixes : Network → AddressPrefixes
  | .regtest => ⟨0x6f, 0xc4, "bcrt".toList⟩
  | .testnet => ⟨0x6f, 0xc4, "tb".toList⟩
  | .mainnet => ⟨0x00, 0x05, "bc".toList⟩

/-- `ConnectBlock._extract_address`; the empty text is `none`. -/
def extractAddress (H : Hashlib) (network : Network) (scriptPubkey : Bytes) :
    Except PyError (Option Text) :=
  let prefixes := network.addressPrefixes
  if scriptPubkey.length = 25 ∧ scriptPubkey.getD 0 0 = 0x76 ∧ scriptPubkey.getD 1 0 = 0xa9 then
    .ok (some (Base58.base58CheckEncode H (prefixes.p2pkh :: slice scriptPubkey 3 20)))
  else if scriptPubkey.length = 23 ∧ scriptPubkey.getD 0 0 = 0xa9 then
    .ok (some (Base58.base58CheckEncode H (prefixes.p2sh :: slice scriptPubkey 2 20)))
  else if scriptPubkey.length = 22 ∧ scriptPubkey.getD 0 0 = 0x00 ∧
      scriptPubkey.getD 1 0 = 0x14 then do
    return some (← Bech32.bech32Encode prefixes.hrp 0 (slice scriptPubkey 2 20))
  else .ok none

/-- Witness programs of this length always have an address. -/
lemma extractAddress_ok (H : Hashlib) (network : Network) (scriptPubkey : Bytes) :
    ∃ address, extractAddress H network scriptPubkey = .ok address := by
  unfold extractAddress
  simp only
  split_ifs with _ _ hwit
  · exact ⟨_, rfl⟩
  · exact ⟨_, rfl⟩
  · have hlen : (slice scriptPubkey 2 20).length = 20 := by
      simp [slice, hwit.1]
    have hbytes : ∀ value ∈ (slice scriptPubkey 2 20).map UInt8.toNat, value >>> 8 = 0 := by
      intro value hvalue
      obtain ⟨b, -, rfl⟩ := List.mem_map.1 hvalue
      rw [Nat.shiftRight_eq_div_pow]
      exact Nat.div_eq_of_lt b.toNat_lt
    have hsome := @Bech32.convertbitsLoop_isSome _ 5 _ hbytes 0 0
    obtain ⟨⟨out, acc, bits⟩, hloop⟩ := Option.isSome_iff_exists.1 hsome
    simp [Bech32.bech32Encode, hlen, Bech32.convertbits, hloop]
  · exact ⟨_, rfl⟩

end BerzCoin
