import BerzCoin.CryptoBase58

/-! The address of a script for the transaction index, beside the one for the UTXO table. -/
namespace BerzCoin
open Base58

namespace TransactionIndex

/-- The prefix of witness programs in the database of a network. -/
def hrp : Network → Text
  | .testnet => "tb".toList
  | .regtest => "bcrt".toList
  | .mainnet => "bc".toList

/-- `TransactionIndex._extract_address`; the empty text is `none`. -/
def extractAddress (H : Hashlib) (network : Network) (scriptPubkey : Bytes) :
    Except PyError (Option Text) :=
  if scriptPubkey.length = 25 ∧ scriptPubkey.getD 0 0 = 0x76 ∧ scriptPubkey.getD 1 0 = 0xa9 then
    .ok (some (base58checkEncode H (0x00 :: slice scriptPubkey 3 20)))
  else if scriptPubkey.length = 23 ∧ scriptPubkey.getD 0 0 = 0xa9 then
    .ok (some (base58checkEncode H (0x05 :: slice scriptPubkey 2 20)))
  else if scriptPubkey.length = 22 ∧ scriptPubkey.getD 0 0 = 0x00 ∧
      scriptPubkey.getD 1 0 = 0x14 then do
    return some (← Bech32.bech32Encode (hrp network) 0 (slice scriptPubkey 2 20))
  else .ok none

end TransactionIndex

/-- A script that both extractors take for a hash of a public key or of a script. -/
def PaysToHash (scriptPubkey : Bytes) : Prop :=
  (scriptPubkey.length = 25 ∧ scriptPubkey.getD 0 0 = 0x76 ∧ scriptPubkey.getD 1 0 = 0xa9) ∨
    (scriptPubkey.length = 23 ∧ scriptPubkey.getD 0 0 = 0xa9)

namespace Base58
variable {H : Hashlib}

lemma base58Encode_injective {data data' : Bytes} (h : base58Encode data = base58Encode data') : data = data' := by
  have hdecode := base58Decode_base58Encode data
  rw [h, base58Decode_base58Encode] at hdecode
  exact (Except.ok.inj hdecode).symm

/-- Addresses of one hash are equal if their versions are. -/
lemma base58CheckEncode_inj {version version' : UInt8} (hash : Bytes) :
    base58CheckEncode H (version :: hash) = base58CheckEncode H (version' :: hash) ↔ version = version' := by
  constructor
  · intro heq
    have hdata := base58Encode_injective heq
    exact (List.cons.inj hdata).1
  · rintro rfl
    rfl

end Base58

/-- The extractors give one address for every script on the main network, and elsewhere for the
scripts that do not pay to a hash. -/
theorem indexAddress_eq_iff (H : Hashlib) (network : Network) (scriptPubkey : Bytes) :
    TransactionIndex.extractAddress H network scriptPubkey = extractAddress H network scriptPubkey ↔
      network = .mainnet ∨ ¬ PaysToHash scriptPubkey := by
  have hhrp : TransactionIndex.hrp network = network.addressPrefixes.hrp := by
    cases network <;> rfl
  have hp2pkh : 0x00 = network.addressPrefixes.p2pkh ↔ network = .mainnet := by
    cases network <;> decide
  have hp2sh : 0x05 = network.addressPrefixes.p2sh ↔ network = .mainnet := by
    cases network <;> decide
  unfold TransactionIndex.extractAddress extractAddress PaysToHash
  simp only [TransactionIndex.base58checkEncode_eq, hhrp]
  by_cases hkey : scriptPubkey.length = 25 ∧ scriptPubkey.getD 0 0 = 0x76 ∧ scriptPubkey.getD 1 0 = 0xa9
  · rw [if_pos hkey, if_pos hkey, Except.ok.injEq, Option.some.injEq, base58CheckEncode_inj, hp2pkh]
    exact (or_iff_left (not_not.2 (.inl hkey))).symm
  by_cases hscript : scriptPubkey.length = 23 ∧ scriptPubkey.getD 0 0 = 0xa9
  · rw [if_neg hkey, if_neg hkey, if_pos hscript, if_pos hscript, Except.ok.injEq, Option.some.injEq,
      base58CheckEncode_inj, hp2sh]
    exact (or_iff_left (not_not.2 (.inr hscript))).symm
  · rw [if_neg hkey, if_neg hkey, if_neg hscript, if_neg hscript]
    exact iff_of_true rfl (.inr (not_or.2 ⟨hkey, hscript⟩))

/-! The addresses of the hash of zeros. -/
namespace AddressExample

def hashlib : Hashlib := Base58.ZeroExample.hashlib.withDigests [
  (0x05 :: List.replicate 20 0,
    0x1c3db4bd4e41f92e0da3d7da4d3b15a7ddaf6f29fda8e7bc8874c9212bf6f888,
    0xdc8c61c4dcb6a1edd2066b7f18613ad8d962796d9e65c6be4223bae9d308570c),
  (0x6f :: List.replicate 20 0,
    0x421f55268cf5ae6753529683bc9dc42c1becb9fe08ab9e1772d72e779c1bd9ff,
    0x8f62b7215fbc29acf0aa92bbf67e24357307ab64cbb685eeb45231c54accbceb),
  (0xc4 :: List.replicate 20 0,
    0x91da97f14e8c2f9c2757fb864a32d08b0e52a6157cdb5c00f3ecb6d5d01826f9,
    0x24c7ff28cde47bd264712810551e93b779bbdedb20c0d4133868975ee9bf8ad3)]

def payToKeyHash : Bytes := [0x76, 0xa9, 0x14] ++ List.replicate 20 0 ++ [0x88, 0xac]

end AddressExample

open AddressExample in
/-- A coin of the regtest network is filed under one address and indexed under another. -/
theorem indexed_under_other_address :
    extractAddress hashlib .regtest payToKeyHash = .ok (some "mfWxJ45yp2SFn7UciZyNpvDKrzbhyfKrY8".toList) ∧
      TransactionIndex.extractAddress hashlib .regtest payToKeyHash =
        .ok (some "1111111111111111111114oLvT2".toList) ∧
      TransactionIndex.extractAddress hashlib .regtest payToKeyHash ≠
        extractAddress hashlib .regtest payToKeyHash := by
  have htable : extractAddress hashlib .regtest payToKeyHash =
      .ok (some "mfWxJ45yp2SFn7UciZyNpvDKrzbhyfKrY8".toList) := by
    decide +kernel
  have hindex : TransactionIndex.extractAddress hashlib .regtest payToKeyHash =
      .ok (some "1111111111111111111114oLvT2".toList) := by
    decide +kernel
  refine ⟨htable, hindex, ?_⟩
  rw [htable, hindex]
  decide

end BerzCoin
