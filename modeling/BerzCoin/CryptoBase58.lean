import BerzCoin.BigEndian
import BerzCoin.CryptoAddress
import BerzCoin.Numerals

/-! Base58 in both directions, with and without a checksum, and the second encoder of the
transaction index. -/
namespace BerzCoin
namespace Base58
open Numerals

/-- `ALPHABET.index(char)`. -/
def alphabetIndex (char : Char) : Except PyError ℕ :=
  if char ∈ ALPHABET then .ok (ALPHABET.idxOf char) else .error (.valueError "substring not found")

/-- The loop that computes `num`. -/
def decodeNumber : ℕ → Text → Except PyError ℕ
  | num, [] => .ok num
  | num, char :: data =>
    match alphabetIndex char with
    | .error e => .error e
    | .ok index => decodeNumber (num * 58 + index) data

def base58Decode (data : Text) : Except PyError Bytes :=
  match decodeNumber 0 data with
  | .error e => .error e
  | .ok num =>
    .ok (List.replicate (data.takeWhile (· = '1')).length 0 ++ beBytes (byteLength num) num)

/-- `decoded[:-4]` and `decoded[-4:]`. -/
def base58CheckDecode (H : Hashlib) (data : Text) : Except PyError Bytes :=
  match base58Decode data with
  | .error e => .error e
  | .ok decoded =>
    let payload := decoded.take (decoded.length - 4)
    let checksum := decoded.drop (decoded.length - 4)
    if checksum ≠ (H.hash256 payload).take 4 then .error (.valueError "Invalid checksum")
    else .ok payload

end Base58

/-! The encoder of `txindex`. -/
namespace TransactionIndex
open Base58

/-- `while n > 0`; a number of `n` turns is enough. -/
def encodeNumber : ℕ → ℕ → Text → Text
  | 0, _, enc => enc
  | fuel + 1, n, enc =>
    if 0 < n then encodeNumber fuel (n / 58) (ALPHABET.getD (n % 58) '1' :: enc) else enc

def base58checkEncode (H : Hashlib) (versionAndPayload : Bytes) : Text :=
  let data := versionAndPayload ++ (H.hash256 versionAndPayload).take 4
  let enc := encodeNumber (beNat data) (beNat data) []
  let pad := (data.takeWhile (· = 0)).length
  if enc ≠ [] then List.replicate pad '1' ++ enc else List.replicate pad '1'

end TransactionIndex

namespace Base58
open Numerals

/-! The alphabet and the digits. -/

/-- The character of a digit. -/
def charOf (digit : ℕ) : Char := ALPHABET.getD digit '1'

lemma index_charOf {digit : ℕ} (h : digit < 58) :
    charOf digit ∈ ALPHABET ∧ ALPHABET.idxOf (charOf digit) = digit := by
  have hnodup : ALPHABET.Nodup := by decide
  exact idxOf_getD '1' hnodup h

lemma charOf_index {char : Char} (h : char ∈ ALPHABET) :
    ALPHABET.idxOf char < 58 ∧ charOf (ALPHABET.idxOf char) = char := by
  have hlength : ALPHABET.length = 58 := by decide
  rw [← hlength]
  exact getD_idxOf '1' h

lemma charOf_inj {digit digit' : ℕ} (h : digit < 58) (h' : digit' < 58) :
    charOf digit = charOf digit' ↔ digit = digit' := by
  constructor
  · intro hchar
    rw [← (index_charOf h).2, ← (index_charOf h').2, hchar]
  · intro hdigit
    rw [hdigit]

lemma charOf_eq_one_iff {digit : ℕ} (h : digit < 58) : charOf digit = '1' ↔ digit = 0 :=
  @charOf_inj digit 0 h (by norm_num)

/-- A text over the alphabet as a numeral. -/
lemma exists_digits {text : Text} (h : ∀ char ∈ text, char ∈ ALPHABET) :
    ∃ digits : List ℕ, (∀ digit ∈ digits, digit < 58) ∧ text = digits.map charOf := by
  refine ⟨text.map ALPHABET.idxOf, ?_, ?_⟩
  · intro digit hdigit
    obtain ⟨char, hchar, rfl⟩ := List.mem_map.1 hdigit
    exact (charOf_index (h char hchar)).1
  · have hid : text.map (charOf ∘ ALPHABET.idxOf) = text.map id :=
      List.map_congr_left fun char hchar => (charOf_index (h char hchar)).2
    rw [List.map_map, hid, List.map_id]

lemma decodeNumber_map {digits : List ℕ} (h : ∀ digit ∈ digits, digit < 58) (num : ℕ) :
    decodeNumber num (digits.map charOf) = .ok (digits.foldl (fun n digit => n * 58 + digit) num) := by
  induction digits generalizing num with
  | nil => rfl
  | cons digit digits ih =>
    have hdigit := index_charOf (h digit (by simp))
    rw [List.map_cons, decodeNumber, alphabetIndex, if_pos hdigit.1]
    simp only [hdigit.2]
    exact ih (fun d hd => h d (by simp [hd])) _

/-! A byte string and a text split into their leading zeros and a numeral. -/

lemma beNat_eq_value (data : Bytes) : beNat data = value 256 (data.map UInt8.toNat) := by
  induction data with
  | nil => rfl
  | cons b bs ih => rw [beNat_cons, List.map_cons, value_cons, ih, List.length_map]

lemma beNat_zeros_append (n : ℕ) (data : Bytes) : beNat (List.replicate n 0 ++ data) = beNat data := by
  rw [beNat_eq_value, beNat_eq_value, List.map_append, List.map_replicate]
  exact value_zeros_append 256 n _

/-- The bytes of the number of a string without leading zeros. -/
lemma beBytes_byteLength_beNat {data : Bytes} (hhead : data.head? ≠ some 0) :
    beBytes (byteLength (beNat data)) (beNat data) = data := by
  cases data with
  | nil => rfl
  | cons b bs =>
    have hb : b ≠ 0 := by simpa using hhead
    have hlength : byteLength (beNat (b :: bs)) = bs.length + 1 := byteLength_beNat hb
    rw [hlength]
    exact beBytes_beNat (b :: bs)

lemma head_beBytes_byteLength (num : ℕ) : (beBytes (byteLength num) num).head? ≠ some 0 := by
  by_cases hnum : num = 0
  · subst hnum
    decide
  · obtain ⟨b, bs, hbytes, hb⟩ := beBytes_byteLength hnum
    rw [hbytes]
    simpa using hb

/-- The encoding of leading zeros and a rest. -/
lemma base58Encode_zeros_append (n : ℕ) {data : Bytes} (hhead : data.head? ≠ some 0) :
    base58Encode (List.replicate n 0 ++ data) =
      List.replicate n '1' ++ (digits 58 (beNat data)).map charOf := by
  rw [base58Encode, takeWhile_replicate_append 0 n hhead, List.length_replicate, beNat_zeros_append,
    digits, List.map_reverse]
  rfl

lemma head_map_charOf {ds : List ℕ} (hlt : ∀ digit ∈ ds, digit < 58) (hhead : ds.head? ≠ some 0) :
    (ds.map charOf).head? ≠ some '1' := by
  cases ds with
  | nil => simp
  | cons digit ds =>
    intro hone
    apply hhead
    have hdigit := hlt digit (by simp)
    rw [List.map_cons, List.head?_cons, Option.some.injEq, charOf_eq_one_iff hdigit] at hone
    rw [hone, List.head?_cons]

/-- The decoding of leading ones and a rest. -/
lemma base58Decode_ones_append (n : ℕ) {ds : List ℕ} (hlt : ∀ digit ∈ ds, digit < 58)
    (hhead : ds.head? ≠ some 0) :
    base58Decode (List.replicate n '1' ++ ds.map charOf) =
      .ok (List.replicate n 0 ++ beBytes (byteLength (value 58 ds)) (value 58 ds)) := by
  have htext : List.replicate n '1' ++ ds.map charOf = (List.replicate n 0 ++ ds).map charOf := by
    rw [List.map_append, List.map_replicate]
    rfl
  have hall : ∀ digit ∈ List.replicate n 0 ++ ds, digit < 58 := by
    intro digit hdigit
    cases List.mem_append.1 hdigit with
    | inl hzero =>
      rw [List.eq_of_mem_replicate hzero]
      omega
    | inr hrest => exact hlt digit hrest
  have hnum : decodeNumber 0 (List.replicate n '1' ++ ds.map charOf) = .ok (value 58 ds) := by
    rw [htext, decodeNumber_map hall, ← value_zeros_append 58 n ds]
    rfl
  rw [base58Decode, hnum, takeWhile_replicate_append '1' n (head_map_charOf hlt hhead),
    List.length_replicate]

lemma base58Decode_base58Encode (data : Bytes) : base58Decode (base58Encode data) = .ok data := by
  obtain ⟨n, rest, rfl, hhead, -⟩ := exists_zeros (0 : UInt8) data
  rw [base58Encode_zeros_append n hhead, base58Decode_ones_append n (fun _ => digits_lt (by norm_num))
    (digits_head 58 _), value_digits, beBytes_byteLength_beNat hhead]

/-- A text over the alphabet is the encoding of what it decodes to. -/
lemma base58Encode_of_decode {text : Text} (h : ∀ char ∈ text, char ∈ ALPHABET) :
    ∃ data, base58Decode text = .ok data ∧ base58Encode data = text := by
  obtain ⟨ds, hlt, rfl⟩ := exists_digits h
  obtain ⟨n, rest, rfl, hhead, -⟩ := exists_zeros 0 ds
  have hrest : ∀ digit ∈ rest, digit < 58 := fun digit hdigit => hlt digit (by simp [hdigit])
  have htext : (List.replicate n 0 ++ rest).map charOf = List.replicate n '1' ++ rest.map charOf := by
    rw [List.map_append, List.map_replicate]
    rfl
  refine ⟨_, htext ▸ base58Decode_ones_append n hrest hhead, ?_⟩
  rw [htext, base58Encode_zeros_append n (head_beBytes_byteLength _),
    beNat_beBytes (lt_pow_byteLength _), digits_value (by norm_num) hrest hhead]

/-- A decoded text is over the alphabet. -/
lemma alphabet_of_decodeNumber {num num' : ℕ} {text : Text} (h : decodeNumber num text = .ok num') :
    ∀ char ∈ text, char ∈ ALPHABET := by
  induction text generalizing num with
  | nil => simp
  | cons char text ih =>
    rw [decodeNumber, alphabetIndex] at h
    by_cases hchar : char ∈ ALPHABET
    · rw [if_pos hchar] at h
      intro c hc
      cases List.mem_cons.1 hc with
      | inl heq => exact heq ▸ hchar
      | inr hrest => exact ih h c hrest
    · rw [if_neg hchar] at h
      cases h

lemma alphabet_of_base58Decode {text : Text} {data : Bytes} (h : base58Decode text = .ok data) :
    ∀ char ∈ text, char ∈ ALPHABET := by
  unfold base58Decode at h
  cases hnum : decodeNumber 0 text with
  | error e => simp [hnum] at h
  | ok num => exact alphabet_of_decodeNumber hnum

/-! Checksums. -/
section checksum
variable (H : Hashlib) {payload : Bytes}

lemma base58CheckDecode_encode (hdigest : 4 ≤ (H.hash256 payload).length) :
    base58CheckDecode H (base58CheckEncode H payload) = .ok payload := by
  have hlength : (payload ++ (H.hash256 payload).take 4).length - 4 = payload.length := by
    simp only [List.length_append, List.length_take]
    omega
  simp only [base58CheckDecode, base58CheckEncode, base58Decode_base58Encode, hlength,
    List.take_left, List.drop_left]
  exact if_neg (not_not.2 rfl)

/-- What the checked decoder returns was encoded with its checksum. -/
lemma base58CheckEncode_of_decode {text : Text} (h : base58CheckDecode H text = .ok payload) :
    base58CheckEncode H payload = text := by
  unfold base58CheckDecode at h
  cases hdecode : base58Decode text with
  | error e => simp [hdecode] at h
  | ok decoded =>
    simp only [hdecode] at h
    split_ifs at h with hchecksum
    obtain rfl := Except.ok.inj h
    obtain ⟨data, hdata, hencode⟩ := base58Encode_of_decode (alphabet_of_base58Decode hdecode)
    obtain rfl : decoded = data := Except.ok.inj (hdecode.symm.trans hdata)
    rw [base58CheckEncode, ← not_not.1 hchecksum, List.take_append_drop, hencode]

end checksum
end Base58

namespace TransactionIndex
open Base58 Numerals

lemma encodeNumber_eq {fuel n : ℕ} (hfuel : n ≤ fuel) (enc : Text) :
    encodeNumber fuel n enc = (digits 58 n).map charOf ++ enc := by
  induction fuel generalizing n enc with
  | zero =>
    obtain rfl := Nat.le_zero.1 hfuel
    rfl
  | succ fuel ih =>
    rw [encodeNumber]
    split_ifs with hpos
    · rw [ih (by omega), digits, digits, Nat.digits_def' (by norm_num) hpos, List.reverse_cons,
        List.map_append, List.append_assoc]
      rfl
    · obtain rfl : n = 0 := by omega
      rfl

/-- The encoder of the index puts the same zeros before the same digits. -/
lemma base58checkEncode_eq (H : Hashlib) (payload : Bytes) :
    base58checkEncode H payload = base58CheckEncode H payload := by
  obtain ⟨data, hdata⟩ : ∃ data, payload ++ (H.hash256 payload).take 4 = data := ⟨_, rfl⟩
  have hencode := encodeNumber_eq (le_refl (beNat data)) []
  have hdigits : (digits 58 (beNat data)).map charOf =
      ((Nat.digits 58 (beNat data)).map fun d => ALPHABET.getD d '1').reverse := by
    rw [digits, List.map_reverse]
    rfl
  rw [List.append_nil] at hencode
  rw [base58checkEncode, hdata, hencode, base58CheckEncode, hdata, base58Encode, ← hdigits]
  split_ifs with hnil
  · rfl
  · rw [not_not.1 hnil, List.append_nil]

end TransactionIndex

namespace Base58

/-- Base58 inverts both ways, and the two encoders with a checksum are one. -/
theorem bijection (H : Hashlib) (hlength : ∀ data, (H.sha256 data).length = 32) :
    (∀ data, base58Decode (base58Encode data) = .ok data) ∧
      (∀ text : Text, (∀ char ∈ text, char ∈ ALPHABET) →
        ∃ data, base58Decode text = .ok data ∧ base58Encode data = text) ∧
      (∀ payload, base58CheckDecode H (base58CheckEncode H payload) = .ok payload) ∧
      ∀ payload, TransactionIndex.base58checkEncode H payload = base58CheckEncode H payload := by
  refine ⟨base58Decode_base58Encode, ?_, ?_, TransactionIndex.base58checkEncode_eq H⟩
  · intro text h
    exact base58Encode_of_decode h
  · intro payload
    apply base58CheckDecode_encode
    rw [Hashlib.hash256, hlength]
    omega

/-! The address of the hash of zeros. -/
namespace ZeroExample

def payload : Bytes := List.replicate 21 0

def hashlib : Hashlib := Hashlib.padded <| Hashlib.ofDoubleDigests [
  (payload,
    0xc90232586b801f9558a76f2f963eccd831d9fe6775e4c8f1446b2331aa2132f2,
    0x94a00911c4da27f9271727ffa7a14d8d5588fc0fff9964340ec4065f387e622b)]

lemma length_sha256 (data : Bytes) : (hashlib.sha256 data).length = 32 := Hashlib.length_padded _ data

end ZeroExample

open ZeroExample in
theorem bijection_zeros :
    base58CheckEncode hashlib payload = "1111111111111111111114oLvT2".toList ∧
      base58CheckDecode hashlib (base58CheckEncode hashlib payload) = .ok payload :=
  ⟨by decide +kernel, (bijection hashlib length_sha256).2.2.1 payload⟩

end Base58
end BerzCoin
