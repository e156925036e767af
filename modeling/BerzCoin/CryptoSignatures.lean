import BerzCoin.BigEndian
import BerzCoin.CoreReaders
import BerzCoin.ScriptSigchecks

/-! DER encodings of ECDSA signatures: the one that `sign_message_hash` writes, and the two parsers.
Both accept the same grammar; the one of the script checker leaves the range of the integers open. -/
namespace BerzCoin

namespace Signatures

def CURVE_ORDER : ℕ := 0xFFFFFFFFFFFFFFFFFFFFFFFFFFFFFFFEBAAEDCE6AF48A03BBFD25E8CD0364141

/-- A DER integer that is positive and not longer than it has to be. -/
structure CanonicalInteger (data : Bytes) : Prop where
  nonempty : data ≠ []
  positive : data.getD 0 0 &&& 0x80 = 0
  minimal : ¬ (1 < data.length ∧ data.getD 0 0 = 0x00 ∧ data.getD 1 0 &&& 0x80 = 0)

def parseDerSignatureStrict (sig : Bytes) : Except PyError (ℕ × ℕ) :=
  if sig.length < 8 ∨ 72 < sig.length then .error (.valueError "Invalid DER length")
  else if sig.getD 0 0 ≠ 0x30 then .error (.valueError "Invalid DER sequence tag")
  else if (sig.getD 1 0).toNat ≠ sig.length - 2 then
    .error (.valueError "Invalid DER sequence length")
  else if sig.length ≤ 2 ∨ sig.getD 2 0 ≠ 0x02 then .error (.valueError "Missing DER integer r tag")
  else if sig.length ≤ 3 then .error (.valueError "Missing DER r length")
  else
    let rLen := (sig.getD 3 0).toNat
    if rLen = 0 ∨ sig.length < 4 + rLen then .error (.valueError "Invalid DER r length")
    else
      let rBytes := slice sig 4 rLen
      let pos := 4 + rLen
      if sig.length ≤ pos ∨ sig.getD pos 0 ≠ 0x02 then
        .error (.valueError "Missing DER integer s tag")
      else if sig.length ≤ pos + 1 then .error (.valueError "Missing DER s length")
      else
        let sLen := (sig.getD (pos + 1) 0).toNat
        if sLen = 0 ∨ pos + 2 + sLen ≠ sig.length then .error (.valueError "Invalid DER s length")
        else
          let sBytes := slice sig (pos + 2) sLen
          if rBytes.getD 0 0 &&& 0x80 ≠ 0 then .error (.valueError "DER r must be positive")
          else if sBytes.getD 0 0 &&& 0x80 ≠ 0 then .error (.valueError "DER s must be positive")
          else if 1 < rBytes.length ∧ rBytes.getD 0 0 = 0x00 ∧ rBytes.getD 1 0 &&& 0x80 = 0 then
            .error (.valueError "DER r has non-minimal encoding")
          else if 1 < sBytes.length ∧ sBytes.getD 0 0 = 0x00 ∧ sBytes.getD 1 0 &&& 0x80 = 0 then
            .error (.valueError "DER s has non-minimal encoding")
          else
            let r := beNat rBytes
            let s := beNat sBytes
            if r ≤ 0 ∨ CURVE_ORDER ≤ r ∨ s ≤ 0 ∨ CURVE_ORDER ≤ s then
              .error (.valueError "DER signature scalar out of range")
            else .ok (r, s)

/-- `encode_int` of `sign_message_hash`. -/
def encodeInt (num : ℕ) : Bytes :=
  if num = 0 then [0x00]
  else
    let numBytes := beBytes (byteLength num) num
    if numBytes.getD 0 0 &&& 0x80 ≠ 0 then 0x00 :: numBytes else numBytes

/-- `bytes([n])`. -/
def oneByte (n : ℕ) : Except PyError Bytes :=
  if n < 256 then .ok [UInt8.ofNat n] else .error (.valueError "bytes must be in range(0, 256)")

/-- The DER encoding that `sign_message_hash` makes of a signature. -/
def encodeSignature (r s : ℕ) : Except PyError Bytes := do
  let rBytes := encodeInt r
  let sBytes := encodeInt s
  let total ← oneByte (rBytes.length + sBytes.length + 4)
  let rLen ← oneByte rBytes.length
  let sLen ← oneByte sBytes.length
  return [0x30] ++ total ++ [0x02] ++ rLen ++ rBytes ++ [0x02] ++ sLen ++ sBytes

/-- `sign_message_hash` with the `sign` of a private key. -/
def signMessageHash (sign : Bytes → Except PyError (ℕ × ℕ)) (messageHash : Bytes) :
    Except PyError Bytes := do
  let (r, s) ← sign messageHash
  encodeSignature r s

/-! The grammar of both parsers. -/
section grammar
variable {data rBytes sBytes sig : Bytes}

/-- The bytes of a signature with these integers. -/
def layout (rBytes sBytes : Bytes) : Bytes :=
  0x30 :: UInt8.ofNat (rBytes.length + sBytes.length + 4) :: 0x02 :: UInt8.ofNat rBytes.length ::
    (rBytes ++ 0x02 :: UInt8.ofNat sBytes.length :: sBytes)

/-- A signature in DER with these integers, of a length that the parsers admit. -/
structure DerSignature (sig rBytes sBytes : Bytes) : Prop where
  shape : sig = layout rBytes sBytes
  short : sig.length ≤ 72
  r : CanonicalInteger rBytes
  s : CanonicalInteger sBytes

lemma canonicalInteger_iff {b : UInt8} {bs : Bytes} :
    CanonicalInteger (b :: bs) ↔
      b.toNat < 128 ∧ (b = 0 → bs = [] ∨ 128 ≤ (bs.getD 0 0).toNat) := by
  constructor
  · intro h
    refine ⟨(and_high_eq_zero b).1 (by simpa using h.positive), ?_⟩
    rintro rfl
    cases bs with
    | nil => exact .inl rfl
    | cons b' bs =>
      right
      by_contra hlow
      exact h.minimal ⟨by simp, rfl, (and_high_eq_zero b').2 (by simpa using hlow)⟩
  · rintro ⟨hpos, hmin⟩
    refine ⟨by simp, by simpa using (and_high_eq_zero b).2 hpos, ?_⟩
    rintro ⟨hlen, hzero, hlow⟩
    rcases hmin (by simpa using hzero) with rfl | hhigh
    · simp at hlen
    · have hlow' := (and_high_eq_zero _).1 hlow
      simp only [List.getD_cons_succ] at hlow'
      omega

/-- A canonical integer is the encoding of its value. -/
lemma CanonicalInteger.encodeInt_beNat (h : CanonicalInteger data) : encodeInt (beNat data) = data := by
  cases data with
  | nil => exact absurd rfl h.nonempty
  | cons b bs =>
    obtain ⟨hpos, hmin⟩ := canonicalInteger_iff.1 h
    by_cases hb : b = 0
    · subst hb
      have hvalue : beNat (0 :: bs) = beNat bs := by simp [beNat_cons]
      rw [hvalue]
      rcases hmin rfl with rfl | hhigh
      · rfl
      · cases bs with
        | nil => simp at hhigh
        | cons b' bs =>
          simp only [List.getD_cons_zero] at hhigh
          have hb' : b' ≠ 0 := by
            rintro rfl
            simp at hhigh
          have hlen : byteLength (beNat (b' :: bs)) = bs.length + 1 := byteLength_beNat hb'
          have hne : beNat (b' :: bs) ≠ 0 := by
            intro hzero
            rw [hzero] at hlen
            simp [byteLength] at hlen
          have hbytes : beBytes (byteLength (beNat (b' :: bs))) (beNat (b' :: bs)) = b' :: bs := by
            rw [hlen]
            exact beBytes_beNat (b' :: bs)
          have htop : b' &&& 0x80 ≠ 0 := by
            rw [ne_eq, and_high_eq_zero]
            omega
          simp [encodeInt, hne, hbytes, htop]
    · have hlen : byteLength (beNat (b :: bs)) = bs.length + 1 := byteLength_beNat hb
      have hne : beNat (b :: bs) ≠ 0 := by
        intro hzero
        rw [hzero] at hlen
        simp [byteLength] at hlen
      have hbytes : beBytes (byteLength (beNat (b :: bs))) (beNat (b :: bs)) = b :: bs := by
        rw [hlen]
        exact beBytes_beNat (b :: bs)
      simp [encodeInt, hne, hbytes, (and_high_eq_zero b).2 hpos]

lemma encodeInt_of_ne {n : ℕ} (hn : n ≠ 0) :
    encodeInt n = if (beBytes (byteLength n) n).getD 0 0 &&& 0x80 ≠ 0 then
      0x00 :: beBytes (byteLength n) n else beBytes (byteLength n) n := if_neg hn

lemma canonicalInteger_encodeInt (n : ℕ) : CanonicalInteger (encodeInt n) := by
  by_cases hn : n = 0
  · rw [hn]
    exact canonicalInteger_iff.2 ⟨by simp, fun _ => .inl rfl⟩
  rw [encodeInt_of_ne hn]
  split_ifs with hhigh
  · obtain ⟨b, bs, hbytes, hb⟩ := beBytes_byteLength hn
    rw [hbytes] at hhigh ⊢
    rw [List.getD_cons_zero, ne_eq, and_high_eq_zero] at hhigh
    refine canonicalInteger_iff.2 ⟨by simp, fun _ => .inr ?_⟩
    rw [List.getD_cons_zero]
    omega
  · obtain ⟨b, bs, hbytes, hb⟩ := beBytes_byteLength hn
    rw [hbytes] at hhigh ⊢
    rw [List.getD_cons_zero, not_not, and_high_eq_zero] at hhigh
    exact canonicalInteger_iff.2 ⟨hhigh, fun hzero => absurd hzero hb⟩

@[simp] lemma beNat_encodeInt (n : ℕ) : beNat (encodeInt n) = n := by
  by_cases hn : n = 0
  · rw [hn]
    rfl
  rw [encodeInt_of_ne hn]
  split_ifs
  · rw [beNat_cons, beNat_beBytes (lt_pow_byteLength n)]
    simp
  · exact beNat_beBytes (lt_pow_byteLength n)

/-- The encoding of a number below the curve order has at most 33 bytes. -/
lemma encodeInt_length_le {n : ℕ} (h : n < CURVE_ORDER) : (encodeInt n).length ≤ 33 := by
  have hwidth : byteLength n ≤ 32 := by
    rw [byteLength_le_iff]
    exact h.trans (by norm_num [CURVE_ORDER])
  by_cases hn : n = 0
  · rw [hn]
    simp [encodeInt]
  rw [encodeInt_of_ne hn]
  split_ifs
  · rw [List.length_cons, beBytes_length]
    omega
  · rw [beBytes_length]
    omega

end grammar

/-! Where the fields of a signature stand. -/
section fields
variable {rBytes sBytes sig : Bytes} {rLen sLen : ℕ}

/-- The bytes of the header, of the tags and of the lengths. -/
structure Fields (sig : Bytes) (rLen sLen : ℕ) : Prop where
  sequence : sig.getD 0 0 = 0x30
  total : (sig.getD 1 0).toNat = sig.length - 2
  rTag : sig.getD 2 0 = 0x02
  rLength : (sig.getD 3 0).toNat = rLen
  sTag : sig.getD (4 + rLen) 0 = 0x02
  sLength : (sig.getD (4 + rLen + 1) 0).toNat = sLen
  length : sig.length = 4 + rLen + 2 + sLen

lemma length_layout (rBytes sBytes : Bytes) :
    (layout rBytes sBytes).length = 4 + rBytes.length + 2 + sBytes.length := by
  simp only [layout, List.length_cons, List.length_append]
  omega

lemma layout_fields (h : (layout rBytes sBytes).length ≤ 72) :
    Fields (layout rBytes sBytes) rBytes.length sBytes.length := by
  have hlen := length_layout rBytes sBytes
  have hdrop (i : ℕ) : (layout rBytes sBytes).getD (4 + rBytes.length + i) 0 =
      (0x02 :: UInt8.ofNat sBytes.length :: sBytes).getD i 0 := by
    have hindex : 4 + rBytes.length + i = rBytes.length + i + 1 + 1 + 1 + 1 := by omega
    rw [hindex]
    simp [layout, List.getD_eq_getElem?_getD, List.getElem?_append_right]
  refine ⟨rfl, ?_, rfl, ?_, hdrop 0, ?_, hlen⟩
  · simp only [layout, List.getD_cons_succ, List.getD_cons_zero, UInt8.toNat_ofNat']
    rw [← layout, hlen]
    omega
  · simp only [layout, List.getD_cons_succ, List.getD_cons_zero, UInt8.toNat_ofNat']
    omega
  · rw [hdrop 1]
    simp only [List.getD_cons_succ, List.getD_cons_zero, UInt8.toNat_ofNat']
    omega

lemma slice_layout (rBytes sBytes : Bytes) :
    slice (layout rBytes sBytes) 4 rBytes.length = rBytes ∧
      slice (layout rBytes sBytes) (4 + rBytes.length + 2) sBytes.length = sBytes := by
  refine ⟨by simp [slice, layout], ?_⟩
  have hindex : 4 + rBytes.length + 2 = rBytes.length + 2 + 1 + 1 + 1 + 1 := by omega
  rw [hindex]
  have hnil : rBytes.drop (rBytes.length + 2) = [] := List.drop_eq_nil_of_le (by omega)
  simp [slice, layout, List.drop_append, hnil]

lemma drop_eq_getD_cons {i : ℕ} (h : i < sig.length) : sig.drop i = sig.getD i 0 :: sig.drop (i + 1) := by
  rw [List.drop_eq_getElem_cons h, List.getD_eq_getElem _ _ h]

/-- The bytes up to the integer `r`, and the rest. -/
lemma eq_header (hseq : sig.getD 0 0 = 0x30) (hrTag : sig.getD 2 0 = 0x02)
    (hrLen : (sig.getD 3 0).toNat = rLen) (hlen : 4 + rLen < sig.length) :
    sig = 0x30 :: sig.getD 1 0 :: 0x02 :: UInt8.ofNat rLen ::
      (slice sig 4 rLen ++ sig.drop (4 + rLen)) := by
  have hr : sig.getD 3 0 = UInt8.ofNat rLen := by rw [← hrLen, UInt8.ofNat_toNat]
  calc sig = sig.drop 0 := List.drop_zero.symm
    _ = sig.getD 0 0 :: sig.getD 1 0 :: sig.getD 2 0 :: sig.getD 3 0 :: sig.drop 4 := by
      rw [drop_eq_getD_cons (i := 0) (by omega), drop_eq_getD_cons (i := 1) (by omega),
        drop_eq_getD_cons (i := 2) (by omega), drop_eq_getD_cons (i := 3) (by omega)]
    _ = _ := by
      rw [hseq, hrTag, hr, @Serializer.drop_eq_slice _ 4 rLen]

/-- The fields determine the signature. -/
lemma Fields.eq_layout (h : Fields sig rLen sLen) :
    sig = layout (slice sig 4 rLen) (slice sig (4 + rLen + 2) sLen) := by
  have hlen := h.length
  have hrest : sig.drop (4 + rLen) = 0x02 :: UInt8.ofNat sLen :: slice sig (4 + rLen + 2) sLen := by
    have hs : sig.getD (4 + rLen + 1) 0 = UInt8.ofNat sLen := by rw [← h.sLength, UInt8.ofNat_toNat]
    have htail : slice sig (4 + rLen + 2) sLen = sig.drop (4 + rLen + 2) :=
      List.take_of_length_le (by rw [List.length_drop]; omega)
    rw [drop_eq_getD_cons (by omega), drop_eq_getD_cons (i := 4 + rLen + 1) (by omega), h.sTag, hs,
      htail]
  have htotal : sig.getD 1 0 = UInt8.ofNat (rLen + sLen + 4) := by
    have hvalue : (sig.getD 1 0).toNat = rLen + sLen + 4 := by
      rw [h.total]
      omega
    rw [← hvalue, UInt8.ofNat_toNat]
  have hheader := eq_header h.sequence h.rTag h.rLength (by omega)
  rw [hrest, htotal] at hheader
  rw [layout, slice_length (by omega), slice_length (by omega)]
  exact hheader

lemma DerSignature.fields {rBytes sBytes : Bytes} (h : DerSignature sig rBytes sBytes) :
    Fields sig rBytes.length sBytes.length ∧ slice sig 4 rBytes.length = rBytes ∧
      slice sig (4 + rBytes.length + 2) sBytes.length = sBytes := by
  obtain ⟨rfl, hshort, -, -⟩ := h
  exact ⟨layout_fields hshort, slice_layout rBytes sBytes⟩

lemma CanonicalInteger.length_pos {data : Bytes} (h : CanonicalInteger data) : 0 < data.length :=
  List.length_pos_iff.2 h.nonempty

lemma check_eq_ok {α : Type} {c : Prop} [Decidable c] {e : PyError} {x : Except PyError α} {a : α} :
    (if c then .error e else x) = .ok a ↔ ¬ c ∧ x = .ok a := by
  split_ifs with hc <;> simp [hc]

/-- What `_parse_der_signature_strict` accepts. -/
lemma parseDerSignatureStrict_ok_iff {r s : ℕ} :
    parseDerSignatureStrict sig = .ok (r, s) ↔ ∃ rBytes sBytes, DerSignature sig rBytes sBytes ∧
      beNat rBytes = r ∧ beNat sBytes = s ∧ (1 ≤ r ∧ r < CURVE_ORDER) ∧ 1 ≤ s ∧ s < CURVE_ORDER := by
  constructor
  · intro h
    simp only [parseDerSignatureStrict, check_eq_ok, Except.ok.injEq, Prod.mk.injEq] at h
    obtain ⟨hsize, hseq, htotal, hrTag, hr3, hrLen, hsTag, hs5, hsLen, hrPos, hsPos, hrMin, hsMin,
      hrange, rfl, rfl⟩ := h
    have hfields : Fields sig (sig.getD 3 0).toNat
        (sig.getD (4 + (sig.getD 3 0).toNat + 1) 0).toNat := by
      refine ⟨by simpa using hseq, by simpa using htotal, ?_, rfl, ?_, rfl, ?_⟩
      · by_contra hne
        exact hrTag (.inr hne)
      · by_contra hne
        exact hsTag (.inr hne)
      · omega
    have hlenR := @slice_length sig 4 (sig.getD 3 0).toNat (by omega)
    have hlenS := @slice_length sig (4 + (sig.getD 3 0).toNat + 2)
      (sig.getD (4 + (sig.getD 3 0).toNat + 1) 0).toNat (by omega)
    refine ⟨_, _, ⟨hfields.eq_layout, by omega, ⟨?_, by simpa using hrPos, hrMin⟩,
      ⟨?_, by simpa using hsPos, hsMin⟩⟩, rfl, rfl, by omega, by omega⟩
    · rw [← List.length_pos_iff, hlenR]
      omega
    · rw [← List.length_pos_iff, hlenS]
      omega
  · rintro ⟨rBytes, sBytes, h, rfl, rfl, hrRange, hsRange⟩
    obtain ⟨⟨hseq, htotal, hrTag, hrLen, hsTag, hsLen, hlen⟩, hrSlice, hsSlice⟩ := h.fields
    have hrPos := h.r.length_pos
    have hsPos := h.s.length_pos
    have hshort := h.short
    simp only [parseDerSignatureStrict, check_eq_ok, hrLen, hsLen, hrSlice, hsSlice]
    refine ⟨by omega, by simpa using hseq, by simpa using htotal, ?_, by omega, by omega, ?_, by omega,
      by omega, not_not.2 h.r.positive, not_not.2 h.s.positive, h.r.minimal, h.s.minimal, by omega, trivial⟩
    · rintro (hlow | hne)
      · omega
      · exact hne hrTag
    · rintro (hlow | hne)
      · omega
      · exact hne hsTag

end fields

/-! The parser of the script checker. -/
section lenient
variable {sig : Bytes}

/-- A well-formed integer `r` whose successor is the tag of `s` and nothing more. -/
structure EndsAfterTag (sig rBytes : Bytes) : Prop where
  shape : sig = 0x30 :: UInt8.ofNat (rBytes.length + 3) :: 0x02 :: UInt8.ofNat rBytes.length ::
    (rBytes ++ [0x02])
  long : 8 ≤ sig.length
  short : sig.length ≤ 72
  r : CanonicalInteger rBytes

lemma getItem_eq_ok {α : Type} {items : List α} {i : ℕ} {a : α} :
    Script.getItem items i = .ok a ↔ items[i]? = some a := by
  unfold Script.getItem
  cases items[i]? <;> simp

lemma getItem_eq_error {α : Type} {items : List α} {i : ℕ} {e : PyError}
    (h : Script.getItem items i = .error e) : items.length ≤ i := by
  unfold Script.getItem at h
  cases hitem : items[i]? with
  | none => exact List.getElem?_eq_none_iff.1 hitem
  | some a => simp [hitem] at h

lemma derIntegerOk_iff {start length : ℕ} (h : start + length ≤ sig.length) (hpos : 0 < length) :
    Script.derIntegerOk sig start length = true ↔ CanonicalInteger (slice sig start length) := by
  have hlen := slice_length h
  have hget {i : ℕ} (hi : i < length) : (slice sig start length).getD i 0 = sig.getD (start + i) 0 := by
    simp [slice, List.getD_eq_getElem?_getD, hi]
  have hzero := hget hpos
  rw [Nat.add_zero] at hzero
  simp only [Script.derIntegerOk, Bool.and_eq_true, Bool.not_eq_true', decide_eq_true_eq,
    Bool.and_eq_false_iff, decide_eq_false_iff_not]
  constructor
  · rintro ⟨hpositive, hminimal⟩
    refine ⟨by rw [← List.length_pos_iff, hlen]; exact hpos, by rw [hzero]; exact hpositive, ?_⟩
    rintro ⟨hlong, hlead, hnext⟩
    rw [hlen] at hlong
    rw [hzero] at hlead
    rw [hget hlong] at hnext
    tauto
  · intro hcanonical
    have hpositive := hcanonical.positive
    have hminimal := hcanonical.minimal
    rw [hzero] at hpositive hminimal
    rw [hlen] at hminimal
    refine ⟨hpositive, ?_⟩
    by_cases hlong : 1 < length
    · rw [hget hlong] at hminimal
      tauto
    · exact .inl (.inl hlong)

lemma skip_eq_some {α : Type} {c : Prop} [Decidable c] {x : Except PyError (Option α)} {a : α} :
    (if c then pure none else x) = .ok (some a) ↔ ¬ c ∧ x = .ok (some a) := by
  split_ifs with hc <;> simp [hc, pure, Except.pure]

lemma skip_eq_error {α : Type} {c : Prop} [Decidable c] {x : Except PyError (Option α)} {e : PyError} :
    (if c then pure none else x) = .error e ↔ ¬ c ∧ x = .error e := by
  split_ifs with hc <;> simp [hc, pure, Except.pure]

/-- What `_parse_der_signature` accepts. -/
lemma parseDerSignature_some_iff {r s : ℕ} :
    Script.parseDerSignature sig = .ok (some (r, s)) ↔ ∃ rBytes sBytes,
      DerSignature sig rBytes sBytes ∧ beNat rBytes = r ∧ beNat sBytes = s := by
  constructor
  · intro h
    simp only [Script.parseDerSignature, skip_eq_some] at h
    obtain ⟨hsize, hseq, htotal, hrTag, hrLen, hrOk, hsTag, h⟩ := h
    obtain ⟨lengthByte, hitem, h⟩ := except_bind_eq_ok h
    simp only [skip_eq_some] at h
    obtain ⟨hsLen, hsOk, h⟩ := h
    cases h
    have hsByte : sig.getD (4 + (sig.getD 3 0).toNat + 1) 0 = lengthByte := by
      rw [List.getD_eq_getElem?_getD, getItem_eq_ok.1 hitem, Option.getD_some]
    have hfields : Fields sig (sig.getD 3 0).toNat lengthByte.toNat := by
      refine ⟨by simpa using hseq, by simpa using htotal, by simpa using hrTag, rfl,
        by simpa using hsTag, by rw [hsByte], by omega⟩
    rw [Bool.not_eq_true', Bool.not_eq_false, derIntegerOk_iff (by omega) (by omega)] at hrOk hsOk
    exact ⟨_, _, ⟨hfields.eq_layout, by omega, hrOk, hsOk⟩, rfl, rfl⟩
  · rintro ⟨rBytes, sBytes, h, rfl, rfl⟩
    obtain ⟨⟨hseq, htotal, hrTag, hrLen, hsTag, hsLen, hlen⟩, hrSlice, hsSlice⟩ := h.fields
    have hrPos := h.r.length_pos
    have hsPos := h.s.length_pos
    have hshort := h.short
    obtain ⟨lengthByte, hitem⟩ : ∃ b, sig[4 + rBytes.length + 1]? = some b :=
      ⟨_, List.getElem?_eq_getElem (by omega)⟩
    have hsByte : lengthByte.toNat = sBytes.length := by
      rw [← hsLen, List.getD_eq_getElem?_getD, hitem, Option.getD_some]
    have hrOk := (@derIntegerOk_iff sig 4 _ (by omega) hrPos).2
      (by rw [hrSlice]; exact h.r)
    have hsOk := (@derIntegerOk_iff sig (4 + rBytes.length + 2) _ (by omega) hsPos).2
      (by rw [hsSlice]; exact h.s)
    simp only [Script.parseDerSignature, skip_eq_some, hrLen, getItem_eq_ok.2 hitem]
    refine ⟨by omega, by simpa using hseq, by simpa using htotal, by simpa using hrTag, by omega,
      by simp [hrOk], by simpa using hsTag, ?_⟩
    simp only [bind, Except.bind, skip_eq_some, hsByte]
    refine ⟨by omega, by simp [hsOk], ?_⟩
    rw [hrSlice, hsSlice]
    rfl

/-- Where `_parse_der_signature` raises: it reads the length of `s` past the end. -/
lemma parseDerSignature_error_iff :
    (∃ e, Script.parseDerSignature sig = .error e) ↔ ∃ rBytes, EndsAfterTag sig rBytes := by
  constructor
  · rintro ⟨e, h⟩
    simp only [Script.parseDerSignature, skip_eq_error] at h
    obtain ⟨hsize, hseq, htotal, hrTag, hrLen, hrOk, hsTag, h⟩ := h
    have hend : sig.length = 4 + (sig.getD 3 0).toNat + 1 := by
      cases hitem : Script.getItem sig (4 + (sig.getD 3 0).toNat + 1) with
      | error e' =>
        have hle := getItem_eq_error hitem
        omega
      | ok b =>
        rw [hitem] at h
        simp only [bind, Except.bind, skip_eq_error] at h
        cases h.2.2
    rw [Bool.not_eq_true', Bool.not_eq_false, derIntegerOk_iff (by omega) (by omega)] at hrOk
    have hlenR := @slice_length sig 4 (sig.getD 3 0).toNat (by omega)
    refine ⟨_, ?_, by omega, by omega, hrOk⟩
    have hrest : sig.drop (4 + (sig.getD 3 0).toNat) = [0x02] := by
      rw [drop_eq_getD_cons (by omega), List.drop_eq_nil_of_le (by omega), not_not.1 hsTag]
    have htotal' : sig.getD 1 0 = UInt8.ofNat ((sig.getD 3 0).toNat + 3) := by
      have hvalue : (sig.getD 1 0).toNat = (sig.getD 3 0).toNat + 3 := by
        rw [not_not.1 htotal]
        omega
      rw [← hvalue, UInt8.ofNat_toNat]
    have hheader := eq_header (not_not.1 hseq) (not_not.1 hrTag) rfl (by omega)
    rw [hrest, htotal'] at hheader
    rw [hlenR]
    exact hheader
  · rintro ⟨rBytes, hshape, hlong, hshort, hcanonical⟩
    have hpos := hcanonical.length_pos
    have hlen : sig.length = 4 + rBytes.length + 1 := by
      rw [hshape]
      simp only [List.length_cons, List.length_append, List.length_nil]
      omega
    have hseq : sig.getD 0 0 = 0x30 := by
      rw [hshape]
      rfl
    have htotal : (sig.getD 1 0).toNat = sig.length - 2 := by
      rw [hlen, hshape]
      simp only [List.getD_cons_succ, List.getD_cons_zero, UInt8.toNat_ofNat']
      omega
    have hrTag : sig.getD 2 0 = 0x02 := by
      rw [hshape]
      rfl
    have hrLen : (sig.getD 3 0).toNat = rBytes.length := by
      rw [hshape]
      simp only [List.getD_cons_succ, List.getD_cons_zero, UInt8.toNat_ofNat']
      omega
    have hsTag : sig.getD (4 + rBytes.length) 0 = 0x02 := by
      have hindex : 4 + rBytes.length = rBytes.length + 1 + 1 + 1 + 1 := by omega
      rw [hindex, hshape]
      simp [List.getD_eq_getElem?_getD]
    have hslice : slice sig 4 rBytes.length = rBytes := by
      rw [hshape]
      simp [slice]
    have hrOk := (@derIntegerOk_iff sig 4 _ (by omega) hpos).2
      (by rw [hslice]; exact hcanonical)
    have hitem : sig[4 + rBytes.length + 1]? = none := List.getElem?_eq_none (by omega)
    refine ⟨.indexError "list index out of range", ?_⟩
    simp only [Script.parseDerSignature, skip_eq_error, hrLen, Script.getItem, hitem]
    exact ⟨by omega, by simpa using hseq, by simpa using htotal, by simpa using hrTag, by omega,
      by simp [hrOk], by simpa using hsTag, rfl⟩

end lenient

section parsers

lemma encodeSignature_ok {r s : ℕ} (hr : r < CURVE_ORDER) (hs : s < CURVE_ORDER) :
    encodeSignature r s = .ok (layout (encodeInt r) (encodeInt s)) := by
  have hrLen := encodeInt_length_le hr
  have hsLen := encodeInt_length_le hs
  simp only [encodeSignature, oneByte, if_pos (show (encodeInt r).length < 256 by omega),
    if_pos (show (encodeInt s).length < 256 by omega),
    if_pos (show (encodeInt r).length + (encodeInt s).length + 4 < 256 by omega)]
  simp [layout, bind, Except.bind, pure, Except.pure]

lemma derSignature_layout {r s : ℕ} (hr : r < CURVE_ORDER) (hs : s < CURVE_ORDER) :
    DerSignature (layout (encodeInt r) (encodeInt s)) (encodeInt r) (encodeInt s) := by
  have hrLen := encodeInt_length_le hr
  have hsLen := encodeInt_length_le hs
  refine ⟨rfl, ?_, canonicalInteger_encodeInt r, canonicalInteger_encodeInt s⟩
  rw [length_layout]
  omega

/-- The strict parser accepts the encodings of the signatures in range, and nothing else. -/
theorem parseDerSignatureStrict_canonical :
    (∀ sig r s messageHash, parseDerSignatureStrict sig = .ok (r, s) ↔
      ((1 ≤ r ∧ r < CURVE_ORDER) ∧ 1 ≤ s ∧ s < CURVE_ORDER) ∧
        signMessageHash (fun _ => .ok (r, s)) messageHash = .ok sig) ∧
    ∀ r s, (∃! sig, parseDerSignatureStrict sig = .ok (r, s)) ↔
      (1 ≤ r ∧ r < CURVE_ORDER) ∧ 1 ≤ s ∧ s < CURVE_ORDER := by
  have hiff (sig : Bytes) (r s : ℕ) : parseDerSignatureStrict sig = .ok (r, s) ↔
      ((1 ≤ r ∧ r < CURVE_ORDER) ∧ 1 ≤ s ∧ s < CURVE_ORDER) ∧
        layout (encodeInt r) (encodeInt s) = sig := by
    rw [parseDerSignatureStrict_ok_iff]
    constructor
    · rintro ⟨rBytes, sBytes, h, rfl, rfl, hr, hs⟩
      refine ⟨⟨hr, hs⟩, ?_⟩
      rw [h.r.encodeInt_beNat, h.s.encodeInt_beNat]
      exact h.shape.symm
    · rintro ⟨⟨hr, hs⟩, rfl⟩
      exact ⟨_, _, derSignature_layout hr.2 hs.2, beNat_encodeInt r, beNat_encodeInt s, hr, hs⟩
  refine ⟨?_, ?_⟩
  · intro sig r s messageHash
    rw [hiff]
    apply and_congr_right
    rintro ⟨hr, hs⟩
    have hsign : signMessageHash (fun _ => .ok (r, s)) messageHash = encodeSignature r s := rfl
    rw [hsign, encodeSignature_ok hr.2 hs.2, Except.ok.injEq]
  · intro r s
    constructor
    · rintro ⟨sig, hsig, -⟩
      exact ((hiff sig r s).1 hsig).1
    · intro hrange
      refine ⟨_, (hiff _ r s).2 ⟨hrange, rfl⟩, ?_⟩
      intro sig hsig
      exact ((hiff sig r s).1 hsig).2.symm

/-- The parser of the script checker returns and agrees with the strict one, unless the signature
ends with the tag of `s`. -/
theorem parseDerSignature_agrees_iff (sig : Bytes) :
    ((∃ result, Script.parseDerSignature sig = .ok result) ∧
      ∀ r s, (Script.parseDerSignature sig = .ok (some (r, s)) ∧
          (1 ≤ r ∧ r < CURVE_ORDER) ∧ 1 ≤ s ∧ s < CURVE_ORDER) ↔
        parseDerSignatureStrict sig = .ok (r, s)) ↔
    ¬ ∃ rBytes, EndsAfterTag sig rBytes := by
  have hagree (r s : ℕ) : (Script.parseDerSignature sig = .ok (some (r, s)) ∧
      (1 ≤ r ∧ r < CURVE_ORDER) ∧ 1 ≤ s ∧ s < CURVE_ORDER) ↔
        parseDerSignatureStrict sig = .ok (r, s) := by
    rw [parseDerSignature_some_iff, parseDerSignatureStrict_ok_iff]
    constructor
    · rintro ⟨⟨rBytes, sBytes, h, hr, hs⟩, hrange⟩
      exact ⟨rBytes, sBytes, h, hr, hs, hrange⟩
    · rintro ⟨rBytes, sBytes, h, hr, hs, hrange⟩
      exact ⟨⟨rBytes, sBytes, h, hr, hs⟩, hrange⟩
  have hreturns : (∃ result, Script.parseDerSignature sig = .ok result) ↔
      ¬ ∃ e, Script.parseDerSignature sig = .error e := by
    cases Script.parseDerSignature sig <;> simp
  rw [← parseDerSignature_error_iff, ← hreturns]
  exact and_iff_left hagree

/-- The last byte is the tag of `s`, and the length of `s` is read after it. -/
theorem parseDerSignature_raises :
    ¬ ∃ result, Script.parseDerSignature [0x30, 0x06, 0x02, 0x03, 0x01, 0x01, 0x01, 0x02] =
      .ok result := by
  have h : Script.parseDerSignature [0x30, 0x06, 0x02, 0x03, 0x01, 0x01, 0x01, 0x02] =
      .error (.indexError "list index out of range") := by decide
  rw [h]
  simp

end parsers
end Signatures
end BerzCoin
