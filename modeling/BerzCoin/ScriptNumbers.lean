import BerzCoin.BigEndian
import BerzCoin.ScriptTapscript

/-! Numbers on the script stack: little-endian with the sign in the top bit of the last byte, as
the engine and the tapscript executor read and write them. -/
namespace BerzCoin.Script

namespace Tapscript

/-- `while abs_value: out.append(abs_value & 0xFF); abs_value >>= 8`. -/
def appendBytes (out : Bytes) (absValue : ℕ) : Bytes :=
  if absValue = 0 then out
  else appendBytes (out ++ [UInt8.ofNat (absValue &&& 0xFF)]) (absValue >>> 8)
termination_by absValue
decreasing_by
  rw [Nat.shiftRight_eq_div_pow]
  omega

/-- `_encode_script_num`. -/
def encodeScriptNum (value : ℤ) : Bytes :=
  if value = 0 then []
  else
    let neg : Bool := value < 0
    let absValue := (if neg then -value else value).toNat
    let out := appendBytes [] absValue
    if out.getLastD 0 &&& 0x80 ≠ 0 then out ++ [if neg then 0x80 else 0x00]
    else if neg then out.dropLast ++ [out.getLastD 0 ||| 0x80]
    else out

/-- `_decode_script_num`; `result &= ~mask` is the difference of the bits. -/
def decodeScriptNum (data : Bytes) (maxSize : ℕ) : Except PyError ℤ :=
  if maxSize < data.length then .error (.valueError "script number overflow")
  else if data = [] then .ok 0
  else
    let result := leNat data
    if data.getLastD 0 &&& 0x80 ≠ 0 then
      .ok (-(Nat.ldiff result (0x80 <<< (8 * (data.length - 1))) : ℕ))
    else .ok result

end Tapscript

/-- Empty, or the last byte has one of its low seven bits, or it is there for the sign alone
because the byte before it has the top bit. -/
def MinimallyEncoded (data : Bytes) : Prop :=
  data = [] ∨ data.getLastD 0 &&& 0x7f ≠ 0 ∨ data.dropLast.getLastD 0 &&& 0x80 ≠ 0

/-! A byte and its top bit. -/

lemma and_low_toNat (b : UInt8) : (b &&& 0x7f).toNat = b.toNat % 128 := by
  rw [UInt8.toNat_and]
  exact Nat.and_two_pow_sub_one_eq_mod b.toNat 7

lemma and_low_ne_zero (b : UInt8) : b &&& 0x7f ≠ 0 ↔ b.toNat % 128 ≠ 0 := by
  rw [← and_low_toNat, ← UInt8.toNat_zero, Ne, Ne, UInt8.toNat_inj]

lemma and_high_ne_zero (b : UInt8) : b &&& 0x80 ≠ 0 ↔ 128 ≤ b.toNat := by
  rw [Ne, and_high_eq_zero, not_lt]

/-- The top bit of a byte that does not have it. -/
lemma or_high_toNat {b : UInt8} (hb : b.toNat < 128) : (b ||| 0x80).toNat = 128 + b.toNat := by
  rw [UInt8.toNat_or, Nat.or_comm]
  exact (Nat.two_pow_add_eq_or_of_lt (i := 7) hb 1).symm

/-! The bytes of a natural number. -/

lemma leNat_eq_ofDigits (data : Bytes) : leNat data = Nat.ofDigits 256 (data.map UInt8.toNat) := by
  induction data with
  | nil => rfl
  | cons b bs ih => rw [leNat, ih, List.map_cons, Nat.ofDigits_cons]

lemma leNat_concat (init : Bytes) (last : UInt8) :
    leNat (init ++ [last]) = leNat init + 256 ^ init.length * last.toNat := by
  simp [leNat_append, leNat]

lemma map_toNat_numBytes (n : ℕ) : (numBytes n).map UInt8.toNat = Nat.digits 256 n := by
  rw [numBytes, List.map_map]
  conv_rhs => rw [← List.map_id (Nat.digits 256 n)]
  apply List.map_congr_left
  intro d hd
  have hlt : d < 256 := Nat.digits_lt_base (by norm_num) hd
  simp only [Function.comp_apply, UInt8.toNat_ofNat', id_eq]
  omega

lemma leNat_numBytes (n : ℕ) : leNat (numBytes n) = n := by
  rw [leNat_eq_ofDigits, map_toNat_numBytes, Nat.ofDigits_digits]

/-- Bytes that do not end with zero are the bytes of their number. -/
lemma numBytes_leNat {init : Bytes} {last : UInt8} (hlast : last ≠ 0) :
    numBytes (leNat (init ++ [last])) = init ++ [last] := by
  have hdigits : Nat.digits 256 (leNat (init ++ [last])) = (init ++ [last]).map UInt8.toNat := by
    rw [leNat_eq_ofDigits]
    apply Nat.digits_ofDigits 256 (by norm_num)
    · intro d hd
      obtain ⟨b, _, rfl⟩ := List.mem_map.1 hd
      exact b.toNat_lt
    · intro _ hzero
      rw [List.getLast_map, List.getLast_append_singleton] at hzero
      exact hlast (UInt8.toNat_inj.1 hzero)
  rw [numBytes, hdigits, List.map_map]
  simp [Function.comp_def]

/-- A positive number does not end with a zero byte. -/
lemma numBytes_eq_concat {n : ℕ} (hn : n ≠ 0) :
    ∃ init last, numBytes n = init ++ [last] ∧ last ≠ 0 := by
  have hne : Nat.digits 256 n ≠ [] := Nat.digits_ne_nil_iff_ne_zero.2 hn
  have hlast := Nat.getLast_digit_ne_zero 256 hn
  have hbytes : numBytes n ≠ [] := by simpa [numBytes] using hne
  refine ⟨(numBytes n).dropLast, (numBytes n).getLast hbytes,
    (List.dropLast_append_getLast hbytes).symm, ?_⟩
  intro hzero
  apply hlast
  have hmap : (Nat.digits 256 n).getLast hne = ((numBytes n).getLast hbytes).toNat := by
    simp only [← map_toNat_numBytes, List.getLast_map]
  rw [hmap, hzero]
  rfl

lemma leNat_concat_ne_zero (init : Bytes) {last : UInt8} (hlast : last ≠ 0) :
    leNat (init ++ [last]) ≠ 0 := by
  have hpos : 0 < last.toNat := Nat.pos_of_ne_zero fun hzero => hlast (UInt8.toNat_inj.1 hzero)
  have hpow : 0 < 256 ^ init.length := by positivity
  have := Nat.mul_pos hpow hpos
  rw [leNat_concat]
  omega

/-! Reading and writing a sign and a magnitude. -/

def signed (negative : Bool) (magnitude : ℕ) : ℤ := if negative then -magnitude else magnitude

lemma exists_signed {value : ℤ} (hvalue : value ≠ 0) :
    ∃ negative magnitude, magnitude ≠ 0 ∧ value = signed negative magnitude := by
  refine ⟨decide (value < 0), value.natAbs, Int.natAbs_ne_zero.2 hvalue, ?_⟩
  unfold signed
  split_ifs with hneg
  · have := of_decide_eq_true hneg
    omega
  · have : ¬value < 0 := by simpa using hneg
    omega

lemma castToInt_concat (init : Bytes) (last : UInt8) :
    castToInt (init ++ [last]) =
      signed (128 ≤ last.toNat) (leNat init + 256 ^ init.length * (last.toNat % 128)) := by
  have hbyte := last.toNat_lt
  simp only [castToInt, List.getLast?_append, List.getLast?_singleton, Option.some_or,
    and_high_ne_zero, leNat_concat, List.length_append, List.length_singleton,
    Nat.add_sub_cancel, signed, decide_eq_true_eq]
  split_ifs with hhigh
  · have hsplit : 256 ^ init.length * last.toNat =
        128 * 256 ^ init.length + 256 ^ init.length * (last.toNat % 128) := by
      have hmod : last.toNat = 128 + last.toNat % 128 := by omega
      conv_lhs => rw [hmod]
      ring
    have hclear : leNat init + (128 * 256 ^ init.length + 256 ^ init.length * (last.toNat % 128)) -
        128 * 256 ^ init.length = leNat init + 256 ^ init.length * (last.toNat % 128) := by omega
    rw [hsplit, hclear]
  · rw [Nat.mod_eq_of_lt (not_le.1 hhigh)]

/-- The three ways to write a magnitude whose last byte is `last`. -/
lemma encodeScriptNum_signed {magnitude : ℕ} {init : Bytes} {last : UInt8} (negative : Bool)
    (hne : magnitude ≠ 0) (hbytes : numBytes magnitude = init ++ [last]) :
    encodeScriptNum (signed negative magnitude) =
      if 128 ≤ last.toNat then init ++ [last] ++ [if negative then 0x80 else 0x00]
      else if negative then init ++ [last ||| 0x80]
      else init ++ [last] := by
  have hvalue : signed negative magnitude ≠ 0 := by
    unfold signed
    split_ifs <;> omega
  have hneg : signed negative magnitude < 0 ↔ negative = true := by
    cases negative with
    | true =>
      simp only [signed, if_true, iff_true]
      omega
    | false => simp [signed]
  have habs : (signed negative magnitude).natAbs = magnitude := by
    unfold signed
    split_ifs <;> omega
  have hgetLast : (init ++ [last]).getLastD 0 = last := by simp
  have hdropLast : (init ++ [last]).dropLast = init := by simp
  simp only [encodeScriptNum, if_neg hvalue, habs, hneg, hbytes, hgetLast, hdropLast,
    and_high_ne_zero]

/-- The byte that holds the sign alone. -/
lemma castToInt_concat_sign (init : Bytes) (negative : Bool) :
    castToInt (init ++ [if negative then 0x80 else 0x00]) = signed negative (leNat init) := by
  rw [castToInt_concat]
  cases negative <;> simp

theorem castToInt_encodeScriptNum (value : ℤ) : castToInt (encodeScriptNum value) = value := by
  by_cases hvalue : value = 0
  · subst hvalue
    rfl
  · obtain ⟨negative, magnitude, hne, rfl⟩ := exists_signed hvalue
    obtain ⟨init, last, hbytes, -⟩ := numBytes_eq_concat hne
    have hmagnitude : leNat (init ++ [last]) = magnitude := by rw [← hbytes, leNat_numBytes]
    rw [encodeScriptNum_signed negative hne hbytes]
    by_cases hhigh : 128 ≤ last.toNat
    · rw [if_pos hhigh, castToInt_concat_sign, hmagnitude]
    · have hlow := not_le.1 hhigh
      rw [if_neg hhigh]
      cases negative with
      | true =>
        have hsign : 128 ≤ 128 + last.toNat := Nat.le_add_right _ _
        rw [if_pos rfl, castToInt_concat, or_high_toNat hlow, Nat.add_mod_left,
          Nat.mod_eq_of_lt hlow, ← leNat_concat, hmagnitude, decide_eq_true hsign]
      | false =>
        rw [if_neg (by simp), castToInt_concat, Nat.mod_eq_of_lt hlow, ← leNat_concat, hmagnitude,
          decide_eq_false hhigh]

/-- What is written is minimal. -/
lemma minimallyEncoded_encodeScriptNum (value : ℤ) : MinimallyEncoded (encodeScriptNum value) := by
  by_cases hvalue : value = 0
  · subst hvalue
    exact .inl rfl
  · obtain ⟨negative, magnitude, hne, rfl⟩ := exists_signed hvalue
    obtain ⟨init, last, hbytes, hlast⟩ := numBytes_eq_concat hne
    have hpos : last.toNat ≠ 0 := fun hzero => hlast (UInt8.toNat_inj.1 hzero)
    right
    rw [encodeScriptNum_signed negative hne hbytes]
    by_cases hhigh : 128 ≤ last.toNat
    · right
      rw [if_pos hhigh, List.dropLast_concat, List.getLastD_concat, and_high_ne_zero]
      exact hhigh
    · left
      rw [if_neg hhigh]
      split_ifs
      · rw [List.getLastD_concat, and_low_ne_zero, or_high_toNat (not_le.1 hhigh)]
        omega
      · rw [List.getLastD_concat, and_low_ne_zero]
        omega

/-- The last byte holds a part of the magnitude. -/
lemma encode_castToInt_of_low {init : Bytes} {last : UInt8} (hlow : last.toNat % 128 ≠ 0) :
    encodeScriptNum (castToInt (init ++ [last])) = init ++ [last] := by
  have hmask : (last &&& 0x7f).toNat = last.toNat % 128 := and_low_toNat last
  have hne : last &&& 0x7f ≠ 0 := (and_low_ne_zero last).2 hlow
  rw [castToInt_concat, ← hmask, ← leNat_concat,
    encodeScriptNum_signed _ (leNat_concat_ne_zero init hne) (numBytes_leNat hne),
    if_neg (by omega)]
  have hbyte := last.toNat_lt
  split_ifs with hhigh
  · have hor : last &&& 0x7f ||| 0x80 = last := by
      have := of_decide_eq_true hhigh
      rw [← UInt8.toNat_inj, or_high_toNat (by omega)]
      omega
    rw [hor]
  · have hand : last &&& 0x7f = last := by
      have : ¬128 ≤ last.toNat := by simpa using hhigh
      rw [← UInt8.toNat_inj]
      omega
    rw [hand]

/-- The last byte holds the sign alone. -/
lemma encode_castToInt_of_high {init : Bytes} {before last : UInt8} (hlow : last.toNat % 128 = 0)
    (hhigh : 128 ≤ before.toNat) :
    encodeScriptNum (castToInt (init ++ [before] ++ [last])) = init ++ [before] ++ [last] := by
  have hbyte := last.toNat_lt
  have hne : before ≠ 0 := by
    rintro rfl
    simp at hhigh
  have hsign : last = if decide (128 ≤ last.toNat) = true then 0x80 else 0x00 := by
    rw [← UInt8.toNat_inj]
    split_ifs with hneg
    · have := of_decide_eq_true hneg
      change last.toNat = 128
      omega
    · have : ¬128 ≤ last.toNat := by simpa using hneg
      change last.toNat = 0
      omega
  rw [castToInt_concat, hlow, Nat.mul_zero, Nat.add_zero,
    encodeScriptNum_signed _ (leNat_concat_ne_zero init hne) (numBytes_leNat hne), if_pos hhigh,
    ← hsign]

theorem encode_castToInt_iff (data : Bytes) :
    encodeScriptNum (castToInt data) = data ↔ MinimallyEncoded data := by
  constructor
  · intro h
    rw [← h]
    exact minimallyEncoded_encodeScriptNum _
  · rintro (rfl | hlow | hhigh)
    · rfl
    · rcases List.eq_nil_or_concat' data with rfl | ⟨init, last, rfl⟩
      · rfl
      · rw [List.getLastD_concat, and_low_ne_zero] at hlow
        exact encode_castToInt_of_low hlow
    · rcases List.eq_nil_or_concat' data with rfl | ⟨init, last, rfl⟩
      · rfl
      · rw [List.dropLast_concat] at hhigh
        rcases List.eq_nil_or_concat' init with rfl | ⟨init, before, rfl⟩
        · exact absurd rfl hhigh
        · rw [List.getLastD_concat, and_high_ne_zero] at hhigh
          by_cases hlow : last.toNat % 128 = 0
          · exact encode_castToInt_of_high hlow hhigh
          · exact encode_castToInt_of_low hlow

/-! The functions of the tapscript executor. -/
namespace Tapscript

lemma appendBytes_eq (out : Bytes) (n : ℕ) : appendBytes out n = out ++ numBytes n := by
  induction n using Nat.strong_induction_on generalizing out with
  | _ n ih =>
    unfold appendBytes
    split_ifs with hn
    · subst hn
      simp [numBytes]
    · have hshift : n >>> 8 = n / 256 := Nat.shiftRight_eq_div_pow n 8
      have hand : n &&& 0xFF = n % 256 := Nat.and_two_pow_sub_one_eq_mod n 8
      rw [hshift, hand, ih _ (by omega)]
      conv_rhs => rw [numBytes, Nat.digits_def' (by norm_num) (Nat.pos_of_ne_zero hn)]
      simp [numBytes]

theorem encodeScriptNum_eq (value : ℤ) :
    Tapscript.encodeScriptNum value = Script.encodeScriptNum value := by
  have habs : (if value < 0 then -value else value).toNat = value.natAbs := by
    split_ifs <;> omega
  simp only [Tapscript.encodeScriptNum, Script.encodeScriptNum, decide_eq_true_eq, habs,
    appendBytes_eq, List.nil_append]

/-- A bit above all others is taken away. -/
lemma ldiff_two_pow {c j : ℕ} (hc : c < 2 ^ j) : Nat.ldiff (2 ^ j + c) (2 ^ j) = c := by
  apply Nat.eq_of_testBit_eq
  intro i
  rw [Nat.testBit_ldiff, Nat.testBit_two_pow]
  rcases lt_trichotomy i j with hlt | rfl | hgt
  · rw [Nat.testBit_two_pow_add_gt hlt]
    simp [hlt.ne']
  · simp [Nat.testBit_lt_two_pow hc]
  · have hpow : 2 ^ (j + 1) ≤ 2 ^ i := Nat.pow_le_pow_right (by norm_num) hgt
    have hsum : 2 ^ j + c < 2 ^ i := by
      rw [pow_succ] at hpow
      omega
    rw [Nat.testBit_lt_two_pow hsum, Nat.testBit_lt_two_pow (by omega)]
    rfl

lemma clear_sign (init : Bytes) {last : UInt8} (hhigh : 128 ≤ last.toNat) :
    Nat.ldiff (leNat (init ++ [last])) (0x80 <<< (8 * init.length)) =
      leNat init + 256 ^ init.length * (last.toNat % 128) := by
  have hbyte := last.toNat_lt
  have hinit := leNat_lt init
  have hpow : (256 : ℕ) ^ init.length = 2 ^ (8 * init.length) := by
    rw [pow_mul]
    norm_num
  have hmask : 0x80 <<< (8 * init.length) = 2 ^ (8 * init.length + 7) := by
    rw [Nat.shiftLeft_eq, pow_add]
    ring
  have hsplit : leNat (init ++ [last]) =
      2 ^ (8 * init.length + 7) + (leNat init + 256 ^ init.length * (last.toNat % 128)) := by
    have hmod : last.toNat = 128 + last.toNat % 128 := by omega
    rw [leNat_concat, hpow, pow_add]
    conv_lhs => rw [hmod]
    ring
  rw [hmask, hsplit]
  apply ldiff_two_pow
  have hlow : last.toNat % 128 + 1 ≤ 128 := by omega
  have hmul := Nat.mul_le_mul_left (256 ^ init.length) hlow
  rw [pow_add, ← hpow]
  rw [Nat.mul_add, Nat.mul_one] at hmul
  omega

theorem decodeScriptNum_eq (data : Bytes) (maxSize : ℕ) :
    Tapscript.decodeScriptNum data maxSize =
      if maxSize < data.length then .error (.valueError "script number overflow")
      else .ok (castToInt data) := by
  unfold Tapscript.decodeScriptNum
  split_ifs with hsize hnil hhigh
  · rfl
  · rw [hnil]
    rfl
  · obtain ⟨init, last, rfl⟩ := (List.eq_nil_or_concat' data).resolve_left hnil
    rw [List.getLastD_concat, and_high_ne_zero] at hhigh
    rw [List.length_append, List.length_singleton, Nat.add_sub_cancel]
    dsimp only
    rw [clear_sign init hhigh, castToInt_concat, decide_eq_true hhigh]
    rfl
  · obtain ⟨init, last, rfl⟩ := (List.eq_nil_or_concat' data).resolve_left hnil
    rw [List.getLastD_concat, and_high_ne_zero] at hhigh
    rw [castToInt_concat, decide_eq_false hhigh, Nat.mod_eq_of_lt (not_le.1 hhigh), leNat_concat]
    rfl

end Tapscript

/-- Every number is read as it was written, exactly the minimal byte strings are written as they
were read, and the tapscript executor reads and writes as the engine does. -/
theorem scriptNum_round_trips :
    (∀ value, castToInt (encodeScriptNum value) = value) ∧
    (∀ data, encodeScriptNum (castToInt data) = data ↔ MinimallyEncoded data) ∧
    (∀ value, Tapscript.encodeScriptNum value = encodeScriptNum value) ∧
    ∀ data maxSize, Tapscript.decodeScriptNum data maxSize =
      if maxSize < data.length then .error (.valueError "script number overflow")
      else .ok (castToInt data) :=
  ⟨castToInt_encodeScriptNum, encode_castToInt_iff, Tapscript.encodeScriptNum_eq,
    Tapscript.decodeScriptNum_eq⟩

end BerzCoin.Script
