import BerzCoin.CryptoBech32Groups
import BerzCoin.XorRegister

/-! Bech32 texts: the decoder, and the checksum as a register that is linear in exclusive or. -/
namespace BerzCoin
namespace Bech32
open Numerals XorSum

def bech32VerifyChecksum (hrp : Text) (data : List ℕ) : Bool :=
  bech32Polymod (bech32HrpExpand hrp ++ data) = 1

/-- `text.rfind(char)` where the character occurs. -/
def rfind (text : Text) (char : Char) : ℕ := text.length - 1 - text.reverse.idxOf char

/-- `[BECH32_ALPHABET.index(c) for c in data]`, where `none` is the `ValueError`. -/
def alphabetIndices : Text → Option (List ℕ)
  | [] => some []
  | c :: data =>
    if c ∈ BECH32_ALPHABET then (alphabetIndices data).map (BECH32_ALPHABET.idxOf c :: ·) else none

/-- The decoder after the separator is found; `none` stands for three times `None`. -/
def decodeParts (hrp data : Text) : Except PyError (Option (Text × ℕ × Bytes)) :=
  if hrp.length < 1 ∨ 83 < hrp.length then .ok none
  else
    match alphabetIndices data with
    | none => .ok none
    | some decoded =>
      if !bech32VerifyChecksum hrp decoded then .ok none
      else
        match decoded.take (decoded.length - 6) with
        | [] => .error (.indexError "list index out of range")
        | witver :: rest =>
          if 16 < witver then .ok none
          else
            match convertbits rest 5 8 false with
            | none => .ok none
            | some witprog =>
              if witprog.length < 2 ∨ 40 < witprog.length then .ok none
              else .ok (some (hrp, witver, witprog.map UInt8.ofNat))

def bech32Decode (bech : Text) : Except PyError (Option (Text × ℕ × Bytes)) :=
  if bech.length < 8 ∨ 90 < bech.length then .ok none
  else if '1' ∉ bech then .ok none
  else decodeParts (bech.take (rfind bech '1')) (bech.drop (rfind bech '1' + 1))

/-! The polynomial step. -/

/-- The generator of a bit that is set. -/
def tap (b i : ℕ) : ℕ := if (b >>> i) &&& 1 = 1 then generator.getD i 0 else 0

/-- What the five upper bits of a state contribute to the next one. -/
def taps (b : ℕ) : ℕ := xorSum (tap b) (List.range 5)

lemma polymodStep_eq (chk v : ℕ) :
    polymodStep chk v = chk % 2 ^ 25 * 2 ^ 5 ^^^ v ^^^ taps (chk >>> 25) := by
  have hmask : chk &&& 0x1ffffff = chk % 2 ^ 25 := Nat.and_two_pow_sub_one_eq_mod chk 25
  rw [← Nat.shiftLeft_eq, ← hmask]
  exact foldl_xor (tap (chk >>> 25)) _ _

lemma tap_xor (a b i : ℕ) : tap (a ^^^ b) i = tap a i ^^^ tap b i := by
  have ha : (a >>> i) &&& 1 = 0 ∨ (a >>> i) &&& 1 = 1 := by
    rw [Nat.and_one_is_mod]
    omega
  have hb : (b >>> i) &&& 1 = 0 ∨ (b >>> i) &&& 1 = 1 := by
    rw [Nat.and_one_is_mod]
    omega
  rw [tap, Nat.shiftRight_xor_distrib, Nat.and_xor_distrib_right]
  obtain ha | ha := ha <;> obtain hb | hb := hb <;> simp [tap, ha, hb]

lemma taps_xor (a b : ℕ) : taps (a ^^^ b) = taps a ^^^ taps b := by
  unfold taps
  rw [← xorSum_xor]
  exact congrArg (xorSum · (List.range 5)) (funext (tap_xor a b))

lemma taps_lt (b : ℕ) : taps b < 2 ^ 30 := by
  have hgenerator : ∀ i ∈ List.range 5, generator.getD i 0 < 2 ^ 30 := by decide
  apply xorSum_lt
  intro i hi
  unfold tap
  split_ifs
  · exact hgenerator i hi
  · norm_num

/-- The generators are independent in their lowest five bits. -/
lemma eq_zero_of_taps {b : ℕ} (h : b < 32) (hzero : taps b % 32 = 0) : b = 0 := by
  have hall : ∀ b < 32, taps b % 32 = 0 → b = 0 := by decide +kernel
  exact hall b h hzero

lemma lower_xor (a b : ℕ) :
    (a ^^^ b) % 2 ^ 25 * 2 ^ 5 = a % 2 ^ 25 * 2 ^ 5 ^^^ b % 2 ^ 25 * 2 ^ 5 := by
  rw [Nat.xor_mod_two_pow, ← Nat.shiftLeft_eq, Nat.shiftLeft_xor_distrib, Nat.shiftLeft_eq,
    Nat.shiftLeft_eq]

lemma lower_lt (a : ℕ) : a % 2 ^ 25 * 2 ^ 5 < 2 ^ 30 := by
  have hlt := Nat.mod_lt a (Nat.two_pow_pos 25)
  omega

lemma polymodStep_zero (chk : ℕ) : polymodStep chk 0 = chk % 2 ^ 25 * 2 ^ 5 ^^^ taps (chk >>> 25) := by
  rw [polymodStep_eq, Nat.xor_zero]

/-- A state whose shift vanishes: its upper bits vanish as their taps do, and then the lower ones. -/
lemma eq_zero_of_polymodStep {chk : ℕ} (hlt : chk < 2 ^ 30) (h : polymodStep chk 0 = 0) : chk = 0 := by
  rw [polymodStep_zero] at h
  have hupper : chk >>> 25 = 0 := by
    apply eq_zero_of_taps
    · rw [Nat.shiftRight_eq_div_pow]
      omega
    · have hmod := congrArg (· % 2 ^ 5) h
      simp only [Nat.xor_mod_two_pow, Nat.mul_mod_left, Nat.zero_xor] at hmod
      exact hmod
  have hlower : chk % 2 ^ 25 * 2 ^ 5 = 0 := by
    have htaps : taps 0 = 0 := by decide
    rwa [hupper, htaps, Nat.xor_zero] at h
  rw [Nat.shiftRight_eq_div_pow] at hupper
  omega

/-- The register of the checksum. -/
def polymodRegister : XorRegister where
  width := 30
  shift chk := polymodStep chk 0
  shift_xor a b := by
    rw [polymodStep_zero, polymodStep_zero, polymodStep_zero, Nat.shiftRight_xor_distrib, taps_xor,
      lower_xor]
    ac_rfl
  shift_lt a := by
    rw [polymodStep_zero]
    exact Nat.xor_lt_two_pow (lower_lt a) (taps_lt _)
  eq_zero_of_shift _ := eq_zero_of_polymodStep

lemma bech32Polymod_eq (values : List ℕ) : bech32Polymod values = polymodRegister.run 1 values := by
  have hstep : polymodStep = polymodRegister.absorb := by
    funext chk v
    rw [XorRegister.absorb, polymodStep_eq]
    change _ = polymodStep chk 0 ^^^ v
    rw [polymodStep_zero]
    ac_rfl
  rw [bech32Polymod, hstep]
  rfl

/-! The six groups of a checksum. -/

lemma mul_xor {number group : ℕ} (h : group < 2 ^ 5) : number * 2 ^ 5 ^^^ group = number * 2 ^ 5 + group := by
  have hdiv : (number * 2 ^ 5 ^^^ group) / 2 ^ 5 = number := by
    rw [← Nat.shiftRight_eq_div_pow, Nat.shiftRight_xor_distrib, Nat.shiftRight_eq_div_pow,
      Nat.shiftRight_eq_div_pow, Nat.mul_div_cancel _ (Nat.two_pow_pos 5), Nat.div_eq_of_lt h,
      Nat.xor_zero]
  have hmod : (number * 2 ^ 5 ^^^ group) % 2 ^ 5 = group := by
    rw [Nat.xor_mod_two_pow, Nat.mul_mod_left, Nat.zero_xor, Nat.mod_eq_of_lt h]
  omega

lemma polymodStep_low {chk : ℕ} (h : chk < 2 ^ 25) : polymodStep chk 0 = chk * 2 ^ 5 := by
  have htaps : taps 0 = 0 := by decide
  rw [polymodStep_zero, Nat.shiftRight_eq_div_pow, Nat.div_eq_of_lt h, htaps, Nat.xor_zero,
    Nat.mod_eq_of_lt h]

/-- Six groups pass through the register unmixed. -/
lemma run_groups {groups : List ℕ} (hlength : groups.length ≤ 6) (hlt : ∀ group ∈ groups, group < 32) :
    polymodRegister.run 0 groups = value 32 groups := by
  induction groups using List.reverseRecOn with
  | nil => rfl
  | append_singleton groups group ih =>
    rw [List.length_append, List.length_singleton] at hlength
    have hgroups : ∀ g ∈ groups, g < 32 := fun g hg => hlt g (by simp [hg])
    have hgroup : group < 2 ^ 5 := hlt group (by simp)
    have hbound : value 32 groups < 2 ^ 25 := by
      have hpow : 32 ^ groups.length ≤ 32 ^ 5 := Nat.pow_le_pow_right (by norm_num) (by omega)
      exact lt_of_lt_of_le (value_lt hgroups) hpow
    rw [XorRegister.run_append, ih (by omega) hgroups, value_snoc]
    change polymodStep (value 32 groups) 0 ^^^ group = _
    rw [polymodStep_low hbound, mul_xor hgroup]
    rfl

/-- A state in six groups. -/
def stateGroups (state : ℕ) : List ℕ := (List.range 6).map fun i => (state >>> (5 * (5 - i))) &&& 31

lemma stateGroups_eq (state : ℕ) :
    stateGroups state = [state / 2 ^ 25 % 32, state / 2 ^ 20 % 32, state / 2 ^ 15 % 32,
      state / 2 ^ 10 % 32, state / 2 ^ 5 % 32, state % 32] := by
  have hgroup (n : ℕ) : (state >>> n) &&& 31 = state / 2 ^ n % 32 := by
    rw [Nat.shiftRight_eq_div_pow]
    exact Nat.and_two_pow_sub_one_eq_mod _ 5
  simp only [stateGroups, List.range_succ, List.range_zero, List.nil_append, List.map_cons, List.map_nil,
    List.cons_append, Nat.sub_zero, Nat.reduceSub, Nat.reduceMul, hgroup, pow_zero, Nat.div_one]

lemma stateGroups_lt (state : ℕ) : ∀ group ∈ stateGroups state, group < 32 := by
  rw [stateGroups_eq]
  simp only [List.mem_cons, List.not_mem_nil, or_false]
  omega

lemma value_stateGroups {state : ℕ} (h : state < 2 ^ 30) : value 32 (stateGroups state) = state := by
  rw [stateGroups_eq]
  simp only [value, List.foldl_cons, List.foldl_nil]
  omega

lemma length_stateGroups (state : ℕ) : (stateGroups state).length = 6 := by
  rw [stateGroups, List.length_map, List.length_range]

/-- Six groups verify after some values if and only if they are the checksum of these. -/
lemma polymod_eq_one_iff (values : List ℕ) {groups : List ℕ} (hlength : groups.length = 6)
    (hlt : ∀ group ∈ groups, group < 32) :
    bech32Polymod (values ++ groups) = 1 ↔
      groups = stateGroups (bech32Polymod (values ++ [0, 0, 0, 0, 0, 0]) ^^^ 1) := by
  obtain ⟨state, hstate⟩ : ∃ state, bech32Polymod (values ++ [0, 0, 0, 0, 0, 0]) = state := ⟨_, rfl⟩
  have hbound : state < 2 ^ 30 := by
    rw [← hstate, bech32Polymod_eq]
    have hzeros : values ++ [0, 0, 0, 0, 0, 0] = (values ++ [0, 0, 0, 0, 0]) ++ [0] := by simp
    rw [hzeros, XorRegister.run_append]
    change polymodRegister.shift _ ^^^ 0 < 2 ^ 30
    rw [Nat.xor_zero]
    exact polymodRegister.shift_lt _
  have hsplit : bech32Polymod (values ++ groups) = state ^^^ value 32 groups := by
    have hzeros := polymodRegister.run_eq_zeros (polymodRegister.run 1 values) groups
    rw [hlength, run_groups hlength.le hlt] at hzeros
    rw [bech32Polymod_eq, XorRegister.run_append, hzeros, ← hstate, bech32Polymod_eq,
      XorRegister.run_append]
    rfl
  have hone : state ^^^ 1 < 2 ^ 30 := Nat.xor_lt_two_pow hbound (by norm_num)
  rw [hsplit, hstate]
  constructor
  · intro heq
    apply value_inj (by norm_num) (hlength.trans (length_stateGroups _).symm) hlt (stateGroups_lt _)
    rw [value_stateGroups hone, ← heq, ← Nat.xor_assoc, Nat.xor_self, Nat.zero_xor]
  · intro heq
    rw [heq, value_stateGroups hone, ← Nat.xor_assoc, Nat.xor_self, Nat.zero_xor]

lemma verifyChecksum_iff (hrp : Text) (data : List ℕ) {groups : List ℕ} (hlength : groups.length = 6)
    (hlt : ∀ group ∈ groups, group < 32) :
    bech32VerifyChecksum hrp (data ++ groups) = true ↔ groups = bech32CreateChecksum hrp data := by
  rw [bech32VerifyChecksum, decide_eq_true_iff, ← List.append_assoc, polymod_eq_one_iff _ hlength hlt]
  rfl

/-! The characters of a text. -/

/-- The character of a group. -/
def charOf (group : ℕ) : Char := BECH32_ALPHABET.getD group 'q'

lemma index_charOf {group : ℕ} (h : group < 32) :
    charOf group ∈ BECH32_ALPHABET ∧ BECH32_ALPHABET.idxOf (charOf group) = group := by
  have hnodup : BECH32_ALPHABET.Nodup := by decide
  exact idxOf_getD 'q' hnodup h

lemma charOf_index {char : Char} (h : char ∈ BECH32_ALPHABET) :
    BECH32_ALPHABET.idxOf char < 32 ∧ charOf (BECH32_ALPHABET.idxOf char) = char := by
  have hlength : BECH32_ALPHABET.length = 32 := by decide
  rw [← hlength]
  exact getD_idxOf 'q' h

lemma alphabetIndices_map {groups : List ℕ} (h : ∀ group ∈ groups, group < 32) :
    alphabetIndices (groups.map charOf) = some groups := by
  induction groups with
  | nil => rfl
  | cons group groups ih =>
    have hgroup := index_charOf (h group (by simp))
    rw [List.map_cons, alphabetIndices, if_pos hgroup.1, ih fun g hg => h g (by simp [hg]),
      Option.map_some, hgroup.2]

lemma alphabetIndices_some {data : Text} {groups : List ℕ} (h : alphabetIndices data = some groups) :
    data = groups.map charOf ∧ ∀ group ∈ groups, group < 32 := by
  induction data generalizing groups with
  | nil =>
    obtain rfl := Option.some.inj h
    exact ⟨rfl, by simp⟩
  | cons char data ih =>
    rw [alphabetIndices] at h
    split_ifs at h with hchar
    obtain ⟨rest, hrest, rfl⟩ := Option.map_eq_some_iff.1 h
    obtain ⟨hdata, hlt⟩ := ih hrest
    obtain ⟨hindex, hcharOf⟩ := charOf_index hchar
    refine ⟨by rw [List.map_cons, hcharOf, ← hdata], ?_⟩
    intro group hgroup
    cases List.mem_cons.1 hgroup with
    | inl heq => exact heq ▸ hindex
    | inr hmem => exact hlt group hmem

lemma one_not_mem_map {groups : List ℕ} (h : ∀ group ∈ groups, group < 32) : '1' ∉ groups.map charOf := by
  intro hmem
  obtain ⟨group, hgroup, hchar⟩ := List.mem_map.1 hmem
  have halphabet := (index_charOf (h group hgroup)).1
  rw [hchar] at halphabet
  revert halphabet
  decide

/-! The separator. -/

lemma rfind_append (hrp : Text) {data : Text} (h : '1' ∉ data) : rfind (hrp ++ '1' :: data) '1' = hrp.length := by
  have hreverse : (hrp ++ '1' :: data).reverse = data.reverse ++ '1' :: hrp.reverse := by simp
  have hnot : '1' ∉ data.reverse := by simpa using h
  rw [rfind, hreverse, List.idxOf_append_of_notMem hnot, List.idxOf_cons_self, List.length_append,
    List.length_cons, List.length_reverse]
  omega

/-- A text with a separator, at the last one. -/
lemma exists_separator {bech : Text} (h : '1' ∈ bech) : ∃ hrp data, bech = hrp ++ '1' :: data ∧ '1' ∉ data := by
  obtain ⟨before, after, hsplit, hnot⟩ := List.eq_append_cons_of_mem (List.mem_reverse.2 h)
  refine ⟨after.reverse, before.reverse, ?_, by simpa using hnot⟩
  rw [← List.reverse_reverse bech, hsplit]
  simp

lemma bech32Decode_append {hrp data : Text} (h : '1' ∉ data) :
    bech32Decode (hrp ++ '1' :: data) =
      if (hrp ++ '1' :: data).length < 8 ∨ 90 < (hrp ++ '1' :: data).length then .ok none
      else decodeParts hrp data := by
  have hmem : ¬ '1' ∉ hrp ++ '1' :: data := not_not.2 (by simp)
  rw [bech32Decode, if_neg hmem, rfind_append hrp h]
  simp

/-! Encoding and decoding. -/
section roundtrip
variable {hrp data bech : Text} {witver : ℕ} {witprog : Bytes}

/-- The text with these groups after the separator. -/
def textOf (hrp : Text) (data : List ℕ) : Text :=
  hrp ++ '1' :: (data ++ bech32CreateChecksum hrp data).map charOf

lemma bech32Encode_eq {groups : List ℕ} (hver : witver ≤ 16)
    (hprog : 2 ≤ witprog.length ∧ witprog.length ≤ 40)
    (hgroups : convertbits (witprog.map UInt8.toNat) 8 5 true = some groups) :
    bech32Encode hrp witver witprog = .ok (textOf hrp (witver :: groups)) := by
  rw [bech32Encode, if_neg (by omega), if_neg (by omega), hgroups]
  simp only [textOf, List.append_assoc, List.singleton_append]
  rfl

lemma checksum_lt (hrp : Text) (data : List ℕ) : ∀ group ∈ bech32CreateChecksum hrp data, group < 32 :=
  stateGroups_lt _

lemma length_checksum (hrp : Text) (data : List ℕ) : (bech32CreateChecksum hrp data).length = 6 :=
  length_stateGroups _

lemma groups_lt {groups : List ℕ} (hver : witver ≤ 16) (hlt : ∀ group ∈ groups, group < 32) :
    ∀ group ∈ (witver :: groups) ++ bech32CreateChecksum hrp (witver :: groups), group < 32 := by
  intro group hgroup
  cases List.mem_append.1 hgroup with
  | inl hdata =>
    cases List.mem_cons.1 hdata with
    | inl heq => omega
    | inr hmem => exact hlt group hmem
  | inr hchecksum => exact checksum_lt _ _ group hchecksum

/-- The decoder on a witness version, groups and their checksum. -/
lemma decodeParts_groups {groups out : List ℕ} (hhrp : 1 ≤ hrp.length ∧ hrp.length ≤ 83)
    (hver : witver ≤ 16) (hlt : ∀ group ∈ groups, group < 32)
    (hout : convertbits groups 5 8 false = some out) (hlength : 2 ≤ out.length ∧ out.length ≤ 40) :
    decodeParts hrp (((witver :: groups) ++ bech32CreateChecksum hrp (witver :: groups)).map charOf) =
      .ok (some (hrp, witver, out.map UInt8.ofNat)) := by
  have hverify := (verifyChecksum_iff hrp (witver :: groups) (length_checksum hrp (witver :: groups))
    (checksum_lt _ _)).2 rfl
  have htake : ((witver :: groups) ++ bech32CreateChecksum hrp (witver :: groups)).take
      (((witver :: groups) ++ bech32CreateChecksum hrp (witver :: groups)).length - 6) =
        witver :: groups := by
    rw [List.length_append, length_checksum, Nat.add_sub_cancel, List.take_left]
  rw [decodeParts, if_neg (by omega), alphabetIndices_map (groups_lt hver hlt)]
  simp only [hverify, htake, Bool.not_true, Bool.false_eq_true, if_false, hout]
  rw [if_neg (by omega), if_neg (by omega)]

lemma toNat_lt (data : Bytes) : ∀ value ∈ data.map UInt8.toNat, value < 2 ^ 8 := by
  intro value hvalue
  obtain ⟨b, -, rfl⟩ := List.mem_map.1 hvalue
  exact b.toNat_lt

/-- A program of at most 40 bytes after a short prefix. -/
lemma decode_encode (hhrp : 1 ≤ hrp.length ∧ hrp.length ≤ 18) (hver : witver ≤ 16)
    (hprog : 2 ≤ witprog.length ∧ witprog.length ≤ 40) :
    ∃ text, bech32Encode hrp witver witprog = .ok text ∧
      bech32Decode text = .ok (some (hrp, witver, witprog)) := by
  obtain ⟨groups, filled, hgroups, hfilled, hlt, hcount, -⟩ :=
    convertbits_pad (show 0 < 5 by norm_num) (toNat_lt witprog)
  have hback := convertbits_back (by norm_num) (by norm_num) (toNat_lt witprog) hgroups
  have hbytes : (witprog.map UInt8.toNat).map UInt8.ofNat = witprog := by
    simp [Function.comp_def]
  rw [List.length_map] at hcount
  refine ⟨_, bech32Encode_eq hver hprog hgroups, ?_⟩
  rw [textOf, bech32Decode_append (one_not_mem_map (groups_lt hver hlt)),
    decodeParts_groups ⟨hhrp.1, by omega⟩ hver hlt hback (by rwa [List.length_map]), hbytes, if_neg]
  simp only [List.length_append, List.length_cons, List.length_map, length_checksum]
  omega

/-- A decoded text without its last six groups, which verify. -/
lemma split_checksum {decoded rest : List ℕ} (hlt : ∀ group ∈ decoded, group < 32)
    (hverify : bech32VerifyChecksum hrp decoded = true)
    (htake : decoded.take (decoded.length - 6) = witver :: rest) :
    decoded = (witver :: rest) ++ bech32CreateChecksum hrp (witver :: rest) := by
  have hsplit := List.take_append_drop (decoded.length - 6) decoded
  have hlength : (decoded.drop (decoded.length - 6)).length = 6 := by
    have htakeLength := congrArg List.length htake
    simp only [List.length_take, List.length_cons] at htakeLength
    rw [List.length_drop]
    omega
  rw [← hsplit, htake] at hverify
  have hchecksum := (verifyChecksum_iff hrp _ hlength
    fun group hgroup => hlt group (List.mem_of_mem_drop hgroup)).1 hverify
  rw [← hchecksum, ← htake, hsplit]

/-- A checksum that verifies, with nothing to check before it. -/
def OnlyChecksumParts (hrp data : Text) : Prop :=
  (1 ≤ hrp.length ∧ hrp.length ≤ 83) ∧ data.length ≤ 6 ∧
    ∃ groups, alphabetIndices data = some groups ∧ bech32VerifyChecksum hrp groups = true

/-- The groups of an accepted text. -/
structure Accepted (hrp data : Text) (witver : ℕ) (groups out : List ℕ) : Prop where
  data_eq : data = ((witver :: groups) ++ bech32CreateChecksum hrp (witver :: groups)).map charOf
  version : witver ≤ 16
  lt : ∀ group ∈ groups, group < 32
  converted : convertbits groups 5 8 false = some out
  length : 2 ≤ out.length ∧ out.length ≤ 40

lemma length_of_alphabetIndices {groups : List ℕ} (h : alphabetIndices data = some groups) :
    groups.length = data.length := by
  rw [(alphabetIndices_some h).1, List.length_map]

/-- All that the decoder can return for a text. -/
lemma decodeParts_cases (hrp data : Text) :
    decodeParts hrp data = .ok none ∨
      (OnlyChecksumParts hrp data ∧ decodeParts hrp data = .error (.indexError "list index out of range")) ∨
      ∃ witver groups out, Accepted hrp data witver groups out ∧
        decodeParts hrp data = .ok (some (hrp, witver, out.map UInt8.ofNat)) := by
  by_cases hhrp : hrp.length < 1 ∨ 83 < hrp.length
  · exact .inl (by rw [decodeParts, if_pos hhrp])
  cases hindices : alphabetIndices data with
  | none => exact .inl (by rw [decodeParts, if_neg hhrp, hindices])
  | some decoded =>
    have hlt := (alphabetIndices_some hindices).2
    cases hverify : bech32VerifyChecksum hrp decoded with
    | false => exact .inl (by simp [decodeParts, hindices, hverify])
    | true =>
      cases htake : decoded.take (decoded.length - 6) with
      | nil =>
        right
        left
        have hnil := List.take_eq_nil_iff.1 htake
        have hlength : decoded.length ≤ 6 := by
          cases hnil with
          | inl hzero => omega
          | inr hempty => simp [hempty]
        rw [length_of_alphabetIndices hindices] at hlength
        refine ⟨⟨by omega, hlength, decoded, hindices, hverify⟩, ?_⟩
        rw [decodeParts, if_neg hhrp]
        simp only [hindices, hverify, htake, Bool.not_true, Bool.false_eq_true, if_false]
      | cons witver groups =>
        have hdecoded := split_checksum hlt hverify htake
        have hgroups : ∀ group ∈ groups, group < 32 := fun group hgroup =>
          hlt group (List.mem_of_mem_take (htake ▸ List.mem_cons_of_mem _ hgroup))
        by_cases hver : 16 < witver
        · exact .inl (by simp [decodeParts, hindices, hverify, htake, hver])
        cases hout : convertbits groups 5 8 false with
        | none => exact .inl (by simp [decodeParts, hindices, hverify, htake, hver, hout])
        | some out =>
          have hrest : decodeParts hrp data =
              if out.length < 2 ∨ 40 < out.length then .ok none
              else .ok (some (hrp, witver, out.map UInt8.ofNat)) := by
            simp only [decodeParts, hhrp, hindices, hverify, htake, hver, hout, Bool.not_true,
              Bool.false_eq_true, if_false]
          by_cases hlength : out.length < 2 ∨ 40 < out.length
          · exact .inl (by rw [hrest, if_pos hlength])
          right
          right
          refine ⟨witver, groups, out, ⟨?_, by omega, hgroups, hout, by omega⟩, ?_⟩
          · rw [← hdecoded]
            exact (alphabetIndices_some hindices).1
          · rw [hrest, if_neg hlength]

/-- What the decoder has checked when it returns a program. -/
lemma decodeParts_some {result : Text × ℕ × Bytes} (h : decodeParts hrp data = .ok (some result)) :
    ∃ witver groups out, Accepted hrp data witver groups out ∧
      result = (hrp, witver, out.map UInt8.ofNat) := by
  obtain hnone | ⟨-, herror⟩ | ⟨witver, groups, out, haccepted, hsome⟩ := decodeParts_cases hrp data
  · rw [h] at hnone
    cases hnone
  · rw [h] at herror
    cases herror
  · exact ⟨witver, groups, out, haccepted, Option.some.inj (Except.ok.inj (h.symm.trans hsome))⟩

/-- Where the witness version is missing. -/
lemma decodeParts_error_iff :
    (∃ e, decodeParts hrp data = .error e) ↔ OnlyChecksumParts hrp data := by
  constructor
  · rintro ⟨e, h⟩
    obtain hnone | ⟨hparts, -⟩ | ⟨_, _, _, -, hsome⟩ := decodeParts_cases hrp data
    · rw [h] at hnone
      cases hnone
    · exact hparts
    · rw [h] at hsome
      cases hsome
  · rintro ⟨hhrp, hlength, groups, hindices, hverify⟩
    have hnil : groups.take (groups.length - 6) = [] := by
      rw [length_of_alphabetIndices hindices, Nat.sub_eq_zero_of_le hlength, List.take_zero]
    have hbounds : ¬ (hrp.length < 1 ∨ 83 < hrp.length) := by omega
    refine ⟨.indexError "list index out of range", ?_⟩
    rw [decodeParts, if_neg hbounds]
    simp only [hindices, hverify, hnil, Bool.not_true, Bool.false_eq_true, if_false]

/-- A text of another length or without separator is not accepted. -/
lemma bech32Decode_cases (bech : Text) :
    bech32Decode bech = .ok none ∨ (8 ≤ bech.length ∧ bech.length ≤ 90) ∧
      ∃ hrp data, bech = hrp ++ '1' :: data ∧ '1' ∉ data ∧ bech32Decode bech = decodeParts hrp data := by
  by_cases hlength : bech.length < 8 ∨ 90 < bech.length
  · exact .inl (by rw [bech32Decode, if_pos hlength])
  by_cases hone : '1' ∈ bech
  · obtain ⟨hrp, data, rfl, hnot⟩ := exists_separator hone
    exact .inr ⟨by omega, hrp, data, rfl, hnot, by rw [bech32Decode_append hnot, if_neg hlength]⟩
  · exact .inl (by rw [bech32Decode, if_neg hlength, if_pos hone])

/-- An accepted text, split at the separator. -/
lemma bech32Decode_some {result : Text × ℕ × Bytes} (h : bech32Decode bech = .ok (some result)) :
    ∃ hrp data, bech = hrp ++ '1' :: data ∧ '1' ∉ data ∧ decodeParts hrp data = .ok (some result) := by
  obtain hnone | ⟨-, hrp, data, hsplit, hnot, hparts⟩ := bech32Decode_cases bech
  · rw [h] at hnone
    cases hnone
  · exact ⟨hrp, data, hsplit, hnot, hparts.symm.trans h⟩

/-- An accepted text is the encoding of what it decodes to. -/
lemma encode_of_decode (h : bech32Decode bech = .ok (some (hrp, witver, witprog))) :
    bech32Encode hrp witver witprog = .ok bech := by
  obtain ⟨hrp', data, rfl, -, hparts⟩ := bech32Decode_some h
  obtain ⟨witver', groups, out, ⟨rfl, hver, hlt, hout, hlength⟩, hresult⟩ := decodeParts_some hparts
  obtain ⟨rfl, rfl, rfl⟩ : hrp = hrp' ∧ witver = witver' ∧ witprog = out.map UInt8.ofNat := by
    simpa using hresult
  obtain ⟨hback, hbytes⟩ := convertbits_forth (by norm_num) (by norm_num) hlt hout
  have hmap : (out.map UInt8.ofNat).map UInt8.toNat = out := by
    have hid : out.map (UInt8.toNat ∘ UInt8.ofNat) = out.map id := by
      apply List.map_congr_left
      intro value hvalue
      have hsmall := hbytes value hvalue
      simpa using hsmall
    rw [List.map_map, hid, List.map_id]
  exact bech32Encode_eq hver (by rwa [List.length_map]) (by rw [hmap]; exact hback)

/-- Every witness program survives the way through its text. -/
theorem roundtrip (hhrp : hrp ∈ ["bc".toList, "tb".toList, "bcrt".toList]) (hver : witver ≤ 16)
    (hprog : 2 ≤ witprog.length ∧ witprog.length ≤ 40) :
    ∃ text, bech32Encode hrp witver witprog = .ok text ∧
      bech32Decode text = .ok (some (hrp, witver, witprog)) := by
  apply decode_encode _ hver hprog
  have hlengths : ∀ hrp ∈ ["bc".toList, "tb".toList, "bcrt".toList], 1 ≤ hrp.length ∧ hrp.length ≤ 18 := by
    decide
  exact hlengths hrp hhrp

/-- The program of the version 0 address of the generator point. -/
def generatorProgram : Bytes := beBytes 20 0x751e76e8199196d454941c45d1b3a323f1433bd6

theorem roundtrip_generator :
    ∃ text, bech32Encode "bc".toList 0 generatorProgram = .ok text ∧
      bech32Decode text = .ok (some ("bc".toList, 0, generatorProgram)) :=
  roundtrip (by decide) (by decide) (by decide)

/-- A text of admitted length whose checksum verifies, with nothing before it. -/
def OnlyChecksum (bech : Text) : Prop :=
  (8 ≤ bech.length ∧ bech.length ≤ 90) ∧
    ∃ hrp data, bech = hrp ++ '1' :: data ∧ '1' ∉ data ∧ OnlyChecksumParts hrp data

lemma bech32Decode_error_iff : (∃ e, bech32Decode bech = .error e) ↔ OnlyChecksum bech := by
  constructor
  · rintro ⟨e, h⟩
    obtain hnone | ⟨hlength, hrp, data, hsplit, hnot, hparts⟩ := bech32Decode_cases bech
    · rw [h] at hnone
      cases hnone
    · exact ⟨hlength, hrp, data, hsplit, hnot, decodeParts_error_iff.1 ⟨e, hparts.symm.trans h⟩⟩
  · rintro ⟨hlength, hrp, data, rfl, hnot, hparts⟩
    rw [bech32Decode_append hnot, if_neg (by omega)]
    exact decodeParts_error_iff.2 hparts

/-- The decoder returns for every text with more than a checksum, and what it accepts is the
one encoding of its result. -/
theorem decode_canonical_iff (bech : Text) :
    (∃ result, bech32Decode bech = .ok result ∧
      ∀ hrp witver witprog, result = some (hrp, witver, witprog) →
        bech32Encode hrp witver witprog = .ok bech) ↔ ¬ OnlyChecksum bech := by
  rw [← bech32Decode_error_iff]
  constructor
  · rintro ⟨result, hok, -⟩ ⟨e, herror⟩
    rw [hok] at herror
    cases herror
  · intro hreturns
    cases hdecode : bech32Decode bech with
    | error e => exact absurd ⟨e, hdecode⟩ hreturns
    | ok result =>
      refine ⟨result, rfl, ?_⟩
      rintro hrp witver witprog rfl
      exact encode_of_decode hdecode

/-- The shortest text with a checksum that verifies. -/
theorem only_checksum_raises :
    bech32Decode "a12uel5l".toList = .error (.indexError "list index out of range") ∧
      ¬ ∃ result, bech32Decode "a12uel5l".toList = .ok result ∧
        ∀ hrp witver witprog, result = some (hrp, witver, witprog) →
          bech32Encode hrp witver witprog = .ok "a12uel5l".toList := by
  have herror : bech32Decode "a12uel5l".toList = .error (.indexError "list index out of range") := by
    decide +kernel
  refine ⟨herror, ?_⟩
  rintro ⟨result, hok, -⟩
  rw [herror] at hok
  cases hok

/-! One substituted character. -/

lemma decodeParts_of_checksum {groups : List ℕ} (hindices : alphabetIndices data = some groups)
    (hverify : bech32VerifyChecksum hrp groups = false) : decodeParts hrp data = .ok none := by
  unfold decodeParts
  split_ifs
  · rfl
  · simp only [hindices, hverify, Bool.not_false, if_true]

/-- Another group at one place does not verify. -/
lemma verify_substitute {before after : List ℕ} {group group' : ℕ} (hne : group ≠ group')
    (hlt : group < 32) (hlt' : group' < 32)
    (h : bech32VerifyChecksum hrp (before ++ group :: after) = true) :
    bech32VerifyChecksum hrp (before ++ group' :: after) = false := by
  have hsubstitute := polymodRegister.run_substitute 1 (bech32HrpExpand hrp ++ before) after hne
    (hlt.trans (by decide)) (hlt'.trans (by decide))
  rw [bech32VerifyChecksum, decide_eq_true_iff, bech32Polymod_eq, ← List.append_assoc] at h
  rw [bech32VerifyChecksum, decide_eq_false_iff_not, bech32Polymod_eq, ← List.append_assoc]
  intro hone
  exact hsubstitute (hone.trans h.symm)

lemma Accepted.verifies {groups out : List ℕ} (h : Accepted hrp data witver groups out) :
    ∃ decoded, data = decoded.map charOf ∧ (∀ group ∈ decoded, group < 32) ∧
      bech32VerifyChecksum hrp decoded = true :=
  ⟨_, h.data_eq, groups_lt h.version h.lt,
    (verifyChecksum_iff hrp _ (length_checksum _ _) (checksum_lt _ _)).2 rfl⟩

lemma set_after_separator {α : Type} (pre : List α) (separator : α) (rest : List α) (j : ℕ) (a : α) :
    (pre ++ separator :: rest).set (pre.length + j + 1) a = pre ++ separator :: rest.set j a := by
  rw [List.set_append_right _ _ (by omega), Nat.add_assoc, Nat.add_sub_cancel_left, List.set_cons_succ]

/-- A text that differs from an accepted one in one character after the separator is not
accepted. -/
theorem substitution_detected {result : Text × ℕ × Bytes} (h : bech32Decode bech = .ok (some result))
    {i : ℕ} (hi : rfind bech '1' < i) (hlt : i < bech.length) {c : Char} (hc : c ∈ BECH32_ALPHABET)
    (hne : bech[i] ≠ c) : bech32Decode (bech.set i c) = .ok none := by
  obtain ⟨hrp, data, rfl, hnot, hparts⟩ := bech32Decode_some h
  obtain ⟨witver, groups, out, haccepted, -⟩ := decodeParts_some hparts
  obtain ⟨decoded, rfl, hdecoded, hverify⟩ := haccepted.verifies
  rw [rfind_append hrp hnot] at hi
  obtain ⟨j, rfl⟩ := Nat.exists_eq_add_of_lt hi
  have hj : j < decoded.length := by
    simp only [List.length_append, List.length_cons, List.length_map] at hlt
    omega
  have hchar : (hrp ++ '1' :: decoded.map charOf)[hrp.length + j + 1] = charOf decoded[j] := by
    simp [List.getElem_append_right, Nat.add_assoc]
  rw [hchar] at hne
  obtain ⟨group', hgroup', rfl⟩ : ∃ group', group' < 32 ∧ charOf group' = c := ⟨_, charOf_index hc⟩
  have hgroup : decoded[j] ≠ group' := fun heq => hne (congrArg charOf heq)
  have hset : (hrp ++ '1' :: decoded.map charOf).set (hrp.length + j + 1) (charOf group') =
      hrp ++ '1' :: (decoded.set j group').map charOf := by
    rw [List.map_set]
    exact set_after_separator hrp '1' _ j _
  have hlt' : ∀ group ∈ decoded.set j group', group < 32 := by
    intro group hmem
    cases List.mem_or_eq_of_mem_set hmem with
    | inl hold => exact hdecoded group hold
    | inr hnew => exact hnew ▸ hgroup'
  have hsplit : decoded = decoded.take j ++ decoded[j] :: decoded.drop (j + 1) := by
    rw [List.getElem_cons_drop, List.take_append_drop]
  rw [hsplit] at hverify
  have hrefused := verify_substitute hgroup (hdecoded _ (List.getElem_mem hj)) hgroup' hverify
  have hsetSplit := @List.set_eq_take_append_cons_drop _ decoded j group'
  rw [if_pos hj] at hsetSplit
  rw [← hsetSplit] at hrefused
  rw [hset, bech32Decode_append (one_not_mem_map hlt'),
    decodeParts_of_checksum (alphabetIndices_map hlt') hrefused, ite_self]

/-- The last character is another. -/
theorem substitution_detected_generator :
    bech32Decode ("bc1qw508d6qejxtdg4y5r3zarvary0c5xw7kv8f3t4".toList.set 41 '5') = .ok none := by
  have haccepted : bech32Decode "bc1qw508d6qejxtdg4y5r3zarvary0c5xw7kv8f3t4".toList =
      .ok (some ("bc".toList, 0, generatorProgram)) := by
    decide +kernel
  exact substitution_detected haccepted (by decide) (by decide) (by decide) (by decide)

end roundtrip
end Bech32
end BerzCoin
