import BerzCoin.BigEndian
import BerzCoin.ConsensusPow

/-! Compact targets: what `get_bits` writes and `decode_compact` reads. -/
namespace BerzCoin

section bytes

lemma beNat_append (data data' : Bytes) :
    beNat (data ++ data') = beNat data * 256 ^ data'.length + beNat data' := by
  simp only [beNat, List.reverse_append, leNat_append, List.length_reverse]
  ring

/-- The first bytes of a number are its quotient by the weight of the others. -/
lemma beNat_take (data : Bytes) (n : ℕ) :
    beNat (data.take n) = beNat data / 256 ^ (data.length - n) := by
  have hsplit := beNat_append (data.take n) (data.drop n)
  rw [List.take_append_drop, List.length_drop] at hsplit
  have hlt := beNat_lt (data.drop n)
  rw [List.length_drop] at hlt
  rw [hsplit, Nat.mul_comm, Nat.mul_add_div (by positivity), Nat.div_eq_of_lt hlt, Nat.add_zero]

lemma beNat_zeros_append (n : ℕ) (data : Bytes) :
    beNat (List.replicate n 0 ++ data) = beNat data := by
  induction n with
  | zero => rfl
  | succ n ih =>
    rw [List.replicate_succ, List.cons_append, beNat_cons, ih]
    simp

/-- A wider field has leading zeros. -/
lemma beBytes_add (m : ℕ) {n t : ℕ} (h : t < 256 ^ n) :
    beBytes (m + n) t = List.replicate m 0 ++ beBytes n t := by
  have hvalue : beNat (List.replicate m 0 ++ beBytes n t) = t := by
    rw [beNat_zeros_append, beNat_beBytes h]
  have hbytes := beBytes_beNat (List.replicate m 0 ++ beBytes n t)
  rwa [hvalue, List.length_append, List.length_replicate, beBytes_length] at hbytes

/-- The bytes before the first that is not zero. -/
lemma takeWhile_beBytes {width t : ℕ} (ht : t ≠ 0) (h : t < 256 ^ width) :
    (beBytes width t).takeWhile (· = 0) = List.replicate (width - byteLength t) 0 := by
  have hle : byteLength t ≤ width := byteLength_le_iff.2 h
  obtain ⟨b, bs, hbytes, hb⟩ := beBytes_byteLength ht
  have hwidth : width = (width - byteLength t) + byteLength t := by omega
  conv_lhs => rw [hwidth, beBytes_add _ (lt_pow_byteLength t), hbytes]
  rw [List.takeWhile_append_of_pos]
  · simp [hb]
  · intro x hx
    simpa using List.eq_of_mem_replicate hx

lemma byteLength_eq {n t : ℕ} (hlow : 256 ^ n ≤ t) (hhigh : t < 256 ^ (n + 1)) :
    byteLength t = n + 1 := by
  have hle := byteLength_le_iff.2 hhigh
  have hnot : ¬ byteLength t ≤ n := by
    rw [byteLength_le_iff]
    omega
  omega

end bytes

namespace ProofOfWork

inductive CompactReason
  | zero_target
  | negative_compact
  | overflow_compact
  | target_above_pow_limit
  | non_canonical_compact
  deriving DecidableEq, Repr

variable (params : ConsensusParams)

def decodeCompact (bits : ℕ) (requireCanonical : Bool) : Except CompactReason ℕ :=
  let exponent := bits >>> 24
  let coefficient := bits &&& 0x007fffff
  let target := shiftedCoefficient exponent coefficient
  if coefficient = 0 then .error .zero_target
  else if bits &&& 0x00800000 ≠ 0 then .error .negative_compact
  else if 34 < exponent ∨ (0xFF < coefficient ∧ 33 < exponent) ∨
      (0xFFFF < coefficient ∧ 32 < exponent) then .error .overflow_compact
  else if target = 0 then .error .zero_target
  else if params.powLimit < target then .error .target_above_pow_limit
  else if requireCanonical ∧ getBits params target ≠ bits then .error .non_canonical_compact
  else .ok target

/-- `get_target` is the decoded target, or 0. -/
lemma getTarget_eq (bits : UInt32) :
    getTarget params bits = match decodeCompact params bits.toNat false with
      | .ok target => target
      | .error _ => 0 := by
  unfold getTarget decodeCompact
  simp only [Bool.false_eq_true, false_and, if_false]
  split_ifs with hzero hnegative hoverflow hlimit htarget htarget
  · rfl
  · rfl
  · rfl
  · rfl
  · rfl
  · exact htarget
  · rfl

variable {params}

lemma getTarget_of_decodeCompact {bits : UInt32} {t : ℕ}
    (h : decodeCompact params bits.toNat false = .ok t) : getTarget params bits = t := by
  rw [getTarget_eq, h]

/-- What an accepted target satisfies. -/
lemma decodeCompact_bounds {bits t : ℕ} {requireCanonical : Bool}
    (h : decodeCompact params bits requireCanonical = .ok t) : 0 < t ∧ t ≤ params.powLimit := by
  unfold decodeCompact at h
  dsimp only at h
  split_ifs at h with hzero hnegative hoverflow htarget hlimit hcanonical
  injection h with h
  omega

lemma eq_of_decodeCompact {bits t : ℕ} {requireCanonical : Bool}
    (h : decodeCompact params bits requireCanonical = .ok t) :
    t = shiftedCoefficient (bits >>> 24) (bits &&& 0x007fffff) := by
  unfold decodeCompact at h
  dsimp only at h
  split_ifs at h
  injection h with h
  exact h.symm

/-- The fields of a compact number. -/
lemma compact_fields (exponent : ℕ) {coefficient : ℕ} (h : coefficient < 2 ^ 23) :
    (exponent * 2 ^ 24 + coefficient) >>> 24 = exponent ∧
      (exponent * 2 ^ 24 + coefficient) &&& 0x007fffff = coefficient ∧
      (exponent * 2 ^ 24 + coefficient) &&& 0x00800000 = 0 := by
  have hmask : 0x007fffff = 2 ^ 23 - 1 := rfl
  have hsign : (exponent * 2 ^ 24 + coefficient).testBit 23 = false := by
    rw [Nat.testBit_eq_decide_div_mod_eq, decide_eq_false_iff_not]
    omega
  constructor
  · rw [Nat.shiftRight_eq_div_pow]
    omega
  · constructor
    · rw [hmask, Nat.and_two_pow_sub_one_eq_mod]
      omega
    · rw [show 0x00800000 = 2 ^ 23 from rfl, Nat.and_two_pow, hsign]
      rfl

lemma shiftedCoefficient_scale (k m : ℕ) : shiftedCoefficient (k + 3) m = m * 256 ^ k := by
  unfold shiftedCoefficient
  have hpow : (2 : ℕ) ^ (8 * k) = 256 ^ k := by rw [pow_mul]; norm_num
  split_ifs with hle
  · obtain rfl : k = 0 := by omega
    simp
  · rw [Nat.shiftLeft_eq, show k + 3 - 3 = k by omega, hpow]

/-- What `get_bits` writes, by the number of bytes of the target. -/
lemma getBits_eq_of_byteLength {t n : ℕ} (ht : t ≠ 0) (hlimit : t ≤ params.powLimit)
    (hbytes : t < 256 ^ 32) (hn : byteLength t = n) :
    getBits params t =
      if 2 ^ 23 ≤ t / 256 ^ (n - 3) then (n + 1) * 2 ^ 24 + t / 256 ^ (n - 3) / 256
      else n * 2 ^ 24 + t / 256 ^ (n - 3) := by
  have hle : n ≤ 32 := by
    rw [← hn]
    exact byteLength_le_iff.2 hbytes
  have hpos : n ≠ 0 := by
    intro hzero
    have hlt := lt_pow_byteLength t
    rw [hn, hzero] at hlt
    omega
  have hslice : beNat (slice (beBytes 32 t) (32 - n) 3) = t / 256 ^ (n - 3) := by
    have hlt : t < 256 ^ n := by
      rw [← hn]
      exact lt_pow_byteLength t
    have hwide : beBytes 32 t = List.replicate (32 - n) 0 ++ beBytes n t := by
      rw [← beBytes_add _ hlt, Nat.sub_add_cancel hle]
    rw [slice, hwide, List.drop_left' (by simp), beNat_take, beNat_beBytes hlt, beBytes_length]
  have hcoefficient : t / 256 ^ (n - 3) < 2 ^ 24 := by
    have hlt : t < 256 ^ n := by
      rw [← hn]
      exact lt_pow_byteLength t
    apply Nat.div_lt_of_lt_mul
    apply lt_of_lt_of_le hlt
    rw [show (2 : ℕ) ^ 24 = 256 ^ 3 by norm_num, ← pow_add]
    apply Nat.pow_le_pow_right (by norm_num)
    omega
  unfold getBits
  dsimp only
  rw [if_neg ht, Nat.min_eq_left hlimit, takeWhile_beBytes ht hbytes, List.length_replicate, hn,
    if_neg (by omega), hslice, show 32 - (32 - n) = n by omega]
  simp only [show (0x800000 : ℕ) = 2 ^ 23 from rfl]
  split_ifs with hhigh
  · rw [Nat.shiftRight_eq_div_pow, ← Nat.shiftLeft_add_eq_or_of_lt (by omega), Nat.shiftLeft_eq]
  · rw [← Nat.shiftLeft_add_eq_or_of_lt (by omega), Nat.shiftLeft_eq]

/-- Every target has a scale at which its coefficient needs two or three bytes. -/
lemma exists_scale {t : ℕ} (h : 2 ^ 15 ≤ t) :
    ∃ k, 2 ^ 15 * 256 ^ k ≤ t ∧ t < 2 ^ 15 * 256 ^ (k + 1) := by
  have hpos : t / 2 ^ 15 ≠ 0 := by omega
  refine ⟨Nat.log 256 (t / 2 ^ 15), ?_, ?_⟩
  · have hle := Nat.pow_log_le_self 256 hpos
    rw [Nat.mul_comm]
    exact (Nat.le_div_iff_mul_le (by norm_num)).1 hle
  · have hlt := Nat.lt_pow_succ_log_self (by norm_num : 1 < 256) (t / 2 ^ 15)
    rw [Nat.mul_comm]
    exact (Nat.div_lt_iff_lt_mul (by norm_num)).1 hlt

/-- The coefficient at the scale of a target. -/
lemma coefficient_bounds {t k : ℕ} (hlow : 2 ^ 15 * 256 ^ k ≤ t)
    (hhigh : t < 2 ^ 15 * 256 ^ (k + 1)) : 2 ^ 15 ≤ t / 256 ^ k ∧ t / 256 ^ k < 2 ^ 23 := by
  constructor
  · exact (Nat.le_div_iff_mul_le (by positivity)).2 hlow
  · apply Nat.div_lt_of_lt_mul
    rw [pow_succ] at hhigh
    omega

lemma getBits_eq {t k : ℕ} (hsmall : 2 ^ 16 ≤ t) (hlow : 2 ^ 15 * 256 ^ k ≤ t)
    (hhigh : t < 2 ^ 15 * 256 ^ (k + 1)) (hlimit : t ≤ params.powLimit) (hbytes : t < 256 ^ 32) :
    getBits params t = (k + 3) * 2 ^ 24 + t / 256 ^ k := by
  have hone (n : ℕ) : (256 : ℕ) ^ (n + 1) = 256 ^ n * 256 := pow_succ _ _
  have htwo (n : ℕ) : (256 : ℕ) ^ (n + 2) = 256 ^ n * 65536 := by rw [pow_add]; norm_num
  have hthree (n : ℕ) : (256 : ℕ) ^ (n + 3) = 256 ^ n * 16777216 := by rw [pow_add]; norm_num
  obtain ⟨hlower, hupper⟩ := coefficient_bounds hlow hhigh
  by_cases hwide : 256 ^ (k + 2) ≤ t
  · have hlt : t < 256 ^ (k + 3) := by
      rw [hthree]
      rw [hone] at hhigh
      omega
    have hn : byteLength t = k + 3 := byteLength_eq hwide hlt
    rw [getBits_eq_of_byteLength (by omega) hlimit hbytes hn, Nat.add_sub_cancel,
      if_neg (by omega)]
  · -- The top bit of the first byte is set: the coefficient drops a byte.
    cases k with
    | zero => omega
    | succ k =>
      have hge : 256 ^ (k + 2) ≤ t := by
        rw [htwo]
        rw [hone] at hlow
        omega
      have hn : byteLength t = k + 3 := byteLength_eq hge (Nat.lt_of_not_le hwide)
      have hquotient : t / 256 ^ k / 256 = t / 256 ^ (k + 1) := by
        rw [Nat.div_div_eq_div_mul, pow_succ]
      have hset : 2 ^ 23 ≤ t / 256 ^ k := by
        rw [← hquotient] at hlower
        omega
      rw [getBits_eq_of_byteLength (by omega) hlimit hbytes hn, Nat.add_sub_cancel,
        if_pos hset, hquotient]

/-- Targets below two bytes are written without a shift. -/
lemma getBits_small {t : ℕ} (ht : t ≠ 0) (hsmall : t < 2 ^ 16) (hlimit : t ≤ params.powLimit) :
    getBits params t = byteLength t * 2 ^ 24 + t := by
  have hle : byteLength t ≤ 2 := byteLength_le_iff.2 (by omega)
  have hbytes : t < 256 ^ 32 := lt_of_lt_of_le hsmall (by norm_num)
  rw [getBits_eq_of_byteLength ht hlimit hbytes rfl, Nat.sub_eq_zero_of_le (by omega), pow_zero,
    Nat.div_one, if_neg (by omega)]

/-- Decoding at a scale. -/
lemma decodeCompact_scale {m k bits : ℕ} {requireCanonical : Bool}
    (hbits : bits = (k + 3) * 2 ^ 24 + m) (hlower : 2 ^ 15 ≤ m) (hupper : m < 2 ^ 23)
    (hlimit : m * 256 ^ k ≤ params.powLimit) (hbytes : m * 256 ^ k < 256 ^ 32)
    (hcanonical : getBits params (m * 256 ^ k) = bits) :
    decodeCompact params bits requireCanonical = .ok (m * 256 ^ k) := by
  obtain ⟨hexponent, hcoefficient, hsign⟩ := compact_fields (k + 3) hupper
  have hpos : 0 < 256 ^ k := by positivity
  have hwidth : ∀ w, 256 ^ w ≤ m → w + k < 32 := by
    intro w hw
    by_contra hge
    have hpow : 256 ^ 32 ≤ 256 ^ (w + k) := Nat.pow_le_pow_right (by norm_num) (by omega)
    rw [pow_add] at hpow
    have hmul := Nat.mul_le_mul_right (256 ^ k) hw
    omega
  have htwo := hwidth 1 (by omega)
  have hthree : 2 ^ 16 ≤ m → 2 + k < 32 := by
    intro hw
    exact hwidth 2 (by omega)
  have htarget : m * 256 ^ k ≠ 0 := by
    have := Nat.mul_pos (by omega : 0 < m) hpos
    omega
  unfold decodeCompact
  dsimp only
  rw [hbits, hexponent, hcoefficient, hsign, shiftedCoefficient_scale, ← hbits, hcanonical,
    if_neg (by omega), if_neg (by omega), if_neg (by omega), if_neg htarget, if_neg (by omega),
    if_neg (by simp)]

variable (params) in
/-- The target is read back up to its encoding error, from a canonical encoding. -/
def RoundTrips (t : ℕ) : Prop :=
  ∃ t', decodeCompact params (getBits params t) false = .ok t' ∧
    decodeCompact params (getBits params t) true = .ok t' ∧
    t' ≤ t ∧ (t - t') * 2 ^ 15 < t ∧ getBits params t' = getBits params t

lemma roundTrips_of_le {t : ℕ} (hbytes : params.powLimit < 2 ^ 256) (hlimit : t ≤ params.powLimit)
    (hsmall : 2 ^ 16 ≤ t) : RoundTrips params t := by
  obtain ⟨k, hlow, hhigh⟩ := exists_scale (by omega : 2 ^ 15 ≤ t)
  obtain ⟨hlower, hupper⟩ := coefficient_bounds hlow hhigh
  have hpos : 0 < 256 ^ k := by positivity
  have hlt : t < 256 ^ 32 := by omega
  have hbits := getBits_eq hsmall hlow hhigh hlimit hlt
  -- The target read back has the same coefficient at the same scale.
  have hle : t / 256 ^ k * 256 ^ k ≤ t := Nat.div_mul_le_self _ _
  have hlow' : 2 ^ 15 * 256 ^ k ≤ t / 256 ^ k * 256 ^ k := Nat.mul_le_mul_right _ hlower
  have hsmall' : 2 ^ 16 ≤ t / 256 ^ k * 256 ^ k := by
    cases k with
    | zero => simpa using hsmall
    | succ k =>
      have hbase : 0 < 256 ^ k := by positivity
      rw [pow_succ] at hlow' ⊢
      omega
  have hcanonical : getBits params (t / 256 ^ k * 256 ^ k) = getBits params t := by
    rw [hbits, getBits_eq hsmall' hlow' (by omega) (by omega) (by omega),
      Nat.mul_div_cancel _ hpos]
  have hdecode (requireCanonical : Bool) :
      decodeCompact params (getBits params t) requireCanonical = .ok (t / 256 ^ k * 256 ^ k) :=
    decodeCompact_scale hbits hlower hupper (by omega) (by omega) hcanonical
  refine ⟨t / 256 ^ k * 256 ^ k, hdecode false, hdecode true, hle, ?_, hcanonical⟩
  have hsplit := Nat.div_add_mod t (256 ^ k)
  have hmod := Nat.mod_lt t hpos
  rw [Nat.mul_comm] at hsplit
  omega

/-- What a target below two bytes is read back as. -/
lemma decodeCompact_small {t t' : ℕ} (ht : t ≠ 0) (hsmall : t < 2 ^ 16)
    (hlimit : t ≤ params.powLimit) (h : decodeCompact params (getBits params t) false = .ok t') :
    256 ≤ t ∧ t' = t / 256 := by
  have hpos := (decodeCompact_bounds h).1
  have htarget := eq_of_decodeCompact h
  obtain ⟨hexponent, hcoefficient, _⟩ := compact_fields (byteLength t) (by omega : t < 2 ^ 23)
  have hle : byteLength t ≤ 2 := byteLength_le_iff.2 (by omega)
  rw [getBits_small ht hsmall hlimit, hexponent, hcoefficient, shiftedCoefficient,
    if_pos (by omega), Nat.shiftRight_eq_div_pow] at htarget
  by_cases hbyte : byteLength t ≤ 1
  · have hzero : t / 2 ^ (8 * (3 - byteLength t)) = 0 := by
      apply Nat.div_eq_of_lt
      apply lt_of_lt_of_le hsmall
      apply Nat.pow_le_pow_right (by norm_num)
      omega
    omega
  · obtain hn : byteLength t = 2 := by omega
    rw [byteLength_le_iff] at hbyte
    rw [hn] at htarget
    constructor
    · omega
    · simpa using htarget

theorem roundTrips_iff (hbytes : params.powLimit < 2 ^ 256) {t : ℕ} (ht : 1 ≤ t)
    (hlimit : t ≤ params.powLimit) : RoundTrips params t ↔ 2 ^ 16 ≤ t := by
  constructor
  · rintro ⟨t', hdecode, -, -, herror, -⟩
    by_contra hsmall
    obtain ⟨hge, hquotient⟩ := decodeCompact_small (by omega) (by omega) hlimit hdecode
    omega
  · exact roundTrips_of_le hbytes hlimit

theorem roundTrips_iff_mainnet : RoundTrips ConsensusParams.mainnet 70000 ↔ 2 ^ 16 ≤ 70000 :=
  roundTrips_iff (by decide) (by norm_num) (by decide)

theorem one_not_roundTrips :
    decodeCompact ConsensusParams.mainnet (getBits ConsensusParams.mainnet 1) false =
      .error .zero_target ∧
    ¬ RoundTrips ConsensusParams.mainnet 1 := by
  have hdecode : decodeCompact ConsensusParams.mainnet (getBits ConsensusParams.mainnet 1) false =
      .error .zero_target := by decide +kernel
  refine ⟨hdecode, ?_⟩
  rintro ⟨t', hok, -⟩
  rw [hdecode] at hok
  injection hok

end ProofOfWork
end BerzCoin
