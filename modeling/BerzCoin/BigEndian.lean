import BerzCoin.Bytes

/-! Big-endian numbers without leading zeros. -/
namespace BerzCoin

lemma beNat_lt (data : Bytes) : beNat data < 256 ^ data.length := by
  have h := leNat_lt data.reverse
  rwa [List.length_reverse] at h

lemma leNat_append (data data' : Bytes) :
    leNat (data ++ data') = leNat data + 256 ^ data.length * leNat data' := by
  induction data with
  | nil => simp [leNat]
  | cons b bs ih =>
    simp only [List.cons_append, leNat, ih, List.length_cons, pow_succ]
    ring

lemma beNat_cons (b : UInt8) (bs : Bytes) : beNat (b :: bs) = b.toNat * 256 ^ bs.length + beNat bs := by
  simp only [beNat, List.reverse_cons, leNat_append, List.length_reverse, leNat]
  ring

@[simp] lemma beBytes_length (width n : ℕ) : (beBytes width n).length = width := by
  simp [beBytes]

lemma beBytes_beNat (data : Bytes) : beBytes data.length (beNat data) = data := by
  have h := leBytes_leNat data.reverse
  rw [List.length_reverse] at h
  rw [beBytes, beNat, h, List.reverse_reverse]

lemma beNat_beBytes {width n : ℕ} (h : n < 256 ^ width) : beNat (beBytes width n) = n := by
  rw [beNat, beBytes, List.reverse_reverse, leNat_leBytes_of_lt h]

/-- The number of bytes that a number needs. -/
def byteLength (n : ℕ) : ℕ := (Nat.size n + 7) / 8

lemma lt_pow_byteLength (n : ℕ) : n < 256 ^ byteLength n := by
  have hlt := Nat.lt_size_self n
  have hle : Nat.size n ≤ 8 * byteLength n := by
    unfold byteLength
    omega
  calc n < 2 ^ Nat.size n := hlt
    _ ≤ 2 ^ (8 * byteLength n) := Nat.pow_le_pow_right (by norm_num) hle
    _ = 256 ^ byteLength n := by rw [pow_mul]; norm_num

lemma byteLength_le_iff {n w : ℕ} : byteLength n ≤ w ↔ n < 256 ^ w := by
  have hpow : (256 : ℕ) ^ w = 2 ^ (8 * w) := by rw [pow_mul]; norm_num
  rw [hpow, ← Nat.size_le]
  unfold byteLength
  omega

/-- A byte string that does not start with zero has as many bytes as its number needs. -/
lemma byteLength_beNat {b : UInt8} {bs : Bytes} (hb : b ≠ 0) :
    byteLength (beNat (b :: bs)) = bs.length + 1 := by
  have hpos : 1 ≤ b.toNat := by
    rw [Nat.one_le_iff_ne_zero]
    intro h
    exact hb (UInt8.toNat_inj.1 h)
  have hupper : byteLength (beNat (b :: bs)) ≤ bs.length + 1 := byteLength_le_iff.2 (beNat_lt _)
  have hlower : ¬ byteLength (beNat (b :: bs)) ≤ bs.length := by
    rw [byteLength_le_iff, beNat_cons]
    have hmul := Nat.mul_le_mul_right (256 ^ bs.length) hpos
    omega
  omega

/-- The bytes of a positive number do not start with zero. -/
lemma beBytes_byteLength {n : ℕ} (hn : n ≠ 0) :
    ∃ b bs, beBytes (byteLength n) n = b :: bs ∧ b ≠ 0 := by
  have hvalue := beNat_beBytes (lt_pow_byteLength n)
  have hlen := beBytes_length (byteLength n) n
  cases hbytes : beBytes (byteLength n) n with
  | nil =>
    rw [hbytes] at hvalue
    exact absurd hvalue.symm hn
  | cons b bs =>
    refine ⟨b, bs, rfl, ?_⟩
    rintro rfl
    rw [hbytes, List.length_cons] at hlen
    rw [hbytes, beNat_cons] at hvalue
    have hlt := beNat_lt bs
    have hle : byteLength n ≤ bs.length := by
      rw [byteLength_le_iff, ← hvalue]
      simpa using hlt
    omega

/-- The top bit of a byte. -/
lemma and_high_eq_zero (b : UInt8) : b &&& 0x80 = 0 ↔ b.toNat < 128 := by
  have hlt := b.toNat_lt
  have hnat : (b &&& 0x80).toNat = (b.toNat.testBit 7).toNat * 2 ^ 7 := by
    rw [UInt8.toNat_and, ← Nat.and_two_pow]
    rfl
  rw [← UInt8.toNat_inj, hnat, Nat.testBit_eq_decide_div_mod_eq]
  by_cases h : b.toNat < 128
  · have hzero : b.toNat / 128 % 2 = 0 := by omega
    simp [h, hzero]
  · have hone : b.toNat / 128 % 2 = 1 := by omega
    simp [h, hone]

end BerzCoin
