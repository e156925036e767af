import BerzCoin.CryptoSecp256k1
import Mathlib.FieldTheory.Finite.Basic

/-! The two moduli of the curve are prime, and what the powers of the source are in the fields. -/
namespace BerzCoin.Secp256k1
open ModularPower

/-- A certificate for each prime on the way to `P` and `N`. -/
def certificates : List Certificate :=
  [⟨3, 2, [2]⟩, ⟨7, 3, [2, 3]⟩, ⟨5, 2, [2, 2]⟩, ⟨13441, 11, [2, 2, 2, 2, 2, 2, 2, 3, 5, 7]⟩,
    ⟨29, 2, [2, 2, 7]⟩, ⟨31, 3, [2, 3, 5]⟩, ⟨11, 2, [2, 5]⟩, ⟨13, 2, [2, 2, 3]⟩,
    ⟨7723, 3, [2, 3, 3, 3, 11, 13]⟩, ⟨17, 3, [2, 2, 2, 2]⟩, ⟨443, 2, [2, 13, 17]⟩,
    ⟨887, 5, [2, 443]⟩, ⟨5323, 5, [2, 3, 887]⟩, ⟨131, 2, [2, 5, 13]⟩, ⟨2621, 2, [2, 2, 5, 131]⟩,
    ⟨24809, 6, [2, 2, 2, 7, 443]⟩, ⟨97, 5, [2, 2, 2, 2, 2, 3]⟩, ⟨971, 6, [2, 5, 97]⟩,
    ⟨1373, 2, [2, 2, 7, 7, 7]⟩, ⟨13331831, 13, [2, 5, 971, 1373]⟩,
    ⟨173378833005251801, 6, [2, 2, 2, 5, 5, 2621, 24809, 13331831]⟩,
    ⟨22149492674086928081353, 5, [2, 2, 2, 3, 5323, 173378833005251801]⟩,
    ⟨132896956044521568488119, 6, [2, 3, 22149492674086928081353]⟩, ⟨271, 6, [2, 3, 3, 3, 5]⟩,
    ⟨1627, 3, [2, 3, 271]⟩, ⟨41, 6, [2, 2, 2, 5]⟩, ⟨83, 2, [2, 41]⟩,
    ⟨2657, 3, [2, 2, 2, 2, 2, 83]⟩, ⟨67, 2, [2, 3, 11]⟩, ⟨4423, 3, [2, 3, 11, 67]⟩,
    ⟨103, 5, [2, 3, 17]⟩, ⟨41201, 3, [2, 2, 2, 2, 5, 5, 103]⟩, ⟨101, 2, [2, 2, 5, 5]⟩,
    ⟨239, 7, [2, 7, 17]⟩, ⟨96557, 2, [2, 2, 101, 239]⟩, ⟨19, 2, [2, 3, 3]⟩, ⟨419, 2, [2, 11, 19]⟩,
    ⟨20113, 10, [2, 2, 2, 2, 3, 419]⟩, ⟨1206781, 10, [2, 2, 3, 5, 20113]⟩,
    ⟨7240687, 3, [2, 3, 1206781]⟩, ⟨53, 2, [2, 2, 13]⟩,
    ⟨107590001, 3, [2, 2, 2, 2, 5, 5, 5, 5, 7, 29, 53]⟩,
    ⟨255515944373312847190720520512484175977, 3, [2, 2, 2, 7, 7, 11, 1627, 2657, 4423, 41201,
      96557, 7240687, 107590001]⟩,
    ⟨205115282021455665897114700593932402728804164701536103180137503955397371, 10, [2, 3, 5, 29,
      29, 31, 7723, 132896956044521568488119, 255515944373312847190720520512484175977]⟩,
    ⟨115792089237316195423570985008687907853269984665640564039457584007908834671663, 3, [2, 3, 7,
      13441, 205115282021455665897114700593932402728804164701536103180137503955397371]⟩,
    ⟨37, 2, [2, 2, 3, 3]⟩, ⟨149, 2, [2, 2, 37]⟩, ⟨631, 3, [2, 3, 3, 5, 7]⟩, ⟨23, 5, [2, 11]⟩,
    ⟨16699, 3, [2, 3, 11, 11, 23]⟩, ⟨2861, 2, [2, 2, 5, 11, 13]⟩, ⟨85831, 3, [2, 3, 5, 2861]⟩,
    ⟨2011, 3, [2, 3, 5, 67]⟩, ⟨4681609, 23, [2, 2, 2, 3, 97, 2011]⟩,
    ⟨107361793816595537, 3, [2, 2, 2, 2, 16699, 85831, 4681609]⟩, ⟨59, 2, [2, 29]⟩,
    ⟨4051, 10, [2, 3, 3, 3, 3, 5, 5]⟩, ⟨113, 3, [2, 2, 2, 2, 7]⟩,
    ⟨120233, 3, [2, 2, 2, 7, 19, 113]⟩, ⟨199, 3, [2, 3, 3, 11]⟩, ⟨797, 2, [2, 2, 199]⟩,
    ⟨9349, 2, [2, 2, 3, 19, 41]⟩, ⟨44706919, 6, [2, 3, 797, 9349]⟩,
    ⟨174723607534414371449, 3, [2, 2, 2, 17, 59, 4051, 120233, 44706919]⟩,
    ⟨109, 6, [2, 2, 3, 3, 3]⟩, ⟨73, 5, [2, 2, 2, 3, 3]⟩, ⟨293, 2, [2, 2, 73]⟩,
    ⟨2731, 3, [2, 3, 5, 7, 13]⟩, ⟨305873, 3, [2, 2, 2, 2, 7, 2731]⟩,
    ⟨1409, 3, [2, 2, 2, 2, 2, 2, 2, 11]⟩, ⟨28181, 2, [2, 2, 5, 1409]⟩,
    ⟨545358713, 5, [2, 2, 2, 41, 59, 28181]⟩, ⟨461, 2, [2, 2, 5, 23]⟩, ⟨1871, 14, [2, 5, 11, 17]⟩,
    ⟨1627771, 3, [2, 3, 5, 29, 1871]⟩, ⟨297159362677, 2, [2, 2, 3, 3, 11, 461, 1627771]⟩,
    ⟨29047611873442575647497758179, 2, [2, 293, 305873, 545358713, 297159362677]⟩,
    ⟨341948486974166000522343609283189, 2, [2, 2, 3, 3, 3, 109, 29047611873442575647497758179]⟩,
    ⟨115792089237316195423570985008687907852837564279074904382605163141518161494337, 7, [2, 2, 2,
      2, 2, 2, 3, 149, 631, 107361793816595537, 174723607534414371449,
      341948486974166000522343609283189]⟩]

lemma certificates_check : checkAll [2] certificates = true ∧
    P ∈ certificates.map Certificate.prime ∧ N ∈ certificates.map Certificate.prime := by
  decide +kernel

lemma prime_of_mem {p : ℕ} (h : p ∈ certificates.map Certificate.prime) : p.Prime := by
  obtain ⟨c, hc, rfl⟩ := List.mem_map.1 h
  exact prime_of_checkAll (by simp [Nat.prime_two]) certificates_check.1 c hc

instance prime_P : Fact P.Prime := ⟨prime_of_mem certificates_check.2.1⟩

instance prime_N : Fact N.Prime := ⟨prime_of_mem certificates_check.2.2⟩

/-- The coordinates of points. -/
abbrev F : Type := ZMod P

/-- The coefficient `7` of the curve is a numeral of every field. -/
instance atLeastTwo_seven : Nat.AtLeastTwo 7 := ⟨by decide⟩

section powers
variable {m : ℕ}

lemma cast_emod [NeZero m] (a : ℤ) : (((a % m).toNat : ℕ) : ZMod m) = a := by
  have hnonneg : 0 ≤ a % m := Int.emod_nonneg _ (by exact_mod_cast NeZero.ne m)
  rw [← Int.cast_natCast, Int.toNat_of_nonneg hnonneg, ZMod.intCast_mod]

lemma pow_cast [NeZero m] (base : ℤ) (exponent : ℕ) :
    ((pow base exponent m : ℤ) : ZMod m) = (base : ZMod m) ^ exponent := by
  rw [pow, Int.cast_natCast, powMod_cast, cast_emod]

/-- Fermat's inverse. -/
lemma pow_inv [Fact m.Prime] (hm : 2 < m) (base : ℤ) :
    ((pow base (m - 2) m : ℤ) : ZMod m) = (base : ZMod m)⁻¹ := by
  rw [pow_cast]
  by_cases hzero : (base : ZMod m) = 0
  · rw [hzero, zero_pow (by omega), inv_zero]
  · apply eq_inv_of_mul_eq_one_left
    rw [← pow_succ]
    have hexponent : m - 2 + 1 = m - 1 := by omega
    rw [hexponent, ZMod.pow_card_sub_one_eq_one hzero]

lemma emod_eq_val [NeZero m] (a : ℤ) : a % m = ((a : ZMod m).val : ℤ) := (ZMod.val_intCast a).symm

lemma pow_eq_val [NeZero m] (base : ℤ) (exponent : ℕ) :
    pow base exponent m = (((base : ZMod m) ^ exponent).val : ℤ) := by
  have hlt : powMod (base % m).toNat exponent m < m := by
    rw [powMod_eq]
    exact Nat.mod_lt _ (NeZero.pos m)
  rw [pow, ← cast_emod base, ← powMod_cast, ZMod.val_natCast_of_lt hlt]

end powers

lemma two_lt_P : 2 < P := by decide

lemma two_lt_N : 2 < N := by decide

lemma two_ne_zero_F : (2 : F) ≠ 0 := by
  have hcast : ((2 : ℕ) : F) ≠ 0 := by
    rw [ne_eq, ZMod.natCast_eq_zero_iff]
    intro hdvd
    exact absurd (Nat.le_of_dvd (by decide) hdvd) (by decide)
  exact_mod_cast hcast

/-- The root that the source takes of a square. -/
lemma sqrt_sq {c : F} (hc : IsSquare c) : c ^ ((P + 1) / 4) * c ^ ((P + 1) / 4) = c := by
  obtain ⟨y, rfl⟩ := hc
  by_cases hy : y = 0
  · have hexponent : (P + 1) / 4 ≠ 0 := by decide
    rw [hy, mul_zero, zero_pow hexponent, mul_zero]
  · have hexponent : 2 * ((P + 1) / 4 + (P + 1) / 4) = P - 1 + 2 := by decide
    rw [← pow_add, ← pow_two y, ← pow_mul, hexponent, pow_add, ZMod.pow_card_sub_one_eq_one hy, one_mul]

/-- No point has `y = 0`: `-7` is not a cube. -/
lemma cube_add_seven_ne_zero (x : F) : x ^ 3 + 7 ≠ 0 := by
  intro hzero
  have hpower : powMod (P - 7) ((P - 1) / 3) P ≠ 1 := by decide +kernel
  have hcube : ((P - 7 : ℕ) : F) = x ^ 3 := by
    rw [Nat.cast_sub (by decide), ZMod.natCast_self, Nat.cast_ofNat, zero_sub]
    exact (eq_neg_of_add_eq_zero_left hzero).symm
  have hx : x ≠ 0 := by
    rintro rfl
    rw [zero_pow (by decide), ZMod.natCast_eq_zero_iff] at hcube
    exact absurd (Nat.le_of_dvd (by decide) hcube) (by decide)
  apply hpower
  rw [← pow_eq_one_iff (by decide), hcube, ← pow_mul]
  have hexponent : 3 * ((P - 1) / 3) = P - 1 := by decide
  rw [hexponent, ZMod.pow_card_sub_one_eq_one hx]

end BerzCoin.Secp256k1
