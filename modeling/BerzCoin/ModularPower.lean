import Mathlib.Data.List.Prime
import Mathlib.Data.Nat.Size
import Mathlib.NumberTheory.LucasPrimality

/-! Powers modulo a number by repeated squaring, and certificates of primality that are checked
with them. -/
namespace ModularPower

/-- The power for the highest `bits` bits that are left of `e`. -/
def powBits (b m : ℕ) : ℕ → ℕ → ℕ
  | 0, _ => 1 % m
  | bits + 1, e =>
    let root := powBits b m bits (e / 2)
    if e % 2 = 1 then root * root % m * b % m else root * root % m

/-- `b ^ e % m`. -/
def powMod (b e m : ℕ) : ℕ := powBits b m e.size e

lemma powBits_eq (b m : ℕ) {bits e : ℕ} (he : e < 2 ^ bits) : powBits b m bits e = b ^ e % m := by
  induction bits generalizing e with
  | zero =>
    have hzero : e = 0 := by simpa using he
    rw [hzero, powBits, pow_zero]
  | succ bits ih =>
    have hhalf : e / 2 < 2 ^ bits := by
      rw [pow_succ] at he
      omega
    have hsquare : powBits b m bits (e / 2) * powBits b m bits (e / 2) % m =
        b ^ (e / 2 + e / 2) % m := by
      rw [ih hhalf, ← Nat.mul_mod, ← pow_add]
    rw [powBits]
    split_ifs with hodd
    · have hsum : e / 2 + e / 2 + 1 = e := by omega
      rw [hsquare, Nat.mod_mul_mod, ← pow_succ, hsum]
    · have hsum : e / 2 + e / 2 = e := by omega
      rw [hsquare, hsum]

theorem powMod_eq (b e m : ℕ) : powMod b e m = b ^ e % m := powBits_eq b m (Nat.lt_size_self e)

lemma powMod_cast (b e m : ℕ) : ((powMod b e m : ℕ) : ZMod m) = (b : ZMod m) ^ e := by
  rw [powMod_eq, ZMod.natCast_mod, Nat.cast_pow]

lemma pow_eq_one_iff {b e m : ℕ} (hm : 1 < m) : (b : ZMod m) ^ e = 1 ↔ powMod b e m = 1 := by
  rw [powMod_eq, ← Nat.cast_pow, ← Nat.cast_one, ZMod.natCast_eq_natCast_iff', Nat.mod_eq_of_lt hm]

/-- A prime, an element of order `prime - 1`, and the prime factors of `prime - 1`. -/
structure Certificate where
  prime : ℕ
  generator : ℕ
  factors : List ℕ

/-- Lucas' test, with factors that were certified before. -/
def Certificate.check (known : List ℕ) (c : Certificate) : Bool :=
  decide (1 < c.prime) && c.factors.all (· ∈ known) && (c.factors.prod = c.prime - 1) &&
    (powMod c.generator (c.prime - 1) c.prime = 1) &&
      c.factors.all fun q => powMod c.generator ((c.prime - 1) / q) c.prime ≠ 1

/-- Certificates in an order in which the factors come before their multiples. -/
def checkAll : List ℕ → List Certificate → Bool
  | _, [] => true
  | known, c :: certificates => c.check known && checkAll (c.prime :: known) certificates

lemma Certificate.prime_of_check {known : List ℕ} (hknown : ∀ q ∈ known, q.Prime) {c : Certificate}
    (h : c.check known = true) : c.prime.Prime := by
  simp only [check, Bool.and_eq_true, decide_eq_true_eq, List.all_eq_true] at h
  obtain ⟨⟨⟨⟨hone, hfactors⟩, hprod⟩, hpow⟩, horder⟩ := h
  apply lucas_primality c.prime c.generator
  · exact (pow_eq_one_iff hone).2 hpow
  · intro q hq hdvd
    rw [← hprod] at hdvd
    have hmem : q ∈ c.factors :=
      mem_list_primes_of_dvd_prod hq.prime (fun p hp => (hknown p (hfactors p hp)).prime) hdvd
    rw [ne_eq, pow_eq_one_iff hone]
    exact horder q hmem

theorem prime_of_checkAll {known : List ℕ} (hknown : ∀ q ∈ known, q.Prime)
    {certificates : List Certificate} (h : checkAll known certificates = true) :
    ∀ c ∈ certificates, c.prime.Prime := by
  induction certificates generalizing known with
  | nil => simp
  | cons c certificates ih =>
    rw [checkAll, Bool.and_eq_true] at h
    have hc := Certificate.prime_of_check hknown h.1
    intro d hd
    rcases List.mem_cons.1 hd with rfl | hd
    · exact hc
    · exact ih (by simpa [hc] using hknown) h.2 d hd

end ModularPower
