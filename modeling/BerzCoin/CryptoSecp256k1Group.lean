import BerzCoin.CryptoSecp256k1Field
import Mathlib.AlgebraicGeometry.EllipticCurve.Affine.Point

/-! The points of the source as points of the elliptic curve `y² = x³ + 7`: addition and doubling
are its group law, and double-and-add is the multiple. -/
namespace BerzCoin.Secp256k1
open WeierstrassCurve

def curve : Affine F := { a₁ := 0, a₂ := 0, a₃ := 0, a₄ := 0, a₆ := 7 }

/-- The coordinates are the remainders from `0` to `P - 1`. -/
def ofPoint : curve.Point → Point
  | .zero => .infinity
  | .some x y _ => .affine x.val y.val

section curve
variable {x y x' y' : F}

lemma equation_iff : curve.Equation x y ↔ y ^ 2 = x ^ 3 + 7 := by
  rw [Affine.equation_iff]
  simp [curve]

lemma negY_eq : curve.negY x y = -y := by
  simp [Affine.negY, curve]

lemma addX_eq (l : F) : curve.addX x x' l = l ^ 2 - x - x' := by
  simp [Affine.addX, curve]

lemma addY_eq (l : F) : curve.addY x x' y l = l * (x - curve.addX x x' l) - y := by
  rw [Affine.addY, negY_eq, Affine.negAddY]
  ring

lemma y_ne_zero (h : curve.Equation x y) : y ≠ 0 := by
  rintro rfl
  rw [equation_iff, zero_pow two_ne_zero] at h
  exact cube_add_seven_ne_zero x h.symm

lemma y_ne_neg (h : curve.Equation x y) : y ≠ -y := by
  intro heq
  have hdouble : 2 * y = 0 := by linear_combination heq
  exact (mul_ne_zero two_ne_zero_F (y_ne_zero h)) hdouble

lemma nonsingular_iff : curve.Nonsingular x y ↔ y ^ 2 = x ^ 3 + 7 := by
  constructor
  · intro h
    exact equation_iff.1 h.1
  · intro h
    have heq := equation_iff.2 h
    refine (Affine.nonsingular_iff ..).2 ⟨heq, .inr ?_⟩
    have hne := y_ne_neg heq
    simpa [curve] using hne

lemma slope_of_ne (hx : x ≠ x') : curve.slope x x' y y' = (y' - y) * (x' - x)⁻¹ := by
  have hsub : x - x' ≠ 0 := sub_ne_zero.2 hx
  have hsub' : x' - x ≠ 0 := sub_ne_zero.2 hx.symm
  rw [Affine.slope_of_X_ne hx]
  field_simp
  ring

lemma slope_self (h : curve.Equation x y) : curve.slope x x y y = 3 * x * x * (2 * y)⁻¹ := by
  have hne : y ≠ curve.negY x y := by
    rw [negY_eq]
    exact y_ne_neg h
  rw [Affine.slope_of_Y_ne rfl hne, negY_eq]
  simp only [curve, mul_zero, zero_mul, add_zero, sub_zero]
  rw [div_eq_mul_inv, sub_neg_eq_add, ← two_mul]
  ring

end curve

section law
variable {x y x' y' : F}

lemma val_cast (x : F) : ((x.val : ℤ) : F) = x := by
  rw [Int.cast_natCast, ZMod.natCast_zmod_val]

lemma val_inj_int : (x.val : ℤ) = x'.val ↔ x = x' := by
  rw [Nat.cast_inj]
  exact ⟨fun h => ZMod.val_injective P h, fun h => h ▸ rfl⟩

/-- The coordinates that both formulas of the source compute from a slope. -/
lemma affine_of_slope (s x y x' : ℤ) (l : F) (hs : (s : F) = l) :
    Point.affine ((s * s - x - x') % P) ((s * (x - (s * s - x - x') % P) - y) % P) =
      .affine ((l ^ 2 - x - x' : F).val : ℤ) ((l * (x - (l ^ 2 - x - x')) - y : F).val : ℤ) := by
  have hx : (s * s - x - x') % P = ((l ^ 2 - x - x' : F).val : ℤ) := by
    rw [emod_eq_val]
    push_cast
    rw [hs, pow_two]
  rw [hx, emod_eq_val]
  push_cast
  rw [hs, ZMod.natCast_zmod_val]

lemma double_ofPoint (A : curve.Point) : (ofPoint A).double = ofPoint (A + A) := by
  cases A with
  | zero => rfl
  | some x y h =>
    have hne : y ≠ curve.negY x y := by
      rw [negY_eq]
      exact y_ne_neg h.1
    have hs : ((3 * (x.val : ℤ) * x.val * pow (2 * y.val % P) (P - 2) P % P : ℤ) : F) =
        3 * x * x * (2 * y)⁻¹ := by
      rw [ZMod.intCast_mod, Int.cast_mul, pow_inv two_lt_P, ZMod.intCast_mod]
      push_cast
      simp only [ZMod.natCast_zmod_val]
    have hsub (s : ℤ) : s * s - 2 * x.val = s * s - x.val - x.val := by ring
    rw [Affine.Point.add_self_of_Y_ne hne]
    simp only [ofPoint, Point.double, hsub]
    rw [affine_of_slope _ _ _ _ _ hs]
    simp only [val_cast, addY_eq, addX_eq, slope_self h.1]

lemma add_ofPoint (A B : curve.Point) : (ofPoint A).add (ofPoint B) = ofPoint (A + B) := by
  cases A with
  | zero =>
    have hzero : (Affine.Point.zero : curve.Point) + B = B := zero_add B
    rw [hzero]
    rfl
  | some x y h =>
    cases B with
    | zero =>
      have hzero : Affine.Point.some x y h + (Affine.Point.zero : curve.Point) = .some x y h :=
        add_zero _
      rw [hzero]
      rfl
    | some x' y' h' =>
      by_cases hx : x = x'
      · subst hx
        by_cases hy : y = y'
        · subst hy
          rw [← double_ofPoint]
          simp only [ofPoint, Point.add, if_true]
        · have hneg : y = curve.negY x y' := by
            rw [negY_eq]
            have hsquares : (y - y') * (y + y') = 0 := by
              linear_combination equation_iff.1 h.1 - equation_iff.1 h'.1
            exact eq_neg_of_add_eq_zero_left
              ((mul_eq_zero.1 hsquares).resolve_left (sub_ne_zero.2 hy))
          have hval : (y.val : ℤ) ≠ y'.val := fun heq => hy (val_inj_int.1 heq)
          rw [Affine.Point.add_of_Y_eq rfl hneg]
          simp only [ofPoint, Point.add, if_true, if_neg hval]
      · have hval : (x.val : ℤ) ≠ x'.val := fun heq => hx (val_inj_int.1 heq)
        have hs : ((((y'.val : ℤ) - y.val) * pow ((x'.val - x.val) % P) (P - 2) P % P : ℤ) : F) =
            (y' - y) * (x' - x)⁻¹ := by
          rw [ZMod.intCast_mod, Int.cast_mul, pow_inv two_lt_P, ZMod.intCast_mod]
          push_cast
          simp only [ZMod.natCast_zmod_val]
        rw [Affine.Point.add_of_X_ne hx]
        simp only [ofPoint, Point.add, if_neg hval]
        rw [affine_of_slope _ _ _ _ _ hs]
        simp only [val_cast, addY_eq, addX_eq, slope_of_ne hx]

lemma multiplyLoop_ofPoint {bits scalar : ℕ} (h : scalar < 2 ^ bits) (A B : curve.Point) :
    Point.multiplyLoop bits scalar (ofPoint A) (ofPoint B) = ofPoint (A + scalar • B) := by
  induction bits generalizing scalar A B with
  | zero =>
    have hzero : scalar = 0 := by simpa using h
    rw [hzero, zero_nsmul, add_zero, Point.multiplyLoop]
  | succ bits ih =>
    rw [Point.multiplyLoop]
    split_ifs with hzero hodd
    · rw [hzero, zero_nsmul, add_zero]
    · have hhalf : scalar / 2 < 2 ^ bits := by
        rw [pow_succ] at h
        omega
      have hsum : scalar = 1 + (scalar / 2 + scalar / 2) := by omega
      rw [add_ofPoint, double_ofPoint, ih hhalf]
      conv_rhs => rw [hsum]
      rw [add_nsmul, add_nsmul, one_nsmul, nsmul_add, add_assoc]
    · have hhalf : scalar / 2 < 2 ^ bits := by
        rw [pow_succ] at h
        omega
      have hsum : scalar = scalar / 2 + scalar / 2 := by omega
      rw [double_ofPoint, ih hhalf]
      conv_rhs => rw [hsum]
      rw [add_nsmul, nsmul_add]

/-- Double-and-add. -/
lemma multiply_ofPoint (A : curve.Point) {k : ℤ} (hk : 0 ≤ k) :
    (ofPoint A).multiply k = ofPoint (k • A) := by
  obtain ⟨n, rfl⟩ := Int.eq_ofNat_of_zero_le hk
  rw [Point.multiply, Int.toNat_natCast]
  have hloop := multiplyLoop_ofPoint (Nat.lt_size_self n) (0 : curve.Point) A
  rw [zero_add] at hloop
  rw [natCast_zsmul]
  exact hloop

end law

/-! The generator. -/
section generator

lemma generator_nonsingular : curve.Nonsingular (Gx : F) (Gy : F) := by
  have hmod : Gy * Gy % P = (Gx * Gx * Gx + 7) % P := by decide +kernel
  have hcast := congrArg (Int.cast : ℤ → F) hmod
  rw [ZMod.intCast_mod, ZMod.intCast_mod] at hcast
  push_cast at hcast
  rw [nonsingular_iff]
  linear_combination hcast

def G : curve.Point := .some _ _ generator_nonsingular

lemma ofPoint_G : ofPoint G = GENERATOR := by
  have hrange : Gx % P = Gx ∧ Gy % P = Gy := by decide +kernel
  rw [G, ofPoint, ← emod_eq_val, ← emod_eq_val, hrange.1, hrange.2]
  rfl

/-! Multiples of the generator without inversions, for evaluation. -/

/-- Stands for the point with the coordinates `X / Z ^ 2` and `Y / Z ^ 3`. -/
structure Jacobian where
  X : ℤ
  Y : ℤ
  Z : ℤ

namespace Jacobian

def Represents (t : Jacobian) (A : curve.Point) : Prop :=
  (t.Z : F) ≠ 0 ∧ ∃ x y h, A = .some x y h ∧ (t.X : F) = x * t.Z ^ 2 ∧ (t.Y : F) = y * t.Z ^ 3

def double (t : Jacobian) : Jacobian :=
  let yy := t.Y * t.Y % P
  let s := 4 * t.X * yy % P
  let m := 3 * t.X * t.X % P
  let x := (m * m - 2 * s) % P
  ⟨x, (m * (s - x) - 8 * yy * yy) % P, 2 * t.Y * t.Z % P⟩

/-- Not zero where the point is neither the generator nor its negative. -/
def apart (t : Jacobian) : ℤ := (Gx * t.Z * t.Z - t.X) % P

def addG (t : Jacobian) : Jacobian :=
  let r := (Gy * t.Z * t.Z * t.Z - t.Y) % P
  let hh := t.apart * t.apart % P
  let hhh := hh * t.apart % P
  let v := t.X * hh % P
  let x := (r * r - hhh - 2 * v) % P
  ⟨x, (r * (v - x) - t.Y * hhh) % P, t.Z * t.apart % P⟩

/-- From the highest bit on. -/
def multiple : ℕ → ℕ → Option Jacobian
  | 0, _ => none
  | bits + 1, n =>
    if n = 1 then some ⟨Gx, Gy, 1⟩
    else
      match multiple bits (n / 2) with
      | none => none
      | some t =>
        if n % 2 = 0 then some t.double
        else if t.double.apart = 0 then none
        else some t.double.addG

variable {t : Jacobian} {A : curve.Point}

lemma Represents.double (h : t.Represents A) : t.double.Represents (A + A) := by
  obtain ⟨hZ, x, y, hA, rfl, hX, hY⟩ := h
  have hy := y_ne_zero hA.1
  have hne : y ≠ curve.negY x y := by
    rw [negY_eq]
    exact y_ne_neg hA.1
  have htwo := two_ne_zero_F
  have hZ' : (t.double.Z : F) = 2 * y * t.Z ^ 4 := by
    simp only [Jacobian.double, ZMod.intCast_mod]
    push_cast
    rw [hY]
    ring
  refine ⟨?_, _, _, _, Affine.Point.add_self_of_Y_ne hne, ?_, ?_⟩
  · rw [hZ']
    exact mul_ne_zero (mul_ne_zero htwo hy) (pow_ne_zero 4 hZ)
  · rw [hZ', addX_eq, slope_self hA.1]
    simp only [Jacobian.double, ZMod.intCast_mod, Int.cast_mul, Int.cast_sub, Int.cast_ofNat]
    rw [hX, hY]
    field_simp
    ring
  · rw [hZ', addY_eq, addX_eq, slope_self hA.1]
    simp only [Jacobian.double, ZMod.intCast_mod, Int.cast_mul, Int.cast_sub, Int.cast_ofNat]
    rw [hX, hY]
    field_simp
    ring

lemma cast_ne_zero {n : ℤ} (h : n % P ≠ 0) : (n : F) ≠ 0 := by
  intro hzero
  exact h (Int.emod_eq_zero_of_dvd ((ZMod.intCast_zmod_eq_zero_iff_dvd n P).1 hzero))

lemma Represents.addG (h : t.Represents A) (hapart : t.apart ≠ 0) : t.addG.Represents (A + G) := by
  obtain ⟨hZ, x, y, hA, rfl, hX, hY⟩ := h
  have happly : (t.apart : F) = ((Gx : F) - x) * t.Z ^ 2 := by
    rw [apart, ZMod.intCast_mod]
    push_cast
    rw [hX]
    ring
  have hx : x ≠ Gx := by
    rintro rfl
    rw [sub_self, zero_mul, apart, ZMod.intCast_mod] at happly
    exact cast_ne_zero hapart happly
  have hsub : (Gx : F) - x ≠ 0 := sub_ne_zero.2 hx.symm
  have hZ' : (t.addG.Z : F) = ((Gx : F) - x) * t.Z ^ 3 := by
    simp only [Jacobian.addG, ZMod.intCast_mod, Int.cast_mul]
    rw [happly]
    ring
  refine ⟨?_, _, _, _, Affine.Point.add_of_X_ne hx, ?_, ?_⟩
  · rw [hZ']
    exact mul_ne_zero hsub (pow_ne_zero 3 hZ)
  · rw [hZ', addX_eq, slope_of_ne hx]
    simp only [Jacobian.addG, ZMod.intCast_mod, Int.cast_mul, Int.cast_sub, Int.cast_ofNat]
    rw [happly, hX, hY]
    field_simp
    ring
  · rw [hZ', addY_eq, addX_eq, slope_of_ne hx]
    simp only [Jacobian.addG, ZMod.intCast_mod, Int.cast_mul, Int.cast_sub, Int.cast_ofNat]
    rw [happly, hX, hY]
    field_simp
    ring

lemma multiple_represents {bits n : ℕ} (h : multiple bits n = some t) : t.Represents (n • G) := by
  induction bits generalizing n t with
  | zero => cases h
  | succ bits ih =>
    rw [multiple] at h
    by_cases hone : n = 1
    · rw [if_pos hone] at h
      cases h
      rw [hone, one_nsmul]
      exact ⟨by simp, _, _, generator_nonsingular, rfl, by simp, by simp⟩
    · rw [if_neg hone] at h
      cases hhalf : multiple bits (n / 2) with
      | none => simp [hhalf] at h
      | some u =>
        have hdouble := (ih hhalf).double
        rw [← add_nsmul] at hdouble
        simp only [hhalf] at h
        split_ifs at h with heven hapart
        · cases h
          have hn : n / 2 + n / 2 = n := by omega
          rwa [hn] at hdouble
        · cases h
          have hn : n / 2 + n / 2 + 1 = n := by omega
          have hadd := hdouble.addG hapart
          rwa [← succ_nsmul, hn] at hadd

/-- The triple stands for the negative of the generator. -/
def isNegG (t : Jacobian) : Bool :=
  t.apart = 0 && (Gy * t.Z * t.Z * t.Z + t.Y) % P = 0

lemma Represents.eq_neg (h : t.Represents A) (hneg : t.isNegG = true) : A = -G := by
  obtain ⟨hZ, x, y, hA, rfl, hX, hY⟩ := h
  rw [isNegG, apart, Bool.and_eq_true] at hneg
  have hx' := congrArg (Int.cast : ℤ → F) (of_decide_eq_true hneg.1)
  have hy' := congrArg (Int.cast : ℤ → F) (of_decide_eq_true hneg.2)
  rw [ZMod.intCast_mod] at hx' hy'
  push_cast at hx' hy'
  rw [hX] at hx'
  rw [hY] at hy'
  obtain rfl : x = Gx := by
    have hzero : ((Gx : F) - x) * t.Z ^ 2 = 0 := by linear_combination hx'
    exact (sub_eq_zero.1 ((mul_eq_zero.1 hzero).resolve_right (pow_ne_zero 2 hZ))).symm
  obtain rfl : y = -Gy := by
    have hzero : ((Gy : F) + y) * t.Z ^ 3 = 0 := by linear_combination hy'
    exact (neg_eq_of_add_eq_zero_right
      ((mul_eq_zero.1 hzero).resolve_right (pow_ne_zero 3 hZ))).symm
  rw [G, Affine.Point.neg_some]
  simp only [negY_eq]

end Jacobian

/-- The multiple before is the negative of the generator. -/
lemma N_smul_G : (N : ℤ) • G = 0 := by
  have hmultiple : (Jacobian.multiple 256 (N - 1)).any Jacobian.isNegG = true := by decide +kernel
  obtain ⟨t, ht, hneg⟩ := (Option.any_eq_true _ _).1 hmultiple
  have hlast := (Jacobian.multiple_represents ht).eq_neg hneg
  have hN : N = N - 1 + 1 := rfl
  rw [natCast_zsmul, hN, succ_nsmul, hlast, neg_add_cancel]

lemma addOrderOf_G : addOrderOf G = N := by
  apply addOrderOf_eq_prime
  · rw [← natCast_zsmul]
    exact N_smul_G
  · exact Affine.Point.some_ne_zero _

lemma smul_G_eq_iff {a b : ℤ} : a • G = b • G ↔ (a : ZMod N) = b := by
  rw [ZMod.intCast_eq_intCast_iff, ← addOrderOf_G]
  exact zsmul_eq_zsmul_iff_modEq

lemma smul_G_ne_zero {k : ℤ} (hpos : 0 < k) (hlt : k < N) : k • G ≠ 0 := by
  intro hzero
  have hcast : (k : ZMod N) = ((0 : ℤ) : ZMod N) := by
    rw [← smul_G_eq_iff, hzero, zero_zsmul]
  rw [Int.cast_zero, ZMod.intCast_zmod_eq_zero_iff_dvd] at hcast
  exact absurd (Int.le_of_dvd hpos hcast) (not_le.2 hlt)

end generator
end BerzCoin.Secp256k1
