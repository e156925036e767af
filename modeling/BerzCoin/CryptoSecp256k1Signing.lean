import BerzCoin.BigEndian
import BerzCoin.CryptoSecp256k1Group

/-! What is signed verifies, for ECDSA and for Schnorr signatures, whatever the hash functions
are. -/
namespace BerzCoin.Secp256k1
open WeierstrassCurve

/-- The remainders that satisfy the equation of the curve, and the point at infinity. -/
def OnCurve : Point → Prop
  | .infinity => True
  | .affine x y => (0 ≤ x ∧ x < P) ∧ (0 ≤ y ∧ y < P) ∧ y * y % P = (x * x * x + 7) % P

section points
variable {x y y' : F} {k : ℤ}

lemma exists_ofPoint {point : Point} (h : OnCurve point) : ∃ A, ofPoint A = point := by
  cases point with
  | infinity => exact ⟨0, rfl⟩
  | affine x y =>
    obtain ⟨⟨hx, hx'⟩, ⟨hy, hy'⟩, heq⟩ := h
    have hcast := congrArg (Int.cast : ℤ → F) heq
    rw [ZMod.intCast_mod, ZMod.intCast_mod] at hcast
    push_cast at hcast
    have hnonsingular : curve.Nonsingular (x : F) (y : F) := by
      rw [nonsingular_iff]
      linear_combination hcast
    refine ⟨.some _ _ hnonsingular, ?_⟩
    rw [ofPoint, ← emod_eq_val, ← emod_eq_val, Int.emod_eq_of_lt hx hx', Int.emod_eq_of_lt hy hy']

/-- Scalar multiplication is repeated addition. -/
lemma multiply_eq_iterate {point : Point} (h : OnCurve point) (k : ℕ) :
    point.multiply k = (fun sum => sum.add point)^[k] INFINITY := by
  obtain ⟨A, rfl⟩ := exists_ofPoint h
  have hsum (k : ℕ) : (fun sum => sum.add (ofPoint A))^[k] INFINITY = ofPoint (k • A) := by
    induction k with
    | zero =>
      rw [zero_nsmul]
      rfl
    | succ k ih => rw [Function.iterate_succ_apply', ih, add_ofPoint, succ_nsmul]
  rw [hsum, multiply_ofPoint A (Int.natCast_nonneg k), natCast_zsmul]

lemma exists_affine {A : curve.Point} (hA : A ≠ 0) : ∃ x y h, A = .some x y h := by
  cases A with
  | zero => exact absurd rfl hA
  | some x y h => exact ⟨x, y, h, rfl⟩

lemma val_neg (hy : y ≠ 0) : (((-y).val : ℕ) : ℤ) = P - y.val := by
  rw [ZMod.neg_val, if_neg hy, Nat.cast_sub (ZMod.val_lt y).le]

/-- A point and its negative differ in the parity of `y`. -/
lemma neg_even_iff (hy : y ≠ 0) : (((-y).val : ℕ) : ℤ) % 2 = 0 ↔ ¬ (y.val : ℤ) % 2 = 0 := by
  have hodd : (P : ℤ) % 2 = 1 := by decide
  rw [val_neg hy]
  omega

lemma root_unique (hsq : y ^ 2 = y' ^ 2) (hy : y ≠ 0)
    (hparity : (y.val : ℤ) % 2 = 0 ↔ (y'.val : ℤ) % 2 = 0) : y = y' := by
  have hzero : (y - y') * (y + y') = 0 := by linear_combination hsq
  rcases mul_eq_zero.1 hzero with h | h
  · exact sub_eq_zero.1 h
  · have hneg : y' = -y := (neg_eq_of_add_eq_zero_right h).symm
    rw [hneg, neg_even_iff hy] at hparity
    omega

/-- The lifted point is the one with even `y`. -/
lemma liftX_of_even (h : curve.Nonsingular x y) (heven : (y.val : ℤ) % 2 = 0) :
    liftX x.val = some (ofPoint (.some x y h)) := by
  have hcurve := nonsingular_iff.1 h
  have hrange : ¬ ((x.val : ℤ) < 0 ∨ (P : ℤ) ≤ x.val) := by
    have hlt : (x.val : ℤ) < P := by exact_mod_cast ZMod.val_lt x
    omega
  have hc : (pow x.val 3 P + 7) % P = ((x ^ 3 + 7 : F).val : ℤ) := by
    rw [emod_eq_val, Int.cast_add, pow_cast, val_cast, Int.cast_ofNat]
  have hsquare : IsSquare (x ^ 3 + 7) := ⟨y, by rw [← hcurve, pow_two]⟩
  obtain ⟨root, hroot⟩ : ∃ root : F, root = (x ^ 3 + 7) ^ ((P + 1) / 4) := ⟨_, rfl⟩
  have hsq : root * root = x ^ 3 + 7 := by
    rw [hroot]
    exact sqrt_sq hsquare
  have hy : pow ((x ^ 3 + 7 : F).val : ℤ) ((P + 1) / 4) P = (root.val : ℤ) := by
    rw [pow_eq_val, val_cast, hroot]
  have hcheck : (root.val : ℤ) * root.val % P = ((x ^ 3 + 7 : F).val : ℤ) := by
    rw [emod_eq_val, Int.cast_mul, val_cast, hsq]
  have hne : root ≠ 0 := by
    rintro rfl
    rw [mul_zero] at hsq
    exact cube_add_seven_ne_zero x hsq.symm
  simp only [liftX, if_neg hrange, hc, hy, hcheck, ne_eq, not_true_eq_false, if_false]
  split_ifs with hodd
  · have hsame : -root = y := by
      apply root_unique _ (neg_ne_zero.2 hne)
      · rw [neg_even_iff hne]
        omega
      · linear_combination hsq - hcurve
    rw [← val_neg hne, hsame, ofPoint]
  · have hsame : root = y := by
      apply root_unique _ hne
      · omega
      · linear_combination hsq - hcurve
    rw [hsame, ofPoint]

/-- The scalar or its negative, whichever gives an even `y`. -/
lemma exists_even (hpos : 0 < k) (hlt : k < N) : ∃ x y y' h h',
    k • G = .some x y h ∧ 0 < (if (y.val : ℤ) % 2 = 0 then k else N - k) ∧
      (if (y.val : ℤ) % 2 = 0 then k else N - k) < N ∧
      (if (y.val : ℤ) % 2 = 0 then k else N - k) • G = .some x y' h' ∧ (y'.val : ℤ) % 2 = 0 := by
  obtain ⟨x, y, h, hA⟩ := exists_affine (smul_G_ne_zero hpos hlt)
  by_cases heven : (y.val : ℤ) % 2 = 0
  · refine ⟨x, y, y, h, h, hA, ?_⟩
    rw [if_pos heven]
    exact ⟨hpos, hlt, hA, heven⟩
  · have hneg : (N - k : ℤ) • G = -(k • G) := by rw [sub_zsmul, N_smul_G, zero_add]
    refine ⟨x, y, curve.negY x y, h, (Affine.nonsingular_neg ..).2 h, hA, ?_⟩
    rw [if_neg heven, hneg, hA]
    refine ⟨by omega, by omega, rfl, ?_⟩
    rw [negY_eq]
    exact (neg_even_iff (y_ne_zero h.1)).2 heven

end points

/-! ECDSA. -/
section ecdsa
variable {d k : ℤ} {x y px py : F} {h : curve.Nonsingular x y} {hpub : curve.Nonsingular px py}

lemma GENERATOR_multiply (hk : 0 ≤ k) : GENERATOR.multiply k = ofPoint (k • G) := by
  rw [← ofPoint_G, multiply_ofPoint G hk]

/-- A point of the group and its negative have one `x`. -/
lemma ofPoint_of_sign {A : curve.Point} (hA : A = .some x y h ∨ A = -.some x y h) :
    ∃ y' : ℤ, ofPoint A = .affine x.val y' := by
  rcases hA with rfl | rfl
  · exact ⟨_, rfl⟩
  · exact ⟨_, rfl⟩

lemma cast_ne_zero_N {a : ℤ} (hpos : 0 < a) (hlt : a < N) : (a : ZMod N) ≠ 0 := by
  rw [ne_eq, ZMod.intCast_zmod_eq_zero_iff_dvd]
  intro hdvd
  exact absurd (Int.le_of_dvd hpos hdvd) (not_le.2 hlt)

lemma emod_N_range (a : ℤ) : 0 ≤ a % N ∧ a % N < N :=
  ⟨Int.emod_nonneg _ (by decide), Int.emod_lt_of_pos _ (by decide)⟩

/-- The two multiples that the verifier adds up give the point of the nonce, up to its sign. -/
lemma verifySignaturePure_of_signed {m : Bytes} (hm : m.length = 32) (hk : 0 < k) (hlt : k < N)
    (hR : k • G = .some x y h) (hd : d • G = .some px py hpub) {r s : ℤ} (hr : r = x.val % N)
    (hrne : r ≠ 0) (hs : 0 < s) (hslt : s < N)
    (hsign : (s : ZMod N) = (k : ZMod N)⁻¹ * (beNat m + d * r) ∨
      (s : ZMod N) = -((k : ZMod N)⁻¹ * (beNat m + d * r))) :
    verifySignaturePure (px.val, py.val) m (r, s) = true := by
  have hrange := emod_N_range x.val
  have hguard : ¬ (r ≤ 0 ∨ (N : ℤ) ≤ r ∨ s ≤ 0 ∨ (N : ℤ) ≤ s) := by
    rw [hr] at hrne ⊢
    omega
  obtain ⟨u1, hu1⟩ : ∃ u1 : ℤ, u1 = beNat m * pow s (N - 2) N % N := ⟨_, rfl⟩
  obtain ⟨u2, hu2⟩ : ∃ u2 : ℤ, u2 = r * pow s (N - 2) N % N := ⟨_, rfl⟩
  have hcast1 : (u1 : ZMod N) = beNat m * (s : ZMod N)⁻¹ := by
    rw [hu1, ZMod.intCast_mod, Int.cast_mul, pow_inv two_lt_N, Int.cast_natCast]
  have hcast2 : (u2 : ZMod N) = r * (s : ZMod N)⁻¹ := by
    rw [hu2, ZMod.intCast_mod, Int.cast_mul, pow_inv two_lt_N]
  have hk0 := cast_ne_zero_N hk hlt
  have hs0 := cast_ne_zero_N hs hslt
  have hsum : u1 • G + u2 • d • G = (u1 + u2 * d) • G := by rw [add_zsmul, mul_zsmul]
  have hsign' : u1 • G + u2 • d • G = k • G ∨ u1 • G + u2 • d • G = -(k • G) := by
    have hpre (t : ZMod N) (ht : (s : ZMod N) = t) (hne : t ≠ 0) :
        ((u1 + u2 * d : ℤ) : ZMod N) = (beNat m + d * r) * t⁻¹ := by
      push_cast
      rw [hcast1, hcast2, ht]
      ring
    rcases hsign with hsign | hsign
    · left
      have hne := hs0
      rw [hsign] at hne
      have hmsg : (beNat m + d * r : ZMod N) ≠ 0 := right_ne_zero_of_mul hne
      rw [hsum, smul_G_eq_iff, hpre _ hsign hne]
      field_simp
    · right
      have hne := hs0
      rw [hsign] at hne
      have hmsg : (beNat m + d * r : ZMod N) ≠ 0 := right_ne_zero_of_mul (neg_ne_zero.1 hne)
      rw [hsum, ← neg_zsmul, smul_G_eq_iff, hpre _ hsign hne]
      push_cast
      field_simp
  rw [hR] at hsign'
  obtain ⟨y', hpoint⟩ := ofPoint_of_sign hsign'
  have hpk : Point.affine (px.val : ℤ) py.val = ofPoint (d • G) := by rw [hd, ofPoint]
  have hu1' : 0 ≤ u1 := hu1 ▸ (emod_N_range _).1
  have hu2' : 0 ≤ u2 := hu2 ▸ (emod_N_range _).1
  simp only [verifySignaturePure, hm, ne_eq, not_true_eq_false, if_false, if_neg hguard, ← hu1, ← hu2,
    hpk]
  rw [GENERATOR_multiply hu1', multiply_ofPoint _ hu2', add_ofPoint, hpoint]
  simp only [decide_eq_true_eq, hr]

lemma validateSignInputs_ok {m : Bytes} (hpos : 0 < d) (hlt : d < N) (hm : m.length = 32) :
    validateSignInputs d m = .ok () := by
  rw [validateSignInputs, if_neg (by omega), if_neg (by omega)]

/-- The signer does not fail, and a pair that it returns verifies. -/
lemma signMessagePure_verifies {m : Bytes} (hm : m.length = 32) (hpos : 0 < d) (hlt : d < N)
    (hd : d • G = .some px py hpub) (nonces : List ℕ) (hnonces : ∀ k ∈ nonces, 0 < k ∧ k < N) :
    ∃ result, signMessagePure d m nonces = .ok result ∧
      ∀ signature ∈ result, verifySignaturePure (px.val, py.val) m signature = true := by
  induction nonces with
  | nil => exact ⟨none, rfl, by simp⟩
  | cons k nonces ih =>
    have hrest := ih fun k' hk' => hnonces k' (List.mem_cons_of_mem _ hk')
    obtain ⟨hk, hkN⟩ := hnonces k List.mem_cons_self
    have hk' : 0 < (k : ℤ) := by exact_mod_cast hk
    have hkN' : (k : ℤ) < N := by exact_mod_cast hkN
    obtain ⟨x, y, h, hR⟩ := exists_affine (smul_G_ne_zero hk' hkN')
    have hpoint : GENERATOR.multiply k = .affine x.val y.val := by
      rw [GENERATOR_multiply hk'.le, hR, ofPoint]
    simp only [signMessagePure, validateSignInputs_ok hpos hlt hm, hpoint, bind, Except.bind]
    obtain ⟨r, hr⟩ : ∃ r : ℤ, r = x.val % N := ⟨_, rfl⟩
    obtain ⟨s, hs⟩ : ∃ s : ℤ, s = pow k (N - 2) N * (beNat m + d * r) % N := ⟨_, rfl⟩
    rw [← hr, ← hs]
    split_ifs with hr0 hs0 hhigh
    · exact hrest
    · exact hrest
    all_goals
      have hrange := emod_N_range (pow k (N - 2) N * (beNat m + d * r))
      rw [← hs] at hrange
      have hcast : (s : ZMod N) = ((k : ℤ) : ZMod N)⁻¹ * (beNat m + d * r) := by
        rw [hs, ZMod.intCast_mod, Int.cast_mul, pow_inv two_lt_N]
        push_cast
        rfl
      refine ⟨_, rfl, ?_⟩
      intro signature hmem
      obtain rfl := Option.mem_some_iff.1 hmem
    · refine verifySignaturePure_of_signed hm hk' hkN' hR hd hr hr0 (by omega) (by omega) (.inr ?_)
      rw [Int.cast_sub, hcast, Int.cast_natCast, ZMod.natCast_self, zero_sub]
    · exact verifySignaturePure_of_signed hm hk' hkN' hR hd hr hr0 (by omega) (by omega) (.inl hcast)

end ecdsa

/-! Schnorr. -/
section schnorr
variable {H : Hashlib} {d : ℤ}

lemma P_lt : (P : ℤ) < 256 ^ 32 := by decide

lemma N_lt : (N : ℤ) < 256 ^ 32 := by decide

lemma bytes32_of_range {v : ℤ} (hnonneg : 0 ≤ v) (hlt : v < 256 ^ 32) :
    bytes32 v = .ok (beBytes 32 v.toNat) ∧ (beNat (beBytes 32 v.toNat) : ℤ) = v := by
  rw [bytes32, if_neg (not_lt.2 hnonneg), if_neg (not_le.2 hlt)]
  refine ⟨rfl, ?_⟩
  rw [beNat_beBytes (by omega), Int.toNat_of_nonneg hnonneg]

lemma bytes32_val (x : F) : ∃ bytes, bytes32 x.val = .ok bytes ∧ bytes.length = 32 ∧
    (beNat bytes : ℤ) = x.val := by
  have hlt : (x.val : ℤ) < P := by exact_mod_cast ZMod.val_lt x
  obtain ⟨hok, hvalue⟩ := bytes32_of_range (Int.natCast_nonneg x.val) (hlt.trans P_lt)
  exact ⟨_, hok, beBytes_length .., hvalue⟩

lemma bytes32_scalar {s : ℤ} (hs : 0 ≤ s ∧ s < N) : ∃ bytes, bytes32 s = .ok bytes ∧
    bytes.length = 32 ∧ (beNat bytes : ℤ) = s := by
  obtain ⟨hok, hvalue⟩ := bytes32_of_range hs.1 (hs.2.trans N_lt)
  exact ⟨_, hok, beBytes_length .., hvalue⟩

/-- The verifier accepts `s` for the even point of the nonce and the even point of the key. -/
lemma schnorrVerifyMessage_of_signed {d k s : ℤ} {m rBytes pubBytes sBytes : Bytes} {rx ry px py : F}
    {hr : curve.Nonsingular rx ry} {hp : curve.Nonsingular px py} (hm : m.length = 32)
    (hrLen : rBytes.length = 32) (hpubLen : pubBytes.length = 32) (hsLen : sBytes.length = 32)
    (hrBytes : (beNat rBytes : ℤ) = rx.val) (hpubBytes : (beNat pubBytes : ℤ) = px.val)
    (hsBytes : (beNat sBytes : ℤ) = s) (hR : k • G = .some rx ry hr) (hreven : (ry.val : ℤ) % 2 = 0)
    (hd : d • G = .some px py hp) (hpeven : (py.val : ℤ) % 2 = 0)
    (hs : s = (k + challenge H rBytes pubBytes m * d) % N) :
    schnorrVerifyMessage H pubBytes m (rBytes ++ sBytes) = true := by
  have hlengths : ¬ (pubBytes.length ≠ 32 ∨ m.length ≠ 32 ∨ (rBytes ++ sBytes).length ≠ 64) := by
    rw [List.length_append]
    omega
  have hsrange := emod_N_range (k + challenge H rBytes pubBytes m * d)
  have hrange : ¬ ((P : ℤ) ≤ rx.val ∨ (N : ℤ) ≤ s) := by
    have hlt : (rx.val : ℤ) < P := by exact_mod_cast ZMod.val_lt rx
    omega
  have htake : (rBytes ++ sBytes).take 32 = rBytes := by rw [← hrLen, List.take_left]
  have hdrop : (rBytes ++ sBytes).drop 32 = sBytes := by rw [← hrLen, List.drop_left]
  have hneg := emod_N_range (N - challenge H rBytes pubBytes m)
  have hsum : s • G + ((N - challenge H rBytes pubBytes m) % N) • d • G = k • G := by
    rw [← mul_zsmul, ← add_zsmul, smul_G_eq_iff, hs]
    push_cast
    rw [ZMod.natCast_self]
    ring
  simp only [schnorrVerifyMessage, if_neg hlengths, hpubBytes, liftX_of_even hp hpeven, htake, hdrop,
    hrBytes, hsBytes, if_neg hrange]
  rw [← hd, GENERATOR_multiply (by omega), multiply_ofPoint _ hneg.1, add_ofPoint, hsum, hR, ofPoint]
  simp only [ne_eq, hreven, not_true_eq_false, if_false, decide_true]

/-- The signer fails on a zero nonce only, and what it returns verifies. -/
lemma schnorrSignMessage_verifies {m aux : Bytes} (hm : m.length = 32) (haux : aux.length = 32)
    (hpos : 0 < d) (hlt : d < N) {px py : F} {hpub : curve.Nonsingular px py}
    (hd : d • G = .some px py hpub) {pubBytes : Bytes} (hpubBytes : bytes32 px.val = .ok pubBytes) :
    schnorrSignMessage H d m aux = .error (.valueError "invalid nonce") ∨
      ∃ signature, schnorrSignMessage H d m aux = .ok signature ∧
        schnorrVerifyMessage H pubBytes m signature = true := by
  obtain ⟨x, y, y', h, h', hA, hd'pos, hd'lt, hd'G, heven⟩ := exists_even hpos hlt
  rw [hd, Affine.Point.some.injEq] at hA
  obtain ⟨rfl, rfl⟩ := hA
  have hmult : GENERATOR.multiply d = .affine px.val py.val := by
    rw [GENERATOR_multiply hpos.le, hd, ofPoint]
  have hkey : ¬ (d ≤ 0 ∨ (N : ℤ) ≤ d) := by omega
  obtain ⟨dBytes, hdBytes, -⟩ := bytes32_scalar ⟨hd'pos.le, hd'lt⟩
  simp only [schnorrSignMessage, hm, haux, ne_eq, not_true_eq_false, if_false, if_neg hkey, hmult,
    coordinates, bind, Except.bind, hdBytes, hpubBytes]
  obtain ⟨k0, hk0⟩ : ∃ k0 : ℤ, k0 = (beNat (H.taggedHash (Script.asciiBytes "BIP0340/nonce")
      (xorBytes dBytes (H.taggedHash (Script.asciiBytes "BIP0340/aux") aux) ++ pubBytes ++ m)) : ℤ) % N :=
    ⟨_, rfl⟩
  rw [← hk0]
  by_cases hzero : k0 = 0
  · left
    rw [if_pos hzero]
    rfl
  · right
    obtain ⟨hk0', hk0lt⟩ : 0 ≤ k0 ∧ k0 < N := hk0 ▸ emod_N_range _
    obtain ⟨rx, ry, ry', hr, hr', hR, hkpos, hklt, hkG, hreven⟩ :=
      exists_even (show 0 < k0 by omega) hk0lt
    obtain ⟨rBytes, hrBytes, hrLen, hrValue⟩ := bytes32_val rx
    obtain ⟨sBytes, hsBytes, hsLen, hsValue⟩ := bytes32_scalar (emod_N_range
      ((if (ry.val : ℤ) % 2 = 0 then k0 else N - k0) +
        challenge H rBytes pubBytes m * if (py.val : ℤ) % 2 = 0 then d else N - d))
    have hpubBytes' := bytes32_val px
    rw [hpubBytes] at hpubBytes'
    obtain ⟨_, hsame, hpubLen, hpubValue⟩ := hpubBytes'
    cases hsame
    have hmult0 : GENERATOR.multiply k0 = .affine rx.val ry.val := by
      rw [GENERATOR_multiply hk0', hR, ofPoint]
    have hmultk : GENERATOR.multiply (if (ry.val : ℤ) % 2 = 0 then k0 else N - k0) =
        .affine rx.val ry'.val := by
      rw [GENERATOR_multiply hkpos.le, hkG, ofPoint]
    refine ⟨rBytes ++ sBytes, ?_, schnorrVerifyMessage_of_signed hm hrLen hpubLen hsLen hrValue
      hpubValue hsValue hkG hreven hd'G heven rfl⟩
    rw [if_neg hzero]
    simp only [hmult0, hmultk, hrBytes, hsBytes]
    rfl

end schnorr

/-- Every signature of the two signers verifies under the public key of the signing key, and
double-and-add is the repeated sum on every point of the curve. -/
theorem signed_verifies (H : Hashlib) (d : ℤ) (hpos : 0 < d) (hlt : d < N) (m : Bytes)
    (hm : m.length = 32) :
    (∃ pubX pubY pubBytes, privateToPublic d = some (pubX, pubY) ∧ bytes32 pubX = .ok pubBytes ∧
      (∀ nonces : List ℕ, (∀ k ∈ nonces, 0 < k ∧ k < N) →
        ∃ result, signMessagePure d m nonces = .ok result ∧
          ∀ signature ∈ result, verifySignaturePure (pubX, pubY) m signature = true) ∧
      ∀ aux : Bytes, aux.length = 32 →
        schnorrSignMessage H d m aux = .error (.valueError "invalid nonce") ∨
          ∃ signature, schnorrSignMessage H d m aux = .ok signature ∧
            schnorrVerifyMessage H pubBytes m signature = true) ∧
    ∀ point, OnCurve point → ∀ k : ℕ,
      point.multiply k = (fun sum => sum.add point)^[k] INFINITY := by
  obtain ⟨px, py, hpub, hd⟩ := exists_affine (smul_G_ne_zero hpos hlt)
  obtain ⟨pubBytes, hpubBytes, -⟩ := bytes32_val px
  refine ⟨⟨px.val, py.val, pubBytes, ?_, hpubBytes, signMessagePure_verifies hm hpos hlt hd,
    fun aux haux => schnorrSignMessage_verifies hm haux hpos hlt hd hpubBytes⟩,
    fun point hpoint k => multiply_eq_iterate hpoint k⟩
  rw [privateToPublic, GENERATOR_multiply hpos.le, hd, ofPoint]

/-- The key 1 and the nonce 1: the public key and the point of the nonce are the generator. -/
theorem signed_verifies_one :
    privateToPublic 1 = some (Gx, Gy) ∧
      signMessagePure 1 (List.replicate 32 0) [1] = .ok (some (Gx, Gx)) ∧
      verifySignaturePure (Gx, Gy) (List.replicate 32 0) (Gx, Gx) = true := by
  have hpublic : privateToPublic 1 = some (Gx, Gy) := by decide +kernel
  have hsigned : signMessagePure 1 (List.replicate 32 0) [1] = .ok (some (Gx, Gx)) := by
    decide +kernel
  obtain ⟨⟨pubX, pubY, -, hpub, -, hverifies, -⟩, -⟩ := signed_verifies (Hashlib.ofDigests []) 1
    (by decide) (by decide) (List.replicate 32 0) (by decide)
  rw [hpublic, Option.some.injEq, Prod.mk.injEq] at hpub
  obtain ⟨rfl, rfl⟩ := hpub
  obtain ⟨result, hresult, hall⟩ := hverifies [1] (by decide)
  rw [hsigned, Except.ok.injEq] at hresult
  subst hresult
  exact ⟨hpublic, hsigned, hall _ rfl⟩

end BerzCoin.Secp256k1
