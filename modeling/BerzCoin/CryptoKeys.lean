import BerzCoin.CryptoSecp256k1Signing

/-! `PublicKey`: the coordinates of a key and their encodings. The square root of `from_bytes` is
taken of every number and never squared again. -/
namespace BerzCoin
open Secp256k1

structure PublicKey where
  x : ℤ
  y : ℤ
  deriving DecidableEq, Repr

namespace PublicKey

def toBytes (key : PublicKey) (compressed : Bool := true) : Except PyError Bytes := do
  let xBytes ← bytes32 key.x
  if compressed then return (if key.y % 2 = 0 then 0x02 else 0x03) :: xBytes
  else return 0x04 :: (xBytes ++ (← bytes32 key.y))

def fromBytes (data : Bytes) : Except PyError PublicKey :=
  if data.length = 33 then
    let leading := data.headD 0
    let x : ℤ := beNat (slice data 1 32)
    let ySquared := (Secp256k1.pow x 3 P + 7) % P
    let y := Secp256k1.pow ySquared ((P + 1) / 4) P
    if (leading = 0x03 ∧ y % 2 = 0) ∨ (leading = 0x02 ∧ y % 2 = 1) then .ok ⟨x, P - y⟩
    else .ok ⟨x, y⟩
  else if data.length = 65 then
    if data.headD 0 ≠ 0x04 then .error (.valueError "Invalid public key prefix")
    else .ok ⟨beNat (slice data 1 32), beNat (slice data 33 32)⟩
  else .error (.valueError ("Invalid public key length: " ++ toString data.length))

/-- A compressed key that decodes to a point of the curve with the encoding it was read from. -/
def DecodesToPoint (data : Bytes) : Prop :=
  ∀ key, fromBytes data = .ok key →
    OnCurve (.affine key.x key.y) ∧ key.x < P ∧ key.toBytes = .ok data

section decoding
variable {leading : UInt8} {xBytes data : Bytes}

/-- The root of the source, with the sign that the leading byte asks for. -/
lemma fromBytes_of_square (hlen : xBytes.length = 32) (hleading : leading = 0x02 ∨ leading = 0x03)
    (hsquare : IsSquare ((beNat xBytes : F) ^ 3 + 7)) :
    ∃ y : F, fromBytes (leading :: xBytes) = .ok ⟨beNat xBytes, y.val⟩ ∧
      y ^ 2 = (beNat xBytes : F) ^ 3 + 7 ∧ ((y.val : ℤ) % 2 = 0 ↔ leading = 0x02) := by
  obtain ⟨root, hroot⟩ : ∃ root : F, root = ((beNat xBytes : F) ^ 3 + 7) ^ ((P + 1) / 4) := ⟨_, rfl⟩
  have hsq : root * root = (beNat xBytes : F) ^ 3 + 7 := by
    rw [hroot]
    exact sqrt_sq hsquare
  have hne : root ≠ 0 := by
    rintro rfl
    rw [mul_zero] at hsq
    exact cube_add_seven_ne_zero _ hsq.symm
  have hslice : slice (leading :: xBytes) 1 32 = xBytes := by
    simp [slice, ← hlen]
  have hc : (Secp256k1.pow (beNat xBytes) 3 P + 7) % P = (((beNat xBytes : F) ^ 3 + 7).val : ℤ) := by
    rw [emod_eq_val, Int.cast_add, pow_cast, Int.cast_natCast, Int.cast_ofNat]
  have hy : Secp256k1.pow (((beNat xBytes : F) ^ 3 + 7).val : ℤ) ((P + 1) / 4) P = (root.val : ℤ) := by
    rw [pow_eq_val, val_cast, hroot]
  have hlength : (leading :: xBytes).length = 33 := by simp [hlen]
  simp only [fromBytes, if_pos hlength, List.headD_cons, hslice, hc, hy]
  by_cases hflip : (leading = 0x03 ∧ (root.val : ℤ) % 2 = 0) ∨ (leading = 0x02 ∧ (root.val : ℤ) % 2 = 1)
  · refine ⟨-root, ?_, by rw [neg_sq, pow_two, hsq], ?_⟩
    · rw [if_pos hflip, val_neg hne]
    · rw [neg_even_iff hne]
      rcases hleading with rfl | rfl
      · have hodd := hflip.resolve_left (fun h => absurd h.1 (by decide))
        exact ⟨fun _ => rfl, fun _ => by omega⟩
      · have heven := hflip.resolve_right (fun h => absurd h.1 (by decide))
        exact ⟨fun h => absurd heven.2 h, fun h => absurd h (by decide)⟩
  · refine ⟨root, by rw [if_neg hflip], by rw [pow_two, hsq], ?_⟩
    push Not at hflip
    rcases hleading with rfl | rfl
    · have heven := hflip.2 rfl
      simp only [iff_true]
      omega
    · have hodd := hflip.1 rfl
      exact ⟨fun h => absurd h hodd, fun h => absurd h (by decide)⟩

lemma bytes32_beNat (hlen : xBytes.length = 32) : bytes32 (beNat xBytes) = .ok xBytes := by
  have hlt := beNat_lt xBytes
  rw [hlen] at hlt
  have hneg : ¬ (beNat xBytes : ℤ) < 0 := by omega
  have hbig : ¬ (256 : ℤ) ^ 32 ≤ beNat xBytes := by
    rw [not_le]
    exact_mod_cast hlt
  have hself := beBytes_beNat xBytes
  rw [hlen] at hself
  rw [bytes32, if_neg hneg, if_neg hbig, Int.toNat_natCast, hself]

lemma toBytes_compressed (hlen : xBytes.length = 32) (y : ℤ) :
    toBytes ⟨beNat xBytes, y⟩ = .ok ((if y % 2 = 0 then 0x02 else 0x03) :: xBytes) := by
  simp only [toBytes, bytes32_beNat hlen]
  rfl

/-- Whatever the bytes are, a key comes back, and its `x` is what they say. -/
lemma fromBytes_compressed (leading : UInt8) (hlen : xBytes.length = 32) :
    ∃ y, fromBytes (leading :: xBytes) = .ok ⟨beNat xBytes, y⟩ := by
  have hslice : slice (leading :: xBytes) 1 32 = xBytes := by
    simp [slice, ← hlen]
  have hlength : (leading :: xBytes).length = 33 := by simp [hlen]
  simp only [fromBytes, if_pos hlength, hslice]
  split_ifs
  · exact ⟨_, rfl⟩
  · exact ⟨_, rfl⟩

lemma onCurve_val {y : F} {x : ℕ} (hlt : x < P) (hsq : y ^ 2 = (x : F) ^ 3 + 7) :
    OnCurve (.affine x y.val) := by
  refine ⟨⟨Int.natCast_nonneg x, by exact_mod_cast hlt⟩,
    ⟨Int.natCast_nonneg _, by exact_mod_cast ZMod.val_lt y⟩, ?_⟩
  rw [emod_eq_val, emod_eq_val]
  congr 2
  push_cast
  rw [ZMod.natCast_zmod_val]
  linear_combination hsq

lemma isSquare_of_onCurve {x : ℕ} {y : ℤ} (h : OnCurve (.affine x y)) :
    IsSquare ((x : F) ^ 3 + 7) := by
  have hcast := congrArg (Int.cast : ℤ → F) h.2.2
  rw [ZMod.intCast_mod, ZMod.intCast_mod] at hcast
  push_cast at hcast
  exact ⟨(y : F), by linear_combination -hcast⟩

/-- The encodings of the points of the curve. -/
def EncodesPoint (data : Bytes) : Prop :=
  (data.headD 0 = 0x02 ∨ data.headD 0 = 0x03) ∧ beNat (slice data 1 32) < P ∧
    IsSquare ((beNat (slice data 1 32) : F) ^ 3 + 7)

lemma decodesToPoint_of_encodes (hlen : xBytes.length = 32)
    (hleading : leading = 0x02 ∨ leading = 0x03) (hlt : beNat xBytes < P)
    (hsquare : IsSquare ((beNat xBytes : F) ^ 3 + 7)) : DecodesToPoint (leading :: xBytes) := by
  obtain ⟨y, hdecoded, hsq, hparity⟩ := fromBytes_of_square hlen hleading hsquare
  intro key hkey
  rw [hdecoded, Except.ok.injEq] at hkey
  subst hkey
  refine ⟨onCurve_val hlt hsq, Int.ofNat_lt.2 hlt, ?_⟩
  rw [toBytes_compressed hlen]
  rcases hleading with rfl | rfl
  · rw [if_pos (hparity.2 rfl)]
  · rw [if_neg (fun heven => absurd (hparity.1 heven) (by decide))]

lemma encodes_of_decodesToPoint (hlen : xBytes.length = 32)
    (h : DecodesToPoint (leading :: xBytes)) :
    (leading = 0x02 ∨ leading = 0x03) ∧ beNat xBytes < P ∧
      IsSquare ((beNat xBytes : F) ^ 3 + 7) := by
  obtain ⟨y, hdecoded⟩ := fromBytes_compressed leading hlen
  obtain ⟨hcurve, hlt, hbytes⟩ := h _ hdecoded
  refine ⟨?_, Int.ofNat_lt.1 hlt, isSquare_of_onCurve hcurve⟩
  rw [toBytes_compressed hlen, Except.ok.injEq, List.cons.injEq] at hbytes
  rw [← hbytes.1]
  split_ifs
  · exact .inl rfl
  · exact .inr rfl

lemma decodesToPoint_iff (hlen : data.length = 33) : DecodesToPoint data ↔ EncodesPoint data := by
  cases data with
  | nil => simp at hlen
  | cons leading xBytes =>
    have hxlen : xBytes.length = 32 := by simpa using hlen
    have hslice : slice (leading :: xBytes) 1 32 = xBytes := by
      simp [slice, ← hxlen]
    rw [EncodesPoint, hslice, List.headD_cons]
    constructor
    · exact encodes_of_decodesToPoint hxlen
    · intro h
      exact decodesToPoint_of_encodes hxlen h.1 h.2.1 h.2.2

lemma DecodesToPoint.injective {data' : Bytes} (hlen : data.length = 33) (h : DecodesToPoint data)
    (h' : DecodesToPoint data') (hsame : fromBytes data = fromBytes data') : data = data' := by
  cases data with
  | nil => simp at hlen
  | cons leading xBytes =>
    have hxlen : xBytes.length = 32 := by simpa using hlen
    obtain ⟨y, hkey⟩ := fromBytes_compressed leading hxlen
    have hbytes := (h _ hkey).2.2
    rw [(h' _ (hsame.symm.trans hkey)).2.2] at hbytes
    exact (Except.ok.inj hbytes).symm

/-- Of the compressed keys that are not the encoding of a point none is refused: they decode to
something else than a point of the curve, or to the point of another encoding. -/
theorem fromBytes_decodes_iff (hlen : data.length = 33) :
    (DecodesToPoint data ↔ EncodesPoint data) ∧
      (EncodesPoint data → ∀ data', data'.length = 33 → EncodesPoint data' →
        fromBytes data = fromBytes data' → data = data') := by
  refine ⟨decodesToPoint_iff hlen, ?_⟩
  intro h data' hlen' h' hsame
  exact ((decodesToPoint_iff hlen).2 h).injective hlen ((decodesToPoint_iff hlen').2 h') hsame

/-- The number one is the `x` of a point. -/
theorem fromBytes_decodes_iff_one : DecodesToPoint (0x02 :: beBytes 32 1) := by
  have hcurve : OnCurve (.affine (beNat (slice (0x02 :: beBytes 32 1) 1 32))
      0x4218f20ae6c646b363db68605822fb14264ca8d2587fdd6fbc750d587e76a7ee) := by
    unfold OnCurve
    decide +kernel
  exact (fromBytes_decodes_iff (by decide)).1.2
    ⟨.inl rfl, by decide, isSquare_of_onCurve hcurve⟩

/-- Five is not the `x` of a point, and no encoding starts with five. -/
theorem fromBytes_not_decodes : ¬ DecodesToPoint (0x02 :: beBytes 32 5) ∧
    fromBytes (0x02 :: beBytes 32 5) = .ok ⟨5,
      0x350ae3b48047adacdeea49fb8a0b289a94f726801078408aba79631fa7a1b6ba⟩ ∧
    ¬ OnCurve (.affine 5 0x350ae3b48047adacdeea49fb8a0b289a94f726801078408aba79631fa7a1b6ba) ∧
    fromBytes (0x05 :: beBytes 32 1) = fromBytes (0x02 :: beBytes 32 1) := by
  have hdecoded : fromBytes (0x02 :: beBytes 32 5) = .ok ⟨5,
      0x350ae3b48047adacdeea49fb8a0b289a94f726801078408aba79631fa7a1b6ba⟩ := by
    decide +kernel
  have hoff : ¬ OnCurve (.affine 5
      0x350ae3b48047adacdeea49fb8a0b289a94f726801078408aba79631fa7a1b6ba) := by
    unfold OnCurve
    decide +kernel
  refine ⟨fun h => hoff (h _ hdecoded).1, hdecoded, hoff, ?_⟩
  decide +kernel

end decoding
end PublicKey
end BerzCoin
