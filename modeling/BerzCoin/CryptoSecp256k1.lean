import BerzCoin.ModularPower
import BerzCoin.ScriptSigchecks

/-! `secp256k1.py`: points, double-and-add, and the signatures of the pure-Python backend. -/
namespace BerzCoin.Secp256k1
open ModularPower

def P : ℕ := 0xFFFFFFFFFFFFFFFFFFFFFFFFFFFFFFFFFFFFFFFFFFFFFFFFFFFFFFFEFFFFFC2F

def N : ℕ := 0xFFFFFFFFFFFFFFFFFFFFFFFFFFFFFFFEBAAEDCE6AF48A03BBFD25E8CD0364141

def Gx : ℤ := 0x79BE667EF9DCBBAC55A06295CE870B07029BFCDB2DCE28D959F2815B16F81798

def Gy : ℤ := 0x483ADA7726A3C4655DA4FBFC0E1108A8FD17B448A68554199C47D08FFB10D4B8

/-- `pow(base, exponent, modulus)`. -/
def pow (base : ℤ) (exponent modulus : ℕ) : ℤ := powMod (base % modulus).toNat exponent modulus

/-- A point without coordinates is the one at infinity. -/
inductive Point
  | infinity
  | affine (x y : ℤ)
  deriving DecidableEq, Repr

namespace Point

def double : Point → Point
  | infinity => infinity
  | affine x y =>
    let s := 3 * x * x * pow (2 * y % P) (P - 2) P % P
    let x3 := (s * s - 2 * x) % P
    let y3 := (s * (x - x3) - y) % P
    affine x3 y3

/-- `__add__`. -/
def add : Point → Point → Point
  | infinity, other => other
  | affine x y, infinity => affine x y
  | affine x y, affine x' y' =>
    if x = x' then if y = y' then double (affine x y) else infinity
    else
      let s := (y' - y) * pow ((x' - x) % P) (P - 2) P % P
      let x3 := (s * s - x - x') % P
      let y3 := (s * (x - x3) - y) % P
      affine x3 y3

/-- `while scalar > 0`, for as many bits as the scalar has. -/
def multiplyLoop : ℕ → ℕ → Point → Point → Point
  | 0, _, result, _ => result
  | bits + 1, scalar, result, current =>
    if scalar = 0 then result
    else multiplyLoop bits (scalar / 2) (if scalar % 2 = 1 then result.add current else result)
      current.double

/-- The loop does not run on a negative scalar. -/
def multiply (point : Point) (scalar : ℤ) : Point :=
  multiplyLoop scalar.toNat.size scalar.toNat infinity point

end Point

open Point

def INFINITY : Point := infinity

def GENERATOR : Point := affine Gx Gy

/-- `int(value).to_bytes(32, "big")`. -/
def bytes32 (value : ℤ) : Except PyError Bytes :=
  if value < 0 then .error (.overflowError "can't convert negative int to unsigned")
  else if 256 ^ 32 ≤ value then .error (.overflowError "int too big to convert")
  else .ok (beBytes 32 value.toNat)

/-- The point with even `y` over `x`. -/
def liftX (x : ℤ) : Option Point :=
  if x < 0 ∨ P ≤ x then none
  else
    let c := (pow x 3 P + 7) % P
    let y := pow c ((P + 1) / 4) P
    if y * y % P ≠ c then none
    else if y % 2 = 1 then some (affine x (P - y))
    else some (affine x y)

/-- The coordinates are `None` for the point at infinity. -/
def privateToPublic (privateKey : ℤ) : Option (ℤ × ℤ) :=
  match GENERATOR.multiply privateKey with
  | infinity => none
  | affine x y => some (x, y)

def validateSignInputs (privateKey : ℤ) (messageHash : Bytes) : Except PyError Unit :=
  if privateKey ≤ 0 ∨ N ≤ privateKey then .error (.valueError "invalid private key range")
  else if messageHash.length ≠ 32 then .error (.valueError "message_hash must be 32 bytes")
  else .ok ()

/-- `_sign_message_pure` with the nonces that `secrets` will give it. A nonce is drawn again when
`r` or `s` is zero, and nothing is returned when they run out. -/
def signMessagePure (privateKey : ℤ) (messageHash : Bytes) :
    List ℕ → Except PyError (Option (ℤ × ℤ))
  | [] => .ok none
  | k :: nonces => do
    validateSignInputs privateKey messageHash
    match GENERATOR.multiply k with
    | infinity => .error (.typeError "unsupported operand type(s) for %: 'NoneType' and 'int'")
    | affine x _ =>
      let r := x % N
      if r = 0 then signMessagePure privateKey messageHash nonces
      else
        let msgInt : ℤ := beNat messageHash
        let s := pow k (N - 2) N * (msgInt + privateKey * r) % N
        if s = 0 then signMessagePure privateKey messageHash nonces
        else return some (r, if (N / 2 : ℕ) < s then N - s else s)

def verifySignaturePure (publicKey : ℤ × ℤ) (messageHash : Bytes) (signature : ℤ × ℤ) : Bool :=
  if messageHash.length ≠ 32 then false
  else
    let (r, s) := signature
    if r ≤ 0 ∨ N ≤ r ∨ s ≤ 0 ∨ N ≤ s then false
    else
      let w := pow s (N - 2) N
      let msgInt : ℤ := beNat messageHash
      let u1 := msgInt * w % N
      let u2 := r * w % N
      match (GENERATOR.multiply u1).add ((affine publicKey.1 publicKey.2).multiply u2) with
      | infinity => false
      | affine x _ => x % N = r

/-- `bytes(a ^ b for a, b in zip(left, right))`. -/
def xorBytes (left right : Bytes) : Bytes := List.zipWith (· ^^^ ·) left right

/-- `point.x` and `point.y`, where both are used as numbers. -/
def coordinates : Point → Except PyError (ℤ × ℤ)
  | infinity => .error (.typeError "unsupported operand type(s) for %: 'NoneType' and 'int'")
  | affine x y => .ok (x, y)

def challenge (H : Hashlib) (rBytes pubkeyXonly messageHash : Bytes) : ℤ :=
  (beNat (H.taggedHash (Script.asciiBytes "BIP0340/challenge")
    (rBytes ++ pubkeyXonly ++ messageHash)) : ℤ) % N

def schnorrSignMessage (H : Hashlib) (privateKey : ℤ) (messageHash auxRand : Bytes) :
    Except PyError Bytes := do
  if messageHash.length ≠ 32 then throw (.valueError "message_hash must be 32 bytes")
  if auxRand.length ≠ 32 then throw (.valueError "aux_rand must be 32 bytes")
  if privateKey ≤ 0 ∨ N ≤ privateKey then throw (.valueError "invalid private key range")
  let (pubX, pubY) ← coordinates (GENERATOR.multiply privateKey)
  let d := if pubY % 2 = 0 then privateKey else N - privateKey
  let t := xorBytes (← bytes32 d) (H.taggedHash (Script.asciiBytes "BIP0340/aux") auxRand)
  let pubBytes ← bytes32 pubX
  let k0 : ℤ := (beNat (H.taggedHash (Script.asciiBytes "BIP0340/nonce")
    (t ++ pubBytes ++ messageHash)) : ℤ) % N
  if k0 = 0 then throw (.valueError "invalid nonce")
  let (_, rY) ← coordinates (GENERATOR.multiply k0)
  let k := if rY % 2 = 0 then k0 else N - k0
  let (rx, _) ← coordinates (GENERATOR.multiply k)
  let rBytes ← bytes32 rx
  let e := challenge H rBytes pubBytes messageHash
  let s := (k + e * d) % N
  return rBytes ++ (← bytes32 s)

def schnorrVerifyMessage (H : Hashlib) (pubkeyXonly messageHash signature : Bytes) : Bool :=
  if pubkeyXonly.length ≠ 32 ∨ messageHash.length ≠ 32 ∨ signature.length ≠ 64 then false
  else
    match liftX (beNat pubkeyXonly) with
    | none => false
    | some p =>
      let r : ℤ := beNat (signature.take 32)
      let s : ℤ := beNat (signature.drop 32)
      if P ≤ r ∨ N ≤ s then false
      else
        let e := challenge H (signature.take 32) pubkeyXonly messageHash
        match (GENERATOR.multiply s).add (p.multiply ((N - e) % N)) with
        | infinity => false
        | affine x y => if y % 2 ≠ 0 then false else x = r

end BerzCoin.Secp256k1
