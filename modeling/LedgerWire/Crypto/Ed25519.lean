/-
# Ed25519 signatures

The signature scheme of RFC 8032 over the twisted Edwards curve `-x² + y² = 1 + d x² y²` modulo
`2²⁵⁵ - 19`. A signature is a function of the seed and the message alone.

* `Ed25519.publicKey`, `Ed25519.sign` — from a seed of 32 bytes.
* `Ed25519.verify` — judges a signature; a key that is no point of the curve has no verdict.

Verification recomputes the commitment from the key and compares its encoding with the one given;
a scalar that is not below the group order is never accepted.
-/

import LedgerWire.Crypto.Sha2

namespace LedgerWire.Ed25519

/-! ### The field -/

/-- The field's characteristic. -/
def p : Nat := Nat.pow 2 255 - 19

/-- The order of the base point. -/
def order : Nat := Nat.pow 2 252 + 27742317777372353535851937790883648493

/-- A power modulo `m` by squaring, over the exponent's lowest `bits` bits. -/
def powMod (m base : Nat) : (bits exponent : Nat) → Nat
  | 0, _ => 1 % m
  | bits + 1, exponent =>
      let half := powMod m base bits (exponent / 2)
      let square := half * half % m
      if exponent % 2 = 1 then square * base % m else square

/-- A power of a field element; exponents in use have at most 256 bits. -/
def pow (x exponent : Nat) : Nat := powMod p x 256 exponent

def inverse (x : Nat) : Nat := pow x (p - 2)

def sub (x y : Nat) : Nat := (x + (p - y % p)) % p

/-- The curve's coefficient `d`, the quotient of -121665 by 121666. -/
def d : Nat := (p - 121665) * inverse 121666 % p

/-- A square root of -1. -/
def rootOfMinusOne : Nat := pow 2 ((p - 1) / 4)

/-! ### The curve -/

/-- A point with `x = X/Z`, `y = Y/Z` and `x y = T/Z`. -/
structure Point where
  X : Nat
  Y : Nat
  Z : Nat
  T : Nat

namespace Point

def zero : Point := ⟨0, 1, 1, 0⟩

/-- The sum of two points; the formulas are complete. -/
def add (P Q : Point) : Point :=
  let a := sub P.Y P.X * sub Q.Y Q.X % p
  let b := (P.Y + P.X) * (Q.Y + Q.X) % p
  let c := 2 * P.T * Q.T % p * d % p
  let e := 2 * P.Z * Q.Z % p
  let u := sub b a
  let v := sub e c
  let w := (e + c) % p
  let z := (b + a) % p
  ⟨u * v % p, w * z % p, v * w % p, u * z % p⟩

def neg (P : Point) : Point := ⟨sub 0 P.X, P.Y, P.Z, sub 0 P.T⟩

/-- A multiple of a point, over the scalar's lowest `bits` bits. -/
def smulBits (P : Point) : (bits scalar : Nat) → Point
  | 0, _ => zero
  | bits + 1, scalar =>
      let half := smulBits P bits (scalar / 2)
      let double := half.add half
      if scalar % 2 = 1 then double.add P else double

/-- A multiple of a point; scalars in use have at most 256 bits. -/
def smul (scalar : Nat) (P : Point) : Point := P.smulBits 256 scalar

/-- The 32 bytes of a point: `y` with the lowest bit of `x` in the top place. -/
def encode (P : Point) : Bytes :=
  let zInverse := inverse P.Z
  let x := P.X * zInverse % p
  let y := P.Y * zInverse % p
  Bytes.littleEndian 32 (y + x % 2 * Nat.pow 2 255)

/-- The `x` of the given parity on the line of `y`, if the curve has a point there. -/
def recoverX? (y parity : Nat) : Option Nat :=
  let u := sub (y * y % p) 1
  let v := (d * (y * y % p) + 1) % p
  let v3 := v * v % p * v % p
  let v7 := v3 * v3 % p * v % p
  let root := u * v3 % p * pow (u * v7 % p) ((p - 5) / 8) % p
  let square := v * (root * root % p) % p
  let withParity x := if x % 2 = parity then x else sub 0 x
  if square = u then some (withParity root)
  else if square = sub 0 u then some (withParity (root * rootOfMinusOne % p))
  else none

/-- The point that 32 bytes spell; `y` is taken modulo `p`. -/
def decode? (bytes : Bytes) : Option Point :=
  let n := Bytes.toNatLittle bytes
  let y := n % Nat.pow 2 255 % p
  (recoverX? y (n / Nat.pow 2 255)).map fun x => ⟨x, y, 1, x * y % p⟩

/-- The base point: `y = 4/5`, with even `x`. -/
def base : Point :=
  let y := 4 * inverse 5 % p
  let x := (recoverX? y 0).getD 0
  ⟨x, y, 1, x * y % p⟩

end Point

/-! ### Keys and signatures -/

/-- The number that a digest spells, lowest byte first. -/
def scalarOf (digest : Bytes) : Nat := Bytes.toNatLittle digest

/-- The secret scalar of a seed: a multiple of eight with its highest bit at place 254. -/
def secretScalar (seed : Bytes) : Nat :=
  let n := scalarOf ((sha512 seed).take 32)
  n % Nat.pow 2 254 / 8 * 8 + Nat.pow 2 254

def publicKey (seed : Bytes) : Bytes := (Point.smul (secretScalar seed) Point.base).encode

/-- The signature of a message under a seed: a commitment, then a scalar. -/
def sign (seed message : Bytes) : Bytes :=
  let secret := secretScalar seed
  let nonce := scalarOf (sha512 ((sha512 seed).drop 32 ++ message)) % order
  let commitment := (Point.smul nonce Point.base).encode
  let challenge := scalarOf (sha512 (commitment ++ publicKey seed ++ message)) % order
  commitment ++ Bytes.littleEndian 32 ((nonce + challenge * secret) % order)

/-- Whether a signature of 64 bytes belongs to a message under a key; `none` when the key is no
point of the curve. -/
def verify (key message signature : Bytes) : Option Bool := do
  let point ← Point.decode? key
  let commitment := signature.take 32
  let scalar := Bytes.toNatLittle (signature.drop 32)
  if order ≤ scalar then return false
  let challenge := scalarOf (sha512 (commitment ++ key ++ message)) % order
  let expected := (Point.smul scalar Point.base).add (Point.smul challenge point.neg)
  return expected.encode = commitment

end LedgerWire.Ed25519
