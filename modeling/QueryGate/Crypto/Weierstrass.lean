import QueryGate.Arithmetic

/-! The curves `y² = x³ - 3x + b` over two prime fields, with their group law on affine points. -/

namespace QueryGate.Crypto

open Encoding

structure Curve where
  field : Nat
  b : Nat
  order : Nat
  base : Nat × Nat
  size : Nat
  deriving DecidableEq, Repr

namespace Curve

def p256 : Curve where
  field := 0xffffffff00000001000000000000000000000000ffffffffffffffffffffffff
  b := 0x5ac635d8aa3a93e7b3ebbd55769886bc651d06b0cc53b0f63bce3c3e27d2604b
  order := 0xffffffff00000000ffffffffffffffffbce6faada7179e84f3b9cac2fc632551
  base := (0x6b17d1f2e12c4247f8bce6e563a440f277037d812deb33a0f4a13945d898c296,
    0x4fe342e2fe1a7f9b8ee7eb4a7c0f9e162bce33576b315ececbb6406837bf51f5)
  size := 32

def p384 : Curve where
  field := 0xfffffffffffffffffffffffffffffffffffffffffffffffffffffffffffffffeffffffff0000000000000000ffffffff
  b := 0xb3312fa7e23ee7e4988e056be3f82d19181d9c6efe8141120314088f5013875ac656398d8a2ed19d2a85c8edd3ec2aef
  order := 0xffffffffffffffffffffffffffffffffffffffffffffffffc7634d81f4372ddf581a0db248b0a77aecec196accc52973
  base := (0xaa87ca22be8b05378eb1c71ef320ad746e1d3b628ba79b9859f741e082542a385502f25dbf55296c3a545e3872760ab7,
    0x3617de4a96262c6f5d9e98bf9292dc29f8f41dbd289a147ce9da3113b5f0b8c00a60b1ce1d7e819d7a431d7c90ea0e5f)
  size := 48

/-- A point of a curve. `none` is the neutral point. -/
abbrev Point := Option (Nat × Nat)

def squareAt (curve : Curve) (x : Nat) : Nat :=
  (subMod (x * x % curve.field * x % curve.field) (3 * x) curve.field + curve.b) % curve.field

def contains (curve : Curve) (x y : Nat) : Bool :=
  x < curve.field && y < curve.field && y * y % curve.field == curve.squareAt x

def third (curve : Curve) (slope x₁ y₁ x₂ : Nat) : Nat × Nat :=
  let x := subMod (slope * slope) (x₁ + x₂) curve.field
  (x, subMod (slope * subMod x₁ x curve.field) y₁ curve.field)

def add (curve : Curve) : Point → Point → Point
  | none, q => q
  | p, none => p
  | some (x₁, y₁), some (x₂, y₂) =>
    let p := curve.field
    if x₁ = x₂ then
      if (y₁ + y₂) % p = 0 then none
      else
        let slope := subMod (3 * x₁ * x₁) 3 p * inverseMod (2 * y₁) p % p
        some (curve.third slope x₁ y₁ x₂)
    else
      let slope := subMod y₂ y₁ p * inverseMod (subMod x₂ x₁ p) p % p
      some (curve.third slope x₁ y₁ x₂)

def multiply (curve : Curve) (k : Nat) (point : Point) : Point :=
  if k = 0 then none
  else
    let half := multiply curve (k / 2) (curve.add point point)
    if k % 2 = 0 then half else curve.add point half
termination_by k

def pointBytes (curve : Curve) : Point → Bytes
  | none => [0]
  | some (x, y) => 4 :: (BigEndian.ofNat curve.size x ++ BigEndian.ofNat curve.size y)

/-- The size of the fields used is three modulo four, so that a root is a power. -/
def point? (curve : Curve) : Bytes → Option (Nat × Nat)
  | [] => none
  | form :: rest =>
    let x := BigEndian.toNat (rest.take curve.size)
    if form = 4 ∧ rest.length = 2 * curve.size then
      let y := BigEndian.toNat (rest.drop curve.size)
      if curve.contains x y then some (x, y) else none
    else if (form = 2 ∨ form = 3) ∧ rest.length = curve.size then
      let root := powMod (curve.squareAt x) ((curve.field + 1) / 4) curve.field
      let y := if root % 2 = form.toNat % 2 then root else curve.field - root
      if curve.contains x y then some (x, y) else none
    else none

end Curve
end QueryGate.Crypto
