import QueryGate.Arithmetic
import QueryGate.Crypto.Sha2

/-! Signatures on `-x² + y² = 1 + d x² y²` over the field of `2²⁵⁵ - 19` elements. Numbers and
points are written with the least significant byte first. -/

namespace QueryGate.Crypto.Ed25519

open Encoding

def field : Nat := Nat.pow 2 255 - 19

def order : Nat := Nat.pow 2 252 + 27742317777372353535851937790883648493

def d : Nat := subMod 0 (121665 * inverseMod 121666 field) field

abbrev Point := Nat × Nat

def toNat (bytes : Bytes) : Nat :=
  BigEndian.toNat bytes.reverse

def ofNat (n : Nat) : Bytes :=
  (BigEndian.ofNat 32 n).reverse

def squareRoot? (a : Nat) : Option Nat :=
  let root := powMod a ((field + 3) / 8) field
  let turned := root * powMod 2 ((field - 1) / 4) field % field
  if root * root % field = a % field then some root
  else if turned * turned % field = a % field then some turned
  else none

def pointAt? (y : Nat) (odd : Bool) : Option Point := do
  let y := y % field
  let square := subMod (y * y) 1 field * inverseMod (d * y * y + 1) field % field
  let x ← squareRoot? square
  return (if (x % 2 = 1) = odd then x else (field - x) % field, y)

def point? (bytes : Bytes) : Option Point :=
  let n := toNat bytes
  if bytes.length = 32 then pointAt? (n % Nat.pow 2 255) (Nat.pow 2 255 ≤ n) else none

def pointBytes (p : Point) : Bytes :=
  ofNat (p.2 + if p.1 % 2 = 1 then Nat.pow 2 255 else 0)

def base : Point :=
  (pointAt? (4 * inverseMod 5 field) false).getD (0, 1)

def add (p q : Point) : Point :=
  let (x₁, y₁) := p
  let (x₂, y₂) := q
  let product := d * (x₁ * x₂ % field) % field * (y₁ * y₂ % field) % field
  ((x₁ * y₂ + x₂ * y₁) * inverseMod (1 + product) field % field,
    (y₁ * y₂ + x₁ * x₂) * inverseMod (subMod 1 product field) field % field)

def multiply (k : Nat) (p : Point) : Point :=
  if k = 0 then (0, 1)
  else
    let half := multiply (k / 2) (add p p)
    if k % 2 = 0 then half else add p half
termination_by k

def hashNumber (bytes : Bytes) : Nat :=
  toNat (Hash.sha512.digest bytes) % order

def secretOf (seed : Bytes) : Nat :=
  let n := toNat ((Hash.sha512.digest seed).take 32)
  n % Nat.pow 2 254 / 8 * 8 + Nat.pow 2 254

def publicKey (seed : Bytes) : Bytes :=
  pointBytes (multiply (secretOf seed) base)

def sign (seed message : Bytes) : Bytes :=
  let key := publicKey seed
  let r := hashNumber ((Hash.sha512.digest seed).drop 32 ++ message)
  let commitment := pointBytes (multiply r base)
  let k := hashNumber (commitment ++ key ++ message)
  commitment ++ ofNat ((r + k * secretOf seed) % order)

def verify (key : Bytes) (point : Point) (message signature : Bytes) : Bool :=
  let commitment := signature.take 32
  let s := toNat (signature.drop 32)
  if signature.length ≠ 64 ∨ order ≤ s then false
  else
    let k := hashNumber (commitment ++ key ++ message)
    let negated := ((field - point.1) % field, point.2)
    pointBytes (add (multiply s base) (multiply k negated)) == commitment

end QueryGate.Crypto.Ed25519
