import QueryGate.Crypto.Sha2
import QueryGate.Crypto.Weierstrass

/-! Signatures on elliptic curves, their secret numbers derived from the key and the digest. -/

namespace QueryGate.Crypto.Ecdsa

open Encoding

/-- A digest as a number, cut to the length of the group order. The digests used are not longer. -/
def digestNumber (hash : Hash) (message : Bytes) : Nat :=
  BigEndian.toNat (hash.digest message)

structure Generator where
  key : Bytes
  value : Bytes

namespace Generator

def feed (hash : Hash) (g : Generator) (mark : UInt8) (bytes : Bytes) : Generator :=
  let key := Hmac.tag hash g.key (g.value ++ mark :: bytes)
  { key, value := Hmac.tag hash key g.value }

def start (hash : Hash) (seed : Bytes) : Generator :=
  let zero : Generator := ⟨List.replicate hash.size 0, List.replicate hash.size 1⟩
  (zero.feed hash 0 seed).feed hash 1 seed

def next? (hash : Hash) (curve : Curve) : (tries : Nat) → Generator → Option (Nat × Generator)
  | 0, _ => none
  | tries + 1, g =>
    let value := Hmac.tag hash g.key g.value
    let k := BigEndian.toNat (value.take curve.size)
    let after := ({ g with value } : Generator).feed hash 0 []
    if 1 ≤ k ∧ k < curve.order then some (k, after) else next? hash curve tries after

end Generator

def signWith (hash : Hash) (curve : Curve) (secret digest : Nat) :
    (tries : Nat) → Generator → Option (Nat × Nat)
  | 0, _ => none
  | tries + 1, g =>
    match g.next? hash curve 64 with
    | none => none
    | some (k, g) =>
      match curve.multiply k (some curve.base) with
      | none => none
      | some (x, _) =>
        let r := x % curve.order
        let s := inverseMod k curve.order * (digest + r * secret) % curve.order
        if r = 0 ∨ s = 0 then signWith hash curve secret digest tries g else some (r, s)

def sign? (hash : Hash) (curve : Curve) (secret : Nat) (message : Bytes) : Option Bytes :=
  let digest := digestNumber hash message
  let seed := BigEndian.ofNat curve.size secret ++
    BigEndian.ofNat curve.size (digest % curve.order)
  (signWith hash curve secret digest 64 (.start hash seed)).map fun (r, s) =>
    BigEndian.ofNat curve.size r ++ BigEndian.ofNat curve.size s

def verify (hash : Hash) (curve : Curve) (key : Nat × Nat) (message signature : Bytes) : Bool :=
  let r := BigEndian.toNat (signature.take curve.size)
  let s := BigEndian.toNat (signature.drop curve.size)
  if signature.length ≠ 2 * curve.size ∨ r = 0 ∨ s = 0 ∨ curve.order ≤ r ∨ curve.order ≤ s then
    false
  else
    let w := inverseMod s curve.order
    let u := digestNumber hash message * w % curve.order
    let v := r * w % curve.order
    match curve.add (curve.multiply u (some curve.base)) (curve.multiply v (some key)) with
    | none => false
    | some (x, _) => x % curve.order == r

end QueryGate.Crypto.Ecdsa
