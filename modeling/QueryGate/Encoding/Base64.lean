import QueryGate.Text.Utf8

/-! Base64. The spare bits of the last digit have to be zero, so that every byte string has exactly
one written form. -/

namespace QueryGate.Encoding.Base64

structure Alphabet where
  digit62 : Char
  digit63 : Char
  deriving DecidableEq, Repr

namespace Alphabet

def standard : Alphabet := ⟨'+', '/'⟩

def url : Alphabet := ⟨'-', '_'⟩

def digit (alphabet : Alphabet) (n : Nat) : Char :=
  if n < 26 then Char.ofNat ('A'.toNat + n)
  else if n < 52 then Char.ofNat ('a'.toNat + (n - 26))
  else if n < 62 then Char.ofNat ('0'.toNat + (n - 52))
  else if n = 62 then alphabet.digit62
  else alphabet.digit63

def value? (alphabet : Alphabet) (c : Char) : Option Nat :=
  if 'A' ≤ c ∧ c ≤ 'Z' then some (c.toNat - 'A'.toNat)
  else if 'a' ≤ c ∧ c ≤ 'z' then some (c.toNat - 'a'.toNat + 26)
  else if '0' ≤ c ∧ c ≤ '9' then some (c.toNat - '0'.toNat + 52)
  else if c = alphabet.digit62 then some 62
  else if c = alphabet.digit63 then some 63
  else none

end Alphabet

def encode (alphabet : Alphabet) : Bytes → List Char
  | [] => []
  | [a] => [alphabet.digit (a.toNat / 4), alphabet.digit (a.toNat % 4 * 16)]
  | [a, b] =>
    [alphabet.digit (a.toNat / 4), alphabet.digit (a.toNat % 4 * 16 + b.toNat / 16),
      alphabet.digit (b.toNat % 16 * 4)]
  | a :: b :: c :: rest =>
    alphabet.digit (a.toNat / 4) :: alphabet.digit (a.toNat % 4 * 16 + b.toNat / 16) ::
      alphabet.digit (b.toNat % 16 * 4 + c.toNat / 64) :: alphabet.digit (c.toNat % 64) ::
      encode alphabet rest

def decode? (alphabet : Alphabet) : List Char → Option Bytes
  | [] => some []
  | [_] => none
  | [w, x] => do
    let w ← alphabet.value? w
    let x ← alphabet.value? x
    guard (x % 16 = 0)
    return [UInt8.ofNat (w * 4 + x / 16)]
  | [w, x, y] => do
    let w ← alphabet.value? w
    let x ← alphabet.value? x
    let y ← alphabet.value? y
    guard (y % 4 = 0)
    return [UInt8.ofNat (w * 4 + x / 16), UInt8.ofNat (x % 16 * 16 + y / 4)]
  | w :: x :: y :: z :: rest => do
    let w ← alphabet.value? w
    let x ← alphabet.value? x
    let y ← alphabet.value? y
    let z ← alphabet.value? z
    let rest ← decode? alphabet rest
    return UInt8.ofNat (w * 4 + x / 16) :: UInt8.ofNat (x % 16 * 16 + y / 4) ::
      UInt8.ofNat (y % 4 * 64 + z) :: rest

def padding (length : Nat) : List Char :=
  List.replicate ((4 - length % 4) % 4) '='

def decodePadded? (alphabet : Alphabet) (text : List Char) : Option Bytes :=
  let digits := text.takeWhile (· ≠ '=')
  if text = digits ++ padding digits.length then decode? alphabet digits else none

end QueryGate.Encoding.Base64
