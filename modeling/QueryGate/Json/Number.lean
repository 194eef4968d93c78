import QueryGate.Json.Reader

/-! JSON numbers. Of one that is no integer of 64 bits only this is kept: it must not be too large.
-/

namespace QueryGate.Json

open Reader

inductive Number where
  | integer (n : Int)
  /-- A number with a fraction or an exponent, or one that is too long. -/
  | real
  deriving DecidableEq, Repr

def isDigit (b : UInt8) : Bool :=
  byte '0' ≤ b && b ≤ byte '9'

def digitValue (b : UInt8) : Nat :=
  b.toNat - (byte '0').toNat

/-- Rounded to 53 significant bits, a half to the even neighbour. -/
def roundToDouble (n : Nat) : Nat :=
  if n < Nat.pow 2 53 then n
  else
    let unit := Nat.pow 2 (n.log2 - 52)
    let quotient := n / unit
    let rest := n % unit * 2
    if rest < unit ∨ (rest = unit ∧ quotient % 2 = 0) then quotient * unit
    else (quotient + 1) * unit

def isTooLarge (significand : Nat) (exponent : Int) : Bool :=
  if significand = 0 ∨ exponent ≤ 0 then false
  else if 308 < exponent then true
  else Nat.pow 2 1024 ≤ roundToDouble
    (roundToDouble significand * roundToDouble (Nat.pow 10 exponent.toNat))

/-- Digits after a number, as long as it stays below 64 bits: the number, how many digits were taken
and what is left. -/
def extend : Nat → Bytes → Nat × Nat × Bytes
  | n, [] => (n, 0, [])
  | n, b :: rest =>
    if isDigit b ∧ n * 10 + digitValue b < Nat.pow 2 64 then
      let (n, taken, rest) := extend (n * 10 + digitValue b) rest
      (n, taken + 1, rest)
    else (n, 0, b :: rest)

def skipDigits : Reader Nat := do
  let digits := (← get).takeWhile isDigit
  modify (·.drop digits.length)
  return digits.length

def nextIsDigit : Reader Bool := do
  return (← peek).any isDigit

def nextIsExponent : Reader Bool := do
  return (← peek).any fun b => b = byte 'e' || b = byte 'E'

def finishReal (significand : Nat) (exponent : Int) : Reader Number := do
  if isTooLarge significand exponent then throw "number out of range"
  return .real

/-- The digits of an exponent. One that does not fit 31 bits makes the number too large or zero. -/
def exponentDigits (significand : Nat) (negative : Bool) (start : Int) (first : UInt8) :
    Reader Number :=
  iterate (fun (exponent : Nat) => do
    if ← nextIsDigit then
      let exponent := exponent * 10 + digitValue (← next)
      if exponent < Nat.pow 2 31 then return .inl exponent
      else if significand ≠ 0 && !negative then throw "number out of range"
      else
        discard skipDigits
        return .inr .real
    else
      let power : Int := if negative then -exponent else exponent
      return .inr (← finishReal significand (start + power))) (digitValue first)

def exponentPart (significand : Nat) (start : Int) : Reader Number := do
  drop
  let sign ← peek
  if sign = some (byte '+') ∨ sign = some (byte '-') then drop
  let first ← next
  unless isDigit first do throw "invalid number"
  exponentDigits significand (sign = some (byte '-')) start first

def realTail (significand : Nat) (exponent : Int) : Reader Number := do
  if ← nextIsExponent then exponentPart significand exponent
  else finishReal significand exponent

def fractionPart (significand : Nat) (start : Int) : Reader Number := do
  drop
  let (significand, taken, rest) := extend significand (← get)
  set rest
  if ← nextIsDigit then
    discard skipDigits
    realTail significand (start - taken)
  else
    if taken = 0 then throw "invalid number"
    realTail significand (start - taken)

def afterInteger (significand : Nat) (negative : Bool) : Reader Number := do
  if (← peek) = some (byte '.') then fractionPart significand 0
  else if ← nextIsExponent then exponentPart significand 0
  else if !negative then return .integer significand
  else if significand = 0 ∨ Nat.pow 2 63 < significand then return .real
  else return .integer (-significand)

def number (negative : Bool) : Reader Number := do
  let first ← next
  if first = byte '0' then
    if ← nextIsDigit then throw "invalid number"
    afterInteger 0 negative
  else if isDigit first then
    let (significand, _, rest) := extend (digitValue first) (← get)
    set rest
    if ← nextIsDigit then
      let extra ← skipDigits
      if (← peek) = some (byte '.') then fractionPart significand extra
      else realTail significand extra
    else afterInteger significand negative
  else throw "invalid number"

def signedNumber : Reader Number := do
  if (← peek) = some (byte '-') then
    drop
    number true
  else number false

end QueryGate.Json
