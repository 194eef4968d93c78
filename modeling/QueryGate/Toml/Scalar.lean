import QueryGate.Toml.Quoted
import QueryGate.Toml.Value

/-! Booleans, numbers and points in time, read from the run of characters that makes one up. -/

namespace QueryGate.Toml

open Text (hexValue?)

def isDigit (c : Char) : Bool :=
  '0' ≤ c && c ≤ '9'

/-- Digits without their underscores, which stand singly between two digits. -/
def ungrouped (isOk : Char → Bool) : List Char → Option (List Char)
  | [] => none
  | [c] => if isOk c then some [c] else none
  | c :: '_' :: rest => if isOk c then (ungrouped isOk rest).map (c :: ·) else none
  | c :: rest => if isOk c then (ungrouped isOk rest).map (c :: ·) else none

def numberIn (base : Nat) (digits : List Char) : Nat :=
  digits.foldl (fun n c => n * base + (hexValue? c).getD 0) 0

def digitsIn (base : Nat) (text : List Char) : Option Nat :=
  (ungrouped (fun c => (hexValue? c).any (· < base)) text).map (numberIn base)

/-- Decimal digits that do not begin with a zero unless they are a single zero. -/
def decimalDigits (text : List Char) : Option (List Char) :=
  match ungrouped isDigit text with
  | some ('0' :: _ :: _) => none
  | digits => digits

def splitSign : List Char → Bool × List Char
  | '-' :: rest => (true, rest)
  | '+' :: rest => (false, rest)
  | rest => (false, rest)

def integer? (text : List Char) : Option Int :=
  match text with
  | '0' :: 'x' :: rest => (digitsIn 16 rest).map Int.ofNat
  | '0' :: 'o' :: rest => (digitsIn 8 rest).map Int.ofNat
  | '0' :: 'b' :: rest => (digitsIn 2 rest).map Int.ofNat
  | _ =>
    let (negative, rest) := splitSign text
    (decimalDigits rest).map fun digits =>
      let n : Int := numberIn 10 digits
      if negative then -n else n

/-- The exponent that a number ends with, zero if it is not written. -/
def exponent? : List Char → Option Int
  | [] => some 0
  | _ :: rest =>
    let (negative, rest) := splitSign rest
    (ungrouped isDigit rest).map fun digits =>
      let n : Int := numberIn 10 digits
      if negative then -n else n

def fraction? : List Char → Option (List Char)
  | [] => some []
  | _ :: rest => ungrouped isDigit rest

def real? (text : List Char) : Option Real :=
  let (negative, rest) := splitSign text
  if rest = ['i', 'n', 'f'] then some (.infinite negative)
  else if rest = ['n', 'a', 'n'] then some .nan
  else
    let isMark (c : Char) : Bool := c = 'e' || c = 'E'
    let (mantissa, scale) := rest.span (!isMark ·)
    let (whole, fraction) := mantissa.span (· ≠ '.')
    if scale.isEmpty && fraction.isEmpty then none
    else do
      let whole ← decimalDigits whole
      let fraction ← fraction? fraction
      let exponent ← exponent? scale
      return .finite negative (numberIn 10 (whole ++ fraction)) (exponent - fraction.length)

def fixedDigits (n : Nat) (text : List Char) : Option (Nat × List Char) :=
  let digits := text.take n
  if digits.length = n ∧ digits.all isDigit then some (numberIn 10 digits, text.drop n) else none

def isLeapYear (year : Nat) : Bool :=
  year % 4 = 0 && (year % 100 ≠ 0 || year % 400 = 0)

def daysIn (year month : Nat) : Nat :=
  if month = 2 then (if isLeapYear year then 29 else 28)
  else if month = 4 ∨ month = 6 ∨ month = 9 ∨ month = 11 then 30
  else 31

def date? (text : List Char) : Option (List Char) := do
  let (year, rest) ← fixedDigits 4 text
  let '-' :: rest := rest | none
  let (month, rest) ← fixedDigits 2 rest
  let '-' :: rest := rest | none
  let (day, rest) ← fixedDigits 2 rest
  guard (1 ≤ month ∧ month ≤ 12 ∧ 1 ≤ day ∧ day ≤ daysIn year month)
  return rest

def skipFraction? (text : List Char) : Option (List Char) :=
  match text with
  | '.' :: c :: rest => if isDigit c then some (rest.dropWhile isDigit) else none
  | '.' :: [] => none
  | _ => some text

def time? (text : List Char) : Option (List Char) := do
  let (hour, rest) ← fixedDigits 2 text
  let ':' :: rest := rest | none
  let (minute, rest) ← fixedDigits 2 rest
  guard (hour ≤ 23 ∧ minute ≤ 59)
  match rest with
  | ':' :: rest =>
    let (second, rest) ← fixedDigits 2 rest
    guard (second ≤ 60)
    skipFraction? rest
  | _ => return rest

def isOffset (text : List Char) : Bool :=
  match text with
  | [] | ['Z'] | ['z'] => true
  | sign :: rest =>
    (sign = '+' || sign = '-') &&
      match fixedDigits 2 rest with
      | some (hours, ':' :: rest) =>
        match fixedDigits 2 rest with
        | some (minutes, []) => hours ≤ 23 && minutes ≤ 59
        | _ => false
      | _ => false

def isDateTime (text : List Char) : Bool :=
  match date? text with
  | some [] => true
  | some (c :: rest) =>
    (c = 'T' || c = 't' || c = ' ') && (time? rest).any isOffset
  | none => time? text == some []

def scalar? (text : List Char) : Option Value :=
  if text = "true".toList then some (.boolean true)
  else if text = "false".toList then some (.boolean false)
  else
    ((integer? text).map .integer).or <| ((real? text).map .real).or <|
      if isDateTime text then some (.dateTime (String.ofList text)) else none

def isScalarChar (c : Char) : Bool :=
  !(" \t\r\n,[]{}=#\"'".toList.contains c)

open Reader in
/-- An unquoted value. A date may be followed by a single blank and a time of day. -/
def scalar : Reader Value := do
  let first ← takeWhile isScalarChar
  let text ←
    match ← get with
    | ' ' :: c :: _ =>
      if date? first == some [] && isDigit c then
        discard (take 1)
        pure (first ++ ' ' :: (← takeWhile isScalarChar))
      else pure first
    | _ => pure first
  match scalar? text with
  | some value => return value
  | none => fail ("invalid value " ++ String.ofList text)

end QueryGate.Toml
