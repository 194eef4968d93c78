import QueryGate.Json.Text
import QueryGate.Json.Number

/-! Passing over JSON values of any size and depth. Their strings need not be text. -/

namespace QueryGate.Json

open Reader

def skipSomeDigits : Reader Unit := do
  if (← skipDigits) = 0 then throw "invalid number"

def skipFraction : Reader Unit := do
  if (← peek) = some (byte '.') then
    drop
    skipSomeDigits

def skipExponent : Reader Unit := do
  if ← nextIsExponent then
    drop
    let sign ← peek
    if sign = some (byte '+') ∨ sign = some (byte '-') then drop
    skipSomeDigits

def skipNumber : Reader Unit := do
  if (← peek) = some (byte '-') then drop
  if (← peek) = some (byte '0') then
    drop
    if ← nextIsDigit then throw "invalid number"
  else skipSomeDigits
  skipFraction
  skipExponent

inductive Frame where
  | array
  | object
  deriving DecidableEq, Repr

def skipName : Reader Unit := do
  unless (← peekPast) = some (byte '"') do throw "expected a name"
  drop
  skipText
  colon

/-- Take what closes the innermost frame, or the comma before its next value. -/
def closeStep : List Frame → Reader (List Frame ⊕ (List Frame ⊕ Unit))
  | [] => return .inr (.inr ())
  | frame :: outer => do
    match ← peekPast with
    | none => throw "unexpected end"
    | some b =>
      if b = byte ',' then
        drop
        if frame = .object then skipName
        return .inr (.inl (frame :: outer))
      else if b = (if frame = .array then byte ']' else byte '\x7d') then
        drop
        return .inl outer
      else throw "expected a comma"

/-- After a value: take what closes, up to the next value or the end of the outermost one. -/
def closeFrames (open_ : List Frame) : Reader (List Frame ⊕ Unit) :=
  iterate closeStep open_

def skipStep (frames : List Frame) : Reader (List Frame ⊕ Unit) := do
  match ← peekPast with
  | none => throw "unexpected end"
  | some b =>
    if b = byte '[' then
      drop
      if (← peekPast) = some (byte ']') then
        drop
        closeFrames frames
      else return .inl (.array :: frames)
    else if b = byte '\x7b' then
      drop
      if (← peekPast) = some (byte '\x7d') then
        drop
        closeFrames frames
      else
        skipName
        return .inl (.object :: frames)
    else
      if b = byte '"' then
        drop
        skipText
      else if b = byte 'n' then
        drop
        restOfWord "ull"
      else if b = byte 't' then
        drop
        restOfWord "rue"
      else if b = byte 'f' then
        drop
        restOfWord "alse"
      else skipNumber
      closeFrames frames

def skipValue : Reader Unit :=
  iterate skipStep []

end QueryGate.Json
