import QueryGate.Text.Characters
import QueryGate.Toml.Reader

/-! The four quoted forms of TOML strings. -/

namespace QueryGate.Toml

open Reader
open Text (hexValue?)

def hexNumber? (digits : List Char) : Option Nat :=
  digits.foldlM (fun n c => (hexValue? c).map (n * 16 + ·)) 0

def numberedChar (digits : Nat) : Reader Char := do
  match hexNumber? (← take digits) with
  | none => fail "invalid hexadecimal digit"
  | some n =>
    if h : n.isValidChar then return Char.ofNatAux n h
    else fail "the number is not that of a character"

def escapedChar : Reader Char := do
  match ← next "escape" with
  | 'b' => return Char.ofNat 0x08
  | 't' => return '\t'
  | 'n' => return '\n'
  | 'f' => return Char.ofNat 0x0C
  | 'r' => return '\r'
  | 'e' => return Char.ofNat 0x1B
  | '"' => return '"'
  | '\\' => return '\\'
  | 'x' => numberedChar 2
  | 'u' => numberedChar 4
  | 'U' => numberedChar 8
  | _ => fail "unknown escape"

def plainChar : Reader Char := do
  let c ← next "a character"
  if isControl c then fail "control character in a string"
  return c

def takesBackslash (escapes : Bool) : Reader Bool :=
  if escapes then takes "\\" else return false

def singleLine (quote : Char) (escapes : Bool) : Reader String :=
  iterate (fun taken => do
    if ← takes (toString quote) then return .inr (String.ofList taken.reverse)
    else if ← takesBackslash escapes then return .inl ((← escapedChar) :: taken)
    else return .inl ((← plainChar) :: taken)) []

/-- The line breaks and blanks after a backslash at the end of a line. -/
def skipJoinedLines : Reader Unit := do
  skipSpaces
  unless ← takesNewline do fail "unknown escape"
  iterate (fun _ => do
    skipSpaces
    if ← takesNewline then return .inl () else return .inr ()) ()

def multiLineEscape : Reader (List Char) := do
  match ← peek with
  | some c =>
    if isSpace c || c = '\n' || c = '\r' then skipJoinedLines; return []
    else return [← escapedChar]
  | none => fail "unexpected end of the text"

/--
A string over several lines, after the three opening quotes. Of a run of quotes that ends it, all
but the last three belong to the string.
-/
def multiLine (quote : Char) (escapes : Bool) : Reader String := do
  discard takesNewline
  iterate (fun taken => do
    let quotes := ((← get).takeWhile (· = quote)).length
    if 3 ≤ quotes then
      let run := min quotes 5
      discard (take run)
      return .inr (String.ofList (taken.reverse ++ List.replicate (run - 3) quote))
    else if ← takesNewline then return .inl ('\n' :: taken)
    else if ← takesBackslash escapes then return .inl ((← multiLineEscape).reverse ++ taken)
    else return .inl ((← plainChar) :: taken)) []

def quoted? : Reader (Option String) := do
  if ← takes "\"\"\"" then return some (← multiLine '"' true)
  else if ← takes "'''" then return some (← multiLine '\'' false)
  else if ← takes "\"" then return some (← singleLine '"' true)
  else if ← takes "'" then return some (← singleLine '\'' false)
  else return none

end QueryGate.Toml
