import QueryGate.Toml.Scalar
import QueryGate.Toml.Table

/-! The grammar of TOML documents. -/

namespace QueryGate.Toml

open Reader

/-- How deep arrays and inline tables may be nested, and how many parts may come before a key. -/
def maxDepth : Nat := 80

def isBareKeyChar (c : Char) : Bool :=
  c.isAlphanum || c = '_' || c = '-'

def keyPart : Reader String := do
  if ← takes "\"" then
    singleLine '"' true
  else if ← takes "'" then
    singleLine '\'' false
  else
    match ← takeWhile isBareKeyChar with
    | [] => fail "expected a key"
    | word => return String.ofList word

def dottedKey : Reader (List String × String) := do
  skipSpaces
  let first ← keyPart
  skipSpaces
  let (path, key) ← iterate (fun ((path, key) : List String × String) => do
    if ← takes "." then
      skipSpaces
      let part ← keyPart
      skipSpaces
      return .inl (key :: path, part)
    else return .inr (path.reverse, key)) ([], first)
  if maxDepth ≤ path.length then fail "the key has too many parts"
  return (path, key)

def arrayItems (value : Reader Value) : Reader (List Value) :=
  iterate (fun items => do
    skipLines
    if ← takes "]" then return .inr items.reverse
    let items := (← value) :: items
    skipLines
    if ← takes "," then return .inl items
    expect "]"
    return .inr items.reverse) []

def assignment (value : Reader Value) : Reader Assignment := do
  let (path, key) ← dottedKey
  expect "="
  skipSpaces
  return ⟨path, key, ← value⟩

def inlineAssignments (value : Reader Value) : Reader (List Assignment) :=
  iterate (fun items => do
    skipLines
    if ← takes "\x7d" then return .inr items.reverse
    let items := (← assignment value) :: items
    skipLines
    if ← takes "," then return .inl items
    expect "\x7d"
    return .inr items.reverse) []

def value : (depth : Nat) → Reader Value
  | 0 => do
    match ← quoted? with
    | some text => return .string text
    | none => scalar
  | depth + 1 => do
    match ← quoted? with
    | some text => return .string text
    | none =>
      if ← takes "[" then
        return .array false (← arrayItems (value depth))
      else if ← takes "\x7b" then
        let assignments ← inlineAssignments (value depth)
        return .table .inline (← (assignAll assignments []))
      else scalar

def endOfLine : Reader Unit := do
  skipSpaces
  skipComment
  if (← get).isEmpty then return
  unless ← takesNewline do fail "expected the end of the line"

def assignments : Reader (List Assignment) :=
  iterate (fun taken => do
    skipLines
    match ← peek with
    | none | some '[' => return .inr taken.reverse
    | some _ =>
      let a ← assignment (value maxDepth)
      endOfLine
      return .inl (a :: taken)) []

def section? : Reader (Option Section) := do
  if ← takes "[[" then
    let (path, key) ← dottedKey
    expect "]]"
    endOfLine
    return some ⟨path, key, true, ← assignments⟩
  else if ← takes "[" then
    let (path, key) ← dottedKey
    expect "]"
    endOfLine
    return some ⟨path, key, false, ← assignments⟩
  else return none

def document : Reader Entries := do
  discard (takes (toString (Char.ofNat 0xFEFF)))
  let top ← assignAll (← assignments) []
  iterate (fun entries => do
    match ← section? with
    | some sect => return .inl (← sect.addTo entries)
    | none =>
      unless (← get).isEmpty do fail "expected a key"
      return .inr entries) top

def parse (text : String) : Except String Entries :=
  (document.run text.toList).map (·.1)

end QueryGate.Toml
