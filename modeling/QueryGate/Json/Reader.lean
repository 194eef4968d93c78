import QueryGate.Program
import QueryGate.Text.Utf8

/-! Readers of JSON. What a failing reader took stays taken, so that reading may go on behind it. -/

namespace QueryGate.Json

abbrev Reader := ExceptT String (StateM Bytes)

def byte (c : Char) : UInt8 :=
  UInt8.ofNat c.toNat

namespace Reader

def runOn {α : Type} (reader : Reader α) (bytes : Bytes) : Except String α :=
  (reader.run bytes).1

def peek : Reader (Option UInt8) := do
  return (← get).head?

def next : Reader UInt8 := do
  match ← get with
  | b :: rest => set rest; return b
  | [] => throw "unexpected end"

def drop : Reader Unit :=
  modify List.tail

def attempt {α : Type} (reader : Reader α) : Reader (Option α) :=
  ExceptT.mk do
    match ← reader.run with
    | .ok a => return .ok (some a)
    | .error _ => return .ok none

def followedBy {α : Type} (reader : Reader α) (last : Reader Unit) : Reader α :=
  ExceptT.mk do
    let result ← reader.run
    let closed ← last.run
    match result, closed with
    | .ok a, .ok () => return .ok a
    | .error reason, _ => return .error reason
    | .ok _, .error reason => return .error reason

/-- Repeat a step that takes at least one byte each time until it gives a final value. -/
def iterate {σ α : Type} (step : σ → Reader (σ ⊕ α)) (start : σ) : Reader α := do
  loopUpTo step (throw "unexpected end") ((← get).length + 1) start

end Reader

open Reader

def isBlank (b : UInt8) : Bool :=
  b = byte ' ' || b = byte '\n' || b = byte '\t' || b = byte '\r'

def skipBlanks : Reader Unit :=
  modify (·.dropWhile isBlank)

def peekPast : Reader (Option UInt8) := do
  skipBlanks
  peek

/-- Take the rest of a word, byte by byte up to the first that differs. -/
def restOfWord (word : String) : Reader Unit :=
  word.toList.forM fun c => do
    unless (← next) = byte c do throw "expected another word"

def endArray : Reader Unit := do
  match ← peekPast with
  | some b =>
    if b = byte ']' then drop
    else
      if b = byte ',' then drop
      throw "expected the end of the array"
  | none => throw "unexpected end"

def endObject : Reader Unit := do
  if (← peekPast) = some (byte '\x7d') then drop else throw "expected the end of the object"

def moreItems (first : Bool) : Reader Bool := do
  match ← peekPast with
  | none => throw "unexpected end"
  | some b =>
    if b = byte ']' then return false
    else if first then return true
    else if b = byte ',' then
      drop
      match ← peekPast with
      | none => throw "unexpected end"
      | some b =>
        if b = byte ']' then throw "trailing comma"
        return true
    else throw "expected a comma"

def moreMembers (first : Bool) : Reader Bool := do
  match ← peekPast with
  | none => throw "unexpected end"
  | some b =>
    if b = byte '\x7d' then return false
    else if first then
      unless b = byte '"' do throw "expected a name"
      return true
    else if b = byte ',' then
      drop
      unless (← peekPast) = some (byte '"') do throw "expected a name"
      return true
    else throw "expected a comma"

def itemStep {σ : Type} (item : σ → Reader σ) : Bool × σ → Reader ((Bool × σ) ⊕ σ)
  | (first, state) => do
    if ← moreItems first then return .inl (false, ← item state)
    else return .inr state

/-- The items of an array behind its opening bracket, up to but not including its end. -/
def items {σ : Type} (item : σ → Reader σ) (start : σ) : Reader σ :=
  iterate (itemStep item) (true, start)

def colon : Reader Unit := do
  if (← peekPast) = some (byte ':') then drop else throw "expected a colon"

end QueryGate.Json
