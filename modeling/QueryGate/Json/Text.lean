import QueryGate.Json.Reader
import QueryGate.Text.Characters

/-! JSON strings, and the members of objects. -/

namespace QueryGate.Json

open Reader

/-- Four hexadecimal digits. If fewer bytes are left, all of them are taken. -/
def hexNumber : Reader Nat := do
  let digits := (← get).take 4
  modify (·.drop 4)
  if digits.length < 4 then throw "unexpected end"
  match digits.foldlM (fun n b => (Text.hexValue? (Char.ofNat b.toNat)).map (n * 16 + ·)) 0 with
  | some n => return n
  | none => throw "invalid escape"

def isLead (n : Nat) : Bool := 0xD800 ≤ n && n < 0xDC00

def isTrail (n : Nat) : Bool := 0xDC00 ≤ n && n < 0xE000

def escapeByte (c : Char) : Reader Unit := do
  unless (← next) = byte c do throw "unpaired surrogate"

def numberedChar : Reader Char := do
  let n ← hexNumber
  if isTrail n then throw "unpaired surrogate"
  if isLead n then
    escapeByte '\\'
    escapeByte 'u'
    let m ← hexNumber
    unless isTrail m do throw "unpaired surrogate"
    return Char.ofNat (0x10000 + (n - 0xD800) * 0x400 + (m - 0xDC00))
  else return Char.ofNat n

def shortEscapes : List (Char × Char) :=
  [('"', '"'), ('\\', '\\'), ('/', '/'), ('b', Char.ofNat 8), ('f', Char.ofNat 12), ('n', '\n'),
    ('r', '\r'), ('t', '\t')]

def escapedChar : Reader Char := do
  let b ← next
  if b = byte 'u' then numberedChar
  else
    match shortEscapes.find? fun (letter, _) => byte letter = b with
    | some (_, c) => return c
    | none => throw "invalid escape"

/-- One byte of a string or one escape, of which the bytes go in front of those taken before. -/
def textStep (taken : Bytes) : Reader (Bytes ⊕ Bytes) := do
  let b ← next
  if b = byte '"' then return .inr taken.reverse
  else if b = byte '\\' then
    return .inl ((String.utf8EncodeChar (← escapedChar)).reverse ++ taken)
  else if b < 0x20 then throw "control character in a string"
  else return .inl (b :: taken)

def text : Reader String := do
  let bytes ← iterate textStep []
  match ofUtf8? bytes with
  | some s => return s
  | none => throw "invalid character"

def skipTextStep (_ : Unit) : Reader (Unit ⊕ Unit) := do
  let b ← next
  if b = byte '"' then return .inr ()
  else if b = byte '\\' then
    let escape ← next
    if escape = byte 'u' then discard hexNumber
    else if (shortEscapes.find? fun (letter, _) => byte letter = escape).isNone then
      throw "invalid escape"
    return .inl ()
  else if b < 0x20 then throw "control character in a string"
  else return .inl ()

def skipText : Reader Unit :=
  iterate skipTextStep ()

def memberStep {σ : Type} (member : σ → String → Reader σ) :
    Bool × σ → Reader ((Bool × σ) ⊕ σ)
  | (first, state) => do
    if ← moreMembers first then
      drop
      let name ← text
      return .inl (false, ← member state name)
    else return .inr state

def members {σ : Type} (member : σ → String → Reader σ) (start : σ) : Reader σ :=
  iterate (memberStep member) (true, start)

end QueryGate.Json
