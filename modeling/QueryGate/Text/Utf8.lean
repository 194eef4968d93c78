/-! UTF-8, read byte by byte. A lossy reading puts one replacement character for each maximal piece
that cannot be continued. -/

namespace QueryGate

abbrev Bytes := List UInt8

namespace Text.Utf8

def encode (cs : List Char) : Bytes :=
  cs.flatMap String.utf8EncodeChar

inductive State where
  | idle
  /-- `due` more bytes are wanted, the next one from `low` to `high`; `sum` is the number so far. -/
  | within (due low high sum : Nat)
  deriving DecidableEq, Repr

/-- `some none` is a byte that begins nothing. -/
def start (n : Nat) : State × Option (Option Char) :=
  if n < 0x80 then (.idle, some (some (Char.ofNat n)))
  else if n < 0xC2 then (.idle, some none)
  else if n < 0xE0 then (.within 1 0x80 0xBF (n - 0xC0), none)
  else if n = 0xE0 then (.within 2 0xA0 0xBF 0, none)
  else if n = 0xED then (.within 2 0x80 0x9F 13, none)
  else if n < 0xF0 then (.within 2 0x80 0xBF (n - 0xE0), none)
  else if n = 0xF0 then (.within 3 0x90 0xBF 0, none)
  else if n < 0xF4 then (.within 3 0x80 0xBF (n - 0xF0), none)
  else if n = 0xF4 then (.within 3 0x80 0x8F 4, none)
  else (.idle, some none)

/-- The pieces of a byte string: characters, and `none` for each piece that is no character. -/
def pieces : State → Bytes → List (Option Char)
  | .idle, [] => []
  | .within .., [] => [none]
  | .idle, b :: rest =>
    match start b.toNat with
    | (next, some piece) => piece :: pieces next rest
    | (next, none) => pieces next rest
  | .within due low high sum, b :: rest =>
    let n := b.toNat
    if low ≤ n ∧ n ≤ high then
      if due = 1 then some (Char.ofNat (sum * 64 + (n - 0x80))) :: pieces .idle rest
      else pieces (.within (due - 1) 0x80 0xBF (sum * 64 + (n - 0x80))) rest
    else
      match start n with
      | (next, some piece) => none :: piece :: pieces next rest
      | (next, none) => none :: pieces next rest

def allChars : List (Option Char) → Option (List Char)
  | [] => some []
  | some c :: rest => (allChars rest).map (c :: ·)
  | none :: _ => none

def decode? (bytes : Bytes) : Option (List Char) :=
  allChars (pieces .idle bytes)

def replacement : Char := Char.ofNat 0xFFFD

def decodeLossy (bytes : Bytes) : List Char :=
  (pieces .idle bytes).map (·.getD replacement)

end Text.Utf8

def utf8 (s : String) : Bytes :=
  Text.Utf8.encode s.toList

def ofUtf8? (bytes : Bytes) : Option String :=
  (Text.Utf8.decode? bytes).map String.ofList

def ofUtf8Lossy (bytes : Bytes) : String :=
  String.ofList (Text.Utf8.decodeLossy bytes)

end QueryGate
