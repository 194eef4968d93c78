import QueryGate.Text.Characters

/-! JSON as the gateway writes it, without blanks between the parts. -/

namespace QueryGate.Json

open Text (hexDigit)

def escaped (c : Char) : List Char :=
  if c = '"' then ['\\', '"']
  else if c = '\\' then ['\\', '\\']
  else if c = '\n' then ['\\', 'n']
  else if c = '\r' then ['\\', 'r']
  else if c = '\t' then ['\\', 't']
  else if c.toNat = 0x08 then ['\\', 'b']
  else if c.toNat = 0x0C then ['\\', 'f']
  else if c.toNat < 0x20 then ['\\', 'u', '0', '0', hexDigit (c.toNat / 16), hexDigit (c.toNat % 16)]
  else [c]

def quoted (s : String) : List Char :=
  '"' :: (s.toList.flatMap escaped ++ ['"'])

inductive Output where
  | boolean (b : Bool)
  | integer (n : Int)
  | string (s : String)
  | strings (items : List String)
  deriving DecidableEq, Repr

def Output.text : Output → List Char
  | boolean b => (toString b).toList
  | integer n => (toString n).toList
  | string s => quoted s
  | strings items => '[' :: ([','].intercalate (items.map quoted) ++ [']'])

def objectText (members : List (String × Output)) : List Char :=
  '\x7b' :: ([','].intercalate (members.map fun (name, value) => quoted name ++ ':' :: value.text)
    ++ ['\x7d'])

end QueryGate.Json
