import QueryGate.Json.Text
import QueryGate.Json.Number

/-! JSON values, nested to a bounded depth. When a part of an array or an object cannot be read, its
end is still taken if it comes next. -/

namespace QueryGate.Json

open Reader

inductive Value where
  | null
  | boolean (b : Bool)
  | number (n : Number)
  | string (s : String)
  | array (items : List Value)
  | object (members : List (String × Value))
  deriving Inhabited

/-- How deep values may be nested below the object that a text consists of. -/
def maxDepth : Nat := 126

/-- A value, given how the parts of arrays and objects are read, if they may have any. -/
def valueOf (part : Option (Reader Value)) : Reader Value := do
  match ← peekPast with
  | none => throw "unexpected end"
  | some b =>
    if b = byte '"' then
      drop
      return .string (← text)
    else if b = byte 'n' then
      drop
      restOfWord "ull"
      return .null
    else if b = byte 't' then
      drop
      restOfWord "rue"
      return .boolean true
    else if b = byte 'f' then
      drop
      restOfWord "alse"
      return .boolean false
    else if b = byte '-' ∨ isDigit b then return .number (← signedNumber)
    else if b = byte '[' ∨ b = byte '\x7b' then
      match part with
      | none => throw "recursion limit exceeded"
      | some part =>
        drop
        if b = byte '[' then
          let item (taken : List Value) : Reader (List Value) := do
            return (← part) :: taken
          return .array (← followedBy (items item []) endArray).reverse
        else
          let member (taken : List (String × Value)) (name : String) :
              Reader (List (String × Value)) := do
            colon
            return (name, ← part) :: taken
          return .object (← followedBy (members member []) endObject).reverse
    else throw "expected a value"

def value : (depth : Nat) → Reader Value
  | 0 => valueOf none
  | depth + 1 => valueOf (some (value depth))

def endOfText : Reader Unit := do
  if (← peekPast).isSome then throw "trailing characters"

def parse (bytes : Bytes) : Except String Value :=
  Reader.runOn (do
    let result ← value (maxDepth + 1)
    endOfText
    return result) bytes

namespace Value

def string? : Value → Option String
  | string s => some s
  | _ => none

def strings? : Value → Option (List String)
  | array items => items.mapM string?
  | _ => none

/-- A name out of a list of names, given alone or as the only member of an object. -/
def name? : Value → Option String
  | string s => some s
  | object [(s, null)] => some s
  | _ => none

def isNullOr (isOk : Value → Bool) : Value → Bool
  | null => true
  | value => isOk value

end Value
end QueryGate.Json
