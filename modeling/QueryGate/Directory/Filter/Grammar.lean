import QueryGate.Text.Characters

/-! The texts that a directory client takes for filters. Each recogniser takes a part from the front
of a text and leaves the rest, or fails. -/

namespace QueryGate.Directory.Filter.Grammar

abbrev Recogniser := List Char → Option (List Char)

def char (c : Char) : Recogniser
  | d :: rest => if c = d then some rest else none
  | [] => none

def fixed (text : String) : Recogniser := fun cs =>
  if text.toList.isPrefixOf cs then some (cs.drop text.length) else none

def optional (part : Recogniser) : Recogniser := fun cs =>
  some ((part cs).getD cs)

def followedBy (part next : Recogniser) : Recogniser := fun cs =>
  part cs >>= next

def either (part other : Recogniser) : Recogniser := fun cs =>
  (part cs).or (other cs)

/-- A part as often as it is there, at most `limit` times. -/
def repeated (part : Recogniser) : (limit : Nat) → Recogniser
  | 0, cs => some cs
  | limit + 1, cs =>
    match part cs with
    | none => some cs
    | some rest => repeated part limit rest

def someOf (p : Char → Bool) : Recogniser := fun cs =>
  if (cs.takeWhile p).isEmpty then none else some (cs.dropWhile p)

def isNameChar (c : Char) : Bool :=
  c.isAlphanum || c = '-'

def word : Recogniser
  | c :: rest => if c.isAlpha then some (rest.dropWhile isNameChar) else none
  | [] => none

def digits : Recogniser := fun cs =>
  match cs.takeWhile Char.isDigit with
  | [] => none
  | '0' :: _ :: _ => none
  | _ => some (cs.dropWhile Char.isDigit)

def objectId : Recogniser := fun cs =>
  let more := followedBy (char '.') digits
  followedBy digits (followedBy more (repeated more cs.length)) cs

def attributeType : Recogniser :=
  either objectId word

def attributeName : Recogniser := fun cs =>
  followedBy attributeType
    (repeated (followedBy (char ';') (someOf isNameChar)) cs.length) cs

def isValueChar (c : Char) : Bool :=
  !(c.toNat = 0 || c = '(' || c = ')' || c = '*')

def areEscapesWhole : List Char → Bool
  | [] => true
  | '\\' :: a :: b :: rest =>
    (Text.hexValue? a).isSome && (Text.hexValue? b).isSome && areEscapesWhole rest
  | '\\' :: _ => false
  | _ :: rest => areEscapesWhole rest

def value? (cs : List Char) : Option (List Char × List Char) :=
  let value := cs.takeWhile isValueChar
  if areEscapesWhole value then some (value, cs.drop value.length) else none

def value : Recogniser := fun cs =>
  (value? cs).map (·.2)

/-- The parts of a value with stars, behind each star, at most `limit` of them. -/
def starred : (limit : Nat) → List Char → List (List Char) × List Char
  | 0, cs => ([], cs)
  | limit + 1, cs =>
    match cs with
    | '*' :: rest =>
      match value? rest with
      | some (part, rest) =>
        let (parts, rest) := starred limit rest
        (part :: parts, rest)
      | none => ([], cs)
    | _ => ([], cs)

/-- Equality, presence, or a value with stars. There is something between two stars. -/
def equality : Recogniser := fun cs => do
  let rest ← followedBy attributeName (char '=') cs
  let (_, rest) ← value? rest
  let (parts, rest) := starred rest.length rest
  guard (parts.dropLast.all (!·.isEmpty))
  return rest

def comparison : Recogniser :=
  followedBy attributeName
    (followedBy (either (fixed ">=") (either (fixed "<=") (fixed "~="))) value)

def extensible : Recogniser :=
  let rule := followedBy (char ':') attributeType
  let rest := followedBy (fixed ":=") value
  either
    (followedBy attributeName (followedBy (optional (fixed ":dn")) (followedBy (optional rule) rest)))
    (followedBy (optional (fixed ":dn")) (followedBy rule rest))

def item : Recogniser :=
  either equality (either comparison extensible)

def filter : (depth : Nat) → Recogniser
  | 0, _ => none
  | depth + 1, cs => do
    let rest ← char '(' cs
    let rest ←
      match rest with
      | '&' :: rest | '|' :: rest => repeated (filter depth) rest.length rest
      | '!' :: rest => filter depth rest
      | rest => item rest
    char ')' rest

def isFilter (text : List Char) : Bool :=
  either (filter text.length) item text == some []

end QueryGate.Directory.Filter.Grammar
