import QueryGate.Basic
import QueryGate.Json.Skip
import QueryGate.Json.Value
import QueryGate.Json.Writer

/-! The claims of a token. Their text is read twice: for the claims themselves, and for what every
token may carry beside them. -/

namespace QueryGate.Token

open Json Json.Reader

structure Claims where
  identity : Identity
  issuedAt : Int
  expiry : Int
  deriving DecidableEq, Repr

namespace Claims

def text (claims : Claims) : List Char :=
  Json.objectText
    [("email", .string claims.identity.mail),
      ("name", .string claims.identity.name),
      ("username", .string claims.identity.username),
      ("surname", .string claims.identity.surname),
      ("isAdmin", .boolean claims.identity.isAdmin),
      ("groups", .strings claims.identity.groups),
      ("iat", .integer claims.issuedAt),
      ("exp", .integer claims.expiry)]

/-! ## The claims themselves -/

def readString : Reader String := do
  unless (← peekPast) = some (byte '"') do throw "expected a string"
  drop
  Json.text

def readBoolean : Reader Bool := do
  match ← peekPast with
  | some b =>
    if b = byte 't' then
      drop
      restOfWord "rue"
      return true
    else if b = byte 'f' then
      drop
      restOfWord "alse"
      return false
    else throw "expected a boolean"
  | none => throw "unexpected end"

def readStrings : Reader (List String) := do
  unless (← peekPast) = some (byte '[') do throw "expected an array"
  drop
  let taken ← items (fun taken => return (← readString) :: taken) []
  endArray
  return taken.reverse

def readInteger : Reader Int := do
  unless (← peekPast).any fun b => b = byte '-' || isDigit b do throw "expected an integer"
  match ← signedNumber with
  | .integer n => if n < Nat.pow 2 63 then return n else throw "the integer is too large"
  | .real => throw "expected an integer"

structure Draft where
  email : Option String := none
  name : Option String := none
  username : Option String := none
  surname : Option String := none
  isAdmin : Option Bool := none
  groups : Option (List String) := none
  issuedAt : Option Int := none
  expiry : Option Int := none

namespace Draft

def fresh {α : Type} (given : Option α) (reader : Reader α) : Reader (Option α) := do
  if given.isSome then throw "duplicate field"
  colon
  return some (← reader)

def member (draft : Draft) (name : String) : Reader Draft := do
  if name = "email" then return { draft with email := ← fresh draft.email readString }
  else if name = "name" then return { draft with name := ← fresh draft.name readString }
  else if name = "username" then return { draft with username := ← fresh draft.username readString }
  else if name = "surname" then return { draft with surname := ← fresh draft.surname readString }
  else if name = "isAdmin" then return { draft with isAdmin := ← fresh draft.isAdmin readBoolean }
  else if name = "groups" then return { draft with groups := ← fresh draft.groups readStrings }
  else if name = "iat" then return { draft with issuedAt := ← fresh draft.issuedAt readInteger }
  else if name = "exp" then return { draft with expiry := ← fresh draft.expiry readInteger }
  else
    colon
    skipValue
    return draft

/-- The claims, if none is missing. There may be no groups and no time of issue. -/
def claims? (draft : Draft) : Option Claims := do
  return {
    identity := {
      mail := ← draft.email
      name := ← draft.name
      username := ← draft.username
      surname := ← draft.surname
      isAdmin := ← draft.isAdmin
      groups := draft.groups.getD [] }
    issuedAt := draft.issuedAt.getD 0
    expiry := ← draft.expiry }

end Draft

def wholeObject {σ : Type} (member : σ → String → Reader σ) (start : σ) (bytes : Bytes) :
    Except String σ :=
  Reader.runOn (do
    unless (← peekPast) = some (byte '\x7b') do throw "expected an object"
    drop
    let state ← members member start
    endObject
    endOfText
    return state) bytes

def parse (bytes : Bytes) : Except String Claims := do
  match (← wholeObject Draft.member {} bytes).claims? with
  | some claims => return claims
  | none => throw "missing field"

/-! ## What every token may carry -/

structure Limits where
  expiry : Option Nat
  hasAudience : Bool
  deriving DecidableEq, Repr

namespace Limits

/-- A point in time. A value of another kind is taken as far as its beginning tells what it is. -/
def readTime : Reader Nat := do
  match ← peekPast with
  | none => throw "unexpected end"
  | some b =>
    if b = byte '-' ∨ isDigit b then
      match ← signedNumber with
      | .integer n => if 0 ≤ n then return n.toNat else throw "negative time"
      | .real => throw "not a whole number"
    else if b = byte '[' then
      drop
      followedBy (throw "not a number") endArray
    else if b = byte '\x7b' then
      drop
      followedBy (throw "not a number") endObject
    else
      discard (value 0)
      throw "not a number"

def takesNull : Reader Bool := do
  if (← peekPast) = some (byte 'n') then
    drop
    restOfWord "ull"
    return true
  else return false

/-- A subject: a string or null. The beginning of an array or an object is not taken. -/
def readSubject : Reader Unit := do
  unless ← takesNull do
    match ← value 0 with
    | .string _ => return
    | _ => throw "not a string"

def readNames : Reader Bool := do
  if ← takesNull then return false
  let given ← value maxDepth
  return given.string?.isSome || given.strings?.isSome

structure Draft where
  expiry : Option (Option Nat) := none
  notBefore : Option (Option Nat) := none
  subject : Option (Option Unit) := none
  issuer : Option (Option Bool) := none
  audience : Option (Option Bool) := none

def Draft.member (draft : Draft) (name : String) : Reader Draft := do
  let fresh {α : Type} (given : Option (Option α)) (reader : Reader α) :
      Reader (Option (Option α)) :=
    Claims.Draft.fresh given (attempt reader)
  if name = "exp" then return { draft with expiry := ← fresh draft.expiry readTime }
  else if name = "nbf" then return { draft with notBefore := ← fresh draft.notBefore readTime }
  else if name = "sub" then return { draft with subject := ← fresh draft.subject readSubject }
  else if name = "iss" then return { draft with issuer := ← fresh draft.issuer readNames }
  else if name = "aud" then return { draft with audience := ← fresh draft.audience readNames }
  else
    colon
    skipValue
    return draft

def parse (bytes : Bytes) : Except String Limits := do
  let draft ← wholeObject Draft.member {} bytes
  return { expiry := draft.expiry.join, hasAudience := draft.audience.join.getD false }

end Limits
end Claims
end QueryGate.Token
