import QueryGate.Json.Value
import QueryGate.Json.Writer
import QueryGate.Token.Algorithm

/-! Token headers. The registered members have their shapes, and any other one is a string. -/

namespace QueryGate.Token

open Json (Value)

namespace Header

def areSingle (names : List String) (members : List (String × Value)) : Bool :=
  names.all fun name => members.countP (·.1 == name) ≤ 1

def textNames : List String :=
  ["typ", "cty", "jku", "kid", "x5u", "x5t", "x5t#S256", "enc", "zip", "url", "nonce"]

def listNames : List String :=
  ["x5c", "crit"]

namespace Jwk

def textNames : List String :=
  ["use", "kid", "x5u", "x5t", "x5t#S256"]

def listNames : List String :=
  ["key_ops", "x5c"]

structure Shape where
  kind : String
  needsCurve : Bool
  texts : List String

def shapes : List Shape :=
  [⟨"EC", true, ["x", "y"]⟩, ⟨"RSA", false, ["n", "e"]⟩, ⟨"oct", false, ["k"]⟩,
    ⟨"OKP", true, ["x"]⟩]

def curves : List String :=
  ["P-256", "P-384", "P-521", "Ed25519"]

def Shape.fits (shape : Shape) (members : List (String × Value)) : Bool :=
  areSingle (["kty", "crv"] ++ shape.texts) members &&
    (members.lookup "kty" >>= Value.name?) == some shape.kind &&
    (!shape.needsCurve || (members.lookup "crv" >>= Value.name?).any curves.contains) &&
    shape.texts.all fun name => (members.lookup name >>= Value.string?).isSome

def isJwk : Value → Bool
  | .object members =>
    areSingle ("alg" :: (textNames ++ listNames)) members &&
      members.all (fun (name, value) =>
        if name = "alg" then value.isNullOr (·.name?.isSome)
        else if textNames.contains name then value.isNullOr (·.string?.isSome)
        else if listNames.contains name then value.isNullOr (·.strings?.isSome)
        else true) &&
      shapes.any (·.fits members)
  | _ => false

end Jwk

def isWellFormed (name : String) (value : Value) : Bool :=
  if textNames.contains name then value.isNullOr (·.string?.isSome)
  else if listNames.contains name then value.isNullOr (·.strings?.isSome)
  else if name = "jwk" then value.isNullOr Jwk.isJwk
  else value.string?.isSome

def algorithm? : Value → Except String Algorithm
  | .object members => do
    unless areSingle ("alg" :: "jwk" :: (textNames ++ listNames)) members do
      throw "duplicate field"
    unless members.all fun (name, value) => name = "alg" || isWellFormed name value do
      throw "invalid type"
    match members.lookup "alg" >>= Value.name? with
    | none => throw "missing field alg"
    | some name => (Algorithm.ofName? name).elim (throw "unknown variant") pure
  | _ => throw "invalid type"

def parse (bytes : Bytes) : Except String Algorithm := do
  algorithm? (← Json.parse bytes)

def text (algorithm : Algorithm) : List Char :=
  Json.objectText [("typ", .string "JWT"), ("alg", .string algorithm.name)]

end Header
end QueryGate.Token
