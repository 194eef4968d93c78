import QueryGate.Basic
import QueryGate.Config.Problem
import QueryGate.Config.Validation
import QueryGate.Encoding.Base64
import QueryGate.Files.Tree
import QueryGate.Text.Characters
import QueryGate.Token.Claims
import QueryGate.Token.Header
import QueryGate.Token.Signature

/-! Tokens: a header, the claims and a signature of the two, in base64 and joined by points. -/

namespace QueryGate.Token

open Encoding

structure Signer where
  algorithm : Algorithm
  keys : Keys
  ttlMinutes : Int
  deriving DecidableEq, Repr

namespace Signer

def maxMilliseconds : Int := Nat.pow 2 63 - 1

/-- The last second that can be written as a date. -/
def lastSecond : Int := 8210266876799

def millisecondsPerMinute : Int := 60000

def secondsPerMinute : Int := 60

/-- A signer for a method given by name. A lifetime that is too long stops the program. -/
def create (method : String) (signingKey verifyingKey : Bytes) (ttlMinutes : Int) :
    Except Failure Signer :=
  match Algorithm.ofName? method with
  | none => .error (.fault (Config.Problem.unknownMethod method).fault)
  | some algorithm =>
    if ttlMinutes ≤ 0 then .error (.fault Config.Problem.lifetimeNotPositive.fault)
    else
      match loadKeys? algorithm signingKey verifyingKey with
      | none =>
        .error (.fault (Config.Problem.badKeyMaterial algorithm.name "InvalidKeyFormat").fault)
      | some keys =>
        if maxMilliseconds < ttlMinutes * millisecondsPerMinute then .error .crash
        else .ok { algorithm, keys, ttlMinutes }

def readKey (files : Files.Tree) (role path : String) : Except Config.Problem Bytes :=
  match files.read path with
  | .ok content => .ok content
  | .error failure => .error (.keyUnreadable role (Text.shown path) failure.message)

def keyMaterial (files : Files.Tree) (settings : Settings) :
    Except Config.Problem (Bytes × Bytes) := do
  settings.validate
  if settings.isHmac then
    let secret := utf8 (settings.secret.getD "")
    return (secret, secret)
  else
    let signing ← readKey files "private" (settings.privateKeyPath.getD "")
    let verifying ← readKey files "public" (settings.publicKeyPath.getD "")
    return (signing, verifying)

def ofSettings (files : Files.Tree) (settings : Settings) : Except Failure Signer :=
  match keyMaterial files settings with
  | .error problem => .error (.fault problem.fault)
  | .ok (signing, verifying) => create settings.method signing verifying settings.ttlMinutes

def segment (bytes : Bytes) : List Char :=
  Base64.encode .url bytes

def claims (signer : Signer) (now : Int) (identity : Identity) : Claims where
  identity := identity
  issuedAt := now
  expiry := now + secondsPerMinute * signer.ttlMinutes

def signedPart (algorithm : Algorithm) (claims : Claims) : List Char :=
  segment (Text.Utf8.encode (Header.text algorithm)) ++ '.' ::
    segment (Text.Utf8.encode claims.text)

def issue (signer : Signer) (salt : Bytes) (now : Int) (identity : Identity) :
    Except Failure String :=
  let claims := signer.claims now identity
  if lastSecond < claims.expiry then .error .crash
  else
    let signed := signedPart signer.algorithm claims
    match signer.algorithm.sign? signer.keys.signing salt (Text.Utf8.encode signed) with
    | none => .error (.fault (.internal "Unable to sign the token: invalid key"))
    | some signature => .ok (String.ofList (signed ++ '.' :: segment signature))

def splitAtLastPoint? (text : List Char) : Option (List Char × List Char) :=
  let after := text.reverse.takeWhile (· ≠ '.')
  match text.reverse.drop after.length with
  | [] => none
  | _ :: before => some (before.reverse, after.reverse)

/-- The three parts of a token. Points before the last two belong to the header. -/
structure Parts where
  header : List Char
  payload : List Char
  signature : List Char
  deriving DecidableEq, Repr

namespace Parts

def ofText? (text : List Char) : Option Parts := do
  let (signed, signature) ← splitAtLastPoint? text
  let (header, payload) ← splitAtLastPoint? signed
  return { header, payload, signature }

def signed (parts : Parts) : List Char :=
  parts.header ++ '.' :: parts.payload

end Parts

def decodeSegment (text : List Char) : Except Rejection Bytes :=
  (Base64.decode? .url text).elim (.error (.badBase64 "invalid text")) .ok

def readJson {α : Type} : Except String α → Except Rejection α
  | .ok a => .ok a
  | .error reason => .error (.badJson reason)

def checkLimits (now : Int) (limits : Claims.Limits) : Except Rejection Unit :=
  match limits.expiry with
  | none => .error .noExpiry
  | some expiry =>
    if (expiry : Int) < now then .error .expired
    else if limits.hasAudience then .error .foreignAudience
    else .ok ()

def verifyClaims (signer : Signer) (now : Int) (token : String) : Except Rejection Claims := do
  let parts ← (Parts.ofText? token.toList).elim (.error .notThreeParts) .ok
  let header ← decodeSegment parts.header
  let algorithm ← readJson (Header.parse header)
  if algorithm ≠ signer.algorithm then throw .wrongAlgorithm
  let verifier ← signer.algorithm.verifier signer.keys.verifying
  let signature ← decodeSegment parts.signature
  unless verifier.accepts (Text.Utf8.encode parts.signed) signature do throw .badSignature
  let payload ← decodeSegment parts.payload
  let claims ← readJson (Claims.parse payload)
  let limits ← readJson (Claims.Limits.parse payload)
  checkLimits now limits
  return claims

def verify (signer : Signer) (now : Int) (token : String) : Except Fault Identity :=
  match signer.verifyClaims now token with
  | .ok claims => .ok claims.identity
  | .error rejection => .error rejection.fault

end Signer
end QueryGate.Token
