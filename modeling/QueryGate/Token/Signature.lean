import QueryGate.Basic
import QueryGate.Token.Key

/-! Signing and checking bytes with each algorithm. -/

namespace QueryGate.Token

inductive Rejection where
  | notThreeParts
  | badBase64 (reason : String)
  | badJson (reason : String)
  | wrongAlgorithm
  | badCurveKey
  | badEdwardsKey
  | badSignature
  | noExpiry
  | expired
  | foreignAudience
  deriving DecidableEq, Repr

namespace Rejection

def message : Rejection → String
  | notThreeParts => "InvalidToken"
  | badBase64 reason => "Base64 error: " ++ reason
  | badJson reason => "JSON error: " ++ reason
  | wrongAlgorithm => "InvalidAlgorithm"
  | badCurveKey => "InvalidEcdsaKey"
  | badEdwardsKey => "InvalidEddsaKey"
  | badSignature => "InvalidSignature"
  | noExpiry => "Missing required claim: exp"
  | expired => "ExpiredSignature"
  | foreignAudience => "InvalidAudience"

def fault (rejection : Rejection) : Fault :=
  .invalidCredential rejection.message

end Rejection

open Crypto

namespace Algorithm

/-- Sign a message. The salt is used by salted signatures only. A key that is no key does not sign. -/
def sign? (algorithm : Algorithm) (key salt message : Bytes) : Option Bytes :=
  match algorithm with
  | hmac hash => some (Hmac.tag hash key message)
  | rsa hash => do Rsa.signFixed? hash (← rsaPrivateKey? key) message
  | rsaSalted hash => do Rsa.signSalted? hash (← rsaPrivateKey? key) message salt
  | ecdsa name => do Ecdsa.sign? name.hash name.curve (← ecSecret? name key) message
  | edDsa => do return Ed25519.sign (← edSeed? key) message

/-- A verifying key that is ready for use. RSA keys are not looked into before they are used. -/
inductive Verifier where
  | hmac (hash : Hash) (secret : Bytes)
  | rsa (hash : Hash) (key : Bytes)
  | rsaSalted (hash : Hash) (key : Bytes)
  | ecdsa (name : CurveName) (point : Nat × Nat)
  | edDsa (key : Bytes) (point : Ed25519.Point)

def verifier (algorithm : Algorithm) (key : Bytes) : Except Rejection Verifier :=
  match algorithm with
  | hmac hash => .ok (.hmac hash key)
  | rsa hash => .ok (.rsa hash key)
  | rsaSalted hash => .ok (.rsaSalted hash key)
  | ecdsa name => ((name.curve.point? key).map (.ecdsa name)).elim (.error .badCurveKey) .ok
  | edDsa => ((Ed25519.point? key).map (.edDsa key)).elim (.error .badEdwardsKey) .ok

def Verifier.accepts (verifier : Verifier) (message signature : Bytes) : Bool :=
  match verifier with
  | hmac hash secret => Hmac.tag hash secret message == signature
  | rsa hash key => (rsaPublicKey? key).any (Rsa.verifyFixed hash · message signature)
  | rsaSalted hash key => (rsaPublicKey? key).any (Rsa.verifySalted hash · message signature)
  | ecdsa name point => Ecdsa.verify name.hash name.curve point message signature
  | edDsa key point => Ed25519.verify key point message signature

end Algorithm
end QueryGate.Token
