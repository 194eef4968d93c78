import QueryGate.Crypto.Sha2

/-! The methods by which tokens can be signed. -/

namespace QueryGate.Token

open Crypto (Hash)

inductive CurveName where
  | p256
  | p384
  deriving DecidableEq, Repr

inductive Algorithm where
  | hmac (hash : Hash)
  | rsa (hash : Hash)
  | rsaSalted (hash : Hash)
  | ecdsa (curve : CurveName)
  | edDsa
  deriving DecidableEq, Repr

namespace Algorithm

def all : List Algorithm :=
  [.hmac .sha256, .hmac .sha384, .hmac .sha512, .ecdsa .p256, .ecdsa .p384, .rsa .sha256,
    .rsa .sha384, .rsa .sha512, .rsaSalted .sha256, .rsaSalted .sha384, .rsaSalted .sha512, .edDsa]

def hashName : Hash → String
  | .sha256 => "256"
  | .sha384 => "384"
  | .sha512 => "512"

def name : Algorithm → String
  | hmac hash => "HS" ++ hashName hash
  | rsa hash => "RS" ++ hashName hash
  | rsaSalted hash => "PS" ++ hashName hash
  | ecdsa .p256 => "ES256"
  | ecdsa .p384 => "ES384"
  | edDsa => "EdDSA"

def ofName? (name : String) : Option Algorithm :=
  all.find? (·.name == name)

def isShared : Algorithm → Bool
  | hmac _ => true
  | _ => false

def saltSize : Algorithm → Nat
  | rsaSalted hash => hash.size
  | _ => 0

theorem ofName?_name (algorithm : Algorithm) : ofName? algorithm.name = some algorithm := by
  cases algorithm with
  | hmac hash => cases hash <;> decide
  | rsa hash => cases hash <;> decide
  | rsaSalted hash => cases hash <;> decide
  | ecdsa curve => cases curve <;> decide
  | edDsa => decide

end Algorithm
end QueryGate.Token
