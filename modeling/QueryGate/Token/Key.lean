import QueryGate.Crypto.Ecdsa
import QueryGate.Crypto.Ed25519
import QueryGate.Crypto.Rsa
import QueryGate.Encoding.Der
import QueryGate.Encoding.Pem
import QueryGate.Token.Algorithm

/-! Key material. Loading a file only finds out of what kind its key is and where it lies; the key
itself is read when it is used. -/

namespace QueryGate.Token

open Crypto Encoding

namespace KeyFile

inductive Kind where
  | ec
  | rsa
  | ed
  deriving DecidableEq, Repr

def kindOf? (arcs : List Nat) : Option Kind :=
  if arcs = [1, 2, 840, 10045, 2, 1] then some .ec
  else if arcs = [1, 2, 840, 113549, 1, 1, 1] then some .rsa
  else if arcs = [1, 3, 101, 112] then some .ed
  else none

inductive Layout where
  | bare
  | wrapped (kind : Kind) (isPrivate : Bool)
  deriving DecidableEq, Repr

structure Parsed where
  layout : Layout
  content : Bytes
  blocks : List Der.Block

def parse? (file : Bytes) : Option Parsed := do
  let block ← Pem.decode? file
  let blocks ← Der.parse? block.content
  let layout ←
    if block.label = "RSA PRIVATE KEY" ∨ block.label = "RSA PUBLIC KEY" then some .bare
    else if block.label ∈ ["PRIVATE KEY", "PUBLIC KEY", "CERTIFICATE"] then
      (Der.findIdIn? kindOf? blocks).map (.wrapped · (block.label == "PRIVATE KEY"))
    else none
  return { layout, content := block.content, blocks }

def rsa? (file : Bytes) : Option Bytes := do
  let parsed ← parse? file
  match parsed.layout with
  | .bare => return parsed.content
  | .wrapped .rsa _ => Der.firstContentIn? parsed.blocks
  | .wrapped .. => none

def wrappedPrivate? (kind : Kind) (file : Bytes) : Option Bytes := do
  let parsed ← parse? file
  if parsed.layout = .wrapped kind true then return parsed.content else none

def wrappedPublic? (kind : Kind) (file : Bytes) : Option Bytes := do
  let parsed ← parse? file
  if parsed.layout = .wrapped kind false then Der.firstContentIn? parsed.blocks else none

end KeyFile

structure Keys where
  signing : Bytes
  verifying : Bytes
  deriving DecidableEq, Repr

def loadKeys? (algorithm : Algorithm) (signing verifying : Bytes) : Option Keys :=
  match algorithm with
  | .hmac _ => some ⟨signing, verifying⟩
  | .rsa _ | .rsaSalted _ => do return ⟨← KeyFile.rsa? signing, ← KeyFile.rsa? verifying⟩
  | .ecdsa _ => do
    return ⟨← KeyFile.wrappedPrivate? .ec signing, ← KeyFile.wrappedPublic? .ec verifying⟩
  | .edDsa => do
    return ⟨← KeyFile.wrappedPrivate? .ed signing, ← KeyFile.wrappedPublic? .ed verifying⟩

def rsaPublicKey? (bytes : Bytes) : Option Rsa.PublicKey := do
  let rest ← Der.sequence? bytes
  let (modulus, rest) ← Der.natural? rest
  let (exponent, rest) ← Der.natural? rest
  guard rest.isEmpty
  let key : Rsa.PublicKey := { modulus, exponent }
  if key.isUsable then return key else none

/-- An RSA private key: a sequence of nine numbers, of which the first is the version. -/
def rsaPrivateKey? (bytes : Bytes) : Option Rsa.PrivateKey := do
  let rest ← Der.sequence? bytes
  let (version, rest) ← Der.natural? rest
  guard (version = 0)
  let (modulus, rest) ← Der.natural? rest
  let (publicExponent, rest) ← Der.natural? rest
  let (exponent, rest) ← Der.natural? rest
  let (p, rest) ← Der.natural? rest
  let (q, rest) ← Der.natural? rest
  let (_, rest) ← Der.natural? rest
  let (_, rest) ← Der.natural? rest
  let (_, rest) ← Der.natural? rest
  guard rest.isEmpty
  let key : Rsa.PrivateKey :=
    { publicKey := ⟨modulus, publicExponent⟩, exponent, factors := (p, q) }
  if key.isConsistent then return key else none

structure Wrapped where
  algorithm : List Nat
  parameters : Bytes
  key : Bytes
  publicKey : Option Bytes

/-- A version, the kind of key with its parameters, the key, and after it perhaps attributes and,
in the second version only, the public key. -/
def wrapped? (bytes : Bytes) : Option Wrapped := do
  let rest ← Der.sequence? bytes
  let (version, rest) ← Der.natural? rest
  guard (version ≤ 1)
  let (kind, rest) ← Der.value? 0x30 rest
  let (id, parameters) ← Der.value? 0x06 kind
  let algorithm ← Der.objectId? id
  let (key, rest) ← Der.value? 0x04 rest
  let (_, rest) ← Der.optional 0xA0 rest
  let (publicKey, rest) ← Der.optional 0x81 rest
  guard (rest.isEmpty ∧ publicKey.isSome = (version = 1))
  let publicKey ← publicKey.mapM Der.wholeBits?
  return { algorithm, parameters, key, publicKey }

namespace CurveName

def curve : CurveName → Curve
  | p256 => Curve.p256
  | p384 => Curve.p384

def hash : CurveName → Hash
  | p256 => .sha256
  | p384 => .sha384

/-- The name of the curve as it is written in keys, a whole value with its tag. -/
def id : CurveName → Bytes
  | p256 => [0x06, 0x08, 0x2A, 0x86, 0x48, 0xCE, 0x3D, 0x03, 0x01, 0x07]
  | p384 => [0x06, 0x05, 0x2B, 0x81, 0x04, 0x00, 0x22]

end CurveName

def isPointOf (curve : Curve) (secret : Nat) (bytes : Bytes) : Bool :=
  let whole := curve.pointBytes (curve.multiply secret (some curve.base))
  curve.point? bytes == curve.point? whole

def ecSecret? (name : CurveName) (bytes : Bytes) : Option Nat := do
  let curve := name.curve
  let outer ← wrapped? bytes
  guard (outer.algorithm = [1, 2, 840, 10045, 2, 1] ∧ outer.parameters = name.id)
  let rest ← Der.sequence? outer.key
  let (version, rest) ← Der.natural? rest
  guard (version = 1)
  let (secret, rest) ← Der.value? 0x04 rest
  let (parameters, rest) ← Der.optional 0xA0 rest
  let (point, rest) ← Der.optional 0xA1 rest
  guard (rest.isEmpty ∧ parameters.all (· = name.id))
  guard (24 ≤ secret.length ∧ secret.length ≤ curve.size)
  let secret := BigEndian.toNat secret
  guard (1 ≤ secret ∧ secret < curve.order)
  match point with
  | none => return secret
  | some point =>
    let (bits, rest) ← Der.value? 0x03 point
    guard rest.isEmpty
    if isPointOf curve secret (← Der.wholeBits? bits) then return secret else none

/-- The seed in a private key for Ed25519, which is wrapped once more. -/
def edSeed? (bytes : Bytes) : Option Bytes := do
  let outer ← wrapped? bytes
  guard (outer.algorithm = [1, 3, 101, 112] ∧ outer.parameters.isEmpty)
  let (seed, rest) ← Der.value? 0x04 outer.key
  guard (rest.isEmpty ∧ seed.length = 32)
  guard (outer.publicKey.all (· = Ed25519.publicKey seed))
  return seed

end QueryGate.Token
