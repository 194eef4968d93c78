import QueryGate.Arithmetic
import QueryGate.Crypto.Sha2

/-! RSA signatures with fixed padding, and with a random salt that the signature carries. -/

namespace QueryGate.Crypto.Rsa

open Encoding

structure PublicKey where
  modulus : Nat
  exponent : Nat
  deriving DecidableEq, Repr

namespace PublicKey

def bits (key : PublicKey) : Nat :=
  if key.modulus = 0 then 0 else key.modulus.log2 + 1

def size (key : PublicKey) : Nat :=
  (key.bits + 7) / 8

def isUsable (key : PublicKey) : Bool :=
  key.modulus % 2 = 1 && key.exponent % 2 = 1 && key.bits ≤ 4096 && 2 ≤ key.exponent &&
    key.exponent < Nat.pow 2 33 && key.exponent < key.modulus

end PublicKey

structure PrivateKey where
  publicKey : PublicKey
  exponent : Nat
  factors : Nat × Nat
  deriving DecidableEq, Repr

namespace PrivateKey

def isConsistent (key : PrivateKey) : Bool :=
  let (p, q) := key.factors
  let product := key.publicKey.exponent * key.exponent
  key.publicKey.isUsable && 1 < p && 1 < q && p * q = key.publicKey.modulus &&
    product % (p - 1) = 1 && product % (q - 1) = 1

def sign (key : PrivateKey) (encoded : Bytes) : Bytes :=
  BigEndian.ofNat key.publicKey.size
    (powMod (BigEndian.toNat encoded) key.exponent key.publicKey.modulus)

end PrivateKey

/-- The number that a signature stands for, before the padding is looked at. -/
def PublicKey.open? (key : PublicKey) (signature : Bytes) : Option Nat :=
  let n := BigEndian.toNat signature
  if signature.length = key.size ∧ n < key.modulus then some (powMod n key.exponent key.modulus)
  else none

def hashNumber : Hash → UInt8
  | .sha256 => 1
  | .sha384 => 2
  | .sha512 => 3

def digestInfo (hash : Hash) (message : Bytes) : Bytes :=
  let size := UInt8.ofNat hash.size
  [0x30, 0x11 + size, 0x30, 0x0D, 0x06, 0x09, 0x60, 0x86, 0x48, 0x01, 0x65, 0x03, 0x04, 0x02,
    hashNumber hash, 0x05, 0x00, 0x04, size] ++ hash.digest message

/-- The padded digest, if it fits into `size` bytes with at least eight bytes of padding. -/
def padFixed? (hash : Hash) (size : Nat) (message : Bytes) : Option Bytes :=
  let info := digestInfo hash message
  if size < info.length + 11 then none
  else some ([0x00, 0x01] ++ List.replicate (size - info.length - 3) 0xFF ++ [0x00] ++ info)

def signFixed? (hash : Hash) (key : PrivateKey) (message : Bytes) : Option Bytes :=
  (padFixed? hash key.publicKey.size message).map key.sign

def verifyFixed (hash : Hash) (key : PublicKey) (message signature : Bytes) : Bool :=
  match key.open? signature, padFixed? hash key.size message with
  | some n, some padded => n == BigEndian.toNat padded
  | _, _ => false

def xorBytes (x y : Bytes) : Bytes :=
  List.zipWith (· ^^^ ·) x y

def mask (hash : Hash) (seed : Bytes) (size : Nat) : Bytes :=
  ((List.range (size / hash.size + 1)).flatMap fun i =>
    hash.digest (seed ++ BigEndian.ofNat 4 i)).take size

def saltedDigest (hash : Hash) (message salt : Bytes) : Bytes :=
  hash.digest (List.replicate 8 0 ++ hash.digest message ++ salt)

def clearBits (count : Nat) : Bytes → Bytes
  | [] => []
  | b :: rest => UInt8.ofNat (b.toNat % Nat.pow 2 (8 - count)) :: rest

/-- The length of a padded digest in bytes: one bit less than the modulus. -/
def PublicKey.paddedSize (key : PublicKey) : Nat :=
  (key.bits - 1 + 7) / 8

def PublicKey.spareBits (key : PublicKey) : Nat :=
  8 * key.paddedSize - (key.bits - 1)

def padSalted? (hash : Hash) (key : PublicKey) (message salt : Bytes) : Option Bytes :=
  let size := key.paddedSize
  if size < hash.size + salt.length + 2 then none
  else
    let digest := saltedDigest hash message salt
    let block := List.replicate (size - salt.length - hash.size - 2) 0 ++ [0x01] ++ salt
    let masked := clearBits key.spareBits (xorBytes block (mask hash digest block.length))
    some (masked ++ digest ++ [0xBC])

def signSalted? (hash : Hash) (key : PrivateKey) (message salt : Bytes) : Option Bytes :=
  (padSalted? hash key.publicKey message salt).map key.sign

def verifySalted (hash : Hash) (key : PublicKey) (message signature : Bytes) : Bool :=
  match key.open? signature with
  | none => false
  | some n =>
    let size := key.paddedSize
    if size < 2 * hash.size + 2 ∨ Nat.pow 256 size ≤ n then false
    else
      let padded := BigEndian.ofNat size n
      let masked := padded.take (size - hash.size - 1)
      let digest := (padded.drop masked.length).take hash.size
      let block := clearBits key.spareBits (xorBytes masked (mask hash digest masked.length))
      let salt := block.drop (block.length - hash.size)
      let zeros := block.take (block.length - hash.size - 1)
      padded.getLast? == some 0xBC && clearBits key.spareBits masked == masked &&
        zeros.all (· == 0) && (block.drop zeros.length).head? == some 0x01 &&
        saltedDigest hash message salt == digest

end QueryGate.Crypto.Rsa
