import QueryGate.Arithmetic

/-! The SHA-2 hash functions on words of 32 or 64 bits, and keyed hashes. -/

namespace QueryGate.Crypto.Sha2

open Encoding

def isPrime (n : Nat) : Bool :=
  2 ≤ n && (List.range n).all fun d => d < 2 || n % d ≠ 0

def primes : List Nat :=
  (List.range 410).filter isPrime

def rootFloor (k n : Nat) : Nat :=
  (List.range (n.log2 + 1)).reverse.foldl
    (fun root bit => if Nat.pow (root + Nat.pow 2 bit) k ≤ n then root + Nat.pow 2 bit else root) 0

/-- The first `w` bits after the point of the `k`-th root of `n`. -/
def rootBits (w k n : Nat) : BitVec w :=
  BitVec.ofNat w (rootFloor k (n * Nat.pow 2 (k * w)))

structure Registers (w : Nat) where
  (a b c d e f g h : BitVec w)

namespace Registers

variable {w : Nat}

def add (x y : Registers w) : Registers w :=
  ⟨x.a + y.a, x.b + y.b, x.c + y.c, x.d + y.d, x.e + y.e, x.f + y.f, x.g + y.g, x.h + y.h⟩

def toList (x : Registers w) : List (BitVec w) :=
  [x.a, x.b, x.c, x.d, x.e, x.f, x.g, x.h]

def ofPrimes (w : Nat) (primes : List Nat) : Registers w :=
  let word (i : Nat) := rootBits w 2 (primes.getD i 0)
  ⟨word 0, word 1, word 2, word 3, word 4, word 5, word 6, word 7⟩

end Registers

structure Variant (w : Nat) where
  (mixA mixE : Nat × Nat × Nat)
  (spread0 spread1 : Nat × Nat × Nat)
  constants : List (BitVec w)
  start : Registers w

namespace Variant

variable {w : Nat} (v : Variant w)

def rotations (amounts : Nat × Nat × Nat) (x : BitVec w) : BitVec w :=
  x.rotateRight amounts.1 ^^^ x.rotateRight amounts.2.1 ^^^ x.rotateRight amounts.2.2

def spread (amounts : Nat × Nat × Nat) (x : BitVec w) : BitVec w :=
  x.rotateRight amounts.1 ^^^ x.rotateRight amounts.2.1 ^^^ (x >>> amounts.2.2)

def round (r : Registers w) (constant word : BitVec w) : Registers w :=
  let choice := (r.e &&& r.f) ^^^ (~~~r.e &&& r.g)
  let majority := (r.a &&& r.b) ^^^ (r.a &&& r.c) ^^^ (r.b &&& r.c)
  let t := r.h + rotations v.mixE r.e + choice + constant + word
  ⟨t + rotations v.mixA r.a + majority, r.a, r.b, r.c, r.d + t, r.e, r.f, r.g⟩

def nextWord (window : List (BitVec w)) : BitVec w :=
  spread v.spread1 (window.getD 14 0) + window.getD 9 0 +
    spread v.spread0 (window.getD 1 0) + window.getD 0 0

def compress (before : Registers w) (block : List (BitVec w)) : Registers w :=
  let (after, _) := v.constants.foldl
    (fun (r, window) constant =>
      (v.round r constant (window.headD 0), window.tail ++ [v.nextWord window]))
    (before, block)
  before.add after

/-- The message with a one bit, zeros and its length in bits, up to a whole number of blocks. -/
def padded (message : Bytes) : Bytes :=
  let lengthSize := w / 4
  let used := message.length + 1 + lengthSize
  let zeros := (2 * w - used % (2 * w)) % (2 * w)
  message ++ 0x80 :: (List.replicate zeros 0 ++ BigEndian.ofNat lengthSize (message.length * 8))

/-- Mix blocks of `2 * w` bytes into the registers, at most `count` of them. -/
def compressAll : (count : Nat) → Registers w → Bytes → Registers w
  | 0, r, _ => r
  | count + 1, r, bytes =>
    if bytes.isEmpty then r
    else
      let block := bytes.take (2 * w)
      let words := (List.range 16).map fun i =>
        BitVec.ofNat w (BigEndian.toNat ((block.drop (i * (w / 8))).take (w / 8)))
      compressAll count (v.compress r words) (bytes.drop (2 * w))

def hash (message : Bytes) : Bytes :=
  let bytes := padded (w := w) message
  (v.compressAll bytes.length v.start bytes).toList.flatMap fun word =>
    BigEndian.ofNat (w / 8) word.toNat

end Variant

def narrow : Variant 32 where
  mixA := (2, 13, 22)
  mixE := (6, 11, 25)
  spread0 := (7, 18, 3)
  spread1 := (17, 19, 10)
  constants := (primes.take 64).map (rootBits 32 3)
  start := .ofPrimes 32 primes

def wide (start : Registers 64) : Variant 64 where
  mixA := (28, 34, 39)
  mixE := (14, 18, 41)
  spread0 := (1, 8, 7)
  spread1 := (19, 61, 6)
  constants := (primes.take 80).map (rootBits 64 3)
  start := start

def sha256 : Variant 32 := narrow
def sha384 : Variant 64 := wide (.ofPrimes 64 (primes.drop 8))
def sha512 : Variant 64 := wide (.ofPrimes 64 primes)

end Sha2

inductive Hash where
  | sha256
  | sha384
  | sha512
  deriving DecidableEq, Repr

namespace Hash

def size : Hash → Nat
  | sha256 => 32
  | sha384 => 48
  | sha512 => 64

def blockSize : Hash → Nat
  | sha256 => 64
  | sha384 | sha512 => 128

def digest : Hash → Bytes → Bytes
  | sha256, message => Sha2.sha256.hash message
  | sha384, message => (Sha2.sha384.hash message).take 48
  | sha512, message => Sha2.sha512.hash message

end Hash
end QueryGate.Crypto

namespace QueryGate.Crypto.Hmac

/-- The key filled up with zeros to the size of a block; a key that is too long is hashed first. -/
def blockKey (hash : Hash) (key : Bytes) : Bytes :=
  let key := if hash.blockSize < key.length then hash.digest key else key
  key ++ List.replicate (hash.blockSize - key.length) 0

def tag (hash : Hash) (key message : Bytes) : Bytes :=
  let key := blockKey hash key
  hash.digest (key.map (· ^^^ 0x5C) ++ hash.digest (key.map (· ^^^ 0x36) ++ message))

end QueryGate.Crypto.Hmac
