import QueryGate.Text.Utf8

/-! Numbers as bytes, the most significant one first, and powers and inverses modulo a number. -/

namespace QueryGate.Encoding.BigEndian

def toNat (bytes : Bytes) : Nat :=
  bytes.foldl (fun n b => n * 256 + b.toNat) 0

/-- The last `size` bytes of a number. -/
def ofNat : (size : Nat) → Nat → Bytes
  | 0, _ => []
  | size + 1, n => ofNat size (n / 256) ++ [UInt8.ofNat n]

end QueryGate.Encoding.BigEndian

namespace QueryGate.Crypto

def powMod (base exponent modulus : Nat) : Nat :=
  if exponent = 0 then 1 % modulus
  else
    let half := powMod (base * base % modulus) (exponent / 2) modulus
    if exponent % 2 = 0 then half else base * half % modulus
termination_by exponent

def bezout (r s : Nat) (t u : Int) : Int :=
  if h : s = 0 then t
  else
    have : r % s < s := Nat.mod_lt _ (Nat.pos_of_ne_zero h)
    bezout s (r % s) u (t - (r / s : Nat) * u)
termination_by s

def inverseMod (a modulus : Nat) : Nat :=
  (bezout modulus (a % modulus) 0 1 % modulus).toNat

def subMod (a b modulus : Nat) : Nat :=
  (a + (modulus - b % modulus)) % modulus

end QueryGate.Crypto
