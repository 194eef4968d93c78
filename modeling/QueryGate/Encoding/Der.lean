import QueryGate.Arithmetic

/-! DER values. The lenient reading tells what kind of key a file holds, the strict one reads a key.
-/

namespace QueryGate.Encoding.Der

inductive Block where
  | group (items : List Block)
  | objectId (arcs : List Nat)
  | content (bytes : Bytes)
  | other

/-- A number in groups of seven bits, of which all but the last are marked. -/
def base128? : Nat → Bytes → Option (Nat × Bytes)
  | _, [] => none
  | n, b :: rest =>
    let n := n * 128 + b.toNat % 128
    if b.toNat < 128 then some (n, rest) else base128? n rest

def allBase128? : (count : Nat) → Bytes → Option (List Nat)
  | _, [] => some []
  | 0, _ => none
  | count + 1, bytes => do
    let (n, rest) ← base128? 0 bytes
    return n :: (← allBase128? count rest)

/-- An object identifier. Its first byte stands for the first two numbers. -/
def objectId? : Bytes → Option (List Nat)
  | [] => none
  | b :: rest => do
    let n := b.toNat
    let arcs ← allBase128? rest.length rest
    return (if n < 40 then [0, n] else if n < 80 then [1, n - 40] else [2, n - 80]) ++ arcs

def length? : Bytes → Option (Nat × Bytes)
  | [] => none
  | b :: rest =>
    let count := b.toNat % 128
    if b.toNat < 128 then some (b.toNat, rest)
    else if 8 < count ∨ rest.length < count then none
    else some (BigEndian.toNat (rest.take count), rest.drop count)

def tag? : Bytes → Option (UInt8 × Nat × Bytes)
  | [] => none
  | b :: rest =>
    if b.toNat % 32 = 31 then (base128? 0 rest).map fun (n, rest) => (b, n, rest)
    else some (b, b.toNat % 32, rest)

/-- All values up to the end, of which there has to be one at least. The fuel bounds both the number
of values and their depth. -/
def blocks? : (fuel : Nat) → Bytes → Option (List Block)
  | 0, _ => none
  | fuel + 1, bytes => do
    let (tagByte, number, rest) ← tag? bytes
    let (length, rest) ← length? rest
    guard (length ≤ rest.length)
    let body := rest.take length
    let block ←
      if 64 ≤ tagByte.toNat then some .other
      else
        match number with
        | 0x01 => if body.length = 1 then some .other else none
        | 0x03 =>
          match body with
          | [] => some (.content [])
          | unused :: bits => if unused.toNat ≤ bits.length * 8 then some (.content bits) else none
        | 0x04 => some (.content body)
        | 0x06 => (objectId? body).map .objectId
        | 0x0C => (ofUtf8? body).map fun _ => .other
        | 0x10 => (blocks? fuel body).map .group
        | 0x11 => (blocks? fuel body).map fun _ => .other
        | _ => some .other
    match rest.drop length with
    | [] => return [block]
    | rest => return block :: (← blocks? fuel rest)

def parse? (bytes : Bytes) : Option (List Block) :=
  blocks? (bytes.length + 1) bytes

mutual

def Block.findId? {α : Type} (known : List Nat → Option α) : Block → Option α
  | .group items => findIdIn? known items
  | .objectId arcs => known arcs
  | .content _ | .other => none

def findIdIn? {α : Type} (known : List Nat → Option α) : List Block → Option α
  | [] => none
  | block :: rest => (block.findId? known).or (findIdIn? known rest)

end

mutual

def Block.firstContent? : Block → Option Bytes
  | .content bytes => some bytes
  | .group items => firstContentIn? items
  | .objectId _ | .other => none

def firstContentIn? : List Block → Option Bytes
  | [] => none
  | block :: rest => block.firstContent?.or (firstContentIn? rest)

end

/-! ## The strict reading -/

def shortestLength? (bytes : Bytes) : Option (Nat × Bytes) := do
  let first ← bytes.head?
  let (length, rest) ← length? bytes
  if 128 ≤ first.toNat then
    guard (first.toNat ≤ 0x84 ∧ 128 ≤ length ∧ Nat.pow 256 (first.toNat - 0x81) ≤ length)
  return (length, rest)

def value? (tagByte : UInt8) : Bytes → Option (Bytes × Bytes)
  | [] => none
  | b :: rest => do
    guard (b = tagByte)
    let (length, rest) ← shortestLength? rest
    guard (length ≤ rest.length)
    return (rest.take length, rest.drop length)

def optional (tagByte : UInt8) (bytes : Bytes) : Option (Option Bytes × Bytes) :=
  if bytes.head? = some tagByte then
    (value? tagByte bytes).map fun (content, rest) => (some content, rest)
  else some (none, bytes)

def natural? (bytes : Bytes) : Option (Nat × Bytes) := do
  let (content, rest) ← value? 0x02 bytes
  match content with
  | [] => none
  | [b] => guard (b.toNat < 128)
  | b :: c :: _ => guard (b.toNat < 128 ∧ (b = 0 → 128 ≤ c.toNat))
  return (BigEndian.toNat content, rest)

/-- The content of a sequence that is all there is. -/
def sequence? (bytes : Bytes) : Option Bytes := do
  let (content, rest) ← value? 0x30 bytes
  guard rest.isEmpty
  return content

def wholeBits? : Bytes → Option Bytes
  | 0 :: bits => some bits
  | _ => none

end QueryGate.Encoding.Der
