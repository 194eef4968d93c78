import QueryGate.Text.Characters
import QueryGate.Text.Utf8

/-! Form encoding, as in the query of a URL and in the body of a form. -/

namespace QueryGate.Encoding.Form

open Text (hexDigit hexValue?)

def isPlain (b : UInt8) : Bool :=
  let c := Char.ofNat b.toNat
  b < 0x80 && (c.isAlphanum || c = '*' || c = '-' || c = '.' || c = '_')

def encodeByte (b : UInt8) : List Char :=
  if isPlain b then [Char.ofNat b.toNat]
  else if b = 0x20 then ['+']
  else ['%', (hexDigit (b.toNat / 16)).toUpper, (hexDigit (b.toNat % 16)).toUpper]

def encodeText (s : String) : List Char :=
  (utf8 s).flatMap encodeByte

def encodePair (pair : String × String) : List Char :=
  encodeText pair.1 ++ '=' :: encodeText pair.2

def encode (pairs : List (String × String)) : List Char :=
  ['&'].intercalate (pairs.map encodePair)

def hexByte? (high low : UInt8) : Option UInt8 := do
  let high ← hexValue? (Char.ofNat high.toNat)
  let low ← hexValue? (Char.ofNat low.toNat)
  return UInt8.ofNat (high * 16 + low)

/-- The bytes of a written text. A percent sign that is not followed by two digits stands for itself. -/
def decodeBytes : Bytes → Bytes
  | 0x25 :: high :: low :: rest =>
    match hexByte? high low with
    | some byte => byte :: decodeBytes rest
    | none => 0x25 :: decodeBytes (high :: low :: rest)
  | b :: rest => (if b = 0x2B then 0x20 else b) :: decodeBytes rest
  | [] => []

def decodeText (bytes : Bytes) : String :=
  ofUtf8Lossy (decodeBytes bytes)

/-- The parts between separators, of which there is one more than there are separators. -/
def splitAt (separator : UInt8) : Bytes → List Bytes
  | [] => [[]]
  | b :: rest =>
    if b = separator then [] :: splitAt separator rest
    else
      match splitAt separator rest with
      | [] => [[b]]
      | part :: parts => (b :: part) :: parts

/-- A pair. Without an equals sign all of it is the name. -/
def decodePair (bytes : Bytes) : String × String :=
  (decodeText (bytes.takeWhile (· ≠ 0x3D)), decodeText ((bytes.dropWhile (· ≠ 0x3D)).drop 1))

def decode (bytes : Bytes) : List (String × String) :=
  ((splitAt 0x26 bytes).filter (!·.isEmpty)).map decodePair

end QueryGate.Encoding.Form
