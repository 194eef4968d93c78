/-! White space, hexadecimal digits, ASCII letters without their case, and strings as operators see
them. -/

namespace QueryGate.Text

/-- The blocks of `White_Space`, first and last code point of each. -/
def blankBlocks : List (Nat × Nat) :=
  [(0x09, 0x0D), (0x20, 0x20), (0x85, 0x85), (0xA0, 0xA0), (0x1680, 0x1680), (0x2000, 0x200A),
    (0x2028, 0x2029), (0x202F, 0x202F), (0x205F, 0x205F), (0x3000, 0x3000)]

def isBlank (c : Char) : Bool :=
  blankBlocks.any fun (first, last) => first ≤ c.toNat && c.toNat ≤ last

def trimBlank (cs : List Char) : List Char :=
  ((cs.dropWhile isBlank).reverse.dropWhile isBlank).reverse

def trimBlankEnd (cs : List Char) : List Char :=
  (cs.reverse.dropWhile isBlank).reverse

def hexValue? (c : Char) : Option Nat :=
  if '0' ≤ c ∧ c ≤ '9' then some (c.toNat - '0'.toNat)
  else if 'a' ≤ c ∧ c ≤ 'f' then some (c.toNat - 'a'.toNat + 10)
  else if 'A' ≤ c ∧ c ≤ 'F' then some (c.toNat - 'A'.toNat + 10)
  else none

def hexDigit (n : Nat) : Char :=
  if n < 10 then Char.ofNat ('0'.toNat + n) else Char.ofNat ('a'.toNat + (n - 10))

theorem hexValue?_toUpper_hexDigit : ∀ n < 16, hexValue? (hexDigit n).toUpper = some n := by
  decide

def foldLetters (s : String) : String :=
  String.ofList (s.toList.map Char.toLower)

def sameLetters (s t : String) : Bool :=
  foldLetters s == foldLetters t

theorem sameLetters_iff {s t : String} :
    sameLetters s t = true ↔ s.toList.map Char.toLower = t.toList.map Char.toLower := by
  simp [sameLetters, foldLetters, String.ofList_inj]

theorem sameLetters_refl (s : String) : sameLetters s s = true := by
  simp [sameLetters_iff]

/-- Blocks of characters without a shape of their own: controls, marks that join or direct other
characters, and accents that stand over the character before them. -/
def invisibleBlocks : List (Nat × Nat) :=
  [(0x00, 0x1F), (0x7F, 0x9F), (0xAD, 0xAD), (0x0300, 0x036F), (0x0483, 0x0489), (0x0591, 0x05BD),
    (0x0600, 0x0605), (0x0610, 0x061A), (0x061C, 0x061C), (0x064B, 0x065F), (0x180B, 0x180F),
    (0x200B, 0x200F), (0x202A, 0x202E), (0x2060, 0x206F), (0x20D0, 0x20F0), (0xD800, 0xF8FF),
    (0xFE00, 0xFE0F), (0xFE20, 0xFE2F), (0xFEFF, 0xFEFF), (0xFFF0, 0xFFFB), (0xFFFE, 0xFFFF),
    (0xE0000, 0x10FFFF)]

def isVisible (c : Char) : Bool :=
  c = ' ' ||
    !(isBlank c || invisibleBlocks.any fun (first, last) => first ≤ c.toNat && c.toNat ≤ last)

def shownChar (c : Char) : List Char :=
  if c = '"' then ['\\', '"']
  else if c = '\\' then ['\\', '\\']
  else if c = '\n' then ['\\', 'n']
  else if c = '\r' then ['\\', 'r']
  else if c = '\t' then ['\\', 't']
  else if c.toNat = 0 then ['\\', '0']
  else if isVisible c then [c]
  else ['\\', 'u', '\x7b'] ++ Nat.toDigits 16 c.toNat ++ ['\x7d']

def shown (s : String) : String :=
  String.ofList ('"' :: (s.toList.flatMap shownChar ++ ['"']))

end QueryGate.Text
