import QueryGate.Encoding.Base64
import QueryGate.Text.Characters

/-! PEM. What stands before the opening line and behind the closing line does not count. -/

namespace QueryGate.Encoding.Pem

structure Block where
  label : String
  content : Bytes
  deriving DecidableEq, Repr

def splitAtMark? {α : Type} [BEq α] (mark : List α) : List α → Option (List α × List α)
  | [] => if mark.isEmpty then some ([], []) else none
  | x :: rest =>
    if mark.isPrefixOf (x :: rest) then some ([], (x :: rest).drop mark.length)
    else (splitAtMark? mark rest).map fun (before, after) => (x :: before, after)

def isSpace (b : UInt8) : Bool :=
  b = 0x20 || b = 0x09 || b = 0x0A || b = 0x0D

/-- The headers, none if there is no empty line, and the text after them. -/
def splitHeaders (body : Bytes) : Bytes × Bytes :=
  match splitAtMark? [0x0A, 0x0A] body with
  | some parts => parts
  | none =>
    match splitAtMark? [0x0D, 0x0A, 0x0D, 0x0A] body with
    | some parts => parts
    | none => ([], body)

/-- Lines, without their ends. An empty last line does not count. -/
def lines (text : String) : List (List Char) :=
  let all := (text.splitOn "\n").map fun line =>
    match line.toList.reverse with
    | '\r' :: rest => rest.reverse
    | _ => line.toList
  if all.getLast? = some [] then all.dropLast else all

def decode? (input : Bytes) : Option Block := do
  let dashes := utf8 "-----"
  let (_, rest) ← splitAtMark? (utf8 "-----BEGIN ") input
  let (label, rest) ← splitAtMark? dashes rest
  let (body, rest) ← splitAtMark? (utf8 "-----END ") (rest.dropWhile isSpace)
  let (closing, _) ← splitAtMark? dashes rest
  let label ← ofUtf8? label
  let closing ← ofUtf8? closing
  guard (label ≠ "" ∧ label = closing)
  let (headers, data) := splitHeaders body
  let data ← ofUtf8? data
  let content ← Base64.decodePadded? .standard ((lines data).flatMap Text.trimBlankEnd)
  let headers ← ofUtf8? headers
  guard ((lines headers).all fun line => line.contains ':')
  return { label, content }

end QueryGate.Encoding.Pem
