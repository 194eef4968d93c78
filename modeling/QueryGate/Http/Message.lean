import QueryGate.Encoding.Form
import QueryGate.Text.Utf8

/-! Requests and responses as far as the gateway reads and writes them. -/

namespace QueryGate.Http

structure Request where
  method : String := "GET"
  target : String
  headers : List (String × Bytes) := []
  body : Bytes := []
  deriving DecidableEq, Repr

structure Response where
  status : Nat
  contentType : Option String := none
  allow : Option String := none
  body : Bytes := []
  deriving DecidableEq, Repr

namespace Response

def text (status : Nat) (body : String) : Response where
  status := status
  contentType := some "text/plain; charset=utf-8"
  body := utf8 body

end Response

def withoutFragment (target : List Char) : List Char :=
  target.takeWhile (· ≠ '#')

def withoutOrigin (target : List Char) : List Char :=
  match target with
  | '/' :: _ => target
  | _ =>
    match (target.dropWhile (· ≠ ':')) with
    | ':' :: '/' :: '/' :: rest => rest.dropWhile fun c => c ≠ '/' && c ≠ '?'
    | _ => target

namespace Request

def pathAndQuery (request : Request) : List Char :=
  withoutOrigin (withoutFragment request.target.toList)

def path (request : Request) : String :=
  String.ofList (request.pathAndQuery.takeWhile (· ≠ '?'))

def query (request : Request) : List (String × String) :=
  Encoding.Form.decode (Text.Utf8.encode ((request.pathAndQuery.dropWhile (· ≠ '?')).drop 1))

def header? (request : Request) (name : String) : Option Bytes :=
  (request.headers.find? fun (other, _) =>
    other.toList.map Char.toLower == name.toList.map Char.toLower).map (·.2)

end Request

def printable? (value : Bytes) : Option String :=
  if value.all fun b => (0x20 ≤ b && b < 0x7F) || b = 0x09 then ofUtf8? value else none

end QueryGate.Http
