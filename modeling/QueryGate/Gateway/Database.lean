import QueryGate.Basic
import QueryGate.Config.Basic
import QueryGate.Config.Problem
import QueryGate.Encoding.Form
import QueryGate.Http.Message

/-! What is sent to the database for a query, and what becomes of its reply. -/

namespace QueryGate.Gateway

namespace Database

open Config (Database)

structure Request where
  url : String
  query : String
  userAgent : String
  credentials : Option (String × Option String)
  deriving DecidableEq, Repr

structure Reply where
  status : Nat
  contentType : Option Bytes := none
  body : Bytes := []
  deriving DecidableEq, Repr

def trimSlashes (addr : String) : String :=
  String.ofList (addr.toList.reverse.dropWhile (· = '/')).reverse

/-- The request for a query. The texts of the query and of the database name are sent as given. -/
def request (settings : Database) (q db : String) : Request where
  url := trimSlashes settings.addr ++ "/query"
  query := String.ofList (Encoding.Form.encode [("q", q), ("db", db), ("epoch", settings.epoch)])
  userAgent := settings.userAgent
  credentials := settings.username.map (·, settings.password)

def isHeaderValue (text : String) : Bool :=
  (utf8 text).all fun b => (0x20 ≤ b && b ≠ 0x7F) || b = 0x09

def client (settings : Database) : Except Config.Problem Database :=
  if isHeaderValue settings.userAgent then .ok settings
  else .error (.databaseClient "invalid user agent")

/-- A reply as the response to the caller. A reply that does not say what it is counts as JSON. -/
def Reply.response (reply : Reply) : Http.Response where
  status := if 100 ≤ reply.status ∧ reply.status < 1000 then reply.status else 502
  contentType := some ((reply.contentType >>= Http.printable?).getD "application/json")
  body := reply.body

end Database
end QueryGate.Gateway
