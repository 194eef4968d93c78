import QueryGate.Basic
import QueryGate.Gateway.Effect
import QueryGate.Http.Message
import QueryGate.Json.Writer
import QueryGate.Policy.Access
import QueryGate.Text.Characters
import QueryGate.Token.Signer

/-! What the gateway does for each kind of request. -/

namespace QueryGate.Fault

def response (fault : Fault) : Http.Response where
  status := fault.status
  contentType := some "application/json"
  body := Text.Utf8.encode <| Json.objectText
    [("error", .string fault.code), ("message", .string fault.callerMessage)]

end QueryGate.Fault

namespace QueryGate.Gateway

structure Fixed where
  signer : Token.Signer
  database : Config.Database

abbrev Handler := ExceptT Failure Steps

namespace Handler

def ofSteps {α : Type} (steps : Steps α) : Handler α :=
  ExceptT.lift steps

def perform (effect : Effect) : Handler effect.Answer :=
  ofSteps (ask effect)

def ofOutcome {α : Type} (outcome : Except Failure α) : Handler α :=
  ExceptT.mk (pure outcome)

def fail {α : Type} (fault : Fault) : Handler α :=
  throw (.fault fault)

def ofResult {α : Type} : Except Fault α → Handler α
  | .ok a => pure a
  | .error fault => fail fault

end Handler

open Handler

/-! ## Logging in -/

/-- The first value of each known field, or the name of the first field that is there again. -/
def knownFields (names : List String) (pairs : List (String × String)) :
    Except String (List (String × String)) :=
  pairs.foldlM (fun given (name, value) =>
    if !names.contains name then .ok given
    else if (given.lookup name).isSome then .error name
    else .ok (given ++ [(name, value)])) []

def duplicateField (status : Nat) (place name : String) : Http.Response :=
  .text status ("Failed to deserialize " ++ place ++ ": duplicate field `" ++ name ++ "`")

/-- The media type of forms. A header value has to begin with it, letter by letter. -/
def formType : String := "application/x-www-form-urlencoded"

def isForm (request : Http.Request) : Bool :=
  match request.header? "content-type" >>= Http.printable? with
  | some value => formType.toList.isPrefixOf value.toList
  | none => false

def maxBodySize : Nat := 2 * 1024 * 1024

def loginForm (request : Http.Request) : Except Http.Response (String × String) :=
  if !isForm request then
    .error (.text 415 ("Form requests must have `Content-Type: " ++ formType ++ "`"))
  else if maxBodySize < request.body.length then
    .error (.text 413 "Failed to buffer the request body: length limit exceeded")
  else
    match knownFields ["uid", "p"] (Encoding.Form.decode request.body) with
    | .error name => .error (duplicateField 422 "form body" name)
    | .ok given => .ok ((given.lookup "uid").getD "", (given.lookup "p").getD "")

def logIn (fixed : Fixed) (name password : String) : Handler Http.Response := do
  let (handle, source) ← perform .loadAuthenticator
  let result ← ofSteps (ofLogin handle (Login.login source name password))
  let identity ← ofResult result
  let now ← perform .now
  let salt ← perform (.random fixed.signer.algorithm.saltSize)
  let token ← ofOutcome (fixed.signer.issue salt now identity)
  return .text 200 token

/-! ## Queries -/

/-- The token in a request: in a header of its own, or as a bearer token. -/
def accessToken? (request : Http.Request) : Option String :=
  let own := (request.header? "AccessToken" >>= Http.printable?).filter (· ≠ "")
  own.or <| do
    let value ← request.header? "Authorization" >>= Http.printable?
    let mark := "Bearer ".toList
    guard (mark.isPrefixOf value.toList)
    let token := Text.trimBlank (value.toList.drop mark.length)
    guard (!token.isEmpty)
    return String.ofList token

def nonEmpty? (given : List (String × String)) (name : String) : Option String :=
  (given.lookup name).filter (· ≠ "")

def runQuery (fixed : Fixed) (request : Http.Request) (given : List (String × String)) :
    Handler Http.Response := do
  match nonEmpty? given "q", nonEmpty? given "db" with
  | some q, some db =>
    match accessToken? request with
    | none => fail (.invalidRequest "missing access token")
    | some token =>
      let now ← perform .now
      let identity ← ofResult (fixed.signer.verify now token)
      let policy ← perform .loadPolicy
      ofResult (policy.authorize identity q)
      match ← perform (.forward (Database.request fixed.database q db)) with
      | .ok reply => return reply.response
      | .error reason => fail (.database reason)
  | _, _ => fail (.invalidRequest "query must contain a query string and a database")

/-- The response of a handler. A crash leaves the request without one. -/
def respond (handler : Handler Http.Response) : Steps (Option Http.Response) := do
  match ← handler.run with
  | .ok response => return some response
  | .error (.fault fault) => return some fault.response
  | .error .crash => return none

inductive Route where
  | health
  | auth
  | query
  deriving DecidableEq, Repr

namespace Route

def ofPath? (path : String) : Option Route :=
  if path = "/health" then some .health
  else if path = "/auth" then some .auth
  else if path = "/query" then some .query
  else none

def methods : Route → List String
  | health | query => ["GET", "HEAD"]
  | auth => ["POST"]

end Route

def serveRoute (fixed : Fixed) (request : Http.Request) : Route → Steps (Option Http.Response)
  | .health => pure (some (.text 200 "ok"))
  | .auth =>
    match loginForm request with
    | .error response => pure (some response)
    | .ok (name, password) => respond (logIn fixed name password)
  | .query =>
    match knownFields ["q", "db"] request.query with
    | .error name => pure (some (duplicateField 400 "query string" name))
    | .ok given => respond (runQuery fixed request given)

def withoutBody (response : Http.Response) : Http.Response :=
  { response with body := [] }

def serve (fixed : Fixed) (request : Http.Request) : Steps (Option Http.Response) :=
  match Route.ofPath? request.path with
  | none => pure (some { status := 404 })
  | some route =>
    if request.method ∈ route.methods then do
      let response ← serveRoute fixed request route
      return if request.method = "HEAD" then response.map withoutBody else response
    else pure (some { status := 405, allow := some (",".intercalate route.methods) })

def reload (config : Config) : Steps (Except Fault Unit) :=
  match config.validate with
  | .error problem => pure (.error problem.fault)
  | .ok () => do
    let () ← ask (.installAuthenticator config.directory)
    let () ← ask (.installPolicy (Policy.Access.ofSettings config.policy))
    return .ok ()

end QueryGate.Gateway
