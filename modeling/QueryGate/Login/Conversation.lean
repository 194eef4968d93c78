import QueryGate.Basic
import QueryGate.Directory.Conversation

/-! The conversation of a login. A login name that could change the meaning of a filter or of a
distinguished name is turned away. Then the user is verified over one connection, and the groups are
looked up over a second one; a connection that was opened is always unbound. -/

namespace QueryGate.Login

open Directory (BindOutcome Entry Request Source)

def filterSpecials : List Char :=
  [Char.ofNat 0, '(', ')', '*', '\\']

def nameSpecials : List Char :=
  filterSpecials ++ [',', '=', '\'', '"', '#', '+', ';', '<', '>', ' ']

def hasAny (specials : List Char) (text : String) : Bool :=
  text.toList.any specials.contains

def userFilter (source : Source) (login : String) : Except Fault String :=
  if hasAny filterSpecials login then .error .inputRejected
  else .ok (Template.fill source.userFilter login)

def userDn (source : Source) (login : String) : Except Fault String :=
  if Template.holes source.userDn ≠ 1 then .error .inputRejected
  else if hasAny nameSpecials login then .error .inputRejected
  else .ok (Template.fill source.userDn login)

structure Screened where
  directDn : Option String
  filter : String
  deriving DecidableEq, Repr

/-- An empty password is turned away too, since a bind with it would be anonymous. -/
def screen (source : Source) (login password : String) (direct : Bool) :
    Except Fault Screened :=
  if login = "" ∨ password = "" then .error .inputRejected
  else do
    let directDn ← if direct then (userDn source login).map some else .ok none
    let filter ← userFilter source login
    return { directDn, filter }

abbrev Talk := Program Request Request.Answer

abbrev Attempt := ExceptT Fault Talk

def ask (request : Request) : Talk request.Answer :=
  Program.request request

def bindAs (dn password : String) : Attempt BindOutcome :=
  ExceptT.mk (ask (.bind dn password))

def search (base filter : String) (attributes : List String) : Attempt (List Entry) :=
  ExceptT.mk (ask (.search base filter attributes))

/-- A search whose failure in the directory, but not that of the connection, is another fault. -/
def searchOr (fault : Fault) (base filter : String) (attributes : List String) :
    Attempt (List Entry) :=
  tryCatch (search base filter attributes) fun
    | .directoryOperation _ => throw fault
    | other => throw other

def bindUser (dn password : String) : Attempt Unit := do
  match ← bindAs dn password with
  | .bound => return
  | .rejected _ => throw .credentialRejected

def bindService (source : Source) : Attempt Unit := do
  match source.serviceCredentials with
  | none => return
  | some (dn, password) =>
    match ← bindAs dn password with
    | .bound => return
    | .rejected code => throw (.serviceBindRejected code)

def onlyDn : List Entry → Except Fault String
  | [entry] => if entry.dn = "" then .error .identityNotFound else .ok entry.dn
  | _ => .error .identityNotFound

def findUser (source : Source) (filter : String) : Attempt String := do
  bindService source
  let entries ← searchOr .identityNotFound source.userBase filter []
  ExceptT.mk (pure (onlyDn entries))

def readEntry (source : Source) (dn filter : String) : Attempt Entry := do
  match ← searchOr .attributesUnavailable dn filter source.attributes.toList with
  | entry :: _ => return entry
  | [] => throw .attributesUnavailable

/-- Whether the user matches the administrator filter. A failing search does not make one. -/
def checkAdmin (source : Source) (dn login : String) : Talk Bool := do
  match source.adminFilter with
  | none => return false
  | some template =>
    if template = "" then return false
    match ← ask (.search dn (Template.fill template login) [source.attributes.name]) with
    | .ok entries => return !entries.isEmpty
    | .error _ => return false

/-- The identity of an entry, without groups. The login name stands in for a missing user name. -/
def identityOf (source : Source) (login : String) (entry : Entry) (isAdmin : Bool) : Identity :=
  let username := entry.firstValue source.attributes.username
  { username := if username = "" then login else username
    name := entry.firstValue source.attributes.name
    surname := entry.firstValue source.attributes.surname
    mail := entry.firstValue source.attributes.mail
    isAdmin := isAdmin }

/--
Find the user, bind as the user and read the attributes. When attributes are read in the service
bind, binding as the user comes last; a direct bind always comes first.
-/
def verify (source : Source) (login password : String) (input : Screened) : Attempt Identity := do
  let dn ←
    match input.directDn with
    | some dn => pure dn
    | none => findUser source input.filter
  let bindFirst := input.directDn.isSome || !source.attributesInBind
  if bindFirst then bindUser dn password
  let entry ← readEntry source dn input.filter
  let isAdmin ← (checkAdmin source dn login : Talk Bool)
  unless bindFirst do bindUser dn password
  return identityOf source login entry isAdmin

def connected {α : Type} (source : Source) (part : Attempt α) : Attempt α :=
  ExceptT.mk do
    match ← ask (.connect source) with
    | .error fault => return .error fault
    | .ok () =>
      let result ← part.run
      let () ← ask .unbind
      return result

def searchGroups (source : Source) (filter : String) : Attempt (List String) := do
  bindService source
  let entries ← search source.userBase filter [source.groupAttribute]
  return (entries.head?.map (·.values source.groupAttribute)).getD []

/-- The groups of the first entry that matches. Nothing that goes wrong here fails the login. -/
def lookUpGroups (source : Source) (filter : String) : Talk (List String) := do
  if source.userBase = "" then return []
  match ← (connected source (searchGroups source filter)).run with
  | .ok groups => return groups
  | .error _ => return []

def converse (source : Source) (login password : String) (input : Screened) : Attempt Identity := do
  let identity ← connected source (verify source login password input)
  let groups ← (lookUpGroups source input.filter : Talk (List String))
  return { identity with groups }

end QueryGate.Login
