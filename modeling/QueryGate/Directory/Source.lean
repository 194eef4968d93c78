/-! Directory sources, and the templates by which a login name becomes a filter or a name. -/

namespace QueryGate.Template

def holesIn : List Char → Nat
  | '%' :: 's' :: rest => holesIn rest + 1
  | _ :: rest => holesIn rest
  | [] => 0

def fillIn (value : List Char) : List Char → List Char
  | '%' :: 's' :: rest => value ++ fillIn value rest
  | c :: rest => c :: fillIn value rest
  | [] => []

def holes (template : String) : Nat :=
  holesIn template.toList

def fill (template value : String) : String :=
  String.ofList (fillIn value.toList template.toList)

end QueryGate.Template

namespace QueryGate.Directory

structure AttributeNames where
  username : String := "uid"
  name : String := "givenName"
  surname : String := "sn"
  mail : String := "mail"
  deriving DecidableEq, Repr

namespace AttributeNames

def toList (names : AttributeNames) : List String :=
  [names.username, names.name, names.surname, names.mail]

end AttributeNames

structure Source where
  name : String := "ldap"
  host : String := "localhost"
  port : Nat := 389
  useTls : Bool := false
  startTls : Bool := false
  skipTlsVerify : Bool := false
  /-- The service identity. Searches are anonymous without it. -/
  bindDn : Option String := none
  bindPassword : Option String := none
  userBase : String := ""
  userDn : String := ""
  userFilter : String := "(uid=%s)"
  /-- A filter that only administrators match, searched under the user's own name. -/
  adminFilter : Option String := none
  groupAttribute : String := "memberOf"
  attributes : AttributeNames := {}
  attributesInBind : Bool := false
  useDirectBind : Bool := false
  timeoutSeconds : Nat := 10
  deriving DecidableEq, Repr

namespace Source

def serviceCredentials (source : Source) : Option (String × String) :=
  match source.bindDn, source.bindPassword with
  | some dn, some password => if dn = "" ∨ password = "" then none else some (dn, password)
  | _, _ => none

def url (source : Source) : String :=
  (if source.useTls then "ldaps" else "ldap") ++ "://" ++ source.host ++ ":" ++ toString source.port

theorem serviceCredentials_eq_some_iff {source : Source} {dn password : String} :
    source.serviceCredentials = some (dn, password) ↔
      source.bindDn = some dn ∧ source.bindPassword = some password ∧ dn ≠ "" ∧ password ≠ "" := by
  unfold serviceCredentials
  split <;> grind

end Source
end QueryGate.Directory
