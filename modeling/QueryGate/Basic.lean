/-! Identities, and the faults of what did not succeed. -/

namespace QueryGate

structure Identity where
  username : String := ""
  name : String := ""
  surname : String := ""
  mail : String := ""
  isAdmin : Bool := false
  groups : List String := []
  deriving DecidableEq, Repr

namespace Identity

def inGroup (identity : Identity) (group : String) : Bool :=
  identity.groups.contains group

end Identity

inductive Fault where
  | inputRejected
  | directoryUnavailable (reason : String)
  | serviceBindRejected (code : Nat)
  | identityNotFound
  | credentialRejected
  | attributesUnavailable
  | directoryOperation (reason : String)
  | invalidCredential (reason : String)
  | policyDenied (reason : String)
  | config (reason : String)
  | invalidRequest (reason : String)
  | database (reason : String)
  | internal (reason : String)
  | io (reason : String)
  | other (reason : String)
  deriving DecidableEq, Repr, Inhabited

namespace Fault

def message : Fault → String
  | inputRejected => "Login name contains characters that are not allowed"
  | directoryUnavailable reason => "Directory unavailable: " ++ reason
  | serviceBindRejected code => "Service account bind rejected with code " ++ toString code
  | identityNotFound => "No unique directory entry matches the login name"
  | credentialRejected => "Directory rejected the user credentials"
  | attributesUnavailable => "User attributes could not be read from the directory"
  | directoryOperation reason => "Directory operation failed: " ++ reason
  | invalidCredential reason => "Invalid credential: " ++ reason
  | policyDenied reason => "Query denied by policy: " ++ reason
  | config reason => "Configuration error: " ++ reason
  | invalidRequest reason => "Invalid request: " ++ reason
  | database reason => "Upstream database error: " ++ reason
  | internal reason => "Internal error: " ++ reason
  | io reason => reason
  | other reason => reason

/-- Failures to authenticate, which callers cannot tell apart. -/
def isAuthentication : Fault → Bool
  | inputRejected | directoryUnavailable _ | serviceBindRejected _ | identityNotFound
  | credentialRejected | attributesUnavailable | directoryOperation _ | invalidCredential _ => true
  | policyDenied _ | config _ | invalidRequest _ | database _ | internal _ | io _ | other _ => false

def code (fault : Fault) : String :=
  if fault.isAuthentication then "AuthenticationFailed"
  else
    match fault with
    | policyDenied _ => "QueryProhibited"
    | invalidRequest _ => "InvalidRequest"
    | database _ => "UpstreamError"
    | _ => "InternalError"

def status (fault : Fault) : Nat :=
  if fault.isAuthentication then 401
  else
    match fault with
    | policyDenied _ => 403
    | invalidRequest _ => 400
    | database _ => 502
    | _ => 500

def callerMessage (fault : Fault) : String :=
  if fault.isAuthentication then "authentication failed"
  else
    match fault with
    | policyDenied _ => "This query is prohibited"
    | invalidRequest reason => reason
    | database _ => "upstream database unavailable"
    | _ => "internal error"

end Fault

inductive Failure where
  | fault (fault : Fault)
  | crash
  deriving DecidableEq, Repr

end QueryGate
