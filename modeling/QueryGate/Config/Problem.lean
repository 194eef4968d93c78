import QueryGate.Basic

/-! What can be wrong with a configuration. -/

namespace QueryGate.Config

inductive Problem where
  | unreadable (reason : String)
  | malformed (reason : String)
  | hostMissing
  | tlsConflict
  | templateHoles (key : String) (found : Nat)
  | userBaseMissing
  | adminFilterHoles
  | timeoutZero
  | ttlNotPositive
  | secretMissing (method : String)
  | keyPathsMissing (method : String)
  | keyUnreadable (role path reason : String)
  | unknownMethod (method : String)
  | lifetimeNotPositive
  | badKeyMaterial (algorithm reason : String)
  | databaseClient (reason : String)
  deriving DecidableEq, Repr

namespace Problem

def message : Problem → String
  | unreadable reason => "Failed to read config: " ++ reason
  | malformed reason => "Failed to parse config: " ++ reason
  | hostMissing => "directory.host is required"
  | tlsConflict => "directory.use_tls and directory.start_tls are mutually exclusive"
  | templateHoles key found =>
    key ++ " must contain exactly one %s (found " ++ toString found ++ ")"
  | userBaseMissing => "directory.user_base is required for search-then-bind"
  | adminFilterHoles => "directory.admin_filter may contain at most one %s"
  | timeoutZero => "directory.timeout_seconds must be positive"
  | ttlNotPositive => "token.ttl_minutes must be positive"
  | secretMissing method => "token.secret is required for " ++ method
  | keyPathsMissing method =>
    "token.private_key_path and token.public_key_path are required for " ++ method
  | keyUnreadable role path reason =>
    "Unable to read " ++ role ++ " key " ++ path ++ ": " ++ reason
  | unknownMethod method => "unknown token signing method '" ++ method ++ "'"
  | lifetimeNotPositive => "token TTL must be positive"
  | badKeyMaterial algorithm reason => "invalid " ++ algorithm ++ " key material: " ++ reason
  | databaseClient reason => "Unable to build InfluxDB client: " ++ reason

def fault (problem : Problem) : Fault :=
  .config problem.message

end Problem
end QueryGate.Config
