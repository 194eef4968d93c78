import QueryGate.Config.Document
import QueryGate.Files.Tree

/-! Configurations from environment variables. One that is not UTF-8 counts as not set. -/

namespace QueryGate

/-- Environment variables. Of several with one name the first one counts. -/
abbrev Environment := List (String × Bytes)

namespace Environment

def ofBlock (block : Bytes) : Environment :=
  let rec entries (entry : Bytes) : Bytes → List Bytes
    | [] => []
    | b :: rest => if b = 0 then entry.reverse :: entries [] rest else entries (b :: entry) rest
  (entries [] block).filterMap fun entry =>
    match entry.span (· ≠ 0x3D) with
    | (name, _ :: value) => (ofUtf8? name).map (·, value)
    | _ => none

def text? (env : Environment) (name : String) : Option String :=
  env.lookup name >>= ofUtf8?

end Environment

namespace Config

def port? (text : String) : Option Nat :=
  let digits := match text.toList with
    | '+' :: rest => rest
    | cs => cs
  if digits.isEmpty || !digits.all Char.isDigit then none
  else
    let n := digits.foldl (fun n c => n * 10 + (c.toNat - '0'.toNat)) 0
    if n < Nat.pow 2 16 then some n else none

def ofEnvironment (env : Environment) : Config :=
  let d : Config := {}
  let text (name default : String) : String := (env.text? name).getD default
  let port (name : String) (default : Nat) : Nat := (env.text? name >>= port?).getD default
  { d with
    server := { d.server with
      bindAddress := text "TSGATE_BIND_ADDRESS" d.server.bindAddress
      port := port "TSGATE_PORT" d.server.port }
    logging := { d.logging with level := text "TSGATE_LOG_LEVEL" d.logging.level }
    directory := { d.directory with
      host := text "TSGATE_LDAP_HOST" d.directory.host
      port := port "TSGATE_LDAP_PORT" d.directory.port
      bindDn := env.text? "TSGATE_LDAP_BIND_DN"
      bindPassword := env.text? "TSGATE_LDAP_BIND_PASSWORD"
      userBase := text "TSGATE_LDAP_USER_BASE" d.directory.userBase
      userFilter := text "TSGATE_LDAP_USER_FILTER" d.directory.userFilter }
    token := { d.token with
      method := text "TSGATE_TOKEN_METHOD" d.token.method
      secret := env.text? "TSGATE_TOKEN_SECRET"
      privateKeyPath := env.text? "TSGATE_TOKEN_PRIVATE_KEY"
      publicKeyPath := env.text? "TSGATE_TOKEN_PUBLIC_KEY" }
    database := { d.database with
      addr := text "TSGATE_INFLUXDB_ADDR" d.database.addr
      username := env.text? "TSGATE_INFLUXDB_USERNAME"
      password := env.text? "TSGATE_INFLUXDB_PASSWORD" } }

def ofFile (files : Files.Tree) (path : String) : Except Problem Config :=
  match files.read path with
  | .error failure => .error (.unreadable failure.message)
  | .ok content =>
    match ofUtf8? content with
    | none => .error (.unreadable "stream did not contain valid UTF-8")
    | some text => ofToml text

end Config
end QueryGate
