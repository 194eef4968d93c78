import QueryGate.Config.Basic
import QueryGate.Config.Problem
import QueryGate.Toml.Document

/-! Configuration documents in TOML. Settings that are not known are skipped, but have to be
readable. -/

namespace QueryGate.Config

open Toml (Value)

abbrev Decoder (α : Type) := Value → Except String α

mutual

/-- Whether a value can be skipped: none of its numbers is out of every range. -/
def isSkippable : Value → Bool
  | .integer n => -(Nat.pow 2 127 : Int) ≤ n && n < Nat.pow 2 128
  | .real x => !x.overflows
  | .array _ items => areSkippable items
  | .table _ entries => areSkippableEntries entries
  | .string _ | .boolean _ | .dateTime _ => true

def areSkippable : List Value → Bool
  | [] => true
  | item :: rest => isSkippable item && areSkippable rest

def areSkippableEntries : List (String × Value) → Bool
  | [] => true
  | (_, value) :: rest => isSkippable value && areSkippableEntries rest

end

/--
The settings of a section by name. The names are those of all settings, in order. A point in time
counts as a section that has none of them.
-/
def settings (names : List String) : Decoder (List (String × Value))
  | .table _ entries =>
    let (known, unknown) := entries.partition fun (name, _) => names.contains name
    if areSkippableEntries unknown then .ok known else .error "a number is out of range"
  | .array _ items => .ok (names.zip items)
  | .dateTime _ => .ok []
  | _ => .error "expected a table"

namespace Decoder

def string : Decoder String
  | .string text => .ok text
  | _ => .error "expected a string"

def boolean : Decoder Bool
  | .boolean b => .ok b
  | _ => .error "expected a boolean"

def integer (low limit : Int) : Decoder Int
  | .integer n => if low ≤ n ∧ n < limit then .ok n else .error "the integer is out of range"
  | _ => .error "expected an integer"

def natural (bits : Nat) : Decoder Nat := fun value =>
  (integer 0 (Nat.pow 2 bits) value).map Int.toNat

def list {α : Type} (item : Decoder α) : Decoder (List α)
  | .array _ items => items.mapM item
  | _ => .error "expected an array"

def optional {α : Type} (decoder : Decoder α) : Decoder (Option α) := fun value =>
  (decoder value).map some

end Decoder

def setting {α : Type} (given : List (String × Value)) (name : String) (decoder : Decoder α)
    (default : α) : Except String α :=
  match given.lookup name with
  | some value => decoder value
  | none => .ok default

def required {α : Type} (given : List (String × Value)) (name : String) (decoder : Decoder α) :
    Except String α :=
  match given.lookup name with
  | some value => decoder value
  | none => .error ("missing field " ++ name)

open Decoder

/-- All settings of the server have to be given together. -/
def decodeServer : Decoder Server := fun value => do
  let given ← settings ["bind_address", "port", "request_timeout_secs"] value
  return {
    bindAddress := ← required given "bind_address" string
    port := ← required given "port" (natural 16)
    requestTimeoutSecs := ← required given "request_timeout_secs" (natural 64) }

def decodeAttributes : Decoder Directory.AttributeNames := fun value => do
  let given ← settings ["username", "name", "surname", "mail"] value
  let d : Directory.AttributeNames := {}
  return {
    username := ← setting given "username" string d.username
    name := ← setting given "name" string d.name
    surname := ← setting given "surname" string d.surname
    mail := ← setting given "mail" string d.mail }

def decodeDirectory : Decoder Directory.Source := fun value => do
  let given ← settings
    ["name", "host", "port", "use_tls", "start_tls", "skip_tls_verify", "bind_dn",
      "bind_password", "user_base", "user_dn", "user_filter", "admin_filter", "group_attribute",
      "attribute_mappings", "attributes_in_bind", "use_direct_bind", "timeout_seconds"] value
  let d : Directory.Source := {}
  return {
    name := ← setting given "name" string d.name
    host := ← setting given "host" string d.host
    port := ← setting given "port" (natural 16) d.port
    useTls := ← setting given "use_tls" boolean d.useTls
    startTls := ← setting given "start_tls" boolean d.startTls
    skipTlsVerify := ← setting given "skip_tls_verify" boolean d.skipTlsVerify
    bindDn := ← setting given "bind_dn" (optional string) d.bindDn
    bindPassword := ← setting given "bind_password" (optional string) d.bindPassword
    userBase := ← setting given "user_base" string d.userBase
    userDn := ← setting given "user_dn" string d.userDn
    userFilter := ← setting given "user_filter" string d.userFilter
    adminFilter := ← setting given "admin_filter" (optional string) d.adminFilter
    groupAttribute := ← setting given "group_attribute" string d.groupAttribute
    attributes := ← setting given "attribute_mappings" decodeAttributes d.attributes
    attributesInBind := ← setting given "attributes_in_bind" boolean d.attributesInBind
    useDirectBind := ← setting given "use_direct_bind" boolean d.useDirectBind
    timeoutSeconds := ← setting given "timeout_seconds" (natural 64) d.timeoutSeconds }

def decodeToken : Decoder Token.Settings := fun value => do
  let given ← settings
    ["method", "private_key_path", "public_key_path", "secret", "ttl_minutes"] value
  let d : Token.Settings := {}
  return {
    method := ← setting given "method" string d.method
    privateKeyPath := ← setting given "private_key_path" (optional string) d.privateKeyPath
    publicKeyPath := ← setting given "public_key_path" (optional string) d.publicKeyPath
    secret := ← setting given "secret" (optional string) d.secret
    ttlMinutes := ← setting given "ttl_minutes" (integer (-(Nat.pow 2 63 : Int)) (Nat.pow 2 63)) d.ttlMinutes }

def decodeGroup : Decoder Policy.GroupSettings := fun value => do
  let given ← settings ["dn", "cn", "ou", "dc", "denied_queries"] value
  let d : Policy.GroupSettings := {}
  return {
    dn := ← setting given "dn" (optional string) d.dn
    cn := ← setting given "cn" string d.cn
    ou := ← setting given "ou" string d.ou
    dc := ← setting given "dc" string d.dc
    deniedQueries := ← setting given "denied_queries" (list string) d.deniedQueries }

def decodePolicy : Decoder Policy.Settings := fun value => do
  let given ← settings ["denied_queries", "admin_group", "groups"] value
  let d : Policy.Settings := {}
  return {
    deniedQueries := ← setting given "denied_queries" (list string) d.deniedQueries
    adminGroup := ← setting given "admin_group" (optional string) d.adminGroup
    groups := ← setting given "groups" (list decodeGroup) d.groups }

def decodeDatabase : Decoder Database := fun value => do
  let given ← settings
    ["addr", "username", "password", "user_agent", "timeout_secs", "epoch"] value
  let d : Database := {}
  return {
    addr := ← setting given "addr" string d.addr
    username := ← setting given "username" (optional string) d.username
    password := ← setting given "password" (optional string) d.password
    userAgent := ← setting given "user_agent" string d.userAgent
    timeoutSecs := ← setting given "timeout_secs" (natural 64) d.timeoutSecs
    epoch := ← setting given "epoch" string d.epoch }

def decodeLogging : Decoder Logging := fun value => do
  let given ← settings ["level", "format"] value
  return {
    level := ← required given "level" string
    format := ← required given "format" string }

def decode : Decoder Config := fun value => do
  let given ← settings ["server", "directory", "token", "policy", "influxdb", "logging"] value
  let d : Config := {}
  return {
    server := ← setting given "server" decodeServer d.server
    directory := ← setting given "directory" decodeDirectory d.directory
    token := ← setting given "token" decodeToken d.token
    policy := ← setting given "policy" decodePolicy d.policy
    database := ← setting given "influxdb" decodeDatabase d.database
    logging := ← setting given "logging" decodeLogging d.logging }

def ofToml (text : String) : Except Problem Config :=
  match Toml.parse text >>= fun entries => decode (.table .header entries) with
  | .ok config => .ok config
  | .error reason => .error (.malformed reason)

end QueryGate.Config
