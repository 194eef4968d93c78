import QueryGate.Directory.Source
import QueryGate.Policy.Access

/-! The settings of a gateway and their defaults. -/

namespace QueryGate.Token

structure Settings where
  method : String := "RS256"
  privateKeyPath : Option String := none
  publicKeyPath : Option String := none
  secret : Option String := none
  ttlMinutes : Int := 60
  deriving DecidableEq, Repr

namespace Settings

/-- Methods whose name starts with "HS", in any letter case, sign with a shared secret. -/
def isHmac (settings : Settings) : Bool :=
  ['H', 'S'].isPrefixOf (settings.method.toList.map Char.toUpper)

end Settings
end QueryGate.Token

namespace QueryGate

def version : String := "0.1.0"

namespace Config

structure Server where
  bindAddress : String := "0.0.0.0"
  port : Nat := 8087
  requestTimeoutSecs : Nat := 60
  deriving DecidableEq, Repr

structure Database where
  addr : String := "http://localhost:8086"
  username : Option String := none
  password : Option String := none
  userAgent : String := "tsgate/" ++ version
  timeoutSecs : Nat := 30
  epoch : String := "ns"
  deriving DecidableEq, Repr

structure Logging where
  level : String := "info"
  format : String := "pretty"
  deriving DecidableEq, Repr

end Config

structure Config where
  server : Config.Server := {}
  directory : Directory.Source := {}
  token : Token.Settings := {}
  policy : Policy.Settings := {}
  database : Config.Database := {}
  logging : Config.Logging := {}
  deriving DecidableEq, Repr

end QueryGate
