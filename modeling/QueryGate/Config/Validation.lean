import QueryGate.Config.Basic
import QueryGate.Config.Problem
import QueryGate.Directory.Source

/-! Which settings are accepted. The first problem in the order of the checks is reported. -/

namespace QueryGate

def Config.demand (condition : Bool) (problem : Config.Problem) : Except Config.Problem Unit :=
  if condition then .ok () else .error problem

open Config (Problem demand)

namespace Directory.Source

def checkTemplate (key template : String) : Except Problem Unit :=
  demand (Template.holes template == 1) (.templateHoles key (Template.holes template))

def validate (source : Source) : Except Problem Unit := do
  demand (source.host ≠ "") .hostMissing
  demand (!(source.useTls && source.startTls)) .tlsConflict
  checkTemplate "directory.user_filter" source.userFilter
  if source.useDirectBind then checkTemplate "directory.user_dn" source.userDn
  else demand (source.userBase ≠ "") .userBaseMissing
  demand (source.adminFilter.all (Template.holes · ≤ 1)) .adminFilterHoles
  demand (source.timeoutSeconds ≠ 0) .timeoutZero

end Directory.Source

namespace Token.Settings

def validate (settings : Settings) : Except Problem Unit := do
  demand (0 < settings.ttlMinutes) .ttlNotPositive
  if settings.isHmac then
    demand (settings.secret.any (· ≠ "")) (.secretMissing settings.method)
  else
    demand (settings.privateKeyPath.isSome && settings.publicKeyPath.isSome)
      (.keyPathsMissing settings.method)

end Token.Settings

namespace Config

def validate (config : Config) : Except Problem Unit := do
  config.directory.validate
  config.token.validate

end Config
end QueryGate
