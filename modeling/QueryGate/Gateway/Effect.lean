import QueryGate.Gateway.Database
import QueryGate.Login.Authenticator
import QueryGate.Policy.Access
import QueryGate.Program

/-! The effects of requests and reloads. Each of them touches what is shared once, so that steps of
several may come in any order. -/

namespace QueryGate.Gateway

abbrev Handle := Nat

inductive Effect where
  | loadAuthenticator
  | isAvailable (handle : Handle)
  | disable (handle : Handle)
  | directory (request : Directory.Request)
  | loadPolicy
  /-- In seconds since 1970. -/
  | now
  | random (count : Nat)
  | forward (request : Database.Request)
  | installAuthenticator (source : Directory.Source)
  | installPolicy (policy : Policy.Access)

abbrev Effect.Answer : Effect → Type
  | .loadAuthenticator => Handle × Directory.Source
  | .isAvailable _ => Bool
  | .disable _ => Unit
  | .directory request => request.Answer
  | .loadPolicy => Policy.Access
  | .now => Int
  | .random _ => Bytes
  | .forward _ => Except String Database.Reply
  | .installAuthenticator _ => Unit
  | .installPolicy _ => Unit

abbrev Steps := Program Effect Effect.Answer

def ask (effect : Effect) : Steps effect.Answer :=
  Program.request effect

def ofLogin {α : Type} (handle : Handle) (steps : Login.Steps α) : Steps α :=
  steps.via fun
    | .isAvailable => Program.request (Effect.isAvailable handle)
    | .disable => Program.request (Effect.disable handle)
    | .directory request => Program.request (Effect.directory request)

end QueryGate.Gateway
