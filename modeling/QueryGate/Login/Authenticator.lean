import QueryGate.Login.Conversation

/-! Authenticators. A login that finds the directory out of reach disables the source, and a
disabled source is not asked again. -/

namespace QueryGate.Login

open Directory (Answerer Source)

inductive Effect where
  | isAvailable
  | disable
  | directory (request : Directory.Request)
  deriving DecidableEq, Repr

abbrev Effect.Answer : Effect → Type
  | .isAvailable => Bool
  | .disable => Unit
  | .directory request => request.Answer

abbrev Steps := Program Effect Effect.Answer

namespace Steps

def isAvailable : Steps Bool :=
  Program.request Effect.isAvailable

def disable : Steps Unit :=
  Program.request Effect.disable

def ofTalk {α : Type} (talk : Talk α) : Steps α :=
  talk.via fun request => Program.request (Effect.directory request)

end Steps

/-- Log in without looking at the flag again afterwards. -/
def attempt (source : Source) (login password : String) (direct : Bool) :
    Steps (Except Fault Identity) := do
  if ← Steps.isAvailable then
    match screen source login password direct with
    | .error fault => return .error fault
    | .ok input => Steps.ofTalk (converse source login password input).run
  else return .error (.directoryUnavailable ("source '" ++ source.name ++ "' is disabled"))

def authenticate (source : Source) (login password : String) (direct : Bool) :
    Steps (Except Fault Identity) := do
  let result ← attempt source login password direct
  match result with
  | .error (.directoryUnavailable _) =>
    if ← Steps.isAvailable then Steps.disable
    return result
  | _ => return result

def login (source : Source) (name password : String) : Steps (Except Fault Identity) :=
  authenticate source name password source.useDirectBind

structure Authenticator where
  source : Source
  available : Bool := true
  deriving DecidableEq, Repr

namespace Authenticator

def setAvailable (authenticator : Authenticator) (available : Bool) : Authenticator :=
  { authenticator with available }

def withSource (_ : Authenticator) (source : Source) : Authenticator :=
  { source }

def answer {σ : Type} (directory : Answerer σ) :
    (effect : Effect) → Authenticator × σ → effect.Answer × (Authenticator × σ)
  | .isAvailable, (authenticator, state) => (authenticator.available, (authenticator, state))
  | .disable, (authenticator, state) => ((), (authenticator.setAvailable false, state))
  | .directory request, (authenticator, state) =>
    let (given, state) := directory request state
    (given, (authenticator, state))

structure Outcome (σ : Type) where
  result : Except Fault Identity
  authenticator : Authenticator
  directory : σ
  exchanges : List (Program.Exchange Directory.Request Directory.Request.Answer)

def directoryExchanges :
    List (Program.Exchange Effect Effect.Answer) →
      List (Program.Exchange Directory.Request Directory.Request.Answer)
  | [] => []
  | ⟨.directory request, given⟩ :: rest => ⟨request, given⟩ :: directoryExchanges rest
  | _ :: rest => directoryExchanges rest

def run {σ : Type} (directory : Answerer σ) (steps : Steps (Except Fault Identity))
    (authenticator : Authenticator) (state : σ) : Outcome σ :=
  let run := steps.run (answer directory) (authenticator, state)
  { result := run.result
    authenticator := run.state.1
    directory := run.state.2
    exchanges := directoryExchanges run.exchanges }

def authenticate {σ : Type} (directory : Answerer σ) (login password : String) (direct : Bool)
    (authenticator : Authenticator) (state : σ) : Outcome σ :=
  run directory (Login.authenticate authenticator.source login password direct) authenticator state

def login {σ : Type} (directory : Answerer σ) (name password : String)
    (authenticator : Authenticator) (state : σ) : Outcome σ :=
  run directory (Login.login authenticator.source name password) authenticator state

end Authenticator
end QueryGate.Login
