import QueryGate.Config.Validation
import QueryGate.Gateway.Handlers

/-! The state behind the effects. Installing an authenticator keeps the earlier ones, because logins
that loaded them may still be under way. -/

namespace QueryGate.Gateway

structure State where
  current : Login.Authenticator
  retired : List Login.Authenticator := []
  policy : Policy.Access
  deriving DecidableEq, Repr

namespace State

def handle (state : State) : Handle :=
  state.retired.length

def authenticator (state : State) (handle : Handle) : Login.Authenticator :=
  state.retired.getD handle state.current

def setAvailable (state : State) (handle : Handle) (available : Bool) : State :=
  if handle < state.retired.length then
    { state with retired := state.retired.modify handle (·.setAvailable available) }
  else { state with current := state.current.setAvailable available }

def install (state : State) (source : Directory.Source) : State :=
  { state with current := state.current.withSource source, retired := state.retired ++ [state.current] }

end State

structure Outside (σ : Type) where
  directory : Directory.Answerer σ
  now : σ → Int
  random : Nat → σ → Bytes × σ
  forward : Database.Request → σ → Except String Database.Reply × σ

def answer {σ : Type} (outside : Outside σ) :
    (effect : Effect) → State × σ → effect.Answer × (State × σ)
  | .loadAuthenticator, (state, world) => ((state.handle, state.current.source), (state, world))
  | .isAvailable handle, (state, world) => ((state.authenticator handle).available, (state, world))
  | .disable handle, (state, world) => ((), (state.setAvailable handle false, world))
  | .directory request, (state, world) =>
    let (given, world) := outside.directory request world
    (given, (state, world))
  | .loadPolicy, (state, world) => (state.policy, (state, world))
  | .now, (state, world) => (outside.now world, (state, world))
  | .random count, (state, world) =>
    let (bytes, world) := outside.random count world
    (bytes, (state, world))
  | .forward request, (state, world) =>
    let (reply, world) := outside.forward request world
    (reply, (state, world))
  | .installAuthenticator source, (state, world) => ((), (state.install source, world))
  | .installPolicy policy, (state, world) => ((), ({ state with policy }, world))

structure Running where
  fixed : Fixed
  state : State

def orProblem {α : Type} : Except Config.Problem α → Except Failure α
  | .ok a => .ok a
  | .error problem => .error (.fault problem.fault)

def start (files : Files.Tree) (config : Config) : Except Failure Running := do
  orProblem config.validate
  let signer ← Token.Signer.ofSettings files config.token
  let database ← orProblem (Database.client config.database)
  return {
    fixed := { signer, database }
    state := { current := { source := config.directory }, policy := .ofSettings config.policy } }

namespace Running

/-- Run some steps to their end with nothing else in between. -/
def run {σ α : Type} (outside : Outside σ) (steps : Steps α) (gateway : Running) (world : σ) :
    Program.Run Effect Effect.Answer (State × σ) α :=
  steps.run (answer outside) (gateway.state, world)

end Running
end QueryGate.Gateway
