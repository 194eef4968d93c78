import QueryGate.CommandLine.EnvFile
import QueryGate.CommandLine.Help
import QueryGate.Gateway.State

/-! What a command line prints, and the code it ends with. -/

namespace QueryGate.CommandLine

structure Surroundings where
  environment : Environment := []
  files : Files.Tree := []
  /-- What the system says when the gateway is to listen at an address that is not its own. -/
  listenFailure : String := "Cannot assign requested address (os error 99)"

def environmentFile : String := ".env"

def Surroundings.completed (here : Surroundings) : Environment :=
  match here.files.read environmentFile with
  | .ok content => EnvFile.load content here.environment
  | .error _ => here.environment

structure Outcome where
  code : Nat := 0
  output : String := ""
  errors : String := ""
  deriving DecidableEq, Repr

namespace Outcome

def ofFailure : Failure → Outcome
  | .fault fault => { code := 1, errors := "Error: " ++ fault.message ++ "\n" }
  | .crash => { code := 101 }

def after (printed : String) (outcome : Outcome) : Outcome :=
  { outcome with output := printed ++ outcome.output }

end Outcome

def banner : String :=
  "\n    _                    _\n"
    ++ "   | |_ ___  __ _  __ _ | |_ ___\n"
    ++ "   | __/ __|/ _` |/ _` || __/ _ \\\n"
    ++ "   | |_\\__ \\ (_| | (_| || ||  __/\n"
    ++ "    \\__|___/\\__, |\\__,_| \\__\\___|\n"
    ++ "            |___/\n\n"
    ++ "   " ++ summary ++ "\n"
    ++ "   Version: " ++ version ++ "\n\n"

def load (files : Files.Tree) (env : Environment) : Option String → Except Config.Problem Config
  | some path => Config.ofFile files path
  | none => .ok (Config.ofEnvironment env)

def Invocation.override (invocation : Invocation) (config : Config) : Config :=
  { config with
    server := { config.server with
      bindAddress := invocation.bind.getD config.server.bindAddress
      port := invocation.port.getD config.server.port }
    logging := { config.logging with level := invocation.logLevel.getD config.logging.level } }

def Invocation.configuration (invocation : Invocation) (files : Files.Tree) (env : Environment) :
    Except Config.Problem Config :=
  (load files env invocation.config).map invocation.override

def report (config : Config) : String :=
  "Configuration OK\n"
    ++ "  Directory: " ++ config.directory.url ++ "\n"
    ++ "  Token method: " ++ config.token.method ++ "\n"
    ++ "  Policy: " ++ toString config.policy.deniedQueries.length ++ " global denylist entries, "
    ++ toString config.policy.groups.length ++ " groups\n"
    ++ config.policy.adminGroup.elim "" fun group => "  Admin group: " ++ group ++ "\n"

/-- Check that a configuration is accepted and that a token can be signed with its keys. -/
def check (files : Files.Tree) (config : Config) : Except Failure Unit := do
  Gateway.orProblem config.validate
  let _ ← Token.Signer.ofSettings files config.token

def checkConfig (files : Files.Tree) (config : Config) : Outcome :=
  match check files config with
  | .error failure => .ofFailure failure
  | .ok () => { output := report config }

/-- Start the gateway. A run that listens has no outcome, so only the failures are told here. -/
def serve (here : Surroundings) (config : Config) : Outcome :=
  match Gateway.start here.files config with
  | .error failure => .ofFailure failure
  | .ok _ => .ofFailure (.fault (.io here.listenFailure))

def Invocation.run (invocation : Invocation) (here : Surroundings) (env : Environment) : Outcome :=
  if invocation.command = some .version then { output := banner }
  else
    match invocation.configuration here.files env with
    | .error problem => .ofFailure (.fault problem.fault)
    | .ok config =>
      if invocation.command = some .checkConfig then checkConfig here.files config
      else (serve here config).after banner

def Stop.outcome (env : Environment) : Stop → Outcome
  | usage => {
      code := 2
      errors := "error: invalid arguments\n\nUsage: tsgate [OPTIONS] [COMMAND]\n\n"
        ++ "For more information, try '--help'.\n" }
  | help topic => { output := Help.text env topic }
  | version => { output := "tsgate " ++ QueryGate.version ++ "\n" }

def run (here : Surroundings) (arguments : List String) : Outcome :=
  let env := here.completed
  match parse env arguments with
  | .error stop => stop.outcome env
  | .ok invocation => invocation.run here env

def withDirectories (path : String) : List String :=
  let parts := path.splitOn "/"
  (List.range parts.length).map fun n => "/".intercalate (parts.take (n + 1))

def filesRead (here : Surroundings) (arguments : List String) : List String :=
  let env := here.completed
  let further : List String :=
    match parse env arguments with
    | .error _ => []
    | .ok invocation =>
      let keys : List String :=
        match invocation.configuration here.files env with
        | .error _ => []
        | .ok config => config.token.privateKeyPath.toList ++ config.token.publicKeyPath.toList
      invocation.config.toList ++ keys
  (environmentFile :: further).flatMap withDirectories

end QueryGate.CommandLine
