import QueryGate.Config.Environment

/-! Command line arguments. Options may stand before and after a command, joined to their values or
before them; what no argument gives is taken from the environment. -/

namespace QueryGate.CommandLine

inductive Command where
  | server
  | version
  | checkConfig
  | help
  deriving DecidableEq, Repr

namespace Command

def all : List Command := [server, version, checkConfig, help]

def name : Command → String
  | server => "server"
  | version => "version"
  | checkConfig => "check-config"
  | help => "help"

def ofName? (name : String) : Option Command :=
  all.find? (·.name = name)

end Command

abbrev Level := Option Command

inductive Setting where
  | config
  | bind
  | port
  | logLevel
  deriving DecidableEq, Repr

namespace Setting

def all : List Setting := [config, bind, port, logLevel]

def long : Setting → String
  | config => "config"
  | bind => "bind"
  | port => "port"
  | logLevel => "log-level"

def short? : Setting → Option Char
  | config => some 'c'
  | port => some 'p'
  | bind | logLevel => none

def variableName : Setting → String
  | config => "TSGATE_CONFIG"
  | bind => "TSGATE_BIND_ADDRESS"
  | port => "TSGATE_PORT"
  | logLevel => "TSGATE_LOG_LEVEL"

def allowedAt (level : Level) (setting : Setting) : Bool :=
  setting = config || level.isNone

end Setting

inductive Flag where
  | help
  | version
  deriving DecidableEq, Repr

namespace Flag

def all : List Flag := [help, version]

def long : Flag → String
  | help => "help"
  | version => "version"

def short : Flag → Char
  | help => 'h'
  | version => 'V'

def allowedAt (level : Level) (flag : Flag) : Bool :=
  flag = help || level.isNone

end Flag

inductive Word where
  | escape
  | flag (flag : Flag)
  | setting (setting : Setting) (value : Option (List Char))
  | unknown
  | plain
  deriving DecidableEq, Repr

namespace Word

def ofLong (level : Level) (text : List Char) : Word :=
  let name := String.ofList (text.takeWhile (· ≠ '='))
  let value :=
    match text.dropWhile (· ≠ '=') with
    | [] => none
    | _ :: value => some value
  match Flag.all.find? fun f => f.allowedAt level && f.long = name with
  | some f => if value.isNone then .flag f else .unknown
  | none =>
    match Setting.all.find? fun s => s.allowedAt level && s.long = name with
    | some s => .setting s value
    | none => .unknown

def ofShort (level : Level) (letter : Char) (text : List Char) : Word :=
  let value :=
    match text with
    | [] => none
    | '=' :: value => some value
    | value => some value
  match Flag.all.find? fun f => f.allowedAt level && f.short = letter with
  | some f => .flag f
  | none =>
    match Setting.all.find? fun s => s.allowedAt level && s.short? = some letter with
    | some s => .setting s value
    | none => .unknown

def ofChars (level : Level) : List Char → Word
  | ['-', '-'] => .escape
  | '-' :: '-' :: text => ofLong level text
  | '-' :: letter :: text => ofShort level letter text
  | _ => .plain

end Word

def port? (text : String) : Option Nat :=
  match text.toList with
  | '-' :: digits => if digits ≠ [] ∧ digits.all (· = '0') then some 0 else none
  | _ => Config.port? text

def Setting.accepts : Setting → String → Bool
  | port, text => (port? text).isSome
  | _, _ => true

inductive Stop where
  | usage
  | help (topic : Level)
  | version
  deriving DecidableEq, Repr

inductive Pending where
  | none
  | awaited (setting : Setting)
  | given (setting : Setting) (value : String)
  deriving DecidableEq, Repr

def Pending.isAwaited : Pending → Bool
  | awaited _ => true
  | none | given _ _ => false

structure Given where
  values : List (Setting × String) := []
  pending : Pending := .none
  deriving DecidableEq, Repr

namespace Given

/-- An option is given once, with a value that it accepts. -/
def put (g : Given) (setting : Setting) (value : String) : Except Stop Given :=
  if (g.values.lookup setting).isSome || !setting.accepts value then .error .usage
  else .ok { g with values := (setting, value) :: g.values }

def settle (g : Given) : Except Stop Given :=
  match g.pending with
  | .none => .ok g
  | .awaited _ => .error .usage
  | .given setting value => { g with pending := .none }.put setting value

end Given

/--
Read the arguments of one level: what they give, and the command that follows with its arguments. The
last option before a command is not settled yet.
-/
def readLevel (level : Level) (g : Given) :
    List String → Except Stop (Given × Option (Command × List String))
  | [] => return (g, none)
  | text :: rest => do
    if level.isNone && !g.pending.isAwaited then
      if let some command := Command.ofName? text then
        return (g, some (command, rest))
    match Word.ofChars level text.toList with
    | .escape => if rest.isEmpty then return (g, none) else throw .usage
    | .flag flag =>
      let _ ← g.settle
      throw (match flag with | .help => .help level | .version => .version)
    | .setting setting none =>
      let g ← g.settle
      readLevel level { g with pending := .awaited setting } rest
    | .setting setting (some value) =>
      let g ← (← g.settle).put setting (String.ofList value)
      readLevel level g rest
    | .unknown => throw .usage
    | .plain =>
      match g.pending with
      | .awaited setting => readLevel level { g with pending := .given setting text } rest
      | .none | .given _ _ => throw .usage

def helpTopic : List String → Stop
  | [] => .help none
  | [name] => (Command.ofName? name).elim .usage fun command => .help (some command)
  | _ => .usage

structure Invocation where
  command : Option Command := none
  config : Option String := none
  bind : Option String := none
  port : Option Nat := none
  logLevel : Option String := none
  deriving DecidableEq, Repr

def fromEnvironment (env : Environment) (setting : Setting) : Except Stop (Option String) :=
  match env.lookup setting.variableName with
  | none => .ok none
  | some value =>
    match ofUtf8? value with
    | none => .error .usage
    | some text => if setting.accepts text then .ok (some text) else .error .usage

def valueOf (env : Environment) (values : List (Setting × String)) (setting : Setting) :
    Except Stop (Option String) :=
  match values.lookup setting with
  | some value => .ok (some value)
  | none => fromEnvironment env setting

/-- Read a command line. What stands after a command counts more than what stands before it. -/
def parse (env : Environment) (arguments : List String) : Except Stop Invocation := do
  let (before, command) ← readLevel none {} arguments
  let after : Given ←
    match command with
    | none => pure {}
    | some (.help, arguments) => throw (helpTopic arguments)
    | some (command, arguments) =>
      let (after, _) ← readLevel (some command) {} arguments
      after.settle
  let before ← before.settle
  let value := valueOf env (after.values ++ before.values)
  return {
    command := command.map (·.1)
    config := ← value .config
    bind := ← value .bind
    port := (← value .port) >>= port?
    logLevel := ← value .logLevel }

end QueryGate.CommandLine
