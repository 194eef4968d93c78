import QueryGate.CommandLine.Arguments
import QueryGate.Gateway.State

/-! The help texts, which show each option with the value that the environment has for it. -/

namespace QueryGate.CommandLine

def summary : String := "LDAP-authenticated query gateway for InfluxDB"

def Command.about : Command → String
  | server => "Start the gateway"
  | version => "Show version information"
  | checkConfig => "Load and validate the configuration, then exit"
  | help => "Print this message or the help of the given subcommand(s)"

def Setting.about : Setting → String
  | config => "Configuration file path"
  | bind => "Bind address"
  | port => "Port number"
  | logLevel => "Log level (trace, debug, info, warn, error)"

def Setting.placeholder : Setting → String
  | config => "CONFIG"
  | bind => "BIND"
  | port => "PORT"
  | logLevel => "LOG_LEVEL"

def Flag.about : Flag → String
  | help => "Print help"
  | version => "Print version"

namespace Help

def spaces (count : Nat) : String :=
  String.ofList (List.replicate count ' ')

def columns (rows : List (String × String)) : String :=
  let width := (rows.map (·.1.length)).foldl max 0
  String.join <| rows.map fun (name, about) =>
    let indent := "\n" ++ spaces (width + 4)
    "  " ++ name ++ spaces (width + 2 - name.length) ++ about.replace "\n" indent ++ "\n"

def written (short : Option Char) (long : String) : String :=
  (short.elim "    " fun letter => "-" ++ letter.toString ++ ", ") ++ "--" ++ long

def settingRow (env : Environment) (setting : Setting) : String × String :=
  (written setting.short? setting.long ++ " <" ++ setting.placeholder ++ ">",
    setting.about ++ " [env: " ++ setting.variableName ++ "="
      ++ ofUtf8Lossy ((env.lookup setting.variableName).getD []) ++ "]")

def flagRow (flag : Flag) : String × String :=
  (written flag.short flag.long, flag.about)

def options (env : Environment) (level : Level) : String :=
  "Options:\n" ++ columns
    ((Setting.all.filter (·.allowedAt level)).map (settingRow env)
      ++ (Flag.all.filter (·.allowedAt level)).map flagRow)

def text (env : Environment) : Level → String
  | none =>
    summary ++ "\n\nUsage: tsgate [OPTIONS] [COMMAND]\n\nCommands:\n"
      ++ columns (Command.all.map fun command => (command.name, command.about))
      ++ "\n" ++ options env none
  | some .help =>
    Command.help.about ++ "\n\nUsage: tsgate help [COMMAND]...\n\nArguments:\n"
      ++ columns [("[COMMAND]...", "Print help for the subcommand(s)")]
  | some command =>
    command.about ++ "\n\nUsage: tsgate " ++ command.name ++ " [OPTIONS]\n\n"
      ++ options env (some command)

end Help
end QueryGate.CommandLine
