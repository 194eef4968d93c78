import QueryGate.CommandLine.Run

/-! The program: it collects what a run needs, runs it and prints what it leaves. -/

namespace QueryGate.CommandLine

def systemEnvironment : IO Environment := do
  try
    return .ofBlock (← IO.FS.readBinFile "/proc/self/environ").toList
  catch _ => return []

def systemNode? (path : String) : IO (Option Files.Node) := do
  try
    return some (.file (← IO.FS.readBinFile path).toList)
  catch _ =>
    try
      let place ← IO.FS.realPath path
      return if ← place.isDir then some .directory else none
    catch _ => return none

def systemTree : List String → IO Files.Tree
  | [] => return []
  | path :: rest => do
    let tree ← systemTree rest
    match ← systemNode? path with
    | some node => return (path, node) :: tree
    | none => return tree

/-- Fetch the files that the run reads. Each round may show further ones. -/
def fetch (arguments : List String) (here : Surroundings) : Nat → IO Surroundings
  | 0 => return here
  | rounds + 1 => do
    let files ← systemTree (filesRead here arguments)
    fetch arguments { here with files } rounds

end QueryGate.CommandLine

open QueryGate.CommandLine in
def main (arguments : List String) : IO UInt32 := do
  let here : Surroundings := { environment := ← systemEnvironment }
  let outcome := run (← fetch arguments here 3) arguments
  (← IO.getStdout).putStr outcome.output
  (← IO.getStderr).putStr outcome.errors
  return outcome.code.toUInt32
