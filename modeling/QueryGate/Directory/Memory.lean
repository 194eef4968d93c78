import QueryGate.Directory.Conversation
import QueryGate.Directory.Filter.Matching

/-! In-memory directories, which can refuse connections and fail or stall on certain filters. -/

namespace QueryGate.Directory

/-- Whether a distinguished name is the base or lies below it. Everything lies below the empty base. -/
def isUnder (base dn : String) : Bool :=
  let base := (Text.foldLetters base).toList
  let dn := (Text.foldLetters dn).toList
  base.isEmpty || dn == base || (',' :: base).isSuffixOf dn

/-- A person or thing in the directory. Only who has a password can bind. -/
structure Member where
  entry : Entry
  password : Option String := none
  deriving DecidableEq, Repr

structure Memory where
  members : List Member := []
  failingFilters : List String := []
  stalledFilters : List String := []
  maxConnects : Option Nat := none
  connects : Nat := 0
  deriving DecidableEq, Repr

namespace Memory

def invalidCredentials : Nat := 49

def refuses (memory : Memory) : Bool :=
  memory.maxConnects.any (· ≤ memory.connects)

def accepts (memory : Memory) (dn password : String) : Bool :=
  memory.members.any fun member =>
    Text.sameLetters member.entry.dn dn && member.password == some password

/-- A bind without a name and without a password is anonymous and always succeeds. -/
def bind (memory : Memory) (dn password : String) : BindOutcome :=
  if (dn = "" ∧ password = "") ∨ memory.accepts dn password then .bound
  else .rejected invalidCredentials

def entriesMatching (memory : Memory) (base filter : String) : List Entry :=
  (memory.members.map (·.entry)).filter fun entry =>
    isUnder base entry.dn && Filter.matchesText entry filter.toList

def search (memory : Memory) (base filter : String) : Except Fault (List Entry) :=
  if filter ∈ memory.stalledFilters then
    .error (.directoryUnavailable "timeout: deadline has elapsed")
  else if filter ∈ memory.failingFilters then
    .error (.directoryOperation "insufficient access rights")
  else .ok (memory.entriesMatching base filter)

def answer : Answerer Memory
  | .connect _, memory =>
    if memory.refuses then (.error (.directoryUnavailable "connection refused"), memory)
    else (.ok (), { memory with connects := memory.connects + 1 })
  | .bind dn password, memory => (.ok (memory.bind dn password), memory)
  | .search base filter _, memory => (memory.search base filter, memory)
  | .unbind, memory => ((), memory)

end Memory
end QueryGate.Directory
