import QueryGate.Basic
import QueryGate.Directory.Source
import QueryGate.Program
import QueryGate.Text.Characters

/-! What is asked of a directory, over one connection at a time, and how it may answer. -/

namespace QueryGate.Directory

structure Entry where
  dn : String
  attributes : List (String × List String) := []
  deriving DecidableEq, Repr

namespace Entry

/-- The attribute of that very name, else the first whose name differs in letter case only. -/
def lookup? (entry : Entry) (name : String) : Option (List String) :=
  match entry.attributes.lookup name with
  | some values => some values
  | none => (entry.attributes.find? fun (other, _) => Text.sameLetters other name).map (·.2)

def values (entry : Entry) (name : String) : List String :=
  (entry.lookup? name).getD []

def firstValue (entry : Entry) (name : String) : String :=
  (entry.values name).headD ""

end Entry

inductive BindOutcome where
  | bound
  | rejected (code : Nat)
  deriving DecidableEq, Repr

namespace BindOutcome

def ofCode (code : Nat) : BindOutcome :=
  if code = 0 then .bound else .rejected code

end BindOutcome

inductive Request where
  | connect (source : Source)
  | bind (dn password : String)
  /-- A search of the whole subtree under `base`. Without attributes, all are wanted. -/
  | search (base filter : String) (attributes : List String)
  | unbind
  deriving DecidableEq, Repr

abbrev Request.Answer : Request → Type
  | .connect _ => Except Fault Unit
  | .bind .. => Except Fault BindOutcome
  | .search .. => Except Fault (List Entry)
  | .unbind => Unit

abbrev Answerer (σ : Type) := (request : Request) → σ → request.Answer × σ

end QueryGate.Directory
