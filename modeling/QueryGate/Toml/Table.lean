import QueryGate.Toml.Value

/-! How the lines of a document add to its tables. Dotted keys add only to tables that dotted keys
made; a header opens a table once, and passes through any table but an inline one. -/

namespace QueryGate.Toml

/-- Put a value under a key in place of the one that is there, or at the end. -/
def Entries.put (entries : Entries) (key : String) (value : Value) : Entries :=
  match entries with
  | [] => [(key, value)]
  | (other, old) :: rest =>
    if other = key then (key, value) :: rest else (other, old) :: put rest key value

inductive Passage where
  | dottedKey
  | header
  deriving DecidableEq, Repr

namespace Passage

def origin : Passage → Origin
  | dottedKey => .dotted
  | header => .implied

def mayEnter : Passage → Origin → Bool
  | _, .implied | _, .dotted => true
  | header, .header => true
  | _, _ => false

end Passage

abbrev Change := Origin → Entries → Except String Entries

/--
Change the table at the end of a path, making tables that are missing on the way. The last table of
an array of tables stands for the array.
-/
def changeAt (passage : Passage) (change : Change) : (path : List String) → Change
  | [], origin, entries => change origin entries
  | key :: path, _, entries =>
    let goOn := changeAt passage change path
    match entries.lookup key with
    | none => return entries.put key (.table passage.origin (← goOn passage.origin []))
    | some (.table inner old) =>
      if passage.mayEnter inner then return entries.put key (.table inner (← goOn inner old))
      else throw ("duplicate key " ++ key)
    | some (.array true items) =>
      match items.reverse with
      | .table inner old :: before => do
        let last := Value.table inner (← goOn inner old)
        return entries.put key (.array true (before.reverse ++ [last]))
      | _ => throw ("cannot extend " ++ key)
    | some _ => throw ("cannot extend " ++ key)

def addKey (key : String) (value : Value) : Change := fun _ entries =>
  match entries.lookup key with
  | none => return entries.put key value
  | some _ => throw ("duplicate key " ++ key)

def assign (path : List String) (key : String) (value : Value) (entries : Entries) :
    Except String Entries :=
  if path.isEmpty then addKey key value .header entries
  else
    changeAt .dottedKey
      (fun origin inner =>
        if origin = .dotted then addKey key value origin inner
        else throw ("duplicate key " ++ key))
      path .header entries

structure Assignment where
  path : List String
  key : String
  value : Value

def assignAll (assignments : List Assignment) (entries : Entries) : Except String Entries :=
  assignments.foldlM (fun entries a => assign a.path a.key a.value entries) entries

structure Section where
  path : List String
  key : String
  /-- Written with two brackets: the section is a new element of an array. -/
  inArray : Bool
  assignments : List Assignment

/-- The table that a section without an array opens: a new one, or one that was only implied. -/
def Section.openTable (sect : Section) : Change := fun _ entries =>
  match entries.lookup sect.key with
  | none => return entries.put sect.key (.table .header (← assignAll sect.assignments []))
  | some (.table .implied old) =>
    return entries.put sect.key (.table .header (← assignAll sect.assignments old))
  | some _ => throw ("duplicate key " ++ sect.key)

def Section.addElement (sect : Section) : Change := fun _ entries => do
  let element := Value.table .header (← assignAll sect.assignments [])
  match entries.lookup sect.key with
  | none => return entries.put sect.key (.array true [element])
  | some (.array true items) => return entries.put sect.key (.array true (items ++ [element]))
  | some _ => throw ("duplicate key " ++ sect.key)

def Section.addTo (sect : Section) (entries : Entries) : Except String Entries :=
  changeAt .header (if sect.inArray then sect.addElement else sect.openTable) sect.path .header
    entries

end QueryGate.Toml
