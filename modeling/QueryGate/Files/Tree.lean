import QueryGate.Text.Utf8

/-! File trees, and what reading a path gives, with failures worded as the system words them. -/

namespace QueryGate.Files

inductive Node where
  | file (content : Bytes)
  | directory
  deriving DecidableEq, Repr

/--
Nodes by their names, which are seen from where the gateway is started or begin at the root. The
directories on the way to a node exist as well.
-/
abbrev Tree := List (String × Node)

inductive ReadFailure where
  | notFound
  | notADirectory
  | isADirectory
  | nameTooLong
  | nulInName
  deriving DecidableEq, Repr

def ReadFailure.message : ReadFailure → String
  | notFound => "No such file or directory (os error 2)"
  | notADirectory => "Not a directory (os error 20)"
  | isADirectory => "Is a directory (os error 21)"
  | nameTooLong => "File name too long (os error 36)"
  | nulInName => "file name contained an unexpected NUL byte"

/-- A place in the tree: directories and a name, after steps to a parent or a slash for the root. -/
abbrev Place := List String

namespace Place

def root : Place := ["/"]

def isAbove (place : Place) : Bool :=
  place.all (· = "..")

def parent (place : Place) : Place :=
  if place = root then root
  else if place.isAbove then place ++ [".."]
  else place.dropLast

def step (here : Place) (part : String) : Place :=
  if part = "" ∨ part = "." then here
  else if part = ".." then here.parent
  else here ++ [part]

end Place

def parts (path : String) : Place × List String :=
  match path.splitOn "/" with
  | "" :: rest => (.root, rest)
  | parts => ([], parts)

def placeOf (path : String) : Place :=
  let (start, parts) := parts path
  parts.foldl Place.step start

namespace Tree

def node? (tree : Tree) (place : Place) : Option Node :=
  if place.isAbove || place = .root then some .directory
  else
    tree.findSome? fun (name, node) =>
      let named := placeOf name
      if named = place then some node
      else if place.isPrefixOf named then some .directory
      else none

/-- The longest name of one file, and of a path with its end mark, in bytes. -/
def maxNameLength : Nat := 255
def maxPathLength : Nat := 4096

/-- Go from a place along further parts. Even a part that stays where it is needs a directory. -/
def walk (tree : Tree) (here : Place) : List String → Except ReadFailure Node
  | [] => (tree.node? here).elim (.error .notFound) .ok
  | part :: rest =>
    match tree.node? here with
    | none => .error .notFound
    | some (.file _) => .error .notADirectory
    | some .directory =>
      if maxNameLength < part.utf8ByteSize then .error .nameTooLong
      else walk tree (here.step part) rest

def read (tree : Tree) (path : String) : Except ReadFailure Bytes :=
  if path.toList.contains (Char.ofNat 0) then .error .nulInName
  else if path.isEmpty then .error .notFound
  else if maxPathLength ≤ path.utf8ByteSize then .error .nameTooLong
  else
    let (start, parts) := parts path
    match tree.walk start parts with
    | .error failure => .error failure
    | .ok .directory => .error .isADirectory
    | .ok (.file content) => .ok content

end Tree
end QueryGate.Files
