import QueryGate.Config.Environment
import QueryGate.Text.Characters

/-! Environment files: assignments that fill in variables which are not set. The first line that is
no assignment ends the reading; what was read before it stays. -/

namespace QueryGate.CommandLine.EnvFile

inductive Open where
  | nothing
  | blank
  | escape
  | single
  | singleEscape
  | double
  | doubleEscape
  deriving DecidableEq, Repr

namespace Open

def outside (c : Char) : Open :=
  if c = '\\' then escape
  else if c = '"' then double
  else if c = '\'' then single
  else nothing

def step (c : Char) : Open → Open
  | blank => outside c
  | escape => nothing
  | nothing => if Text.isBlank c && c ≠ '\n' && c ≠ '\r' then blank else outside c
  | double => if c = '\\' then doubleEscape else if c = '"' then nothing else double
  | doubleEscape => double
  | single => if c = '\\' then singleEscape else if c = '\'' then nothing else single
  | singleEscape => single

end Open

/-- What is open after a line, or the part of the line before a comment. -/
def scan : Open → (before : List Char) → List Char → Open ⊕ List Char
  | state, _, [] => .inl state
  | state, before, c :: rest =>
    if state = .blank ∧ c = '#' then .inr before.reverse
    else scan (state.step c) (c :: before) rest

def withoutLineEnd (line : List Char) : List Char :=
  match line.reverse with
  | '\n' :: '\r' :: rest | '\n' :: rest => rest.reverse
  | _ => line

/--
Lines put together where a quote or an escape is open at their end. `held` is what is held back so
far. What is still open at the end of the file is dropped.
-/
def joinLines : (held : List Char) → Open → List (List Char) → List (List Char)
  | _, _, [] => []
  | held, state, line :: rest =>
    let whole := held ++ line
    if (whole.dropWhile Text.isBlank).head? = some '#' then joinLines [] .nothing rest
    else
      match scan state [] line with
      | .inr before => (held ++ before) :: joinLines [] .nothing rest
      | .inl .nothing => withoutLineEnd whole :: joinLines [] .nothing rest
      | .inl state => joinLines whole state rest

def textLines (content : Bytes) : List (List Char) :=
  let rec split : Bytes → Bytes → List Bytes
    | [], [] => []
    | line, [] => [line.reverse]
    | line, b :: rest =>
      if b = 0x0A then (b :: line).reverse :: split [] rest else split (b :: line) rest
  ((split [] content).map Text.Utf8.decode?).takeWhile Option.isSome |>.filterMap id

inductive Mode where
  | plain
  | single
  | escaped
  /-- After a blank outside of quotes: only a comment may follow. -/
  | done
  | name (taken : List Char)
  | braced (taken : List Char)
  deriving DecidableEq, Repr

structure Reading where
  mode : Mode := .plain
  quoted : Bool := false
  output : List Char := []

def isNameChar (c : Char) : Bool :=
  c.isAlphanum || (0x80 ≤ c.toNat && !Text.isBlank c)

namespace Reading

def push (r : Reading) (cs : List Char) : Reading :=
  { r with output := r.output ++ cs }

def plainStep (r : Reading) (c : Char) : Reading :=
  if c = '$' then { r with mode := .name [] }
  else if c = '\\' then { r with mode := .escaped }
  else if c = '"' then { r with quoted := !r.quoted }
  else if r.quoted then r.push [c]
  else if c = '\'' then { r with mode := .single }
  else if c = ' ' ∨ c = '\t' then { r with mode := .done }
  else r.push [c]

def step (lookUp : List Char → List Char) (r : Reading) (c : Char) : Option Reading :=
  match r.mode with
  | .done => if c = ' ' ∨ c = '\t' then some r else none
  | .escaped =>
    if c ∈ ['\\', '\'', '"', '$', ' '] then some { r.push [c] with mode := .plain }
    else if c = 'n' then some { r.push ['\n'] with mode := .plain }
    else none
  | .single => some (if c = '\'' then { r with mode := .plain } else r.push [c])
  | .name taken =>
    if isNameChar c then some { r with mode := .name (taken ++ [c]) }
    else if c = '\x7b' ∧ taken = [] then some { r with mode := .braced [] }
    else
      let r := r.push (lookUp taken)
      some (if c = '$' then { r with mode := .name [] } else { r.push [c] with mode := .plain })
  | .braced taken =>
    some <|
      if c = '\x7d' then { r.push (lookUp taken) with mode := .plain }
      else { r with mode := .braced (taken ++ [c]) }
  | .plain => some (r.plainStep c)

def finish (lookUp : List Char → List Char) (r : Reading) : Option (List Char) :=
  match r.mode with
  | .single | .braced _ => none
  | .name taken => if r.quoted then none else some (r.output ++ lookUp taken)
  | _ => if r.quoted then none else some r.output

end Reading

def value? (lookUp : List Char → List Char) (text : List Char) : Option (List Char) :=
  let rec go (r : Reading) : List Char → Option (List Char)
    | [] => r.finish lookUp
    | c :: rest =>
      if r.mode = .done ∧ c = '#' then r.finish lookUp
      else r.step lookUp c >>= fun r => go r rest
  go {} text

def skipBlanks (text : List Char) : List Char :=
  text.dropWhile Text.isBlank

def key? (text : List Char) : Option (List Char × List Char) :=
  match text with
  | [] => none
  | c :: _ =>
    if c.isAlpha || c = '_' then
      some (text.span fun c => c.isAlphanum || c = '_' || c = '.')
    else none

def afterEquals? : List Char → Option (List Char)
  | '=' :: rest => some rest
  | _ => none

def assigned? (text : List Char) : Option (List Char × List Char) := do
  let (key, rest) ← key? text
  match afterEquals? (skipBlanks rest) with
  | some rest => return (key, rest)
  | none =>
    guard (key = "export".toList)
    let (key, rest) ← key? (skipBlanks rest)
    return (key, ← afterEquals? (skipBlanks rest))

structure Variables where
  env : Environment
  assigned : List (List Char × List Char) := []

namespace Variables

/-- The value of a variable, empty if there is none. What is set counts more than what is assigned. -/
def value (v : Variables) (name : List Char) : List Char :=
  match v.env.text? (String.ofList name) with
  | some text => text.toList
  | none => (v.assigned.lookup name).getD []

def assign (v : Variables) (key value : List Char) : Variables where
  env :=
    if (v.env.text? (String.ofList key)).isSome then v.env
    else (String.ofList key, Text.Utf8.encode value) :: v.env
  assigned := (key, value) :: v.assigned

def line? (v : Variables) (text : List Char) : Option Variables :=
  let text := skipBlanks (Text.trimBlankEnd text)
  if text.head?.all (· = '#') then some v
  else do
    let (key, rest) ← assigned? text
    let rest := skipBlanks rest
    if rest.head?.all (· = '#') then return v.assign key []
    else return v.assign key (← value? v.value rest)

def lines (v : Variables) : List (List Char) → Variables
  | [] => v
  | text :: rest =>
    match v.line? text with
    | some v => v.lines rest
    | none => v

end Variables

def byteOrderMark : Bytes := [0xEF, 0xBB, 0xBF]

def load (content : Bytes) (env : Environment) : Environment :=
  let content := if byteOrderMark.isPrefixOf content then content.drop 3 else content
  (Variables.lines { env } (joinLines [] .nothing (textLines content))).env

end QueryGate.CommandLine.EnvFile
