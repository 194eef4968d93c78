import QueryGate.Program

/-! Readers of TOML. Loops run at most once for each character left, so that reading ends. -/

namespace QueryGate.Toml

abbrev Reader := StateT (List Char) (Except String)

namespace Reader

def fail {α : Type} (reason : String) : Reader α :=
  throw reason

def peek : Reader (Option Char) := do
  return (← get).head?

def next (wanted : String) : Reader Char := do
  match ← get with
  | c :: rest => set rest; return c
  | [] => fail ("expected " ++ wanted)

def sees (text : String) : Reader Bool := do
  return text.toList.isPrefixOf (← get)

def takes (text : String) : Reader Bool := do
  let found ← sees text
  if found then modify (·.drop text.length)
  return found

def expect (text : String) : Reader Unit := do
  unless ← takes text do fail ("expected " ++ text)

def takeWhile (p : Char → Bool) : Reader (List Char) := do
  let (taken, rest) := (← get).span p
  set rest
  return taken

def take (n : Nat) : Reader (List Char) := do
  let cs ← get
  if cs.length < n then fail "unexpected end of the text"
  set (cs.drop n)
  return cs.take n

/-- Repeat a step that takes at least one character each time until it gives a final value. -/
def iterate {σ α : Type} (step : σ → Reader (σ ⊕ α)) (start : σ) : Reader α := do
  loopUpTo step (fail "unexpected end of the text") ((← get).length + 1) start

end Reader

def isSpace (c : Char) : Bool :=
  c = ' ' || c = '\t'

/-- Characters that may not stand in comments and strings. A tab is allowed. -/
def isControl (c : Char) : Bool :=
  (c.toNat < 0x20 && c ≠ '\t') || c.toNat = 0x7F

def skipSpaces : Reader Unit :=
  discard (Reader.takeWhile isSpace)

def takesNewline : Reader Bool := do
  if ← Reader.takes "\n" then return true
  else Reader.takes "\r\n"

def skipComment : Reader Unit := do
  if ← Reader.takes "#" then discard (Reader.takeWhile (!isControl ·))

def skipLines : Reader Unit :=
  Reader.iterate (fun _ => do
    skipSpaces
    skipComment
    if ← takesNewline then return .inl () else return .inr ()) ()

end QueryGate.Toml
