import QueryGate.Proofs.Json.Outcomes

/-! A place in a JSON text is told by the brackets that are open there and by whether it lies in a
string, a word or a number. From there on the text is followed byte by byte to where the outermost
of those brackets closes. This needs no grammar: a small machine knows which bytes may follow, and
it agrees with every reader on where strings end. -/

namespace QueryGate.Json

inductive Mode where
  | outside
  | string
  /-- In a string, behind a backslash. -/
  | escape
  | hex (due : Nat)
  /-- In a word of which these letters are due. -/
  | word (letters : Bytes)
  | digitDue
  | exponent
  deriving DecidableEq

namespace Mode

def behind : Bytes → Mode
  | [] => outside
  | letters => word letters

/-- Bytes that stand between values or in numbers, and change nothing. -/
def isSpacing (b : UInt8) : Bool :=
  isBlank b || isDigit b || b = byte ',' || b = byte ':'

def letters (word : String) : Bytes :=
  word.toList.map byte

/-- Where the next byte leads: what the place behind it lies in, and how many brackets are open there. -/
def advance : Mode → Nat → UInt8 → Option (Mode × Nat)
  | outside, depth, b =>
    if isSpacing b then some (outside, depth)
    else if b = byte '[' ∨ b = byte '\x7b' then some (outside, depth + 1)
    else if b = byte ']' ∨ b = byte '\x7d' then some (outside, depth - 1)
    else if b = byte '"' then some (string, depth)
    else if b = byte 'n' then some (behind (letters "ull"), depth)
    else if b = byte 't' then some (behind (letters "rue"), depth)
    else if b = byte 'f' then some (behind (letters "alse"), depth)
    else if b = byte '-' ∨ b = byte '.' then some (digitDue, depth)
    else if b = byte 'e' ∨ b = byte 'E' then some (exponent, depth)
    else none
  | string, depth, b =>
    if b = byte '"' then some (outside, depth) else if b = byte '\\' then some (escape, depth) else some (string, depth)
  | escape, depth, b => if b = byte 'u' then some (hex 4, depth) else some (string, depth)
  | hex due, depth, _ => if due ≤ 1 then some (string, depth) else some (hex (due - 1), depth)
  | word [], _, _ => none
  | word (letter :: others), depth, b => if b = letter then some (behind others, depth) else none
  | digitDue, depth, b => if isDigit b then some (outside, depth) else none
  | exponent, depth, b =>
    if isDigit b then some (outside, depth)
    else if b = byte '+' ∨ b = byte '-' then some (digitDue, depth)
    else none

end Mode

open Mode

/-- What follows the last of the brackets that are open, or the string if none are. -/
def close : Bytes → Mode → Nat → Option Bytes
  | [], mode, depth => if mode = outside ∧ depth = 0 then some [] else none
  | b :: rest, mode, depth =>
    if mode = outside ∧ depth = 0 then some (b :: rest)
    else (advance mode depth b).bind fun (mode, depth) => close rest mode depth

variable {mode : Mode} {depth : Nat} {b : UInt8} {q : Bytes}

@[simp] theorem close_zero (q : Bytes) : close q outside 0 = some q := by
  cases q <;> simp [close]

@[simp] theorem close_nil : close [] mode depth = none ↔ ¬ (mode = outside ∧ depth = 0) := by
  simp [close]

theorem close_cons (inside : ¬ (mode = outside ∧ depth = 0)) :
    close (b :: q) mode depth = (advance mode depth b).bind fun (mode, depth) => close q mode depth :=
  if_neg inside

theorem close_outside : close (b :: q) outside (depth + 1) =
    (advance outside (depth + 1) b).bind fun (mode, depth) => close q mode depth :=
  close_cons (by simp)

/-- Further open brackets do not change the way to where the inner ones close. -/
theorem advance_add (inside : ¬ (mode = outside ∧ depth = 0)) (outer : Nat) :
    advance mode (depth + outer) b = (advance mode depth b).map fun (mode, depth) => (mode, depth + outer) := by
  fun_cases advance mode depth b
  all_goals simp_all [advance]
  all_goals omega

theorem close_add (q : Bytes) (mode : Mode) (depth outer : Nat) :
    close q mode (depth + outer) = (close q mode depth).bind fun rest => close rest outside outer := by
  induction q generalizing mode depth with
  | nil =>
    by_cases done : mode = outside ∧ depth = 0
    · obtain ⟨rfl, rfl⟩ := done
      simp
    · have open_ : ¬ (mode = outside ∧ depth + outer = 0) := fun both => done ⟨both.1, by omega⟩
      rw [close_nil.mpr done, close_nil.mpr open_]
      rfl
  | cons b q ih =>
    by_cases done : mode = outside ∧ depth = 0
    · obtain ⟨rfl, rfl⟩ := done
      simp
    · have open_ : ¬ (mode = outside ∧ depth + outer = 0) := fun both => done ⟨both.1, by omega⟩
      rw [close_cons done, close_cons open_, advance_add done]
      cases advance mode depth b with
      | none => rfl
      | some next => exact ih next.1 next.2

section Bytes

variable {v : Option Bytes}

/-- The place is of this kind, with this many brackets open, and what they close before is given. -/
def At (v : Option Bytes) (mode : Mode) (depth : Nat) (q : Bytes) : Prop :=
  close q mode depth = v

/-- What the inner brackets close before is followed on to where the outer ones close. -/
theorem At.outer {v : Bytes} (holds : At (some v) mode depth q) (outer : Nat) :
    close q mode (depth + outer) = close v outside outer := by
  rw [close_add, holds]
  rfl

theorem passes_spacing (spacing : isSpacing b = true) : Passes (At v outside (depth + 1)) b := by
  intro q holds
  rwa [At, close_outside, advance, if_pos spacing] at holds

theorem passesBlanks_outside : PassesBlanks (At v outside (depth + 1)) := by
  intro b blank
  exact passes_spacing (by simp [isSpacing, blank])

theorem at_opened (opens : b = byte '[' ∨ b = byte '\x7b') (holds : At v outside (depth + 1) (b :: q)) :
    At v outside (depth + 2) q := by
  rcases opens with rfl | rfl <;> exact holds

theorem at_closed (closes : b = byte ']' ∨ b = byte '\x7d') (holds : At v outside (depth + 1) (b :: q)) :
    At v outside depth q := by
  rcases closes with rfl | rfl <;> exact holds

theorem at_quoted (holds : At v outside (depth + 1) (byte '"' :: q)) : At v string (depth + 1) q := holds

theorem at_unquoted (holds : At v string depth (byte '"' :: q)) : At v outside depth q := by
  rwa [At, close_cons (by simp)] at holds

theorem at_escaped (holds : At v string depth (byte '\\' :: q)) : At v escape depth q := by
  rwa [At, close_cons (by simp)] at holds

theorem at_plain (noQuote : b ≠ byte '"') (noEscape : b ≠ byte '\\') (holds : At v string depth (b :: q)) :
    At v string depth q := by
  rwa [At, close_cons (by simp), advance, if_neg noQuote, if_neg noEscape] at holds

theorem at_hexed (holds : At v escape depth (byte 'u' :: q)) : At v (hex 4) depth q := by
  rwa [At, close_cons (by simp)] at holds

theorem at_lettered (other : b ≠ byte 'u') (holds : At v escape depth (b :: q)) : At v string depth q := by
  rwa [At, close_cons (by simp), advance, if_neg other] at holds

end Bytes
end QueryGate.Json
