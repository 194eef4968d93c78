import QueryGate.Proofs.Json.Nesting

/-!
# Where the readers of values stop

A reader of a value that succeeds stops where as many brackets are open as before. One that fails has closed none of
those that were open before, but it may have stopped within a string.
-/

namespace QueryGate.Json

open Mode Reader

variable {σ : Type} {v : Bytes} {depth : Nat} {q : Bytes}

theorem not_at_nil {mode : Mode} (inside : mode ≠ outside) : ¬ At (some v) mode depth [] := by
  intro holds
  rw [At, close_nil.mpr fun both => inside both.1] at holds
  cases holds

/-! ### Strings -/

/-- In a string, or just behind it. -/
def InString (v : Option Bytes) (depth : Nat) (q : Bytes) : Prop :=
  At v string depth q ∨ At v outside depth q

theorem at_hex (holds : At (some v) (hex 4) depth q) : 4 ≤ q.length ∧ At (some v) string depth (q.drop 4) := by
  rcases q with _ | ⟨_, _ | ⟨_, _ | ⟨_, _ | ⟨_, q⟩⟩⟩⟩
  case cons.cons.cons.cons => exact ⟨by simp, holds⟩
  all_goals cases holds

theorem meets_hexNumber : Meets (At (some v) (hex 4) depth) hexNumber (fun _ => At (some v) string depth)
    (At (some v) string depth) := by
  refine .get_bind fun q holds => ?_
  obtain ⟨enough, behind⟩ := at_hex holds
  refine .modify_bind (At (some v) string depth) (fun _ same => same ▸ behind) (.ite (fun short => ?_) fun _ => ?_)
  · rw [List.length_take] at short
    omega
  · split
    · exact .pure fun _ holds => holds
    · exact .throw fun _ holds => holds

/-- The escape character is taken, or another byte, which may be the quote at the end. -/
theorem meets_escapeByte_backslash : Meets (At (some v) string depth) (escapeByte '\\')
    (fun _ => At (some v) escape depth) (InString (some v) depth) := by
  refine .next_bind (fun holds => (not_at_nil (by simp) holds).elim) fun b => .ite (fun same => ?_) fun other => ?_
  · subst same
    exact .pure fun _ => at_escaped
  · refine .throw fun q holds => ?_
    by_cases quote : b = byte '"'
    · subst quote
      exact .inr (at_unquoted holds)
    · exact .inl (at_plain quote other holds)

theorem meets_escapeByte_u : Meets (At (some v) escape depth) (escapeByte 'u')
    (fun _ => At (some v) (hex 4) depth) (InString (some v) depth) := by
  refine .next_bind (fun holds => (not_at_nil (by simp) holds).elim) fun b => .ite (fun same => ?_) fun other => ?_
  · subst same
    exact .pure fun _ => at_hexed
  · exact .throw fun q holds => .inl (at_lettered other holds)

theorem meets_numberedChar : Meets (At (some v) (hex 4) depth) numberedChar (fun _ => At (some v) string depth)
    (InString (some v) depth) := by
  have number : Meets (At (some v) (hex 4) depth) hexNumber (fun _ => At (some v) string depth)
      (InString (some v) depth) := meets_hexNumber.failing fun _ => .inl
  refine number.bind fun n => .ite (fun _ => .throw_bind fun _ => .inl) fun _ => .ite (fun _ => ?_) fun _ => ?_
  · refine meets_escapeByte_backslash.bind fun _ => meets_escapeByte_u.bind fun _ => number.bind fun m => ?_
    exact .ite (fun _ => .pure fun _ holds => holds) fun _ => .throw_bind fun _ => .inl
  · exact .pure fun _ holds => holds

theorem meets_escapedChar : Meets (At (some v) escape depth) escapedChar (fun _ => At (some v) string depth)
    (InString (some v) depth) := by
  refine .next_bind (fun holds => (not_at_nil (by simp) holds).elim) fun b => .ite (fun same => ?_) fun other => ?_
  · subst same
    exact meets_numberedChar.starting fun _ => at_hexed
  · split
    · exact .pure fun _ => at_lettered other
    · exact .throw fun _ holds => .inl (at_lettered other holds)

theorem meets_textStep (taken : Bytes) : Meets (At (some v) string depth) (textStep taken)
    (Sum.elim (fun _ => At (some v) string depth) fun _ => At (some v) outside depth) (InString (some v) depth) := by
  refine .next_bind (fun holds => (not_at_nil (by simp) holds).elim) fun b => .ite (fun same => ?_) fun noQuote => ?_
  · subst same
    exact .pure fun _ => at_unquoted
  · refine .ite (fun same => ?_) fun noEscape => .ite (fun _ => ?_) fun _ => .pure fun _ => at_plain noQuote noEscape
    · subst same
      exact (meets_escapedChar.starting fun _ => at_escaped).bind fun c => .pure fun _ holds => holds
    · exact .throw fun _ holds => .inl (at_plain noQuote noEscape holds)

/-- A string may also fail at its end, where it turns out to be no text. -/
theorem meets_text : Meets (At (some v) string depth) text (fun _ => At (some v) outside depth)
    (InString (some v) depth) := by
  have taken : Meets (At (some v) string depth) (iterate textStep []) (fun _ => At (some v) outside depth)
      (InString (some v) depth) := .iterate (fun _ => At (some v) string depth) (fun _ _ => .inl) meets_textStep []
  refine taken.bind fun bytes => ?_
  split
  · exact .pure fun _ holds => holds
  · exact .throw fun _ => .inr

/-! ### Words -/

theorem at_letter {letter : UInt8} {others : Bytes} {b : UInt8}
    (holds : At (some v) (word (letter :: others)) depth (b :: q)) :
    b = letter ∧ At (some v) (behind others) depth q := by
  rw [At, close_cons (by simp), advance] at holds
  split at holds
  · exact ⟨‹_›, holds⟩
  · cases holds

/-- Where a word is due, it is there. -/
theorem meets_restOfWord (rest : String) {failed : Bytes → Prop} :
    Meets (At (some v) (behind (letters rest)) depth) (restOfWord rest) (fun _ => At (some v) outside depth)
      failed := by
  unfold restOfWord letters
  induction rest.toList with
  | nil => exact .pure fun _ holds => holds
  | cons c cs ih =>
    refine .bind (.next_bind (fun holds => (not_at_nil (by simp [behind]) holds).elim) fun b => ?_) fun _ => ih
    refine .ite (fun _ => .pure fun q holds => (at_letter holds).2) fun other => .throw fun q holds => ?_
    exact absurd (at_letter holds).1 other

/-! ### Numbers -/

/-- Bytes of which numbers are made. -/
def isNumeric (b : UInt8) : Bool :=
  isDigit b || b = byte '-' || b = byte '+' || b = byte '.' || b = byte 'e' || b = byte 'E'

/-- In a number or behind it, within brackets. Behind the bytes of numbers that follow stand the others. -/
def InNumber (v : Option Bytes) (depth : Nat) (others q : Bytes) : Prop :=
  At v outside (depth + 1) q ∧ q.dropWhile isNumeric = others

variable {others : Bytes} {b : UInt8}

theorem InNumber.digit (digit : isDigit b = true) : Passes (InNumber v depth others) b := by
  rintro q ⟨holds, same⟩
  refine ⟨passes_spacing (by simp [isSpacing, digit]) q holds, ?_⟩
  rwa [List.dropWhile_cons_of_pos (by simp [isNumeric, digit])] at same

/-- Where a digit is due, there is one. -/
theorem at_digitDue (holds : At (some v) digitDue (depth + 1) q) :
    At (some v) outside (depth + 1) q ∧ ∃ b rest, q = b :: rest ∧ isDigit b = true := by
  cases q with
  | nil => exact (not_at_nil (by simp) holds).elim
  | cons b q =>
    rw [At, close_cons (by simp), advance] at holds
    split at holds
    · refine ⟨?_, b, q, rfl, ‹_›⟩
      rwa [At, close_outside, advance, if_pos (by simp [isSpacing, ‹isDigit b = true›])]
    · cases holds

theorem InNumber.point (holds : InNumber (some v) depth others (byte '.' :: q)) : InNumber (some v) depth others q :=
  ⟨(at_digitDue holds.1).1, holds.2⟩

theorem InNumber.minus (holds : InNumber (some v) depth others (byte '-' :: q)) :
    InNumber (some v) depth others q ∧ ∃ b rest, q = b :: rest ∧ isDigit b = true :=
  ⟨⟨(at_digitDue holds.1).1, holds.2⟩, (at_digitDue holds.1).2⟩

/-- What stands behind the mark of an exponent: a digit, or a sign and a digit. -/
def ExponentDue (P : Bytes → Prop) (q : Bytes) : Prop :=
  ∃ b rest, q = b :: rest ∧ ((isDigit b = true ∧ P q) ∨
    ((b = byte '+' ∨ b = byte '-') ∧ P rest ∧ ∃ c digits, rest = c :: digits ∧ isDigit c = true))

theorem InNumber.behind_mark (marks : b = byte 'e' ∨ b = byte 'E') (holds : InNumber (some v) depth others (b :: q)) :
    ExponentDue (InNumber (some v) depth others) q := by
  obtain ⟨place, same⟩ := holds
  have due : At (some v) exponent (depth + 1) q := by rcases marks with rfl | rfl <;> exact place
  have behind : q.dropWhile isNumeric = others := by rcases marks with rfl | rfl <;> exact same
  cases q with
  | nil => exact (not_at_nil (by simp) due).elim
  | cons c rest =>
    refine ⟨c, rest, rfl, ?_⟩
    rw [At, close_cons (by simp), advance] at due
    split at due
    · refine .inl ⟨‹_›, ?_, behind⟩
      rwa [At, close_outside, advance, if_pos (by simp [isSpacing, ‹isDigit c = true›])]
    · split at due
      · obtain ⟨place, digit⟩ := at_digitDue due
        refine .inr ⟨‹_›, ⟨place, ?_⟩, digit⟩
        rwa [List.dropWhile_cons_of_pos (by rcases ‹c = byte '+' ∨ c = byte '-'› with rfl | rfl <;> decide)] at behind
      · cases due

variable {P : Bytes → Prop}

theorem meets_skipDigits (digits : ∀ b, isDigit b = true → Passes P b) : Keeps P skipDigits := by
  intro q holds
  rw [reads_skipDigits q]
  exact passes_dropWhile digits holds

/-- A byte is next that satisfies the condition. -/
def NextIs (P : Bytes → Prop) (p : UInt8 → Prop) (q : Bytes) : Prop :=
  P q ∧ ∃ b rest, q = b :: rest ∧ p b

theorem meets_nextIsDigit : Meets P nextIsDigit
    (fun found => if found then NextIs P (isDigit · = true) else P) P := by
  refine .peek_bind (.pure fun q holds => holds.1) fun b => .pure fun q heads => ?_
  obtain ⟨rest, rfl, holds⟩ := heads.exists_cons
  cases digit : isDigit b with
  | true => exact if_pos (by simpa using digit) ▸ ⟨holds, b, rest, rfl, digit⟩
  | false => simpa [digit] using holds

theorem meets_nextIsExponent : Meets P nextIsExponent
    (fun found => if found then NextIs P (fun b => b = byte 'e' ∨ b = byte 'E') else P) P := by
  refine .peek_bind (.pure fun q holds => holds.1) fun b => .pure fun q heads => ?_
  obtain ⟨rest, rfl, holds⟩ := heads.exists_cons
  by_cases marks : b = byte 'e' ∨ b = byte 'E'
  · have found : (b = byte 'e' || b = byte 'E') = true := by simpa using marks
    simpa [found] using ⟨holds, b, rest, rfl, marks⟩
  · have found : (b = byte 'e' || b = byte 'E') = false := by simpa using marks
    simpa [found] using holds

theorem meets_finishReal (significand : Nat) (power : Int) : Keeps P (finishReal significand power) :=
  .ite (fun _ => .throw_bind fun _ holds => holds) fun _ => .pure fun _ holds => holds

theorem not_nextIs_nil {p : UInt8 → Prop} : ¬ NextIs P p [] := by
  rintro ⟨_, _, _, same, _⟩
  cases same

theorem NextIs.of_cons {p : UInt8 → Prop} (next : NextIs P p (b :: q)) : P (b :: q) ∧ p b := by
  obtain ⟨holds, _, _, same, property⟩ := next
  cases same
  exact ⟨holds, property⟩

section

variable (digits : ∀ b, isDigit b = true → Passes P b)
include digits

theorem meets_exponentDigits (significand : Nat) (negative : Bool) (start : Int) (first : UInt8) :
    Keeps P (exponentDigits significand negative start first) := by
  refine .iterate (fun _ => P) (fun _ _ holds => holds) (fun taken => ?_) _
  refine meets_nextIsDigit.bind fun found => .ite (fun same => ?_) fun other => ?_
  · subst same
    refine .next_bind (fun holds => (not_nextIs_nil holds).elim) fun b => ?_
    have behind (q : Bytes) (next : NextIs P (isDigit · = true) (b :: q)) : P q :=
      digits b next.of_cons.2 q next.of_cons.1
    refine .ite (fun _ => .pure behind) fun _ => .ite (fun _ => .throw behind) fun _ => ?_
    exact ((meets_skipDigits digits).starting behind).bind fun _ => .pure fun _ holds => holds
  · rw [if_neg other]
    exact (meets_finishReal significand _).bind fun _ => .pure fun _ holds => holds

theorem extend_passes (n : Nat) (holds : P q) : P (extend n q).2.2 := by
  induction q generalizing n with
  | nil => exact holds
  | cons b q ih =>
    unfold extend
    split
    · next taken => exact ih _ (digits b taken.1 q holds)
    · exact holds

end

/-! ### Numbers as values -/

/-- The bytes of a number have been taken, and the number may go on. -/
abbrev Numeric (v : Bytes) (depth : Nat) (others : Bytes) : Bytes → Prop :=
  InNumber (some v) depth others

theorem NextIs.behind_digit (next : NextIs (Numeric v depth others) (isDigit · = true) (b :: q)) :
    Numeric v depth others q :=
  InNumber.digit next.of_cons.2 q next.of_cons.1

theorem meets_exponentPart (significand : Nat) (start : Int) :
    Meets (NextIs (Numeric v depth others) fun b => b = byte 'e' ∨ b = byte 'E') (exponentPart significand start)
      (fun _ => Numeric v depth others) (Numeric v depth others) := by
  have marked : Meets (NextIs (Numeric v depth others) fun b => b = byte 'e' ∨ b = byte 'E') drop
      (fun _ => ExponentDue (Numeric v depth others)) (Numeric v depth others) := by
    rintro _ ⟨holds, b, rest, rfl, marks⟩
    exact holds.behind_mark marks
  have first (sign : Option UInt8) : Meets (NextIs (Numeric v depth others) (isDigit · = true))
      (do
        let first ← next
        unless isDigit first do throw "invalid number"
        exponentDigits significand (sign = some (byte '-')) start first)
      (fun _ => Numeric v depth others) (Numeric v depth others) := by
    refine .next_bind (fun holds => (not_nextIs_nil holds).elim) fun b => .ite (fun digit => ?_) fun other => ?_
    · exact (meets_exponentDigits (fun _ => InNumber.digit) significand _ start b).starting fun q => NextIs.behind_digit
    · exact .throw_bind fun q holds => holds.behind_digit
  refine marked.bind fun _ => .peek_bind ?_ fun c => ?_
  · exact .never fun q holds => by
      obtain ⟨⟨_, _, same, _⟩, rfl⟩ := holds
      cases same
  · refine .ite (fun signed => .bind ?_ fun _ => first _) fun unsigned => (first _).starting ?_
    · rintro _ ⟨⟨_, rest, rfl, given⟩, head⟩
      cases head
      obtain ⟨digit, _⟩ | ⟨_, holds, digit⟩ := given
      · rcases signed with same | same <;> cases same <;> cases digit
      · exact ⟨holds, digit⟩
    · rintro _ ⟨⟨_, rest, rfl, given⟩, head⟩
      cases head
      obtain ⟨digit, holds⟩ | ⟨sign, _⟩ := given
      · exact ⟨holds, _, _, rfl, digit⟩
      · rcases sign with rfl | rfl <;> simp at unsigned

theorem meets_realTail (significand : Nat) (power : Int) :
    Keeps (Numeric v depth others) (realTail significand power) := by
  refine meets_nextIsExponent.bind fun found => .ite (fun same => ?_) fun other => ?_
  · subst same
    exact meets_exponentPart significand power
  · rw [if_neg other]
    exact meets_finishReal significand power

theorem meets_fractionPart (significand : Nat) (start : Int) :
    Meets (Heads (Numeric v depth others) (byte '.')) (fractionPart significand start)
      (fun _ => Numeric v depth others) (Numeric v depth others) := by
  refine .bind (.drop fun _ => InNumber.point) fun _ => .get_bind fun q holds => ?_
  have behind : Numeric v depth others (extend significand q).2.2 := extend_passes (fun _ => InNumber.digit) _ holds
  refine .set_bind behind (meets_nextIsDigit.bind fun found => .ite (fun same => ?_) fun other => ?_)
  · subst same
    exact ((meets_skipDigits fun _ => InNumber.digit).starting fun _ next => next.1).bind fun _ => meets_realTail _ _
  · rw [if_neg other]
    exact .ite (fun _ => .throw_bind fun _ holds => holds) fun _ => meets_realTail _ _

theorem meets_afterInteger (significand : Nat) (negative : Bool) :
    Keeps (Numeric v depth others) (afterInteger significand negative) := by
  have finish : Keeps (Numeric v depth others) (do
      if ← nextIsExponent then exponentPart significand 0
      else if !negative then return .integer significand
      else if significand = 0 ∨ Nat.pow 2 63 < significand then return .real
      else return .integer (-significand)) := by
    refine meets_nextIsExponent.bind fun found => .ite (fun same => ?_) fun other => ?_
    · subst same
      exact meets_exponentPart significand 0
    · rw [if_neg other]
      exact .ite (fun _ => .pure fun _ holds => holds) fun _ =>
        .ite (fun _ => .pure fun _ holds => holds) fun _ => .pure fun _ holds => holds
  refine .peek_bind (.ite (fun same => nomatch same) fun _ => finish.starting fun _ holds => holds.1) fun b => ?_
  refine .ite (fun same => ?_) fun _ => finish.starting fun _ holds => holds.1
  cases same
  exact meets_fractionPart significand 0

theorem meets_number (negative : Bool) : Meets (NextIs (Numeric v depth others) (isDigit · = true)) (number negative)
    (fun _ => Numeric v depth others) (Numeric v depth others) := by
  refine .next_bind (fun holds => (not_nextIs_nil holds).elim) fun b => .ite (fun _ => ?_) fun _ => ?_
  · refine .bind (meets_nextIsDigit.starting fun _ => NextIs.behind_digit) fun found => .ite (fun same => ?_)
      fun other => ?_
    · subst same
      exact .throw_bind fun _ next => next.1
    · rw [if_neg other]
      exact meets_afterInteger 0 negative
  · refine .ite (fun _ => .get_bind fun q next => ?_) fun _ => .throw fun _ => NextIs.behind_digit
    have behind : Numeric v depth others (extend (digitValue b) q).2.2 :=
      extend_passes (fun _ => InNumber.digit) _ next.behind_digit
    refine .set_bind behind (meets_nextIsDigit.bind fun found => .ite (fun same => ?_) fun other => ?_)
    · subst same
      refine ((meets_skipDigits fun _ => InNumber.digit).starting fun _ next => next.1).bind fun extra => ?_
      refine .peek_bind (.ite (fun same => nomatch same) fun _ => (meets_realTail _ _).starting fun _ h => h.1)
        fun c => ?_
      refine .ite (fun same => ?_) fun _ => (meets_realTail _ _).starting fun _ h => h.1
      cases same
      exact meets_fractionPart _ _
    · rw [if_neg other]
      exact meets_afterInteger _ negative

/-- A number ends, read or not, among the bytes of numbers that stand there. -/
theorem meets_signedNumber :
    Meets (NextIs (Numeric v depth others) fun b => b = byte '-' ∨ isDigit b = true) signedNumber
      (fun _ => Numeric v depth others) (Numeric v depth others) := by
  refine .peek_bind (.never ?_) fun b => .ite (fun same => ?_) fun other => ?_
  · rintro _ ⟨next, rfl⟩
    exact not_nextIs_nil next
  · cases same
    refine .bind (.drop fun q next => ?_) fun _ => meets_number true
    obtain ⟨holds, digit⟩ := next.of_cons.1.minus
    exact ⟨holds, digit⟩
  · refine (meets_number false).starting ?_
    rintro q ⟨⟨holds, c, rest, rfl, starts⟩, head⟩
    cases head
    exact ⟨holds, b, rest, rfl, starts.resolve_left fun same => other (congrArg some same)⟩

end QueryGate.Json
