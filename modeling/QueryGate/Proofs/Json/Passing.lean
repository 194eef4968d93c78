import QueryGate.Proofs.Json.Skipping

/-!
# Where a value ends

A value that can be passed over ends where its brackets or its string close, and a number ends before the first byte
of which no number is made, unless such a byte follows it directly.
-/

namespace QueryGate.Json

open Mode Reader

variable {c : Option Bytes} {depth : Nat} {b : UInt8} {q bytes rest : Bytes}

/-! ### Strings -/

theorem at_hex_drop (holds : At c (hex 4) depth q) (enough : 4 ≤ q.length) : At c string depth (q.drop 4) := by
  rcases q with _ | ⟨_, _ | ⟨_, _ | ⟨_, _ | ⟨_, q⟩⟩⟩⟩
  case cons.cons.cons.cons => exact holds
  all_goals simp at enough

theorem passes_hexNumber : Meets (At c (hex 4) depth) hexNumber (fun _ => At c string depth) Anywhere := by
  refine .get_bind fun q holds => .modify_bind (fun rest => 4 ≤ q.length → At c string depth rest) ?_ ?_
  · rintro _ rfl
    exact at_hex_drop holds
  · refine .ite (fun _ => .throw_bind fun q _ => anywhere q) fun enough => ?_
    rw [List.length_take] at enough
    split
    · exact .pure fun _ behind => behind (by omega)
    · exact .throw fun q _ => anywhere q

theorem passes_skipText : Meets (At c string depth) skipText (fun _ => At c outside depth) Anywhere := by
  refine .iterate (fun _ => At c string depth) (fun _ q _ => anywhere q) (fun _ => ?_) ()
  refine .next_bind (fun _ => trivial) fun b => .ite (fun same => ?_) fun noQuote => .ite (fun same => ?_)
    fun noEscape => ?_
  · subst same
    exact .pure fun _ => at_unquoted
  · subst same
    refine .next_bind (fun _ => trivial) fun b => .ite (fun same => ?_) fun other => ?_
    · subst same
      have hexed := passes_hexNumber.starting fun q (holds : At c string depth (byte '\\' :: byte 'u' :: q)) =>
        at_hexed (at_escaped holds)
      exact .bind (.discard hexed) fun _ => .pure fun _ holds => holds
    · refine .ite (fun _ => .throw_bind fun q _ => anywhere q) fun _ => .pure fun q holds => ?_
      exact at_lettered other (at_escaped holds)
  · exact .ite (fun _ => .throw fun q _ => anywhere q) fun _ => .pure fun _ => at_plain noQuote noEscape

/-! ### Words -/

theorem passes_restOfWord (depth : Nat) (rest : String) :
    Meets (At c (behind (letters rest)) depth) (restOfWord rest) (fun _ => At c outside depth) Anywhere := by
  unfold restOfWord letters
  induction rest.toList with
  | nil => exact .pure fun _ holds => holds
  | cons letter others ih =>
    refine .bind (.next_bind (fun _ => trivial) fun b => ?_) fun _ => ih
    refine .ite (fun same => .pure fun q holds => ?_) fun _ => .throw fun q _ => anywhere q
    subst same
    change close (byte letter :: q) (word (byte letter :: others.map byte)) depth = c at holds
    rwa [close_cons (by simp), advance, if_pos rfl] at holds

/-! ### Numbers -/

section

variable {P due signed : Bytes → Prop}

/-- Properties of places that the bytes of a number keep: between its parts, where a digit is due, and behind the mark
of an exponent. -/
structure ChartsNumbers (P due signed : Bytes → Prop) : Prop where
  digit {b : UInt8} (digit : isDigit b = true) : Passes P b
  point {q : Bytes} (holds : P (byte '.' :: q)) : due q
  mark {b : UInt8} {q : Bytes} (marks : b = byte 'e' ∨ b = byte 'E') (holds : P (b :: q)) : signed q
  sign {b : UInt8} {q : Bytes} (signs : b = byte '+' ∨ b = byte '-') (holds : signed (b :: q)) : due q
  unsigned {q : Bytes} (holds : signed q) : due q
  first {b : UInt8} {q : Bytes} (digit : isDigit b = true) (holds : due (b :: q)) : P q

namespace ChartsNumbers

variable (charts : ChartsNumbers P due signed)

include charts

theorem passes_skipSomeDigits : Meets due skipSomeDigits (fun _ => P) Anywhere := by
  have taken : Meets due skipDigits (fun count q => count ≠ 0 → P q) Anywhere := by
    intro q holds
    rw [reads_skipDigits q]
    intro some_
    cases q with
    | nil => simp at some_
    | cons b q =>
      cases digit : isDigit b with
      | false => simp [digit] at some_
      | true =>
        rw [List.dropWhile_cons_of_pos digit]
        exact passes_dropWhile (fun _ => charts.digit) (charts.first digit holds)
  refine taken.bind fun count => .ite (fun _ => .throw fun q _ => anywhere q) fun given => .pure fun _ behind => ?_
  exact behind given

theorem passes_skipFraction : Meets P skipFraction (fun _ => P) Anywhere := by
  refine .peek_bind (.ite (fun same => nomatch same) fun _ => .pure fun _ holds => holds.1) fun b => ?_
  refine .ite (fun same => ?_) fun _ => .pure fun _ holds => holds.1
  cases same
  exact .bind (.drop fun _ => charts.point) fun _ => charts.passes_skipSomeDigits

theorem passes_skipExponent : Meets P skipExponent (fun _ => P) Anywhere := by
  refine (meets_nextIsExponent.failing fun q _ => anywhere q).bind fun found => .ite (fun same => ?_) fun other => ?_
  · subst same
    have marked : Meets (NextIs P fun b => b = byte 'e' ∨ b = byte 'E') drop (fun _ => signed) Anywhere := by
      rintro _ ⟨holds, b, rest, rfl, marks⟩
      exact charts.mark marks holds
    refine marked.bind fun _ => .peek_bind ?_ fun b => .ite (fun signs => ?_) fun _ => ?_
    · refine .ite (fun signs => ?_) fun _ =>
        charts.passes_skipSomeDigits.starting fun _ holds => charts.unsigned holds.1
      rcases signs with same | same <;> cases same
    · refine .bind (.drop fun _ => charts.sign ?_) fun _ => charts.passes_skipSomeDigits
      simpa using signs
    · exact charts.passes_skipSomeDigits.starting fun _ holds => charts.unsigned holds.1
  · rw [if_neg other]
    exact .pure fun _ holds => holds

theorem passes_skipNumber {start : Bytes → Prop} (minus : ∀ q, start (byte '-' :: q) → due q)
    (begins : ∀ q, start q → due q) : Meets start skipNumber (fun _ => P) Anywhere := by
  have rest : Meets P (do skipFraction; skipExponent) (fun _ => P) Anywhere :=
    charts.passes_skipFraction.bind fun _ => charts.passes_skipExponent
  have digits : Meets due (do
      if (← peek) = some (byte '0') then
        drop
        if ← nextIsDigit then throw "invalid number"
      else skipSomeDigits
      skipFraction
      skipExponent) (fun _ => P) Anywhere := by
    have several := charts.passes_skipSomeDigits.bind fun _ => rest
    refine .peek_bind (.ite (fun same => nomatch same) fun _ => several.starting fun _ holds => holds.1) fun b => ?_
    refine .ite (fun same => ?_) fun _ => several.starting fun _ holds => holds.1
    cases same
    refine .bind (.drop fun _ => charts.first (by decide)) fun _ => ?_
    refine (meets_nextIsDigit.failing fun q _ => anywhere q).bind fun found => .ite (fun _ => ?_) fun other => ?_
    · exact .throw_bind fun q _ => anywhere q
    · rw [if_neg other]
      exact rest
  refine .peek_bind (.ite (fun same => nomatch same) fun _ => digits.starting fun _ holds => begins _ holds.1) ?_
  refine fun b => .ite (fun same => ?_) fun _ => digits.starting fun _ holds => begins _ holds.1
  cases same
  exact .bind (.drop minus) fun _ => digits

end ChartsNumbers

theorem chartsNumbers_of_passes (each : ∀ b, isNumeric b = true → Passes P b) : ChartsNumbers P P P where
  digit digit := each _ (by simp [isNumeric, digit])
  point holds := each _ (by decide) _ holds
  mark marks holds := each _ (by rcases marks with rfl | rfl <;> decide) _ holds
  sign signs holds := each _ (by rcases signs with rfl | rfl <;> decide) _ holds
  unsigned holds := holds
  first digit holds := each _ (by simp [isNumeric, digit]) _ holds

end

/-- A digit, if one is next, leads to a place between the parts of a number. -/
def DigitLeads (c : Option Bytes) (depth : Nat) (q : Bytes) : Prop :=
  ∀ b rest, q = b :: rest → isDigit b = true → At c outside (depth + 1) rest

theorem digitLeads_of_due (holds : At c digitDue (depth + 1) q) : DigitLeads c depth q := by
  rintro b rest rfl digit
  rwa [At, close_cons (by simp), advance, if_pos digit] at holds

theorem chartsNumbers_at (c : Option Bytes) (depth : Nat) :
    ChartsNumbers (At c outside (depth + 1)) (DigitLeads c depth) (At c exponent (depth + 1)) where
  digit digit := passes_spacing (by simp [isSpacing, digit])
  point holds := digitLeads_of_due holds
  mark marks holds := by rcases marks with rfl | rfl <;> exact holds
  sign {b q} signs holds := by
    refine digitLeads_of_due ?_
    rwa [At, close_cons (by simp), advance, if_neg (by rcases signs with rfl | rfl <;> decide), if_pos signs] at holds
  unsigned holds := by
    rintro b rest rfl digit
    rwa [At, close_cons (by simp), advance, if_pos digit] at holds
  first digit holds := holds _ _ rfl digit

theorem skipNumber_at (c : Option Bytes) (depth : Nat) :
    Meets (At c outside (depth + 1)) skipNumber (fun _ => At c outside (depth + 1)) Anywhere := by
  refine (chartsNumbers_at c depth).passes_skipNumber (fun _ => digitLeads_of_due) ?_
  rintro _ holds b rest rfl digit
  exact passes_spacing (by simp [isSpacing, digit]) rest holds

/-! ### Values -/

theorem charts_at (c : Option Bytes) :
    Charts (At c outside) (At c string) fun depth rest => At c (behind (letters rest)) depth where
  spacing := passes_spacing
  opened := at_opened
  closed := at_closed
  quoted := at_quoted
  null holds := holds
  true holds := holds
  false holds := holds
  text _ := passes_skipText
  word := passes_restOfWord
  number := skipNumber_at c

/-- A value that is no number ends where its string, its word or its brackets do. -/
theorem entered_of_skipValue (opens : IsOpening b) (starts : StartsWith b q bytes)
    (reads : Reads skipValue bytes () rest) : Entered (some rest) 0 b q := by
  -- wherever what was begun closes, that is where the value ends
  obtain ⟨c, entered⟩ : ∃ c, Entered c 0 b q := ⟨_, rfl⟩
  have enters : Charts.Enters (At c outside) (At c string) (fun depth rest => At c (behind (letters rest)) depth) 0 b
      q := by
    refine ⟨?_, ?_, ?_, ?_, ?_⟩
    all_goals first
      | (rintro rfl; exact entered)
      | (rintro (rfl | rfl) <;> exact entered)
  have stops : At c outside 0 rest := ((charts_at c).meets_skipValue_opening opens enters).after_reads starts reads
  rw [At, close_zero] at stops
  rwa [stops]

theorem startsWith_of_skipValue (reads : Reads skipValue bytes () rest) : ∃ b q, StartsWith b q bytes := by
  cases starts : bytes.dropWhile isBlank with
  | cons b q => exact ⟨b, q, starts⟩
  | nil =>
    have each (frames : List Frame) : Meets (fun bytes => bytes.dropWhile isBlank = []) (skipStep frames)
        (Sum.elim (fun _ bytes => bytes.dropWhile isBlank = []) fun _ _ => False) Anywhere :=
      not_skipStep_blank frames _
    exact (((Meets.iterate _ (fun _ q _ => anywhere q) each []).after_reads starts reads : False)).elim

/-- Until its first digit has been taken, a number is where it began. -/
theorem isNumberStart_of_skipNumber : Meets (· = b :: q) skipNumber (fun _ _ => IsNumberStart b) Anywhere := by
  have charts : ChartsNumbers (fun _ => IsNumberStart b) (fun rest => rest = b :: q ∨ IsNumberStart b)
      fun _ => IsNumberStart b :=
    { digit := fun _ _ holds => holds
      point := .inr
      mark := fun _ holds => holds
      sign := fun _ holds => .inr holds
      unsigned := .inr
      first := by
        rintro b _ digit (same | holds)
        · cases same
          exact .inr digit
        · exact holds }
  refine charts.passes_skipNumber (fun _ same => .inr (.inl ?_)) fun _ same => .inl same
  exact (List.cons.inj same).1.symm

/-- What is no other value is a number, which ends before the bytes of which no number is made. -/
theorem number_of_skipValue (noOpening : ¬ IsOpening b) (starts : StartsWith b q bytes)
    (reads : Reads skipValue bytes () rest) :
    IsNumberStart b ∧ (∀ depth, close rest outside (depth + 1) = close (b :: q) outside (depth + 1)) ∧
      rest.dropWhile isNumeric = (b :: q).dropWhile isNumeric := by
  refine ⟨?_, fun depth => ?_, ?_⟩
  · exact (meets_skipValue_number noOpening isNumberStart_of_skipNumber rfl).after_reads starts reads
  · exact (meets_skipValue_number noOpening (skipNumber_at _ depth) rfl).after_reads starts reads
  · have each (other : UInt8) (numeric : isNumeric other = true) :
        Passes (fun rest => rest.dropWhile isNumeric = (b :: q).dropWhile isNumeric) other := by
      intro rest same
      rwa [List.dropWhile_cons_of_pos numeric] at same
    have number : Meets (fun rest => rest.dropWhile isNumeric = (b :: q).dropWhile isNumeric) skipNumber
        (fun _ rest => rest.dropWhile isNumeric = (b :: q).dropWhile isNumeric) Anywhere :=
      (chartsNumbers_of_passes each).passes_skipNumber (each _ (by decide)) fun _ holds => holds
    exact (meets_skipValue_number noOpening number rfl).after_reads starts reads

/-- A value that is passed over leaves as many brackets open as there were. -/
theorem close_skipValue (reads : Reads skipValue bytes () rest) (depth : Nat) :
    close rest outside (depth + 1) = close bytes outside (depth + 1) := by
  obtain ⟨b, q, starts⟩ := startsWith_of_skipValue reads
  have visible : close (b :: q) outside (depth + 1) = close bytes outside (depth + 1) := by
    have kept : At (close bytes outside (depth + 1)) outside (depth + 1) (bytes.dropWhile isBlank) :=
      passes_dropWhile passesBlanks_outside rfl
    rwa [starts] at kept
  rw [← visible]
  by_cases opens : IsOpening b
  · have entered := entered_of_skipValue opens starts reads
    have outer {mode : Mode} {inner : Nat} (place : At (some rest) mode inner q) :
        close rest outside (depth + 1) = close q mode (depth + 1 + inner) := by
      rw [Nat.add_comm (depth + 1), place.outer]
    rcases opens with rfl | rfl | rfl | rfl | rfl | rfl
    all_goals exact outer entered
  · exact (number_of_skipValue opens starts reads).2.1 depth

end QueryGate.Json
