import QueryGate.Proofs.Json.Containment
import QueryGate.Proofs.Json.Values

/-!
# Values passed over

Where a value ends that is passed over. The proof goes once through the readers that pass over values, for any
properties of places that the bytes of values keep; it is used for places told by open brackets, and for places that
another reading holds to lie in a string.
-/

namespace QueryGate.Json

open Mode Reader

variable {depth : Nat} {b : UInt8} {q : Bytes}

/-- Properties of places within so many open brackets that the bytes of values keep: outside of strings, in a string,
and in a word of which some letters are due. -/
structure Charts (outer inner : Nat → Bytes → Prop) (inWord : Nat → String → Bytes → Prop) : Prop where
  spacing {depth : Nat} {b : UInt8} (spaces : isSpacing b = true) : Passes (outer (depth + 1)) b
  opened {depth : Nat} {b : UInt8} {q : Bytes} (bracket : IsBracket b) (holds : outer (depth + 1) (b :: q)) :
    outer (depth + 2) q
  closed {depth : Nat} {b : UInt8} {q : Bytes} (closes : b = byte ']' ∨ b = byte '\x7d')
    (holds : outer (depth + 1) (b :: q)) : outer depth q
  quoted {depth : Nat} {q : Bytes} (holds : outer (depth + 1) (byte '"' :: q)) : inner (depth + 1) q
  null {depth : Nat} {q : Bytes} (holds : outer (depth + 1) (byte 'n' :: q)) : inWord (depth + 1) "ull" q
  true {depth : Nat} {q : Bytes} (holds : outer (depth + 1) (byte 't' :: q)) : inWord (depth + 1) "rue" q
  false {depth : Nat} {q : Bytes} (holds : outer (depth + 1) (byte 'f' :: q)) : inWord (depth + 1) "alse" q
  text (depth : Nat) : Meets (inner depth) skipText (fun _ => outer depth) Anywhere
  word (depth : Nat) (rest : String) : Meets (inWord depth rest) (restOfWord rest) (fun _ => outer depth) Anywhere
  number (depth : Nat) : Meets (outer (depth + 1)) skipNumber (fun _ => outer (depth + 1)) Anywhere

theorem anywhere (q : Bytes) : Anywhere q := trivial

/-- Something is open, and the place lies outside of strings. -/
def Unfinished (outer : Nat → Bytes → Prop) (frames : List Frame) (q : Bytes) : Prop :=
  frames ≠ [] ∧ outer frames.length q

/-- Behind a value: before the next one, or where nothing is open any more. -/
def Passed (outer : Nat → Bytes → Prop) : List Frame ⊕ Unit → Bytes → Prop :=
  Sum.elim (Unfinished outer) fun _ => outer 0

/-- There is a value to be passed over. -/
theorem not_skipStep_blank (frames : List Frame) (after : List Frame ⊕ Unit → Bytes → Prop) :
    Meets (fun bytes => bytes.dropWhile isBlank = []) (skipStep frames) after Anywhere :=
  .blank_bind (.throw fun q _ => anywhere q)

/-- What begins like no other value is passed over as a number. -/
theorem meets_skipStep_number {before between : Bytes → Prop} {after : List Frame ⊕ Unit → Bytes → Prop}
    {frames : List Frame} (noOpening : ¬ IsOpening b) (number : Meets before skipNumber (fun _ => between) Anywhere)
    (closes : Meets between (closeFrames frames) after Anywhere) (holds : before (b :: q)) :
    Meets (StartsWith b q) (skipStep frames) after Anywhere := by
  simp only [IsOpening, IsBracket, not_or] at noOpening
  obtain ⟨noQuote, noNull, noTrue, noFalse, noArray, noObject⟩ := noOpening
  refine .startsWith_bind fun _ => ?_
  simp only [if_neg noQuote, if_neg noNull, if_neg noTrue, if_neg noFalse, if_neg noArray, if_neg noObject]
  refine (number.starting ?_).bind fun _ => closes
  rintro _ rfl
  exact holds

theorem meets_skipValue_number {before after : Bytes → Prop} (noOpening : ¬ IsOpening b)
    (number : Meets before skipNumber (fun _ => after) Anywhere) (holds : before (b :: q)) :
    Meets (StartsWith b q) skipValue (fun _ => after) Anywhere := by
  have closes : Meets after (closeFrames []) (Sum.elim (fun _ _ => False) fun _ => after) Anywhere := by
    intro bytes holds
    rw [reads_closeFrames_end]
    exact holds
  have each (frames : List Frame) : Meets (fun bytes => frames = [] ∧ StartsWith b q bytes) (skipStep frames)
      (Sum.elim (fun (frames : List Frame) bytes => frames = [] ∧ StartsWith b q bytes) fun _ => after) Anywhere := by
    refine .fix ?_
    rintro rfl
    refine (meets_skipStep_number noOpening number closes holds).mono (fun _ h => h) ?_ fun _ h => h
    rintro (frames | _) q holds
    · exact holds.elim
    · exact holds
  exact (Meets.iterate _ (fun _ q _ => anywhere q) each []).starting fun _ starts => ⟨rfl, starts⟩

namespace Charts

variable {outer inner : Nat → Bytes → Prop} {inWord : Nat → String → Bytes → Prop} (charts : Charts outer inner inWord)

include charts

theorem passesBlanks : PassesBlanks (outer (depth + 1)) :=
  fun _ blank => charts.spacing (by simp [isSpacing, blank])

theorem meets_skipName : Meets (outer (depth + 1)) skipName (fun _ => outer (depth + 1)) Anywhere := by
  refine .peekPast_bind charts.passesBlanks
    (.ite (fun same => nomatch same) fun _ => .throw_bind fun q _ => anywhere q) ?_
  refine fun b _ => .ite (fun same => ?_) fun _ => .throw_bind fun q _ => anywhere q
  cases same
  refine .bind (.drop fun _ => charts.quoted) fun _ => (charts.text _).bind fun _ => ?_
  exact meets_colon charts.passesBlanks (fun q _ => anywhere q) fun q => charts.spacing (by decide) q

theorem meets_closeStep (frames : List Frame) : Meets (outer frames.length) (closeStep frames)
    (Sum.elim (fun (frames : List Frame) => outer frames.length) (Passed outer)) Anywhere := by
  cases frames with
  | nil => exact .pure fun _ holds => holds
  | cons frame frames =>
    refine .peekPast_bind charts.passesBlanks (.throw fun q _ => anywhere q) fun b _ => .ite (fun same => ?_)
      fun _ => ?_
    · subst same
      have goesOn (q : Bytes) (holds : outer (frames.length + 1) q) : Passed outer (.inl (frame :: frames)) q :=
        ⟨List.cons_ne_nil _ _, holds⟩
      refine .bind (.drop fun q => charts.spacing (by decide) q) fun _ => .ite (fun _ => ?_) fun _ => .pure goesOn
      exact charts.meets_skipName.bind fun _ => .pure goesOn
    · refine .ite (fun same => ?_) fun _ => .throw fun q _ => anywhere q
      refine .bind (.drop fun q => charts.closed ?_) fun _ => .pure fun _ holds => holds
      rw [same]
      split
      · exact .inl rfl
      · exact .inr rfl

theorem meets_closeFrames (frames : List Frame) :
    Meets (outer frames.length) (closeFrames frames) (Passed outer) Anywhere :=
  .iterate (fun (frames : List Frame) => outer frames.length) (fun _ q _ => anywhere q) charts.meets_closeStep frames

/-- What holds behind the first byte of a value that is no number. -/
def Enters (outer inner : Nat → Bytes → Prop) (inWord : Nat → String → Bytes → Prop) (depth : Nat) (b : UInt8)
    (q : Bytes) : Prop :=
  (b = byte '"' → inner depth q) ∧ (b = byte 'n' → inWord depth "ull" q) ∧ (b = byte 't' → inWord depth "rue" q) ∧
    (b = byte 'f' → inWord depth "alse" q) ∧ (IsBracket b → outer (depth + 1) q)

/-- Behind the opening of an array or an object. -/
theorem meets_opened {reader : Reader (List Frame ⊕ Unit)} {closer : Char} (frames : List Frame)
    (closes : byte closer = byte ']' ∨ byte closer = byte '\x7d')
    (reads : Meets (outer (frames.length + 1)) reader (Passed outer) Anywhere) :
    Meets (outer (frames.length + 1)) (do
      if (← peekPast) = some (byte closer) then
        drop
        closeFrames frames
      else reader) (Passed outer) Anywhere := by
  refine .peekPast_bind charts.passesBlanks (.ite (fun same => nomatch same) fun _ => reads.starting fun _ h => h.1) ?_
  refine fun b _ => .ite (fun same => ?_) fun _ => reads.starting fun _ h => h.1
  cases same
  exact .bind (.drop fun q => charts.closed closes) fun _ => charts.meets_closeFrames frames

theorem meets_skipStep_opening (frames : List Frame) (opens : IsOpening b)
    (enters : Enters outer inner inWord frames.length b q) :
    Meets (StartsWith b q) (skipStep frames) (Passed outer) Anywhere := by
  obtain ⟨quoted, null, true_, false_, bracketed⟩ := enters
  have closes := charts.meets_closeFrames frames
  have inFrame (frame : Frame) (q : Bytes) (holds : outer (frames.length + 1) q) :
      Passed outer (.inl (frame :: frames)) q :=
    ⟨List.cons_ne_nil _ _, holds⟩
  refine .startsWith_bind fun _ => .ite (fun same => ?_) fun noArray => .ite (fun same => ?_) fun noObject => ?_
  · refine .bind (meets_drop_eq (bracketed (.inl same))) fun _ => ?_
    exact charts.meets_opened frames (.inl rfl) (.pure (inFrame .array))
  · refine .bind (meets_drop_eq (bracketed (.inr same))) fun _ => ?_
    exact charts.meets_opened frames (.inr rfl) (charts.meets_skipName.bind fun _ => .pure (inFrame .object))
  · refine .ite (fun same => ?_) fun noQuote => .ite (fun same => ?_) fun noNull => ?_
    · exact .bind (meets_drop_eq (quoted same)) fun _ => (charts.text _).bind fun _ => closes
    · exact .bind (meets_drop_eq (null same)) fun _ => (charts.word _ _).bind fun _ => closes
    refine .ite (fun same => ?_) fun noTrue => .ite (fun same => ?_) fun noFalse => ?_
    · exact .bind (meets_drop_eq (true_ same)) fun _ => (charts.word _ _).bind fun _ => closes
    · exact .bind (meets_drop_eq (false_ same)) fun _ => (charts.word _ _).bind fun _ => closes
    · simp only [IsOpening, IsBracket, noArray, noObject, noQuote, noNull, noTrue, noFalse, or_self] at opens

theorem enters_of_outer (holds : outer (depth + 1) (b :: q)) : Enters outer inner inWord (depth + 1) b q := by
  refine ⟨?_, ?_, ?_, ?_, fun bracket => charts.opened bracket holds⟩
  · rintro rfl
    exact charts.quoted holds
  · rintro rfl
    exact charts.null holds
  · rintro rfl
    exact charts.true holds
  · rintro rfl
    exact charts.false holds

theorem meets_skipStep (frames : List Frame) :
    Meets (Unfinished outer frames) (skipStep frames) (Passed outer) Anywhere := by
  rintro bytes ⟨opened, holds⟩
  obtain ⟨frame, frames, rfl⟩ := List.exists_cons_of_ne_nil opened
  have behind : outer (frames.length + 1) (bytes.dropWhile isBlank) := passes_dropWhile charts.passesBlanks holds
  cases starts : bytes.dropWhile isBlank with
  | nil => exact not_skipStep_blank (frame :: frames) _ bytes starts
  | cons b q =>
    rw [starts] at behind
    by_cases opens : IsOpening b
    · exact charts.meets_skipStep_opening (frame :: frames) opens (charts.enters_of_outer behind) bytes starts
    · exact meets_skipStep_number opens (charts.number _) (charts.meets_closeFrames (frame :: frames)) behind bytes
        starts

theorem meets_skipValue_opening (opens : IsOpening b) (enters : Enters outer inner inWord 0 b q) :
    Meets (StartsWith b q) skipValue (fun _ => outer 0) Anywhere := by
  have each (frames : List Frame) :
      Meets (fun bytes => (frames = [] ∧ StartsWith b q bytes) ∨ Unfinished outer frames bytes) (skipStep frames)
        (Sum.elim (fun (frames : List Frame) bytes => (frames = [] ∧ StartsWith b q bytes) ∨
          Unfinished outer frames bytes) fun _ => outer 0) Anywhere := by
    have stops : Meets (fun bytes => (frames = [] ∧ StartsWith b q bytes) ∨ Unfinished outer frames bytes)
        (skipStep frames) (Passed outer) Anywhere := by
      rintro bytes (⟨rfl, starts⟩ | unfinished)
      · exact charts.meets_skipStep_opening [] opens enters bytes starts
      · exact charts.meets_skipStep frames bytes unfinished
    refine stops.mono (fun _ h => h) ?_ fun _ h => h
    rintro (frames | _) q passed
    · exact .inr passed
    · exact passed
  exact (Meets.iterate _ (fun _ q _ => anywhere q) each []).starting fun _ starts => .inl ⟨rfl, starts⟩

end Charts
end QueryGate.Json
