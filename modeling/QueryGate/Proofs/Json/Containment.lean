import QueryGate.Proofs.Json.Places

/-!
# Values within brackets

Where the reader of any value stops. If the value can be read, behind it; if not, the brackets that were open before
it are still open, though the place may lie in a string. So a reading that goes on behind a value that could not be
read goes on within the same brackets, or deeper, or in a string.
-/

namespace QueryGate.Json

open Mode Reader

variable {σ α : Type} {v : Bytes} {depth : Nat} {b : UInt8} {q others : Bytes}

/-- At least so many brackets are open, and the place may lie in a string. -/
def Within (v : Option Bytes) (depth : Nat) (q : Bytes) : Prop :=
  ∃ inner, depth ≤ inner ∧ (At v outside inner q ∨ At v string inner q)

theorem within_outside {v : Option Bytes} (holds : At v outside depth q) : Within v depth q :=
  ⟨depth, Nat.le_refl _, .inl holds⟩

theorem within_inString {v : Option Bytes} (holds : InString v depth q) : Within v depth q :=
  ⟨depth, Nat.le_refl _, holds.symm⟩

theorem Within.weaken {v : Option Bytes} {outer : Nat} (within : Within v depth q) (le : outer ≤ depth) :
    Within v outer q := by
  obtain ⟨inner, deeper, place⟩ := within
  exact ⟨inner, Nat.le_trans le deeper, place⟩

/-- Bytes that a string goes on with, whatever they are outside of strings. -/
theorem Within.passes {v : Option Bytes} (spacing : isSpacing b = true) : Passes (Within v (depth + 1)) b := by
  rintro q ⟨inner, deeper, place⟩
  obtain ⟨inner, rfl⟩ := Nat.exists_eq_add_one_of_ne_zero (show inner ≠ 0 by omega)
  refine ⟨inner + 1, deeper, place.imp (passes_spacing spacing q) (at_plain ?_ ?_)⟩
  · rintro rfl
    cases spacing
  · rintro rfl
    cases spacing

theorem Within.passesBlanks {v : Option Bytes} : PassesBlanks (Within v (depth + 1)) :=
  fun _ blank => Within.passes (by simp [isSpacing, blank])

theorem Within.closed {v : Option Bytes} (closes : b = byte ']' ∨ b = byte '\x7d')
    (within : Within v (depth + 1) (b :: q)) : Within v depth q := by
  obtain ⟨inner, deeper, place⟩ := within
  obtain ⟨inner, rfl⟩ := Nat.exists_eq_add_one_of_ne_zero (show inner ≠ 0 by omega)
  obtain outside | inside := place
  · exact ⟨inner, by omega, .inl (at_closed closes outside)⟩
  · refine ⟨inner + 1, by omega, .inr (at_plain ?_ ?_ inside)⟩ <;> rcases closes with rfl | rfl <;> decide

theorem meets_endArray_outside : Meets (At (some v) outside (depth + 1)) endArray
    (fun _ => At (some v) outside depth) (Within (some v) depth) :=
  meets_endArray passesBlanks_outside (fun _ holds => (within_outside holds).weaken (Nat.le_succ _))
    (fun _ => at_closed (.inl rfl)) fun q holds =>
      (within_outside (passes_spacing (by decide) q holds)).weaken (Nat.le_succ _)

theorem meets_endObject_outside : Meets (At (some v) outside (depth + 1)) endObject
    (fun _ => At (some v) outside depth) (Within (some v) depth) :=
  meets_endObject passesBlanks_outside (fun _ holds => (within_outside holds).weaken (Nat.le_succ _))
    fun _ => at_closed (.inr rfl)

/-- An end that is taken behind something that could not be read need not be the right one. -/
theorem meets_endArray_within : Meets (Within (some v) (depth + 1)) endArray
    (fun _ => Within (some v) depth) (Within (some v) depth) :=
  meets_endArray Within.passesBlanks (fun _ within => within.weaken (Nat.le_succ _)) (fun _ => .closed (.inl rfl))
    fun q within => (Within.passes (by decide) q within).weaken (Nat.le_succ _)

theorem meets_endObject_within : Meets (Within (some v) (depth + 1)) endObject
    (fun _ => Within (some v) depth) (Within (some v) depth) :=
  meets_endObject Within.passesBlanks (fun _ within => within.weaken (Nat.le_succ _)) fun _ => .closed (.inr rfl)

def StaysWithin (v : Bytes) (depth : Nat) (reader : Reader α) : Prop :=
  Meets (At (some v) outside depth) reader (fun _ => At (some v) outside depth) (Within (some v) depth)

theorem staysWithin_colon : StaysWithin v (depth + 1) colon :=
  meets_colon passesBlanks_outside (fun _ => within_outside) fun q => passes_spacing (by decide) q

theorem staysWithin_items {item : σ → Reader σ} (each : ∀ s, StaysWithin v (depth + 1) (item s)) (start : σ) :
    StaysWithin v (depth + 1) (items item start) := by
  refine .iterate (fun _ => At (some v) outside (depth + 1)) (fun _ _ => within_outside) (fun (first, s) => ?_) _
  refine (meets_moreItems passesBlanks_outside (fun _ => within_outside) (passes_spacing (by decide)) first).bind ?_
  refine fun more => .ite (fun _ => ?_) fun _ => .pure fun _ holds => holds
  exact (each s).bind fun _ => .pure fun _ holds => holds

theorem staysWithin_members {member : σ → String → Reader σ}
    (each : ∀ s name, StaysWithin v (depth + 1) (member s name)) (start : σ) :
    StaysWithin v (depth + 1) (members member start) := by
  refine .iterate (fun _ => At (some v) outside (depth + 1)) (fun _ _ => within_outside) (fun (first, s) => ?_) _
  exact meets_memberStep passesBlanks_outside (fun _ => within_outside) (passes_spacing (by decide))
    (fun _ => at_quoted) (meets_text.failing fun _ => within_inString) each first s

def IsBracket (b : UInt8) : Prop :=
  b = byte '[' ∨ b = byte '\x7b'

def IsOpening (b : UInt8) : Prop :=
  b = byte '"' ∨ b = byte 'n' ∨ b = byte 't' ∨ b = byte 'f' ∨ IsBracket b

def IsNumberStart (b : UInt8) : Prop :=
  b = byte '-' ∨ isDigit b = true

/-- Behind the byte with which something begins, where so many brackets are open around it. -/
def Entered (v : Option Bytes) (depth : Nat) (b : UInt8) (q : Bytes) : Prop :=
  ((advance outside depth b).bind fun (mode, depth) => close q mode depth) = v

theorem entered_of_at {v : Option Bytes} (holds : At v outside (depth + 1) (b :: q)) : Entered v (depth + 1) b q := by
  rwa [At, close_outside] at holds

/-- What begins with a bracket may be refused without a look into it. Otherwise the reader stops behind a value that
it has read, and within the brackets around a value that it has not. -/
structure ReadsValues (reader : Reader α) : Prop where
  opening {v : Bytes} {depth : Nat} {b : UInt8} {q : Bytes} (opens : IsOpening b)
    (entered : Entered (some v) depth b q) :
    Meets (StartsWith b q) reader (fun _ => At (some v) outside depth)
      fun rest => Within (some v) depth rest ∨ (IsBracket b ∧ rest = b :: q)
  number {v : Bytes} {depth : Nat} {others : Bytes} {b : UInt8} {q : Bytes} (starts : IsNumberStart b)
    (holds : Numeric v depth others (b :: q)) :
    Meets (StartsWith b q) reader (fun _ => Numeric v depth others) (Numeric v depth others)
  other {b : UInt8} {q : Bytes} (noOpening : ¬ IsOpening b) (noNumber : ¬ IsNumberStart b) :
    Meets (StartsWith b q) reader (fun _ _ => False) (· = b :: q)

theorem ReadsValues.staysWithin {reader : Reader α} (reads : ReadsValues reader) :
    StaysWithin v (depth + 1) reader := by
  intro bytes place
  have behind : At (some v) outside (depth + 1) (bytes.dropWhile isBlank) :=
    passes_dropWhile passesBlanks_outside place
  cases starts : bytes.dropWhile isBlank with
  | nil =>
    rw [starts] at behind
    cases behind
  | cons b q =>
    rw [starts] at behind
    by_cases opens : IsOpening b
    · refine (reads.opening opens (entered_of_at behind)).mono (fun _ h => h) (fun _ _ h => h) ?_ bytes starts
      rintro q (within | ⟨_, rfl⟩)
      · exact within
      · exact within_outside behind
    · by_cases number : IsNumberStart b
      · exact (reads.number number ⟨behind, rfl⟩).mono (fun _ h => h) (fun _ _ h => h.1)
          (fun _ h => within_outside h.1) bytes starts
      · refine (reads.other opens number).mono (fun _ h => h) (fun _ _ h => h.elim) ?_ bytes starts
        rintro _ rfl
        exact within_outside behind

theorem meets_drop_eq {P : Bytes → Prop} {failed : Bytes → Prop} (behind : P q) :
    Meets (· = b :: q) drop (fun _ => P) failed := by
  rintro _ rfl
  exact behind

theorem IsNumberStart.not_isOpening (starts : IsNumberStart b) : ¬ IsOpening b := by
  rintro (rfl | rfl | rfl | rfl | rfl | rfl) <;> rcases starts with same | digit
  all_goals first
    | cases same
    | cases digit

theorem meets_array {item : σ → Reader σ} (each : ∀ s, StaysWithin v (depth + 1) (item s)) (start : σ) :
    Meets (At (some v) outside (depth + 1)) (followedBy (items item start) endArray)
      (fun _ => At (some v) outside depth) (Within (some v) depth) :=
  .followedBy (staysWithin_items each start) (fun _ => meets_endArray_outside) meets_endArray_within

theorem meets_object {member : σ → String → Reader σ} (each : ∀ s name, StaysWithin v (depth + 1) (member s name))
    (start : σ) : Meets (At (some v) outside (depth + 1)) (followedBy (members member start) endObject)
      (fun _ => At (some v) outside depth) (Within (some v) depth) :=
  .followedBy (staysWithin_members each start) (fun _ => meets_endObject_outside) meets_endObject_within

theorem readsValues_valueOf {part : Option (Reader Value)}
    (each : ∀ reader, part = some reader → ∀ v depth, StaysWithin v (depth + 1) reader) :
    ReadsValues (valueOf part) where
  opening {v depth b q} opens entered := by
    refine .startsWith_bind fun _ => (.ite (fun same => ?_) fun noQuote => .ite (fun same => ?_) fun noNull => ?_)
    · subst same
      refine .bind (meets_drop_eq (P := At (some v) string depth) entered) fun _ => ?_
      exact (meets_text.failing fun _ holds => .inl (within_inString holds)).bind fun _ => .pure fun _ holds => holds
    · subst same
      exact .bind (meets_drop_eq entered) fun _ => (meets_restOfWord "ull").bind fun _ => .pure fun _ holds => holds
    refine .ite (fun same => ?_) fun noTrue => .ite (fun same => ?_) fun noFalse => ?_
    · subst same
      exact .bind (meets_drop_eq entered) fun _ => (meets_restOfWord "rue").bind fun _ => .pure fun _ holds => holds
    · subst same
      exact .bind (meets_drop_eq entered) fun _ => (meets_restOfWord "alse").bind fun _ => .pure fun _ holds => holds
    have bracket : IsBracket b := by simpa [IsOpening, noQuote, noNull, noTrue, noFalse] using opens
    have place : At (some v) outside (depth + 1) q := by rcases bracket with rfl | rfl <;> exact entered
    refine .ite (fun starts => absurd opens (IsNumberStart.not_isOpening starts)) fun _ => .ite (fun _ => ?_)
      fun none => absurd bracket none
    split
    · exact .throw fun _ same => .inr ⟨bracket, same⟩
    · next reader =>
      have part := each reader rfl v depth
      refine .bind (meets_drop_eq place) fun _ => .ite (fun _ => ?_) fun _ => ?_
      · refine ((meets_array (fun taken => ?_) []).failing fun _ => .inl).bind fun _ => .pure fun _ holds => holds
        exact part.bind fun _ => .pure fun _ holds => holds
      · refine ((meets_object (fun taken name => ?_) []).failing fun _ => .inl).bind fun _ => .pure fun _ holds => holds
        exact staysWithin_colon.bind fun _ => part.bind fun _ => .pure fun _ holds => holds
  number {v depth others b q} starts holds := by
    have noOpening := starts.not_isOpening
    refine .startsWith_bind fun _ => (.ite (fun same => (noOpening (.inl same)).elim) fun _ => ?_)
    refine .ite (fun same => (noOpening (.inr (.inl same))).elim) fun _ => ?_
    refine .ite (fun same => (noOpening (.inr (.inr (.inl same)))).elim) fun _ => ?_
    refine .ite (fun same => (noOpening (.inr (.inr (.inr (.inl same))))).elim) fun _ => .ite (fun _ => ?_)
      fun no => (no starts).elim
    refine (meets_signedNumber.starting ?_).bind fun _ => .pure fun _ holds => holds
    rintro _ rfl
    exact ⟨holds, b, q, rfl, starts⟩
  other {b q} noOpening noNumber := by
    simp only [IsOpening, IsBracket, not_or] at noOpening
    obtain ⟨noQuote, noNull, noTrue, noFalse, noArray, noObject⟩ := noOpening
    refine .startsWith_bind fun _ => ?_
    simp only [if_neg noQuote, if_neg noNull, if_neg noTrue, if_neg noFalse]
    refine .ite (fun starts => (noNumber starts).elim) fun _ => .ite (fun bracket => ?_) fun _ => .throw
      fun _ same => same
    exact (bracket.elim noArray noObject).elim

theorem readsValues_value (nesting : Nat) : ReadsValues (value nesting) := by
  induction nesting with
  | zero => exact readsValues_valueOf fun _ none => nomatch none
  | succ nesting ih =>
    refine readsValues_valueOf fun reader same v depth => ?_
    cases same
    exact ih.staysWithin

end QueryGate.Json
