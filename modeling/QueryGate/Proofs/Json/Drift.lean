import QueryGate.Proofs.Json.Passing

/-!
# Readings that have drifted

A reading that has stopped within a string and goes on there takes for strings what stands between the strings of the
text, and the other way round. It never gets back: the strings that it reads hold no escapes, and what it reads between
them holds none either. Nor does it come to the end of the text, which the last string of the text has still to close.
-/

namespace QueryGate.Json

open Mode Reader

variable {tail : Bytes} {depth : Nat} {b : UInt8} {q : Bytes}

/-- A byte that may stand outside of strings. Not all letters do. -/
def IsFiller (b : UInt8) : Prop :=
  b.toNat < 0x80 ∧ b ∉ ['"', '\\', 'x', 'b', 'i', 'd'].map byte

instance (b : UInt8) : Decidable (IsFiller b) := by unfold IsFiller; infer_instance

theorem IsFiller.ne {c : Char} (filler : IsFiller b) (listed : c ∈ ['"', '\\', 'x', 'b', 'i', 'd']) : b ≠ byte c := by
  rintro rfl
  exact filler.2 (List.mem_map_of_mem listed)

theorem IsFiller.no_quote (filler : IsFiller b) : b ≠ byte '"' :=
  filler.ne (by simp)

theorem IsFiller.no_escape (filler : IsFiller b) : b ≠ byte '\\' :=
  filler.ne (by simp)

/-- The place lies in no string. -/
def Mode.IsAdrift : Mode → Prop
  | outside | digitDue | exponent => True
  | word letters => ∀ letter ∈ letters, IsFiller letter
  | string | escape | hex _ => False

/-- In a string, for the text: between strings, for the reading. -/
def Adrift (tail q : Bytes) : Prop :=
  ∃ depth, At (some tail) string depth q

/-- In no string, for the text: in one, for the reading. Behind the text there are only blanks. -/
def Outlying (tail q : Bytes) : Prop :=
  (∀ b ∈ q, isBlank b = true) ∨
    ∃ mode depth, mode.IsAdrift ∧ ¬ (mode = outside ∧ depth = 0) ∧ At (some tail) mode depth q

theorem isFiller_of_blank (blank : isBlank b = true) : IsFiller b := by
  simp only [isBlank, Bool.or_eq_true, decide_eq_true_eq] at blank
  rcases blank with ((rfl | rfl) | rfl) | rfl <;> decide

theorem isFiller_of_digit (digit : isDigit b = true) : IsFiller b := by
  refine ⟨?_, fun listed => ?_⟩
  · simp only [isDigit, Bool.and_eq_true, decide_eq_true_eq, UInt8.le_iff_toNat_le] at digit
    exact Nat.lt_of_le_of_lt digit.2 (by decide)
  · have noDigits : (['"', '\\', 'x', 'b', 'i', 'd'].map byte).all (fun b => !isDigit b) = true := by decide
    have other := List.all_eq_true.mp noDigits b listed
    rw [digit] at other
    cases other

theorem isFiller_of_spacing (spacing : isSpacing b = true) : IsFiller b := by
  simp only [isSpacing, Bool.or_eq_true, decide_eq_true_eq] at spacing
  obtain ((blank | digit) | rfl) | rfl := spacing
  · exact isFiller_of_blank blank
  · exact isFiller_of_digit digit
  · decide
  · decide

/-- The letters of the words behind their first ones. -/
theorem isFiller_of_mem_word {word : String} (named : word ∈ ["ull", "rue", "alse"]) {c : Char}
    (member : c ∈ word.toList) : IsFiller (byte c) := by
  have all : (["ull", "rue", "alse"].all fun word => word.toList.all fun c => decide (IsFiller (byte c))) = true := by
    decide
  exact of_decide_eq_true (List.all_eq_true.mp (List.all_eq_true.mp all word named) c member)

theorem isAdrift_behind {letters : Bytes} (each : ∀ letter ∈ letters, IsFiller letter) : (behind letters).IsAdrift := by
  cases letters with
  | nil => trivial
  | cons letter others => exact each

/-- A byte in no string is the quote of the next string, or leads to no string. -/
theorem advance_adrift {mode next : Mode} {inner : Nat} (adrift : mode.IsAdrift)
    (leads : advance mode depth b = some (next, inner)) :
    (b = byte '"' ∧ next = string) ∨ (IsFiller b ∧ next.IsAdrift) := by
  cases mode with
  | string | escape | hex => exact adrift.elim
  | outside =>
    simp only [advance] at leads
    split at leads
    · cases leads
      exact .inr ⟨isFiller_of_spacing ‹_›, trivial⟩
    split at leads
    · cases leads
      refine .inr ⟨?_, trivial⟩
      rcases ‹b = byte '[' ∨ b = byte '\x7b'› with rfl | rfl <;> decide
    split at leads
    · cases leads
      refine .inr ⟨?_, trivial⟩
      rcases ‹b = byte ']' ∨ b = byte '\x7d'› with rfl | rfl <;> decide
    split at leads
    · cases leads
      exact .inl ⟨‹_›, rfl⟩
    have words (word : String) (named : word ∈ ["ull", "rue", "alse"]) : (behind (letters word)).IsAdrift := by
      refine isAdrift_behind fun letter member => ?_
      obtain ⟨c, within, rfl⟩ := List.mem_map.mp member
      exact isFiller_of_mem_word named within
    split at leads
    · cases leads
      subst_vars
      exact .inr ⟨by decide, words "ull" (by decide)⟩
    split at leads
    · cases leads
      subst_vars
      exact .inr ⟨by decide, words "rue" (by decide)⟩
    split at leads
    · cases leads
      subst_vars
      exact .inr ⟨by decide, words "alse" (by decide)⟩
    split at leads
    · cases leads
      refine .inr ⟨?_, trivial⟩
      rcases ‹b = byte '-' ∨ b = byte '.'› with rfl | rfl <;> decide
    split at leads
    · cases leads
      refine .inr ⟨?_, trivial⟩
      rcases ‹b = byte 'e' ∨ b = byte 'E'› with rfl | rfl <;> decide
    · cases leads
  | word letters =>
    cases letters with
    | nil => cases leads
    | cons letter others =>
      simp only [advance] at leads
      split at leads
      · cases leads
        subst_vars
        exact .inr ⟨adrift _ List.mem_cons_self,
          isAdrift_behind fun letter member => adrift letter (List.mem_cons_of_mem _ member)⟩
      · cases leads
  | digitDue =>
    simp only [advance] at leads
    split at leads
    · cases leads
      exact .inr ⟨isFiller_of_digit ‹_›, trivial⟩
    · cases leads
  | exponent =>
    simp only [advance] at leads
    split at leads
    · cases leads
      exact .inr ⟨isFiller_of_digit ‹_›, trivial⟩
    split at leads
    · cases leads
      refine .inr ⟨?_, trivial⟩
      rcases ‹b = byte '+' ∨ b = byte '-'› with rfl | rfl <;> decide
    · cases leads

section

variable (blank : ∀ b ∈ tail, isBlank b = true)

include blank

theorem outlying_of_at {mode : Mode} (adrift : mode.IsAdrift) (holds : At (some tail) mode depth q) :
    Outlying tail q := by
  by_cases done : mode = outside ∧ depth = 0
  · obtain ⟨rfl, rfl⟩ := done
    rw [At, close_zero] at holds
    cases holds
    exact .inl blank
  · exact .inr ⟨mode, depth, adrift, done, holds⟩

/-- Where the text is in no string, there is no escape, and a quote leads into a string. -/
theorem Outlying.of_cons (outlying : Outlying tail (b :: q)) :
    (b = byte '"' ∧ Adrift tail q) ∨ (IsFiller b ∧ Outlying tail q) := by
  obtain blanks | ⟨mode, depth, adrift, unfinished, place⟩ := outlying
  · exact .inr ⟨isFiller_of_blank (blanks b List.mem_cons_self),
      .inl fun b member => blanks b (List.mem_cons_of_mem _ member)⟩
  · rw [At, close_cons unfinished] at place
    obtain ⟨⟨next, inner⟩, leads, behind⟩ := Option.bind_eq_some_iff.mp place
    obtain ⟨rfl, rfl⟩ | ⟨filler, goesOn⟩ := advance_adrift adrift leads
    · exact .inl ⟨rfl, inner, behind⟩
    · exact .inr ⟨filler, outlying_of_at blank goesOn behind⟩

theorem Adrift.quoted (adrift : Adrift tail (byte '"' :: q)) : Outlying tail q := by
  obtain ⟨depth, place⟩ := adrift
  exact outlying_of_at blank (by trivial : outside.IsAdrift) (at_unquoted place)

end

theorem Adrift.passes (noQuote : b ≠ byte '"') (noEscape : b ≠ byte '\\') : Passes (Adrift tail) b := by
  rintro q ⟨depth, place⟩
  exact ⟨depth, at_plain noQuote noEscape place⟩

theorem Adrift.passes_filler (filler : IsFiller b) : Passes (Adrift tail) b :=
  Adrift.passes filler.no_quote filler.no_escape

theorem Adrift.passesBlanks : PassesBlanks (Adrift tail) :=
  fun _ blank => Adrift.passes_filler (isFiller_of_blank blank)

theorem outlying_next {failed : Bytes → Prop} {α : Type} {last : α → Bytes → Prop} {f : UInt8 → Reader α}
    (blank : ∀ b ∈ tail, isBlank b = true) (ends : failed [])
    (quote : Meets (Adrift tail) (f (byte '"')) last failed)
    (filler : ∀ b, IsFiller b → Meets (Outlying tail) (f b) last failed) :
    Meets (Outlying tail) (next >>= f) last failed := by
  refine .next_bind (fun _ => ends) fun b => ?_
  intro q outlying
  obtain ⟨rfl, adrift⟩ | ⟨plain, behind⟩ := outlying.of_cons blank
  · exact quote q adrift
  · exact filler b plain q behind

theorem meets_skipText_adrift (blank : ∀ b ∈ tail, isBlank b = true) :
    Meets (Outlying tail) skipText (fun _ => Adrift tail) Anywhere := by
  refine .iterate (fun _ => Outlying tail) (fun _ q _ => anywhere q) (fun _ => ?_) ()
  refine outlying_next blank trivial (.ite (fun _ => .pure fun _ holds => holds) fun no => absurd rfl no) ?_
  refine fun b filler => .ite (fun quote => absurd quote filler.no_quote) fun _ => ?_
  refine .ite (fun escape => absurd escape filler.no_escape) fun _ => ?_
  exact .ite (fun _ => .throw fun q _ => anywhere q) fun _ => .pure fun _ holds => holds

/-- What is read as a string there has only fillers in it. -/
theorem meets_text_adrift (blank : ∀ b ∈ tail, isBlank b = true) :
    Meets (Outlying tail) text (fun name q => (∀ c ∈ ['x', 'b', 'i', 'd'], c ∉ name.toList) ∧ Adrift tail q)
      Anywhere := by
  have taken : Meets (Outlying tail) (iterate textStep []) (fun bytes q => (∀ b ∈ bytes, IsFiller b) ∧ Adrift tail q)
      Anywhere := by
    refine (Meets.iterate (fun taken q => (∀ b ∈ taken, IsFiller b) ∧ Outlying tail q) (fun _ q _ => anywhere q)
      (fun taken => .fix fun fillers => ?_) []).starting fun _ holds => ⟨fun b none => (nomatch none), holds⟩
    refine outlying_next blank trivial (.ite (fun _ => .pure fun _ holds => ⟨?_, holds⟩) fun no => absurd rfl no) ?_
    · exact fun b member => fillers b (List.mem_reverse.mp member)
    refine fun b filler => .ite (fun quote => absurd quote filler.no_quote) fun _ => ?_
    refine .ite (fun escape => absurd escape filler.no_escape) fun _ => ?_
    refine .ite (fun _ => .throw fun q _ => anywhere q) fun _ => .pure fun _ holds => ⟨?_, holds⟩
    exact List.forall_mem_cons.mpr ⟨filler, fillers⟩
  refine taken.bind fun bytes => .fix fun fillers => ?_
  rw [ofUtf8?_ascii fun b member => (fillers b member).1]
  refine .pure fun q holds => ⟨?_, holds⟩
  intro c listed member
  rw [String.toList_ofList] at member
  obtain ⟨b, inside, rfl⟩ := List.mem_map.mp member
  have filler := fillers b inside
  exact filler.ne (List.mem_cons_of_mem _ (List.mem_cons_of_mem _ listed)) (byte_ofNat filler.1).symm

theorem meets_restOfWord_adrift (rest : String) (plain : ∀ c ∈ rest.toList, IsFiller (byte c)) :
    Meets (Adrift tail) (restOfWord rest) (fun _ => Adrift tail) Anywhere := by
  unfold restOfWord
  generalize rest.toList = cs at plain
  induction cs with
  | nil => exact .pure fun _ holds => holds
  | cons c cs ih =>
    obtain ⟨filler, others⟩ := List.forall_mem_cons.mp plain
    refine .bind (.next_bind (fun _ => trivial) fun b => ?_) fun _ => ih others
    refine .ite (fun same => .pure ?_) fun _ => .throw fun q _ => anywhere q
    subst same
    exact Adrift.passes_filler filler

theorem charts_adrift (blank : ∀ b ∈ tail, isBlank b = true) :
    Charts (fun _ => Adrift tail) (fun _ => Outlying tail)
      fun _ rest q => (∀ c ∈ rest.toList, IsFiller (byte c)) ∧ Adrift tail q where
  spacing spaces := Adrift.passes_filler (isFiller_of_spacing spaces)
  opened bracket := Adrift.passes_filler (by rcases bracket with rfl | rfl <;> decide) _
  closed closes := Adrift.passes_filler (by rcases closes with rfl | rfl <;> decide) _
  quoted := Adrift.quoted blank
  null holds := ⟨fun _ => isFiller_of_mem_word (by decide), Adrift.passes_filler (by decide) _ holds⟩
  true holds := ⟨fun _ => isFiller_of_mem_word (by decide), Adrift.passes_filler (by decide) _ holds⟩
  false holds := ⟨fun _ => isFiller_of_mem_word (by decide), Adrift.passes_filler (by decide) _ holds⟩
  text _ := meets_skipText_adrift blank
  word _ rest := .fix fun plain => meets_restOfWord_adrift rest plain
  number _ := by
    have each (b : UInt8) (numeric : isNumeric b = true) : Passes (Adrift tail) b := by
      refine Adrift.passes ?_ ?_
      · rintro rfl
        cases numeric
      · rintro rfl
        cases numeric
    exact (chartsNumbers_of_passes each).passes_skipNumber (each _ (by decide)) fun _ holds => holds

/-- A value that is passed over there ends there. -/
theorem meets_skipValue_adrift (blank : ∀ b ∈ tail, isBlank b = true) :
    Meets (Adrift tail) skipValue (fun _ => Adrift tail) Anywhere := by
  have charts := charts_adrift blank
  intro bytes adrift
  have behind : Adrift tail (bytes.dropWhile isBlank) := passes_dropWhile Adrift.passesBlanks adrift
  cases starts : bytes.dropWhile isBlank with
  | nil =>
    rw [starts] at behind
    obtain ⟨depth, place⟩ := behind
    exact (not_at_nil (by simp) place).elim
  | cons b q =>
    rw [starts] at behind
    by_cases opens : IsOpening b
    · exact charts.meets_skipValue_opening opens (@Charts.enters_of_outer 0 b q _ _ _ charts behind) bytes starts
    · exact meets_skipValue_number opens (charts.number 0) behind bytes starts

end QueryGate.Json
