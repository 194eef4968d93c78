import QueryGate.Proofs.Json.Drift
import QueryGate.Proofs.Token.Members

/-!
# The second reading of the claims

The second reading goes on behind values that it cannot read, wherever it has stopped in them. Either that is where the
value ends, and it goes on as the first reading does; or it comes to no end of the text. So the expiry that it finds is
the one among the members.
-/

namespace QueryGate.Token.Claims.Limits

open Json Json.Reader Json.Mode

variable {α β : Type} {bytes here rest passed tail : Bytes} {depth : Nat} {b : UInt8} {q : Bytes}

/-! ### Readers of single values -/

/-- What is asked of a value once it has been read does not matter. -/
theorem readsValues_checked {reader : Reader α} {check : α → Reader β} (reads : ReadsValues reader)
    (stays : ∀ a P, Keeps P (check a)) : ReadsValues (reader >>= check) where
  opening opens entered :=
    .bind (reads.opening opens entered) fun a => (stays a _).failing fun _ place => .inl (within_outside place)
  number starts holds := .bind (reads.number starts holds) fun a => stays a _
  other noOpening noNumber := .bind (reads.other noOpening noNumber) fun _ => .never fun _ impossible => impossible

theorem meets_takesNull {v : Bytes} {failed : Bytes → Prop} (entered : Entered (some v) depth (byte 'n') q) :
    Meets (StartsWith (byte 'n') q) takesNull (fun found rest => found = true ∧ At (some v) outside depth rest)
      failed := by
  refine .startsWith_bind fun _ => .ite (fun _ => ?_) fun no => (no rfl).elim
  exact .bind (meets_drop_eq entered) fun _ => (meets_restOfWord "ull").bind fun _ => .pure fun _ place => ⟨rfl, place⟩

theorem meets_takesNull_other {after : α → Bytes → Prop} {failed : Bytes → Prop} {x y : Reader α} (other : b ≠ byte 'n')
    (meets : Meets (StartsWith b q) y after failed) :
    Meets (StartsWith b q) (do if ← takesNull then x else y) after failed := by
  have leaves : Meets (StartsWith b q) takesNull (fun found rest => found = false ∧ StartsWith b q rest) failed := by
    refine .startsWith_bind fun visible => .ite (fun same => (other (Option.some.inj same)).elim) fun _ => .pure ?_
    rintro _ rfl
    exact ⟨rfl, startsWith_cons visible⟩
  refine leaves.bind fun found => .fix ?_
  rintro rfl
  exact meets

theorem readsValues_orNull {reader : Reader α} (null : α) (reads : ReadsValues reader) :
    ReadsValues (do if ← takesNull then return null else reader) where
  opening {v depth b q} opens entered := by
    by_cases same : b = byte 'n'
    · subst same
      refine (meets_takesNull entered).bind fun found => .fix ?_
      rintro rfl
      exact .pure fun _ place => place
    · exact meets_takesNull_other same (reads.opening opens entered)
  number starts holds :=
    meets_takesNull_other (fun same => starts.not_isOpening (.inr (.inl same))) (reads.number starts holds)
  other noOpening noNumber :=
    meets_takesNull_other (fun same => noOpening (.inr (.inl same))) (reads.other noOpening noNumber)

theorem readsValues_readSubject : ReadsValues readSubject := by
  refine readsValues_orNull () (readsValues_checked (readsValues_value 0) fun given P => ?_)
  split
  · exact .pure fun _ holds => holds
  · exact .throw fun _ holds => holds

theorem readsValues_readNames : ReadsValues readNames :=
  readsValues_orNull false (readsValues_checked (readsValues_value maxDepth) fun _ _ => .pure fun _ holds => holds)

theorem readsValues_readTime : ReadsValues readTime where
  opening {v depth b q} opens entered := by
    refine .startsWith_bind fun visible => .ite (fun starts => ?_) fun _ => .ite (fun same => ?_) fun noArray => ?_
    · exact (IsNumberStart.not_isOpening starts opens).elim
    · subst same
      refine .bind (meets_drop_eq (P := At (some v) outside (depth + 1)) entered) fun _ => ?_
      exact .followedBy (.throw fun _ => within_outside) (fun _ => meets_endArray_outside.failing fun _ => .inl)
        (meets_endArray_within.mono (fun _ h => h) (fun _ _ => .inl) fun _ => .inl)
    · refine .ite (fun same => ?_) fun noObject => ?_
      · subst same
        refine .bind (meets_drop_eq (P := At (some v) outside (depth + 1)) entered) fun _ => ?_
        exact .followedBy (.throw fun _ => within_outside) (fun _ => meets_endObject_outside.failing fun _ => .inl)
          (meets_endObject_within.mono (fun _ h => h) (fun _ _ => .inl) fun _ => .inl)
      · refine .bind (.discard (((readsValues_value 0).opening opens entered).mono ?_ (fun _ _ h => h) fun _ h => h)) ?_
        · rintro _ rfl
          exact startsWith_cons visible
        · exact fun _ => .throw fun _ place => .inl (within_outside place)
  number {v depth others b q} starts holds := by
    refine .startsWith_bind fun _ => .ite (fun _ => ?_) fun no => (no starts).elim
    refine (meets_signedNumber.starting ?_).bind fun n => ?_
    · rintro _ rfl
      exact ⟨holds, b, q, rfl, starts⟩
    · cases n with
      | integer n => exact .ite (fun _ => .pure fun _ holds => holds) fun _ => .throw fun _ holds => holds
      | real => exact .throw fun _ holds => holds
  other {b q} noOpening noNumber := by
    have noBracket : ¬ IsBracket b := fun bracket => noOpening (.inr (.inr (.inr (.inr bracket))))
    refine .startsWith_bind fun visible => .ite (fun starts => (noNumber starts).elim) fun _ => ?_
    refine .ite (fun same => (noBracket (.inl same)).elim) fun _ => .ite (fun same => (noBracket (.inr same)).elim)
      fun _ => ?_
    refine .bind (.discard (((readsValues_value 0).other noOpening noNumber).mono ?_ (fun _ _ h => h) fun _ h => h)) ?_
    · rintro _ rfl
      exact startsWith_cons visible
    · exact fun _ => .never fun _ impossible => impossible

/-- A time is the value of the member. -/
theorem reads_value_of_readTime {time : Nat} (reads : Reads readTime bytes time rest) (nesting : Nat) :
    Reads (value nesting) bytes (.number (.integer time)) rest := by
  obtain ⟨head, middle, seen, reads⟩ := reads.of_bind
  cases head with
  | none => exact reads.of_throw.elim
  | some b =>
    obtain ⟨q, rfl, starts⟩ := seen.startsWith
    obtain ⟨number, reads⟩ | ⟨_, reads⟩ := Reads.of_ite reads
    · obtain ⟨n, _, signed, checked⟩ := Reads.of_bind reads
      cases n with
      | real => exact (Reads.of_throw checked).elim
      | integer n =>
        obtain ⟨positive, ends⟩ | ⟨_, fails⟩ := Reads.of_ite checked
        · obtain ⟨rfl, rfl⟩ := ends.of_pure
          rw [Int.toNat_of_nonneg positive]
          exact reads_value_number number starts signed nesting
        · exact fails.of_throw.elim
    · obtain ⟨_, reads⟩ | ⟨_, reads⟩ := Reads.of_ite reads
      · obtain ⟨_, _, _, reads⟩ := Reads.of_bind reads
        obtain ⟨_, fails, _⟩ := reads.of_followedBy
        exact fails.of_throw.elim
      obtain ⟨_, reads⟩ | ⟨_, reads⟩ := Reads.of_ite reads
      · obtain ⟨_, _, _, reads⟩ := Reads.of_bind reads
        obtain ⟨_, fails, _⟩ := reads.of_followedBy
        exact fails.of_throw.elim
      · obtain ⟨_, _, _, fails⟩ := Reads.of_bind reads
        exact fails.of_throw.elim

/-! ### Behind a value -/

/-- What may follow a value comes next. -/
def Ends (q : Bytes) : Prop :=
  ∃ b others, StartsWith b others q ∧ (b = byte ',' ∨ b = byte '\x7d')

/-- Nothing that may follow a value comes next. -/
def Stuck (q : Bytes) : Prop :=
  ∃ b others, StartsWith b others q ∧ b ≠ byte ',' ∧ b ≠ byte '\x7d'

/-- Deeper than the members, or between the strings of the text, which ends with the tail. -/
def Lost (tail q : Bytes) : Prop :=
  (∃ depth, At (some tail) outside (depth + 2) q) ∨ Adrift tail q

theorem ends_of_moreMembers {more : Bool} (reads : Reads (moreMembers false) bytes more rest) : Ends bytes := by
  obtain ⟨head, middle, seen, reads⟩ := reads.of_bind
  cases head with
  | none => exact reads.of_throw.elim
  | some b =>
    obtain ⟨q, rfl, starts⟩ := seen.startsWith
    obtain ⟨same, _⟩ | ⟨_, reads⟩ := Reads.of_ite reads
    · exact ⟨b, q, starts, .inr same⟩
    obtain ⟨no, _⟩ | ⟨_, reads⟩ := Reads.of_ite reads
    · cases no
    obtain ⟨same, _⟩ | ⟨_, reads⟩ := Reads.of_ite reads
    · exact ⟨b, q, starts, .inl same⟩
    · exact reads.of_throw.elim

theorem Stuck.not_ends (stuck : Stuck q) : ¬ Ends q := by
  rintro ⟨b, others, starts, follows⟩
  obtain ⟨c, others', starts', noComma, noBrace⟩ := stuck
  obtain ⟨rfl, _⟩ := List.cons.inj (starts.symm.trans starts')
  exact follows.elim noComma noBrace

theorem isBlank_of_isNumeric (numeric : isNumeric b = true) : isBlank b = false := by
  simp only [isNumeric, Bool.or_eq_true, decide_eq_true_eq] at numeric
  obtain ((((digit | rfl) | rfl) | rfl) | rfl) | rfl := numeric
  · exact isBlank_of_isDigit digit
  all_goals decide

/-- A number does not go on behind its end. -/
theorem Ends.dropWhile_isNumeric (ends : Ends q) : q.dropWhile isNumeric = q := by
  obtain ⟨b, others, starts, follows⟩ := ends
  cases q with
  | nil => cases starts
  | cons c q =>
    refine List.dropWhile_cons_of_neg fun numeric => ?_
    rw [StartsWith, List.dropWhile_cons_of_neg (by simp [isBlank_of_isNumeric numeric])] at starts
    cases starts
    rcases follows with rfl | rfl <;> cases numeric

theorem stuck_of_isNumeric (numeric : isNumeric b = true) : Stuck (b :: q) := by
  refine ⟨b, q, startsWith_cons (isBlank_of_isNumeric numeric), ?_, ?_⟩
  all_goals
    rintro rfl
    cases numeric

theorem stuck_of_isBracket (bracket : IsBracket b) : Stuck (b :: q) := by
  refine ⟨b, q, startsWith_cons ?_, ?_, ?_⟩
  all_goals rcases bracket with rfl | rfl <;> decide

/-- The reader of a value has stopped at its end, or where the reading cannot go on, or got lost. -/
def Stops (tail passed q : Bytes) : Prop :=
  q = passed ∨ Stuck q ∨ Lost tail q

theorem stops_of_within (behind : At (some tail) outside 1 passed) (within : Within (some passed) 0 rest) :
    Stops tail passed rest := by
  obtain ⟨inner, _, place⟩ := within
  have outer {mode : Mode} (holds : At (some passed) mode inner rest) : At (some tail) mode (inner + 1) rest :=
    (holds.outer 1).trans behind
  obtain outside | inside := place
  · cases inner with
    | zero =>
      rw [At, close_zero] at outside
      exact .inl (Option.some.inj outside)
    | succ inner => exact .inr (.inr (.inl ⟨inner, outer outside⟩))
  · exact .inr (.inr (.inr ⟨_, outer inside⟩))

/-- A reader of values, started before a value among the members of the text. -/
theorem meets_stops {reader : Reader α} (values : ReadsValues reader) (skips : Reads skipValue here () passed)
    (ends : Ends passed) (behind : At (some tail) outside 1 passed) :
    Meets (· = here) reader (fun _ => Stops tail passed) (Stops tail passed) := by
  obtain ⟨b, q, starts⟩ := startsWith_of_skipValue skips
  have start (bytes : Bytes) (same : bytes = here) : StartsWith b q bytes := same ▸ starts
  by_cases opens : IsOpening b
  · refine (values.opening opens (entered_of_skipValue opens starts skips)).mono start ?_ ?_
    · exact fun _ rest place => stops_of_within behind (within_outside place)
    · rintro rest (within | ⟨bracket, rfl⟩)
      · exact stops_of_within behind within
      · exact .inr (.inl (stuck_of_isBracket bracket))
  · obtain ⟨number, closes, numeric⟩ := number_of_skipValue opens starts skips
    rw [ends.dropWhile_isNumeric] at numeric
    have place : Numeric tail 0 passed (b :: q) := ⟨(closes 0).symm.trans behind, numeric.symm⟩
    have stops (rest : Bytes) (place : Numeric tail 0 passed rest) : Stops tail passed rest := by
      cases rest with
      | nil => exact .inl place.2
      | cons c rest =>
        cases same : isNumeric c with
        | true => exact .inr (.inl (stuck_of_isNumeric same))
        | false =>
          have whole := place.2
          rw [List.dropWhile_cons_of_neg (by simp [same])] at whole
          exact .inl whole
    exact (values.number number place).mono start (fun _ => stops) stops

/-! ### Single members -/

def registered : List String :=
  ["exp", "nbf", "sub", "iss", "aud"]

/-- The value of a claim was taken as far as its reader gets. -/
def Draft.Attempts (draft next : Draft) (name : String) (here rest : Bytes) : Prop :=
  ∃ (α : Type) (reader : Reader α) (taken : Option α), ReadsValues reader ∧ Reads (attempt reader) here taken rest ∧
    ∀ time, next.expiry = some (some time) →
      draft.expiry = some (some time) ∨ (name = "exp" ∧ Reads readTime here time rest)

variable {draft next : Draft} {name : String}

theorem Draft.attempts_of_fresh {given result : Option (Option α)} {reader : Reader α} (values : ReadsValues reader)
    (reads : Reads (Claims.Draft.fresh given (attempt reader)) bytes result rest) (same : next.expiry = draft.expiry) :
    ∃ here, Reads colon bytes () here ∧ draft.Attempts next name here rest := by
  obtain ⟨_, here, taken, colon, value, _⟩ := Claims.Draft.of_fresh reads
  refine ⟨here, colon, α, reader, taken, values, value, fun time given => .inl ?_⟩
  rw [← same, given]

/-- Of a registered claim the value is taken as far as its reader gets, of any other member as a whole. -/
theorem Draft.of_member (reads : Reads (draft.member name) bytes next rest) :
    ∃ here, Reads colon bytes () here ∧ ((name ∈ registered ∧ draft.Attempts next name here rest) ∨
      (name ∉ registered ∧ next = draft ∧ Reads skipValue here () rest)) := by
  have claim {next : Draft} (listed : name ∈ registered)
      (attempted : ∃ here, Reads colon bytes () here ∧ draft.Attempts next name here rest) :
      ∃ here, Reads colon bytes () here ∧ ((name ∈ registered ∧ draft.Attempts next name here rest) ∨
        (name ∉ registered ∧ next = draft ∧ Reads skipValue here () rest)) := by
    obtain ⟨here, colon, attempts⟩ := attempted
    exact ⟨here, colon, .inl ⟨listed, attempts⟩⟩
  obtain ⟨rfl, reads⟩ | ⟨noExp, reads⟩ := Reads.of_ite reads
  · obtain ⟨_, _, fresh, reads⟩ := Reads.of_bind reads
    obtain ⟨rfl, rfl⟩ := reads.of_pure
    obtain ⟨_, here, taken, colon, value, rfl⟩ := Claims.Draft.of_fresh fresh
    refine claim (by decide) ⟨here, colon, Nat, readTime, taken, readsValues_readTime, value, fun time given => ?_⟩
    cases given
    exact .inr ⟨rfl, value.of_attempt⟩
  obtain ⟨rfl, reads⟩ | ⟨noNbf, reads⟩ := Reads.of_ite reads
  · obtain ⟨_, _, fresh, reads⟩ := Reads.of_bind reads
    obtain ⟨rfl, rfl⟩ := reads.of_pure
    exact claim (by decide) (attempts_of_fresh readsValues_readTime fresh rfl)
  obtain ⟨rfl, reads⟩ | ⟨noSub, reads⟩ := Reads.of_ite reads
  · obtain ⟨_, _, fresh, reads⟩ := Reads.of_bind reads
    obtain ⟨rfl, rfl⟩ := reads.of_pure
    exact claim (by decide) (attempts_of_fresh readsValues_readSubject fresh rfl)
  obtain ⟨rfl, reads⟩ | ⟨noIss, reads⟩ := Reads.of_ite reads
  · obtain ⟨_, _, fresh, reads⟩ := Reads.of_bind reads
    obtain ⟨rfl, rfl⟩ := reads.of_pure
    exact claim (by decide) (attempts_of_fresh readsValues_readNames fresh rfl)
  obtain ⟨rfl, reads⟩ | ⟨noAud, reads⟩ := Reads.of_ite reads
  · obtain ⟨_, _, fresh, reads⟩ := Reads.of_bind reads
    obtain ⟨rfl, rfl⟩ := reads.of_pure
    exact claim (by decide) (attempts_of_fresh readsValues_readNames fresh rfl)
  obtain ⟨_, here, colon, reads⟩ := Reads.of_bind reads
  obtain ⟨_, _, skips, reads⟩ := reads.of_bind
  obtain ⟨rfl, rfl⟩ := reads.of_pure
  exact ⟨here, colon, .inr ⟨by simp [registered, noExp, noNbf, noSub, noIss, noAud], rfl, skips⟩⟩

/-! ### The members of the text -/

section

variable {first : Bool} {taken members : List Member} {middle : Bytes} {c : Option Bytes}

theorem of_memberOf (reads : Reads (memberOf taken name) bytes members rest) : ∃ here, Reads colon bytes () here ∧
    Reads skipValue here () rest ∧ members = (name, (runOn (value maxDepth) here).toOption) :: taken := by
  obtain ⟨_, here, colon, reads⟩ := reads.of_bind
  obtain ⟨_, _, got, reads⟩ := reads.of_bind
  obtain ⟨rfl, rfl⟩ := reads_get.unique got
  obtain ⟨_, _, skips, reads⟩ := reads.of_bind
  obtain ⟨rfl, rfl⟩ := reads.of_pure
  exact ⟨here, colon, skips, rfl⟩

/-- Within the object every round over its members ends. -/
theorem at_memberStep (state : Bool × List Member) :
    Meets (At c outside 1) (memberStep memberOf state) (Sum.elim (fun _ => At c outside 1) fun _ => At c outside 1)
      Anywhere := by
  have texts : Meets (At c string 1) Json.text (fun _ => At c outside 1) Anywhere :=
    .of_reads fun _ _ _ place reads => passes_skipText.after_reads place reads.skipText
  refine meets_memberStep passesBlanks_outside (fun q _ => anywhere q) (passes_spacing (by decide)) (fun _ => at_quoted)
    texts (fun taken name => .of_reads fun bytes members rest place reads => ?_) state.1 state.2
  obtain ⟨here, colon, skips, _⟩ := of_memberOf reads
  have value : At c outside 1 here := (meets_colon (P := At c outside 1) (Q := At c outside 1) passesBlanks_outside
    (fun q _ => anywhere q) fun q => passes_spacing (by decide) q).after_reads place colon
  rwa [At, close_skipValue skips]

theorem at_of_rounds {state : Bool × List Member} (rounds : Rounds (memberStep memberOf) members middle state bytes)
    (place : At c outside 1 bytes) : At c outside 1 middle := by
  induction rounds with
  | last reads => exact (at_memberStep _).after_reads place reads
  | more reads _ ih => exact ih ((at_memberStep _).after_reads place reads)

theorem mem_of_rounds {state : Bool × List Member} (rounds : Rounds (memberStep memberOf) members middle state bytes)
    {member : Member} (listed : member ∈ state.2) : member ∈ members := by
  induction rounds with
  | last reads =>
    obtain ⟨_, same⟩ | ⟨_, _, _, _, _, _, _, _, _, same⟩ := reads.of_memberStep
    · cases same
      exact listed
    · cases same
  | more reads _ ih =>
    obtain ⟨_, same⟩ | ⟨_, _, _, _, _, _, _, _, took, same⟩ := reads.of_memberStep
    · cases same
    · cases same
      obtain ⟨_, _, _, rfl⟩ := of_memberOf took
      exact ih (List.mem_cons_of_mem _ listed)

theorem ends_of_rounds (rounds : Rounds (memberStep memberOf) members middle (false, taken) bytes) : Ends bytes := by
  have asks {next : (Bool × List Member) ⊕ List Member} {rest : Bytes}
      (reads : Reads (memberStep memberOf (false, taken)) bytes next rest) : Ends bytes := by
    obtain ⟨asked, _⟩ | ⟨_, _, _, _, _, asked, _⟩ := reads.of_memberStep
    · exact ends_of_moreMembers asked
    · exact ends_of_moreMembers asked
  cases rounds with
  | last reads => exact asks reads
  | more reads _ => exact asks reads

end

/-! ### Lost readings -/

section

variable (blank : ∀ b ∈ tail, isBlank b = true)

theorem lost_of_within {inner : Nat} (within : Within (some tail) (inner + 2) q) : Lost tail q := by
  obtain ⟨depth, deeper, outside | inside⟩ := within
  · obtain ⟨depth, rfl⟩ := Nat.exists_eq_add_of_le' (Nat.le_trans (Nat.le_add_left 2 inner) deeper)
    exact .inl ⟨depth, outside⟩
  · exact .inr ⟨depth, inside⟩

theorem lost_memberStep_deeper (depth : Nat) (state : Bool × Draft) :
    Meets (At (some tail) outside (depth + 2)) (memberStep Draft.member state)
      (Sum.elim (fun _ => Lost tail) fun _ => At (some tail) outside (depth + 2)) Anywhere := by
  refine meets_memberStep passesBlanks_outside (fun q _ => anywhere q) (passes_spacing (by decide)) (fun _ => at_quoted)
    (meets_text.failing fun q _ => anywhere q) (fun draft name => .of_reads fun bytes next rest place reads => ?_)
    state.1 state.2
  obtain ⟨here, colon, member⟩ := Draft.of_member reads
  have value : At (some tail) outside (depth + 2) here := staysWithin_colon.after_reads place colon
  obtain ⟨_, α, reader, taken, values, attempted, _⟩ | ⟨_, _, skips⟩ := member
  · have lost : Meets (At (some tail) outside (depth + 2)) (attempt reader) (fun _ => Lost tail) Anywhere :=
      .attempt (values.staysWithin.mono (fun _ place => place) (fun _ _ place => .inl ⟨depth, place⟩)
        fun _ => lost_of_within)
    exact lost.after_reads value attempted
  · exact .inl ⟨depth, (close_skipValue skips (depth + 1)).trans value⟩

theorem not_registered_of_plain {name : String} (plain : ∀ c ∈ ['x', 'b', 'i', 'd'], c ∉ name.toList) :
    name ∉ registered := by
  intro listed
  have known : (registered.all fun name => ['x', 'b', 'i', 'd'].any fun c => name.toList.contains c) = true := by decide
  obtain ⟨c, letter, within⟩ := List.any_eq_true.mp (List.all_eq_true.mp known name listed)
  exact plain c letter (List.contains_iff_mem.mp within)

include blank

theorem lost_memberStep_adrift (state : Bool × Draft) :
    Meets (Adrift tail) (memberStep Draft.member state) (Sum.elim (fun _ => Lost tail) fun _ => Adrift tail)
      Anywhere := by
  refine meets_memberStep Adrift.passesBlanks (fun q _ => anywhere q) (Adrift.passes_filler (by decide))
    (fun _ => Adrift.quoted blank) (meets_text_adrift blank) (fun draft name => .fix fun plain => .of_reads ?_)
    state.1 state.2
  intro bytes next rest adrift reads
  obtain ⟨here, colon, member⟩ := Draft.of_member reads
  have value : Adrift tail here := (meets_colon (P := Adrift tail) (Q := Adrift tail) Adrift.passesBlanks
    (fun q _ => anywhere q) (Adrift.passes_filler (by decide))).after_reads adrift colon
  obtain ⟨listed, _⟩ | ⟨_, _, skips⟩ := member
  · exact (not_registered_of_plain plain listed).elim
  · exact .inr ((meets_skipValue_adrift blank).after_reads value skips)

theorem lost_memberStep (lost : Lost tail bytes) {state : Bool × Draft} {round : (Bool × Draft) ⊕ Draft}
    (reads : Reads (memberStep Draft.member state) bytes round rest) : Lost tail rest := by
  obtain ⟨depth, place⟩ | adrift := lost
  · have stops := (lost_memberStep_deeper depth state).after_reads place reads
    cases round with
    | inl _ => exact stops
    | inr _ => exact .inl ⟨depth, stops⟩
  · have stops := (lost_memberStep_adrift blank state).after_reads adrift reads
    cases round with
    | inl _ => exact stops
    | inr _ => exact .inr stops

omit blank in
/-- What got lost does not come to the end of the text. -/
theorem Lost.not_endObject (lost : Lost tail bytes) (ends : Reads endObject bytes () rest) :
    rest.dropWhile isBlank ≠ [] := by
  intro nothing
  obtain ⟨depth, place⟩ | adrift := lost
  · have closed : At (some tail) outside (depth + 1) rest := meets_endObject_outside.after_reads place ends
    have last : At (some tail) outside (depth + 1) (rest.dropWhile isBlank) :=
      passes_dropWhile passesBlanks_outside closed
    rw [nothing] at last
    cases last
  · have closed : Adrift tail rest := (meets_endObject (P := Adrift tail) (Q := Adrift tail) Adrift.passesBlanks
      (fun q _ => anywhere q) (Adrift.passes_filler (by decide))).after_reads adrift ends
    obtain ⟨depth, last⟩ := passes_dropWhile Adrift.passesBlanks closed
    rw [nothing] at last
    cases last

end

/-! ### Both readings -/

section

variable {members : List Member} {middle : Bytes}

/-- A time that was found is the value of a member. -/
def Found (members : List Member) (draft : Draft) : Prop :=
  ∀ time : Nat, draft.expiry = some (some time) → ("exp", some (.number (.integer time))) ∈ members

/-- Where the second reading stands before a member: where the members stand, or lost, or where it cannot go on. -/
def Stands (members : List Member) (middle tail : Bytes) : Bool × Draft → Bytes → Prop
  | (first, draft), bytes =>
    (At (some tail) outside 1 bytes ∧ Found members draft ∧
        ∃ taken, Rounds (memberStep memberOf) members middle (first, taken) bytes) ∨
      (first = false ∧ Stuck bytes) ∨ Lost tail bytes

/-- Of a member of the text the second reading takes the value, or it gets stuck or lost in it. -/
theorem stands_of_member {taken : List Member} (place : At (some tail) outside 1 rest)
    (rounds : Rounds (memberStep memberOf) members middle
      (false, (name, (runOn (value maxDepth) here).toOption) :: taken) rest)
    (skips : Reads skipValue here () rest) (found : Found members draft)
    (attempts : draft.Attempts next name here passed) : Stands members middle tail (false, next) passed := by
  obtain ⟨α, reader, result, values, attempted, expiry⟩ := attempts
  have stops : Meets (· = here) (attempt reader) (fun _ => Stops tail rest) Anywhere :=
    .attempt (meets_stops values skips (ends_of_rounds rounds) place)
  obtain rfl | stuck | lost := stops.after_reads rfl attempted
  · refine .inl ⟨place, fun time given => ?_, _, rounds⟩
    obtain before | ⟨rfl, time⟩ := expiry time given
    · exact found _ before
    · have value : (runOn (value maxDepth) here).toOption = some _ :=
        congrArg Except.toOption (reads_value_of_readTime time maxDepth).runOn_eq
      rw [value] at rounds
      exact mem_of_rounds rounds List.mem_cons_self
  · exact .inr (.inl ⟨rfl, stuck⟩)
  · exact .inr (.inr lost)

theorem meets_memberStep (blank : ∀ b ∈ tail, isBlank b = true) (state : Bool × Draft) :
    Meets (Stands members middle tail state) (memberStep Draft.member state)
      (Sum.elim (Stands members middle tail) fun draft rest => Found members draft ∨ Lost tail rest) Anywhere := by
  refine .of_reads ?_
  obtain ⟨first, draft⟩ := state
  rintro bytes next rest (⟨place, found, taken, rounds⟩ | ⟨rfl, stuck⟩ | lost) reads
  · obtain ⟨asked, rfl⟩ | ⟨quote, behind, name, here, next, asked, dropped, named, member, rfl⟩ := reads.of_memberStep
    · exact .inl found
    · cases rounds with
      | last reads =>
        obtain ⟨none, _⟩ | ⟨_, _, _, _, _, _, _, _, _, same⟩ := reads.of_memberStep
        · cases (asked.unique none).1
        · cases same
      | more reads rounds =>
        have within : At (some tail) outside 1 _ := (at_memberStep _).after_reads place reads
        obtain ⟨_, same⟩ | ⟨_, _, _, _, _, asked', dropped', named', took, same⟩ := reads.of_memberStep
        · cases same
        cases same
        obtain ⟨_, rfl⟩ := asked.unique asked'
        obtain ⟨_, rfl⟩ := dropped.unique dropped'
        obtain ⟨rfl, rfl⟩ := named.unique named'
        obtain ⟨here, colon, skips, rfl⟩ := of_memberOf took
        obtain ⟨_, colon', member⟩ := Draft.of_member member
        obtain ⟨_, rfl⟩ := colon.unique colon'
        obtain ⟨_, attempts⟩ | ⟨_, rfl, skips'⟩ := member
        · exact stands_of_member within rounds skips found attempts
        · obtain ⟨_, rfl⟩ := skips.unique skips'
          exact .inl ⟨within, found, _, rounds⟩
  · obtain ⟨asked, _⟩ | ⟨_, _, _, _, _, asked, _⟩ := reads.of_memberStep
    all_goals exact (stuck.not_ends (ends_of_moreMembers asked)).elim
  · have lost := lost_memberStep blank lost reads
    cases next with
    | inl state => exact .inr (.inr lost)
    | inr draft => exact .inr lost

/-- The expiry that the second reading finds is that of the members. -/
theorem expiry_mem {limits : Limits} {time : Nat} (whole : membersOf bytes = .ok members)
    (parsed : Limits.parse bytes = .ok limits) (expires : limits.expiry = some time) :
    ("exp", some (.number (.integer time))) ∈ members := by
  obtain ⟨q, middle, tail, starts, reads, ends, nothing⟩ := wholeObject_eq_ok.mp whole
  obtain ⟨draft, second, made⟩ := Result.bind_ok_iff.mp parsed
  cases made
  obtain ⟨q', final, tail', starts', reads', ends', nothing'⟩ := wholeObject_eq_ok.mp second
  cases starts.symm.trans starts'
  have blank : ∀ b ∈ tail, isBlank b = true := List.dropWhile_eq_nil_iff.mp nothing
  have place : At (some tail) outside 1 q := by
    have closes : Meets (At (close q outside 1) outside 1) endObject (fun _ => At (close q outside 1) outside 0)
        Anywhere :=
      meets_endObject passesBlanks_outside (fun q _ => anywhere q) fun _ => at_closed (.inr rfl)
    have closed := closes.after_reads (at_of_rounds reads.rounds rfl) ends
    rw [At, close_zero] at closed
    exact closed.symm
  have stands : Meets (Stands members middle tail (true, {})) (Json.members Draft.member {})
      (fun draft rest => Found members draft ∨ Lost tail rest) Anywhere :=
    .iterate _ (fun _ q _ => anywhere q) (meets_memberStep blank) (true, {})
  have none : Found members {} := by
    intro time given
    cases given
  have start : Stands members middle tail (true, {}) q := .inl ⟨place, none, [], reads.rounds⟩
  obtain found | lost := stands.after_reads start reads'
  · exact found time (Option.join_eq_some_iff.mp expires)
  · exact (lost.not_endObject ends' nothing').elim

end

end QueryGate.Token.Claims.Limits
