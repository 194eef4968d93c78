import QueryGate.Proofs.Json.Agreement
import QueryGate.Proofs.Json.Passing
import QueryGate.Proofs.Program.Trace
import QueryGate.Token.Claims

/-!
# What the claims are in the text

The text of the claims is an object whose members can be told without knowing any claim. What the first reading takes
for a claim is the only member of that name, and has the value that any reader of JSON finds there.
-/

namespace QueryGate.Token.Claims

open Json Json.Reader

variable {σ α : Type} {bytes middle rest : Bytes} {b : UInt8} {q : Bytes}

/-- A member of an object. Its value is missing if it is well-formed but no value, such as a number out of range. -/
abbrev Member := String × Option Value

/-- Every value is passed over, and read by itself. -/
def memberOf (taken : List Member) (name : String) : Reader (List Member) := do
  colon
  let here ← get
  skipValue
  return (name, (runOn (value maxDepth) here).toOption) :: taken

/-- The members of the object that a text consists of, the last one first. -/
def membersOf (bytes : Bytes) : Except String (List Member) :=
  wholeObject memberOf [] bytes

/-- There is one member of this name, with this value. -/
def IsOnly (members : List Member) (name : String) (value : Value) : Prop :=
  members.filter (·.1 == name) = [(name, some value)]

/-! ### Values read in two ways -/

/-- What the reader takes can be passed over, and is a value of this shape, if values may be nested at all. -/
def ReadsAs (reader : Reader α) (shape : α → Value) : Prop :=
  ∀ bytes a rest, Reads reader bytes a rest →
    Reads skipValue bytes () rest ∧ ∀ nesting, Reads (value (nesting + 1)) bytes (shape a) rest

theorem reads_skipStep_text {frames : List Frame} {next : List Frame ⊕ Unit} {s : String}
    (starts : StartsWith (byte '"') q bytes) (reads : Reads Json.text q s middle)
    (closes : Reads (closeFrames frames) middle next rest) : Reads (skipStep frames) bytes next rest := by
  refine .bind starts.reads (.ite_neg (by decide) (.ite_neg (by decide) (.ite_pos rfl ?_)))
  exact .bind (reads_drop _) (.bind reads.skipText closes)

theorem reads_value_text {s : String} (starts : StartsWith (byte '"') q bytes) (reads : Reads Json.text q s rest)
    (nesting : Nat) : Reads (value nesting) bytes (.string s) rest := by
  have string (part : Option (Reader Value)) : Reads (valueOf part) bytes (.string s) rest :=
    .bind starts.reads (.ite_pos rfl (.bind (reads_drop _) (.bind reads (.pure _))))
  cases nesting with
  | zero => exact string none
  | succ nesting => exact string _

theorem startsWith_of_readString {s : String} (reads : Reads readString bytes s rest) :
    ∃ q, StartsWith (byte '"') q bytes ∧ Reads Json.text q s rest := by
  obtain ⟨head, middle, seen, reads⟩ := reads.of_bind
  obtain ⟨rfl, reads⟩ | ⟨_, reads⟩ := Reads.of_ite reads
  · obtain ⟨q, rfl, starts⟩ := seen.startsWith
    obtain ⟨_, _, dropped, reads⟩ := Reads.of_bind reads
    obtain ⟨_, rfl⟩ := (reads_drop _).unique dropped
    exact ⟨q, starts, reads⟩
  · exact reads.of_throw_bind.elim

theorem readsAs_readString : ReadsAs readString .string := by
  intro bytes s rest reads
  obtain ⟨q, starts, reads⟩ := startsWith_of_readString reads
  exact ⟨(Loops.last (reads_skipStep_text starts reads reads_closeFrames_end)).reads,
    fun nesting => reads_value_text starts reads (nesting + 1)⟩

theorem readsAs_readBoolean : ReadsAs readBoolean .boolean := by
  intro bytes given rest reads
  obtain ⟨head, middle, seen, reads⟩ := reads.of_bind
  cases head with
  | none => exact reads.of_throw.elim
  | some b =>
    obtain ⟨q, rfl, starts⟩ := seen.startsWith
    obtain ⟨rfl, yes⟩ | ⟨noTrue, reads⟩ := Reads.of_ite reads
    · obtain ⟨_, _, dropped, word⟩ := yes.of_bind
      obtain ⟨_, _, word, ends⟩ := word.of_bind
      obtain ⟨rfl, rfl⟩ := ends.of_pure
      have step : Reads (skipStep []) bytes (.inr ()) rest := by
        refine .bind starts.reads (.ite_neg (by decide) (.ite_neg (by decide) (.ite_neg (by decide) ?_)))
        exact .ite_neg (by decide) (.ite_pos rfl (.bind dropped (.bind word reads_closeFrames_end)))
      refine ⟨(Loops.last step).reads, fun nesting => .bind starts.reads ?_⟩
      refine .ite_neg (by decide) (.ite_neg (by decide) (.ite_pos rfl ?_))
      exact .bind dropped (.bind word (.pure _))
    · obtain ⟨rfl, no⟩ | ⟨_, reads⟩ := Reads.of_ite reads
      · obtain ⟨_, _, dropped, word⟩ := no.of_bind
        obtain ⟨_, _, word, ends⟩ := word.of_bind
        obtain ⟨rfl, rfl⟩ := ends.of_pure
        have step : Reads (skipStep []) bytes (.inr ()) rest := by
          refine .bind starts.reads (.ite_neg (by decide) (.ite_neg (by decide) (.ite_neg (by decide) ?_)))
          refine .ite_neg (by decide) (.ite_neg (by decide) (.ite_pos rfl ?_))
          exact .bind dropped (.bind word reads_closeFrames_end)
        refine ⟨(Loops.last step).reads, fun nesting => .bind starts.reads ?_⟩
        refine .ite_neg (by decide) (.ite_neg (by decide) (.ite_neg (by decide) (.ite_pos rfl ?_)))
        exact .bind dropped (.bind word (.pure _))
      · exact reads.of_throw.elim

theorem reads_value_number {n : Number} (begins : IsNumberStart b) (starts : StartsWith b q bytes)
    (reads : Reads signedNumber (b :: q) n rest) (nesting : Nat) : Reads (value nesting) bytes (.number n) rest := by
  have noOpening := begins.not_isOpening
  simp only [IsOpening, IsBracket, not_or] at noOpening
  obtain ⟨noQuote, noNull, noTrue, noFalse, _⟩ := noOpening
  have number (part : Option (Reader Value)) : Reads (valueOf part) bytes (.number n) rest := by
    refine .bind starts.reads (.ite_neg noQuote (.ite_neg noNull (.ite_neg noTrue (.ite_neg noFalse ?_))))
    exact .ite_pos begins (.bind reads (.pure _))
  cases nesting with
  | zero => exact number none
  | succ nesting => exact number _

theorem reads_skipStep_number {n : Int} {frames : List Frame} {next : List Frame ⊕ Unit} (begins : IsNumberStart b)
    (starts : StartsWith b q bytes) (reads : Reads signedNumber (b :: q) (.integer n) middle)
    (closes : Reads (closeFrames frames) middle next rest) : Reads (skipStep frames) bytes next rest := by
  have noOpening := begins.not_isOpening
  simp only [IsOpening, IsBracket, not_or] at noOpening
  obtain ⟨noQuote, noNull, noTrue, noFalse, noArray, noObject⟩ := noOpening
  refine .bind starts.reads (.ite_neg noArray (.ite_neg noObject (.ite_neg noQuote (.ite_neg noNull ?_))))
  exact .ite_neg noTrue (.ite_neg noFalse (.bind reads.skipNumber closes))

theorem readsAs_readInteger : ReadsAs readInteger (.number ∘ .integer) := by
  intro bytes given rest reads
  obtain ⟨head, middle, seen, reads⟩ := reads.of_bind
  obtain ⟨begins, integer⟩ | ⟨_, reads⟩ := Reads.of_ite reads
  · cases head with
    | none => cases begins
    | some b =>
      obtain ⟨q, rfl, starts⟩ := seen.startsWith
      have number : IsNumberStart b := by simpa [IsNumberStart] using begins
      obtain ⟨n, _, signed, checked⟩ := Reads.of_bind integer
      cases n with
      | real => exact (Reads.of_throw checked).elim
      | integer n =>
        obtain ⟨_, ends⟩ | ⟨_, fails⟩ := Reads.of_ite checked
        · obtain ⟨rfl, rfl⟩ := ends.of_pure
          exact ⟨(Loops.last (reads_skipStep_number number starts signed reads_closeFrames_end)).reads,
            fun nesting => reads_value_number number starts signed (nesting + 1)⟩
        · exact fails.of_throw.elim
  · exact reads.of_throw_bind.elim

/-! ### Lists of strings -/

theorem reads_closeFrames_startsWith_comma (starts : StartsWith (byte ',') q bytes) :
    Reads (closeFrames [.array]) bytes (.inl [.array]) q := by
  have closes : Reads (closeStep [.array]) bytes (.inr (.inl [.array])) q :=
    .bind starts.reads (.ite_pos rfl (.bind (reads_drop _) (.ite_neg (by decide) (.pure _))))
  exact (Loops.last closes).reads

theorem reads_closeFrames_startsWith_bracket (starts : StartsWith (byte ']') q bytes) :
    Reads (closeFrames [.array]) bytes (.inr ()) q := by
  have closes : Reads (closeStep [.array]) bytes (.inl []) q :=
    .bind starts.reads (.ite_neg (by decide) (.ite_pos rfl (.bind (reads_drop _) (.pure _))))
  exact (Loops.more closes starts.length_lt (.last (.pure _))).reads

/-- Behind an item of an array that ends before the rest. -/
inductive Closes (rest : Bytes) : Bytes → Prop where
  | last {bytes : Bytes} (starts : StartsWith (byte ']') rest bytes) : Closes rest bytes
  | more {bytes q : Bytes} (starts : StartsWith (byte ',') q bytes) (others : Loops skipStep [.array] q () rest) :
      Closes rest bytes

theorem Closes.loops_skipStep {s : String} (closes : Closes rest middle) (starts : StartsWith (byte '"') q bytes)
    (reads : Reads Json.text q s middle) : Loops skipStep [.array] bytes () rest := by
  cases closes with
  | last ends => exact .last (reads_skipStep_text starts reads (reads_closeFrames_startsWith_bracket ends))
  | more comma others =>
    refine .more (reads_skipStep_text starts reads (reads_closeFrames_startsWith_comma comma)) ?_ others
    have := starts.length_lt
    have := reads.skipText.of_skipText
    have := comma.length_lt
    omega

/-- What is left of a list of strings: its bracket at once, a string, or what follows one. -/
def Remains (rest : Bytes) : Bool → Bytes → Prop
  | true, bytes => StartsWith (byte ']') rest bytes ∨
    ∃ q, StartsWith (byte '"') q bytes ∧ Loops skipStep [.array] (byte '"' :: q) () rest
  | false, bytes => Closes rest bytes

theorem remains_items {taken : List String}
    (reads : Reads (items (fun taken => return (← readString) :: taken) []) bytes taken middle)
    (ends : Reads endArray middle () rest) : Remains rest true bytes := by
  refine reads.iterate_induction (fun (state : Bool × List String) => Remains rest state.1) ?_ ?_
  · rintro ⟨first, taken⟩ bytes round
    obtain ⟨more, _, asked, round⟩ := round.of_bind
    obtain ⟨_, round⟩ | ⟨none, round⟩ := Reads.of_ite round
    · obtain ⟨_, _, _, round⟩ := round.of_bind
      cases (Reads.of_pure round).1
    · obtain ⟨_, rfl⟩ := round.of_pure
      obtain rfl : more = false := by simpa using none
      obtain ⟨q, rfl, starts⟩ := asked.of_moreItems_false
      obtain ⟨_, rfl⟩ := reads_endArray.unique ends
      cases first with
      | true => exact .inl starts
      | false => exact .last starts
  · rintro ⟨first, taken⟩ bytes ⟨_, next⟩ middle round closes
    obtain ⟨more, here, asked, round⟩ := round.of_bind
    obtain ⟨rfl, round⟩ | ⟨_, round⟩ := Reads.of_ite round
    · obtain ⟨_, between, item, round⟩ := round.of_bind
      obtain ⟨same, rfl⟩ := round.of_pure
      cases same
      obtain ⟨s, _, string, item⟩ := item.of_bind
      obtain ⟨_, rfl⟩ := item.of_pure
      obtain ⟨q, starts, text⟩ := startsWith_of_readString string
      cases first with
      | true =>
        rw [asked.of_moreItems_first, startsWith_dropWhile] at starts
        exact .inr ⟨q, starts, closes.loops_skipStep (startsWith_cons (by decide)) text⟩
      | false =>
        obtain ⟨before, rfl, comma⟩ := asked.of_moreItems_next
        rw [startsWith_dropWhile] at starts
        exact .more comma (closes.loops_skipStep starts text)
    · cases (Reads.of_pure round).1

theorem Remains.skipValue (remains : Remains rest true q) (starts : StartsWith (byte '[') q bytes) :
    Reads skipValue bytes () rest := by
  obtain closes | ⟨_, string, others⟩ := remains
  · have step : Reads (skipStep []) bytes (.inr ()) rest := by
      refine .bind starts.reads (.ite_pos rfl (.bind (reads_drop _) (.bind closes.reads (.ite_pos rfl ?_))))
      exact .bind (reads_drop _) reads_closeFrames_end
    exact (Loops.last step).reads
  · have step : Reads (skipStep []) bytes (.inl [.array]) (byte '"' :: _) :=
      .bind starts.reads (.ite_pos rfl (.bind (reads_drop _) (.bind string.reads (.ite_neg (by decide) (.pure _)))))
    have shorter := (List.dropWhile_sublist (l := q) isBlank).length_le
    rw [string] at shorter
    exact (Loops.more step (Nat.lt_of_le_of_lt shorter starts.length_lt) others).reads

theorem readsAs_readStrings : ReadsAs readStrings fun strings => .array (strings.map .string) := by
  intro bytes strings rest reads
  obtain ⟨head, middle, seen, reads⟩ := reads.of_bind
  obtain ⟨rfl, array⟩ | ⟨_, reads⟩ := Reads.of_ite reads
  · obtain ⟨q, rfl, starts⟩ := seen.startsWith
    obtain ⟨_, _, dropped, array⟩ := Reads.of_bind array
    obtain ⟨_, rfl⟩ := (reads_drop _).unique dropped
    obtain ⟨taken, behind, strings, array⟩ := array.of_bind
    obtain ⟨_, _, ends, array⟩ := array.of_bind
    obtain ⟨rfl, rfl⟩ := array.of_pure
    refine ⟨(remains_items strings ends).skipValue starts, fun nesting => ?_⟩
    have part : Mirrors (fun strings values => values = strings.map Value.string)
        (items (fun taken => return (← readString) :: taken) [])
        (items (fun taken => return (← value nesting) :: taken) []) := by
      refine .items (fun taken values related => ?_) rfl
      refine Mirrors.bind (R := fun s given => given = .string s) ?_ fun s _ same => .pure ?_
      · intro bytes s rest reads
        obtain ⟨q, starts, text⟩ := startsWith_of_readString reads
        exact ⟨_, reads_value_text starts text nesting, rfl⟩
      · rw [same, related, List.map_cons]
    obtain ⟨values, mirrored, rfl⟩ := part _ _ _ strings
    refine .bind starts.reads (.ite_neg (by decide) (.ite_neg (by decide) (.ite_neg (by decide) ?_)))
    refine .ite_neg (by decide) (.ite_neg (by decide) (.ite_pos (.inl rfl) (.bind (reads_drop _) (.ite_pos rfl ?_))))
    refine .bind (mirrored.followedBy ends) ?_
    rw [← List.map_reverse]
    exact .pure _
  · exact reads.of_throw_bind.elim

/-! ### Whole objects -/

theorem runOn_eq_ok {reader : Reader α} {a : α} : runOn reader bytes = .ok a ↔ ∃ rest, Reads reader bytes a rest := by
  constructor
  · intro same
    exact ⟨_, Prod.ext same rfl⟩
  · rintro ⟨rest, reads⟩
    exact reads.runOn_eq

/-- A whole object: its brace, its members, its end, and nothing but blanks behind it. -/
theorem wholeObject_eq_ok {member : σ → String → Reader σ} {start final : σ} :
    wholeObject member start bytes = .ok final ↔
      ∃ q middle tail, StartsWith (byte '\x7b') q bytes ∧ Reads (Json.members member start) q final middle ∧
        Reads endObject middle () tail ∧ tail.dropWhile isBlank = [] := by
  rw [wholeObject, runOn_eq_ok]
  constructor
  · rintro ⟨rest, reads⟩
    obtain ⟨head, middle, seen, reads⟩ := reads.of_bind
    obtain ⟨rfl, whole⟩ | ⟨_, reads⟩ := Reads.of_ite reads
    · obtain ⟨q, rfl, starts⟩ := seen.startsWith
      obtain ⟨_, _, dropped, whole⟩ := Reads.of_bind whole
      obtain ⟨_, rfl⟩ := (reads_drop _).unique dropped
      obtain ⟨state, middle, members, whole⟩ := whole.of_bind
      obtain ⟨_, tail, ends, whole⟩ := whole.of_bind
      obtain ⟨_, _, nothing, whole⟩ := whole.of_bind
      obtain ⟨rfl, rfl⟩ := whole.of_pure
      refine ⟨q, middle, tail, starts, members, ends, ?_⟩
      obtain ⟨head, _, seen, nothing⟩ := nothing.of_bind
      obtain ⟨_, reads⟩ | ⟨none, nothing⟩ := Reads.of_ite nothing
      · exact (Reads.of_throw reads).elim
      · obtain ⟨same, rfl⟩ := seen.of_peekPast
        rw [same] at none
        simpa using none
    · exact reads.of_throw_bind.elim
  · rintro ⟨q, middle, tail, starts, members, ends, blank⟩
    have nothing : Reads endOfText tail () [] := by
      refine .bind (.bind (reads_modify _) reads_peek) ?_
      rw [blank]
      exact .pure _
    refine ⟨[], .bind starts.reads (.ite_pos rfl (.bind (reads_drop _) (.bind members ?_)))⟩
    exact .bind ends (.bind nothing (.pure _))

/-! ### Claims among the members -/

namespace Draft

/-- What the draft holds of a claim of this name. -/
def value? (draft : Draft) (name : String) : Option Value :=
  if name = "email" then draft.email.map .string
  else if name = "name" then draft.name.map .string
  else if name = "username" then draft.username.map .string
  else if name = "surname" then draft.surname.map .string
  else if name = "isAdmin" then draft.isAdmin.map .boolean
  else if name = "groups" then draft.groups.map fun groups => .array (groups.map .string)
  else if name = "iat" then draft.issuedAt.map (.number ∘ .integer)
  else if name = "exp" then draft.expiry.map (.number ∘ .integer)
  else none

def names : List String :=
  ["email", "name", "username", "surname", "isAdmin", "groups", "iat", "exp"]

/-- A draft holds each claim that is among the members, which is there once. -/
def Matches (draft : Draft) (members : List Member) : Prop :=
  ∀ name ∈ names, members.filter (·.1 == name) = (draft.value? name).toList.map fun value => (name, some value)

theorem matches_nil : Matches {} [] := by
  have none : ∀ name ∈ names, value? {} name = none := by decide
  intro name listed
  rw [none name listed]
  rfl

variable {draft : Draft} {taken : List Member} {name : String}

theorem Matches.other (matched : draft.Matches taken) (unknown : name ∉ names) (value : Option Value) :
    draft.Matches ((name, value) :: taken) := by
  intro known listed
  rw [List.filter_cons_of_neg, matched known listed]
  simp only [beq_iff_eq]
  rintro rfl
  exact unknown listed

theorem Matches.claim {next : Draft} {value : Value} (matched : draft.Matches taken) (fresh : draft.value? name = none)
    (given : next.value? name = some value) (others : ∀ other, other ≠ name → next.value? other = draft.value? other) :
    next.Matches ((name, some value) :: taken) := by
  intro known listed
  by_cases same : known = name
  · subst same
    rw [List.filter_cons_of_pos (by simp), matched known listed, fresh, given]
    rfl
  · rw [List.filter_cons_of_neg (by simpa using Ne.symm same), matched known listed, others known same]

theorem of_fresh {reader : Reader α} {given result : Option α} (reads : Reads (fresh given reader) bytes result rest) :
    given = none ∧ ∃ here a, Reads colon bytes () here ∧ Reads reader here a rest ∧ result = some a := by
  obtain ⟨_, fails⟩ | ⟨absent, whole⟩ := Reads.of_ite reads
  · exact fails.of_throw_bind.elim
  obtain ⟨_, here, colon, whole⟩ := Reads.of_bind whole
  obtain ⟨a, _, value, whole⟩ := whole.of_bind
  obtain ⟨rfl, rfl⟩ := whole.of_pure
  exact ⟨Option.not_isSome_iff_eq_none.mp absent, here, a, colon, value, rfl⟩

/-- A claim is taken at most once, and what its reader gives is the value of the member. -/
theorem mirrors_fresh {reader : Reader α} {shape : α → Value} (readsAs : ReadsAs reader shape) {given : Option α}
    (holds : draft.value? name = given.map shape) (next : Option α → Draft)
    (taken' : ∀ a, (next (some a)).value? name = some (shape a))
    (others : ∀ a other, other ≠ name → (next (some a)).value? other = draft.value? other)
    (matched : draft.Matches taken) :
    Mirrors Matches (do return next (← fresh given reader)) (memberOf taken name) := by
  intro bytes final rest reads
  obtain ⟨_, middle, whole, ends⟩ := reads.of_bind
  obtain ⟨rfl, rfl⟩ := ends.of_pure
  obtain ⟨rfl, here, a, colon, value, rfl⟩ := of_fresh whole
  obtain ⟨skips, reads⟩ := readsAs _ _ _ value
  have read : Reads (Json.value maxDepth) here (shape a) rest := reads (maxDepth - 1)
  have found : (runOn (Json.value maxDepth) here).toOption = some (shape a) := congrArg Except.toOption read.runOn_eq
  refine ⟨_, .bind colon (.bind reads_get (.bind skips (.pure _))), ?_⟩
  rw [found]
  refine matched.claim ?_ (taken' a) (others a)
  rw [holds]
  rfl

/-- Each member that the first reading takes is a member of the text. -/
theorem mirrors_member (matched : draft.Matches taken) (name : String) :
    Mirrors Matches (draft.member name) (memberOf taken name) := by
  unfold member
  split
  · subst_vars
    exact mirrors_fresh readsAs_readString rfl (fun email => { draft with email }) (fun _ => rfl)
      (fun _ _ other => by simp [value?, other]) matched
  split
  · subst_vars
    exact mirrors_fresh readsAs_readString rfl (fun name => { draft with name }) (fun _ => rfl)
      (fun _ _ other => by simp [value?, other]) matched
  split
  · subst_vars
    exact mirrors_fresh readsAs_readString rfl (fun username => { draft with username }) (fun _ => rfl)
      (fun _ _ other => by simp [value?, other]) matched
  split
  · subst_vars
    exact mirrors_fresh readsAs_readString rfl (fun surname => { draft with surname }) (fun _ => rfl)
      (fun _ _ other => by simp [value?, other]) matched
  split
  · subst_vars
    exact mirrors_fresh readsAs_readBoolean rfl (fun isAdmin => { draft with isAdmin }) (fun _ => rfl)
      (fun _ _ other => by simp [value?, other]) matched
  split
  · subst_vars
    exact mirrors_fresh readsAs_readStrings rfl (fun groups => { draft with groups }) (fun _ => rfl)
      (fun _ _ other => by simp [value?, other]) matched
  split
  · subst_vars
    exact mirrors_fresh readsAs_readInteger rfl (fun issuedAt => { draft with issuedAt }) (fun _ => rfl)
      (fun _ _ other => by simp [value?, other]) matched
  split
  · subst_vars
    exact mirrors_fresh readsAs_readInteger rfl (fun expiry => { draft with expiry }) (fun _ => rfl)
      (fun _ _ other => by simp [value?, other]) matched
  have unknown : name ∉ names := by simp [names, *]
  refine .same colon fun _ => ?_
  intro bytes final rest reads
  obtain ⟨_, _, skips, reads⟩ := reads.of_bind
  obtain ⟨rfl, rfl⟩ := reads.of_pure
  exact ⟨_, .bind reads_get (.bind skips (.pure _)), matched.other unknown _⟩

end Draft

/-- The members say who somebody is and when the token expires. There may be no groups. -/
structure Says (members : List Member) (identity : Identity) (expiry : Int) : Prop where
  email : IsOnly members "email" (.string identity.mail)
  name : IsOnly members "name" (.string identity.name)
  username : IsOnly members "username" (.string identity.username)
  surname : IsOnly members "surname" (.string identity.surname)
  isAdmin : IsOnly members "isAdmin" (.boolean identity.isAdmin)
  groups : IsOnly members "groups" (.array (identity.groups.map .string)) ∨
    (members.filter (·.1 == "groups") = [] ∧ identity.groups = [])
  expiry : IsOnly members "exp" (.number (.integer expiry))

theorem says_of_claims? {draft : Draft} {members : List Member} {claims : Claims} (matched : draft.Matches members)
    (complete : draft.claims? = some claims) : Says members claims.identity claims.expiry := by
  simp only [Draft.claims?, Option.bind_eq_bind, Option.bind_eq_some_iff, Option.pure_def,
    Option.some.injEq] at complete
  obtain ⟨email, hasEmail, name, hasName, username, hasUsername, surname, hasSurname, isAdmin, hasIsAdmin, expiry,
    hasExpiry, rfl⟩ := complete
  have claim {name : String} (listed : name ∈ Draft.names) {value : Value} (given : draft.value? name = some value) :
      IsOnly members name value := by
    rw [IsOnly, matched name listed, given]
    rfl
  exact
    { email := claim (by decide) (congrArg (Option.map Value.string) hasEmail)
      name := claim (by decide) (congrArg (Option.map Value.string) hasName)
      username := claim (by decide) (congrArg (Option.map Value.string) hasUsername)
      surname := claim (by decide) (congrArg (Option.map Value.string) hasSurname)
      isAdmin := claim (by decide) (congrArg (Option.map Value.boolean) hasIsAdmin)
      groups := by
        cases given : draft.groups with
        | none =>
          have absent : draft.value? "groups" = none := congrArg (Option.map _) given
          exact .inr ⟨by rw [matched "groups" (by decide), absent]; rfl, rfl⟩
        | some groups => exact .inl (claim (by decide) (congrArg (Option.map _) given))
      expiry := claim (by decide) (congrArg (Option.map _) hasExpiry) }

theorem membersOf_of_parse {claims : Claims} (parsed : Claims.parse bytes = .ok claims) :
    ∃ members, membersOf bytes = .ok members ∧ Says members claims.identity claims.expiry := by
  obtain ⟨draft, whole, complete⟩ := Result.bind_ok_iff.mp parsed
  have complete : draft.claims? = some claims := by
    split at complete
    · cases complete
      assumption
    · cases complete
  obtain ⟨q, middle, tail, starts, taken, ends, blank⟩ := wholeObject_eq_ok.mp whole
  have mirrored : Mirrors Draft.Matches (Json.members Draft.member {}) (Json.members memberOf []) :=
    .members (fun _ _ name matched => Draft.mirrors_member matched name) Draft.matches_nil
  obtain ⟨members, reads, matched⟩ := mirrored _ _ _ taken
  exact ⟨members, wholeObject_eq_ok.mpr ⟨q, middle, tail, starts, reads, ends, blank⟩,
    says_of_claims? matched complete⟩

end QueryGate.Token.Claims
