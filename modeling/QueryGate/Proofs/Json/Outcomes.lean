import Mathlib.Data.List.DropRight
import QueryGate.Json.Skip
import QueryGate.Json.Value
import QueryGate.Proofs.Json.Reading

/-!
# Where readers stop

What holds of the bytes that a reader leaves, be it that it succeeds or that it fails. Rules for each way in which
readers are put together carry such properties from the start of a reading to its end.
-/

namespace QueryGate.Json

variable {σ τ α β : Type} {bytes rest : Bytes}

/-! ### Readings taken apart -/

/-- What comes last is read either way, but a failure of the first part is the one that counts. -/
theorem run_followedBy {x : Reader α} {closer : Reader Unit} {result : Except String α} {closing : Except String Unit}
    {middle : Bytes} (taken : x.run.run bytes = (result, middle)) (closed : closer.run.run middle = (closing, rest)) :
    (Reader.followedBy x closer).run.run bytes =
      (match result, closing with
        | .ok a, .ok () => .ok a
        | .error reason, _ => .error reason
        | .ok _, .error reason => .error reason, rest) := by
  refine run_bind_eq taken (run_bind_eq closed ?_)
  cases result <;> cases closing <;> rfl

namespace Reads

theorem unique {x : Reader α} {a b : α} {other : Bytes} (first : Reads x bytes a rest)
    (second : Reads x bytes b other) : a = b ∧ rest = other := by
  obtain ⟨same, left⟩ := Prod.mk.inj (first.symm.trans second)
  exact ⟨Except.ok.inj same, left⟩

theorem of_pure {a b : α} (reads : Reads (Pure.pure a) bytes b rest) : b = a ∧ rest = bytes := by
  cases reads
  exact ⟨rfl, rfl⟩

theorem of_bind {x : Reader α} {f : α → Reader β} {b : β} (reads : Reads (x >>= f) bytes b rest) :
    ∃ a middle, Reads x bytes a middle ∧ Reads (f a) middle b rest := by
  unfold Reads at reads
  rw [ExceptT.run_bind, StateT.run_bind] at reads
  cases first : x.run.run bytes with
  | mk result middle =>
    rw [first] at reads
    cases result with
    | ok a => exact ⟨a, middle, first, reads⟩
    | error reason => cases reads

theorem of_throw {reason : String} {a : α} (reads : Reads (throw reason) bytes a rest) : False := by
  cases reads

end Reads

/-! ### Outcomes -/

/-- Started where the first holds, a reader that succeeds stops where the second holds, and one that fails where the
third does. -/
def Meets (before : Bytes → Prop) (reader : Reader α) (after : α → Bytes → Prop) (failed : Bytes → Prop) : Prop :=
  ∀ bytes, before bytes → match reader.run.run bytes with
    | (.ok a, rest) => after a rest
    | (.error _, rest) => failed rest

/-- What holds at the start holds wherever the reader stops. -/
abbrev Keeps (P : Bytes → Prop) (reader : Reader α) : Prop :=
  Meets P reader (fun _ => P) P

/-- Nothing is said of a reader that fails. -/
def Anywhere (_ : Bytes) : Prop := True

namespace Meets

variable {before : Bytes → Prop} {after : α → Bytes → Prop} {last : β → Bytes → Prop} {failed : Bytes → Prop}
  {x y : Reader α} {f : α → Reader β}

theorem after_reads (meets : Meets before x after failed) (start : before bytes) {a : α}
    (reads : Reads x bytes a rest) : after a rest := by
  have stops := meets bytes start
  rw [reads] at stops
  exact stops

theorem of_reads (each : ∀ bytes a rest, before bytes → Reads x bytes a rest → after a rest) :
    Meets before x after Anywhere := by
  intro bytes start
  rcases outcome : x.run.run bytes with ⟨_ | a, rest⟩
  · trivial
  · exact each bytes a rest start outcome

theorem mono {before' failed' : Bytes → Prop} {after' : α → Bytes → Prop} (meets : Meets before x after failed)
    (start : ∀ q, before' q → before q) (done : ∀ a q, after a q → after' a q)
    (lost : ∀ q, failed q → failed' q) : Meets before' x after' failed' := by
  intro bytes holds
  have stops := meets bytes (start bytes holds)
  generalize x.run.run bytes = outcome at stops ⊢
  obtain ⟨_ | a, rest⟩ := outcome
  · exact lost rest stops
  · exact done a rest stops

theorem starting {before' : Bytes → Prop} (meets : Meets before x after failed)
    (start : ∀ q, before' q → before q) : Meets before' x after failed :=
  meets.mono start (fun _ _ holds => holds) fun _ holds => holds

theorem failing {failed' : Bytes → Prop} (meets : Meets before x after failed)
    (lost : ∀ q, failed q → failed' q) : Meets before x after failed' :=
  meets.mono (fun _ holds => holds) (fun _ _ holds => holds) lost

theorem pure {a : α} (holds : ∀ q, before q → after a q) : Meets before (Pure.pure a) after failed :=
  fun bytes start => holds bytes start

theorem throw {reason : String} (holds : ∀ q, before q → failed q) :
    Meets before (MonadExcept.throw reason : Reader α) after failed :=
  fun bytes start => holds bytes start

theorem bind {middle : α → Bytes → Prop} (first : Meets before x middle failed)
    (second : ∀ a, Meets (middle a) (f a) last failed) : Meets before (x >>= f) last failed := by
  intro bytes start
  have stops := first bytes start
  rw [ExceptT.run_bind, StateT.run_bind]
  generalize x.run.run bytes = outcome at stops ⊢
  obtain ⟨_ | a, rest⟩ := outcome
  · exact stops
  · exact second a rest stops

theorem throw_bind {reason : String} (holds : ∀ q, before q → failed q) :
    Meets before ((MonadExcept.throw reason : Reader α) >>= f) last failed :=
  fun bytes start => holds bytes start

theorem discard {done : Bytes → Prop} (meets : Meets before x (fun _ => done) failed) :
    Meets before (Functor.discard x) (fun _ => done) failed := by
  change Meets before ((fun _ => ()) <$> x) (fun _ => done) failed
  rw [map_eq_pure_bind]
  exact meets.bind fun _ => .pure fun _ holds => holds

theorem ite {p : Prop} [Decidable p] (yes : p → Meets before x after failed)
    (no : ¬ p → Meets before y after failed) : Meets before (if p then x else y) after failed := by
  split
  · exact yes ‹_›
  · exact no ‹_›

theorem never (none : ∀ q, ¬ before q) : Meets before x after failed :=
  fun bytes start => (none bytes start).elim

theorem fix {p : Prop} (meets : p → Meets before x after failed) : Meets (fun q => p ∧ before q) x after failed :=
  fun bytes start => meets start.1 bytes start.2

/-- What comes first does not matter if the rest does not need it. -/
theorem unread (each : ∀ a, Meets Anywhere (f a) last Anywhere) : Meets Anywhere (x >>= f) last Anywhere := by
  have first : Meets Anywhere x (fun _ => Anywhere) Anywhere := by
    intro bytes _
    generalize x.run.run bytes = outcome
    obtain ⟨_ | a, rest⟩ := outcome <;> trivial
  exact first.bind each

/-- An attempt does not fail, and stops where the reader does. -/
theorem attempt {done : Bytes → Prop} (meets : Meets before x (fun _ => done) done) :
    Meets before (Reader.attempt x) (fun _ => done) failed := by
  intro bytes start
  have stops := meets bytes start
  simp only [Reader.attempt, ExceptT.run_mk, StateT.run_bind]
  generalize x.run.run bytes = outcome at stops ⊢
  obtain ⟨_ | a, rest⟩ := outcome <;> exact stops

/-- What comes last is read either way. -/
theorem followedBy {closer : Reader Unit} {middle : α → Bytes → Prop} {lost : Bytes → Prop}
    (first : Meets before x middle lost) (closes : ∀ a, Meets (middle a) closer (fun _ => after a) failed)
    (abandons : Meets lost closer (fun _ => failed) failed) :
    Meets before (Reader.followedBy x closer) after failed := by
  intro bytes start
  have stops := first bytes start
  rcases taken : x.run.run bytes with ⟨_ | a, between⟩
  · rcases closed : closer.run.run between with ⟨_ | _, rest⟩
    all_goals
      rw [taken] at stops
      have ends := abandons between stops
      rw [closed] at ends
      rw [run_followedBy taken closed]
      exact ends
  · rcases closed : closer.run.run between with ⟨_ | _, rest⟩
    all_goals
      rw [taken] at stops
      have ends := closes a between stops
      rw [closed] at ends
      rw [run_followedBy taken closed]
      exact ends

/-! ### Loops -/

variable {step : σ → Reader (σ ⊕ α)} (invariant : σ → Bytes → Prop)

theorem loopUpTo {giveUp : Reader α} (gives : ∀ s, Meets (invariant s) giveUp after failed)
    (each : ∀ s, Meets (invariant s) (step s) (Sum.elim invariant after) failed) (rounds : Nat) (s : σ) :
    Meets (invariant s) (loopUpTo step giveUp rounds s) after failed := by
  induction rounds generalizing s with
  | zero => exact gives s
  | succ rounds ih =>
    refine .bind (each s) fun next => ?_
    cases next with
    | inl s => exact ih s
    | inr a => exact .pure fun _ holds => holds

/-- A property of the state and the bytes that each round keeps holds until the loop ends. -/
theorem iterate (gives : ∀ s q, invariant s q → failed q)
    (each : ∀ s, Meets (invariant s) (step s) (Sum.elim invariant after) failed) (s : σ) :
    Meets (invariant s) (Reader.iterate step s) after failed := by
  intro bytes start
  exact loopUpTo invariant (fun s => .throw (gives s)) each (bytes.length + 1) s bytes start

end Meets

/-! ### Single bytes -/

section Bytes

open Reader

variable {P Q failed : Bytes → Prop} {last : β → Bytes → Prop} {b : UInt8} {f : Option UInt8 → Reader β}

/-- What holds of bytes that begin with this one holds of those behind it. -/
def Passes (P : Bytes → Prop) (b : UInt8) : Prop :=
  ∀ q, P (b :: q) → P q

def PassesBlanks (P : Bytes → Prop) : Prop :=
  ∀ b, isBlank b = true → Passes P b

def Heads (P : Bytes → Prop) (b : UInt8) (q : Bytes) : Prop :=
  P q ∧ q.head? = some b

theorem Heads.exists_cons {q : Bytes} (heads : Heads P b q) : ∃ rest, q = b :: rest ∧ P (b :: rest) := by
  obtain ⟨holds, head⟩ := heads
  cases q with
  | nil => cases head
  | cons _ rest =>
    cases head
    exact ⟨rest, rfl, holds⟩

theorem passes_dropWhile {p : UInt8 → Bool} (each : ∀ b, p b = true → Passes P b) {q : Bytes} (holds : P q) :
    P (q.dropWhile p) := by
  induction q with
  | nil => exact holds
  | cons b q ih =>
    rw [List.dropWhile_cons]
    split
    · exact ih (each b ‹_› q holds)
    · exact holds

theorem head_dropWhile {p : α → Bool} {q : List α} {b : α} (head : (q.dropWhile p).head? = some b) : p b = false := by
  cases rest : q.dropWhile p with
  | nil =>
    rw [rest] at head
    cases head
  | cons c rest' =>
    rw [rest] at head
    cases head
    have stops := List.head_dropWhile_not p (l := q) (by simp [rest])
    simpa [rest] using stops

namespace Meets

theorem get_bind {f : Bytes → Reader β} (each : ∀ q, P q → Meets (· = q) (f q) last failed) :
    Meets P (get >>= f) last failed :=
  fun bytes start => each bytes start bytes rfl

theorem set_bind {new : Bytes} {f : Unit → Reader β} (holds : Q new) (each : Meets Q (f ()) last failed) :
    Meets P (set new >>= f) last failed :=
  fun _ _ => each new holds

theorem modify_bind {f : Unit → Reader β} {g : Bytes → Bytes} (Q : Bytes → Prop) (holds : ∀ q, P q → Q (g q))
    (each : Meets Q (f ()) last failed) : Meets P (modify g >>= f) last failed :=
  fun bytes start => each (g bytes) (holds bytes start)

theorem next_bind {f : UInt8 → Reader β} (ends : P [] → failed [])
    (each : ∀ b, Meets (fun q => P (b :: q)) (f b) last failed) : Meets P (next >>= f) last failed := by
  intro bytes start
  cases bytes with
  | nil => exact ends start
  | cons b q => exact each b q start

theorem peek_bind (ends : Meets (fun q => P q ∧ q = []) (f none) last failed)
    (each : ∀ b, Meets (Heads P b) (f (some b)) last failed) : Meets P (peek >>= f) last failed := by
  intro bytes start
  cases bytes with
  | nil => exact ends [] ⟨start, rfl⟩
  | cons b q => exact each b (b :: q) ⟨start, rfl⟩

theorem peekPast_bind (blanks : PassesBlanks P) (ends : Meets (fun q => P q ∧ q = []) (f none) last failed)
    (each : ∀ b, isBlank b = false → Meets (Heads P b) (f (some b)) last failed) :
    Meets P (peekPast >>= f) last failed := by
  have seen : Meets P peekPast (fun head q => P q ∧ q.head? = head ∧ ∀ b, head = some b → isBlank b = false)
      failed :=
    fun bytes start => ⟨passes_dropWhile blanks start, rfl, fun b => head_dropWhile⟩
  refine seen.bind fun head => ?_
  cases head with
  | none => exact ends.starting fun q holds => ⟨holds.1, List.head?_eq_none_iff.mp holds.2.1⟩
  | some b =>
    intro bytes holds
    exact each b (holds.2.2 b rfl) bytes ⟨holds.1, holds.2.1⟩

theorem drop (behind : ∀ q, P (b :: q) → Q q) : Meets (Heads P b) drop (fun _ => Q) failed := by
  intro bytes heads
  obtain ⟨rest, rfl, holds⟩ := heads.exists_cons
  exact behind rest holds

end Meets

/-! ### The first byte behind blanks -/

/-- Behind blanks, this is what is left. -/
def StartsWith (b : UInt8) (q bytes : Bytes) : Prop :=
  bytes.dropWhile isBlank = b :: q

theorem startsWith_cons {q : Bytes} (visible : isBlank b = false) : StartsWith b q (b :: q) := by
  rw [StartsWith, List.dropWhile_cons_of_neg (by simp [visible])]

theorem startsWith_dropWhile {q : Bytes} : StartsWith b q (bytes.dropWhile isBlank) ↔ StartsWith b q bytes := by
  rw [StartsWith, List.dropWhile_idempotent, StartsWith]

theorem StartsWith.length_lt {q : Bytes} (starts : StartsWith b q bytes) : q.length < bytes.length := by
  have kept := (List.dropWhile_sublist (l := bytes) isBlank).length_le
  rw [starts, List.length_cons] at kept
  omega

theorem StartsWith.visible {q : Bytes} (starts : StartsWith b q bytes) : isBlank b = false :=
  head_dropWhile (q := bytes) (by rw [starts, List.head?_cons])

theorem StartsWith.reads {q : Bytes} (starts : StartsWith b q bytes) : Reads peekPast bytes (some b) (b :: q) := by
  refine .bind (reads_modify _) ?_
  rw [starts]
  exact reads_peek

theorem Meets.startsWith_bind {q : Bytes} (each : isBlank b = false → Meets (· = b :: q) (f (some b)) last failed) :
    Meets (StartsWith b q) (Json.peekPast >>= f) last failed := by
  intro bytes starts
  have behind := each starts.visible (b :: q) rfl
  rw [ExceptT.run_bind, StateT.run_bind, starts.reads]
  exact behind

theorem Meets.blank_bind (each : Meets (· = []) (f none) last failed) :
    Meets (fun bytes => bytes.dropWhile isBlank = []) (Json.peekPast >>= f) last failed := by
  intro bytes blank
  have seen : Reads Json.peekPast bytes none [] := by
    refine .bind (reads_modify _) ?_
    rw [blank]
    exact reads_peek
  have behind := each [] rfl
  rw [ExceptT.run_bind, StateT.run_bind, seen]
  exact behind

/-! ### What stands between values -/

variable (blanks : PassesBlanks P) (fails : ∀ q, P q → failed q)

include blanks fails

theorem meets_colon (behind : ∀ q, P (byte ':' :: q) → Q q) : Meets P colon (fun _ => Q) failed := by
  refine .peekPast_bind blanks (.ite (fun same => nomatch same) fun _ => .throw fun q holds => fails q holds.1) ?_
  refine fun b _ => .ite (fun same => ?_) fun _ => .throw fun q holds => fails q holds.1
  cases same
  exact .drop behind

theorem meets_endObject (behind : ∀ q, P (byte '\x7d' :: q) → Q q) : Meets P endObject (fun _ => Q) failed := by
  refine .peekPast_bind blanks (.ite (fun same => nomatch same) fun _ => .throw fun q holds => fails q holds.1) ?_
  refine fun b _ => .ite (fun same => ?_) fun _ => .throw fun q holds => fails q holds.1
  cases same
  exact .drop behind

theorem meets_endArray (behind : ∀ q, P (byte ']' :: q) → Q q) (comma : ∀ q, P (byte ',' :: q) → failed q) :
    Meets P endArray (fun _ => Q) failed := by
  refine .peekPast_bind blanks (.throw fun q holds => fails q holds.1) fun b _ => .ite (fun same => ?_) fun _ => ?_
  · subst same
    exact .drop behind
  · refine .ite (fun same => ?_) fun _ => .throw fun q holds => fails q holds.1
    subst same
    exact .bind (.drop comma) fun _ => .throw fun _ holds => holds

theorem meets_moreItems (comma : Passes P (byte ',')) (first : Bool) :
    Meets P (moreItems first) (fun _ => P) failed := by
  have stays (b : UInt8) (more : Bool) : Meets (Heads P b) (pure more) (fun _ => P) failed :=
    .pure fun q holds => holds.1
  refine .peekPast_bind blanks (.throw fun q holds => fails q holds.1) fun b _ => .ite (fun _ => stays b _) fun _ => ?_
  refine .ite (fun _ => stays b _) fun _ => .ite (fun same => ?_) fun _ => .throw fun q holds => fails q holds.1
  subst same
  refine .bind (.drop comma) fun _ => .peekPast_bind blanks (.throw fun q holds => fails q holds.1) fun b _ => ?_
  exact .ite (fun _ => .throw fun q holds => fails q holds.1) fun _ => stays b _

/-- A further member begins with the quote of its name, and behind the last one stands the brace. -/
theorem meets_moreMembers (comma : Passes P (byte ',')) (first : Bool) :
    Meets P (moreMembers first) (fun more => Heads P (byte (if more then '"' else '\x7d'))) failed := by
  refine .peekPast_bind blanks (.throw fun q holds => fails q holds.1) fun b _ => .ite (fun same => ?_) fun _ => ?_
  · subst same
    exact .pure fun _ holds => holds
  · refine .ite (fun _ => ?_) fun _ => .ite (fun same => ?_) fun _ => .throw fun q holds => fails q holds.1
    · refine .ite (fun same => ?_) fun _ => .throw_bind fun q holds => fails q holds.1
      subst same
      exact .pure fun _ holds => holds
    · subst same
      refine .bind (.drop comma) fun _ => .peekPast_bind blanks ?_ fun b _ => .ite (fun same => ?_) fun _ => ?_
      · exact .ite (fun same => nomatch same) fun _ => .throw_bind fun q holds => fails q holds.1
      · cases same
        exact .pure fun _ holds => holds
      · exact .throw_bind fun q holds => fails q holds.1

/-- A round over the members of an object: what lies outside of strings, in the string of a name, behind a name and
behind a member. -/
theorem meets_memberStep {member : σ → String → Reader σ} {inner : Bytes → Prop} {named : String → Bytes → Prop}
    (comma : Passes P (byte ',')) (quoted : ∀ q, P (byte '"' :: q) → inner q) (text : Meets inner text named failed)
    (each : ∀ s name, Meets (named name) (member s name) (fun _ => Q) failed) (first : Bool) (s : σ) :
    Meets P (memberStep member (first, s)) (Sum.elim (fun _ => Q) fun _ => P) failed := by
  refine (meets_moreMembers blanks fails comma first).bind fun more => .ite (fun same => ?_) fun _ => ?_
  · subst same
    refine .bind (.drop quoted) fun _ => text.bind fun name => ?_
    exact (each s name).bind fun _ => .pure fun _ holds => holds
  · exact .pure fun _ heads => heads.1

end Bytes

/-! ### Digits -/

theorem reads_skipDigits (q : Bytes) :
    Reads skipDigits q (q.takeWhile isDigit).length (q.dropWhile isDigit) := by
  have cut : (q.takeWhile isDigit ++ q.dropWhile isDigit).drop (q.takeWhile isDigit).length = q.dropWhile isDigit :=
    List.drop_left
  rw [List.takeWhile_append_dropWhile] at cut
  refine .bind reads_get (.bind (reads_modify _) ?_)
  rw [cut]
  exact .pure _

end QueryGate.Json
