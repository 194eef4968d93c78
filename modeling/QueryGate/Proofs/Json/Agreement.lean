import QueryGate.Proofs.Json.Outcomes

/-!
# Readings that agree

One reader mirrors another if it succeeds wherever the other one does and stops at the same place. What is read as a
string or as an integer can also be passed over, although escapes and digits are then taken in other portions.
-/

namespace QueryGate.Json

open Reader

variable {σ τ α β γ δ : Type} {bytes middle rest : Bytes} {b : UInt8}

/-! ### Readings taken apart -/

namespace Reads

theorem of_next (reads : Reads next bytes b rest) : bytes = b :: rest := by
  cases bytes with
  | nil => cases reads
  | cons c q =>
    cases reads
    rfl

theorem of_peek {head : Option UInt8} (reads : Reads peek bytes head rest) : head = bytes.head? ∧ rest = bytes :=
  reads.unique reads_peek

theorem of_peekPast {head : Option UInt8} (reads : Reads peekPast bytes head rest) :
    head = rest.head? ∧ rest = bytes.dropWhile isBlank := by
  obtain ⟨_, middle, skipped, seen⟩ := reads.of_bind
  obtain ⟨_, rfl⟩ := skipped.unique (reads_modify _)
  obtain ⟨rfl, rfl⟩ := seen.of_peek
  exact ⟨rfl, rfl⟩

theorem startsWith (reads : Reads peekPast bytes (some b) middle) : ∃ q, middle = b :: q ∧ StartsWith b q bytes := by
  obtain ⟨head, rfl⟩ := reads.of_peekPast
  obtain ⟨q, same⟩ := List.head?_eq_some_iff.mp head.symm
  exact ⟨q, same, same⟩

theorem of_ite {p : Prop} [Decidable p] {x y : Reader α} {a : α} (reads : Reads (if p then x else y) bytes a rest) :
    (p ∧ Reads x bytes a rest) ∨ (¬ p ∧ Reads y bytes a rest) := by
  split at reads
  · exact .inl ⟨‹_›, reads⟩
  · exact .inr ⟨‹_›, reads⟩

theorem of_throw_bind {reason : String} {f : α → Reader β} {b : β}
    (reads : Reads ((throw reason : Reader α) >>= f) bytes b rest) : False := by
  obtain ⟨_, _, fails, _⟩ := reads.of_bind
  exact fails.of_throw

theorem of_followedBy {x : Reader α} {closer : Reader Unit} {a : α}
    (reads : Reads (Reader.followedBy x closer) bytes a rest) :
    ∃ middle, Reads x bytes a middle ∧ Reads closer middle () rest := by
  rcases taken : x.run.run bytes with ⟨result, middle⟩
  rcases closed : closer.run.run middle with ⟨closing, final⟩
  rw [Reads, run_followedBy taken closed] at reads
  cases result with
  | error reason => cases reads
  | ok b =>
    cases closing with
    | error reason => cases reads
    | ok _ =>
      cases reads
      exact ⟨middle, taken, closed⟩

theorem of_attempt {x : Reader α} {a : α} (reads : Reads (Reader.attempt x) bytes (some a) rest) :
    Reads x bytes a rest := by
  unfold Reads at reads ⊢
  simp only [Reader.attempt, ExceptT.run_mk, StateT.run_bind] at reads
  generalize x.run.run bytes = outcome at reads ⊢
  obtain ⟨_ | b, middle⟩ := outcome
  all_goals cases reads
  rfl

/-- A loop that ends has gone through its rounds, which are told from the last one on. -/
theorem iterate_induction {step : σ → Reader (σ ⊕ α)} {a : α} (motive : σ → Bytes → Prop)
    (last : ∀ s bytes, Reads (step s) bytes (.inr a) rest → motive s bytes)
    (more : ∀ s bytes next middle, Reads (step s) bytes (.inl next) middle → motive next middle → motive s bytes)
    {s : σ} (reads : Reads (iterate step s) bytes a rest) : motive s bytes := by
  obtain ⟨all, q, taken, looped⟩ := reads.of_bind
  have same := (taken.unique reads_get).2
  rw [same] at looped
  clear reads taken same
  generalize all.length + 1 = rounds at looped
  induction rounds generalizing s bytes with
  | zero => exact looped.of_throw.elim
  | succ rounds ih =>
    obtain ⟨next, middle, round, others⟩ := looped.of_bind
    cases next with
    | inl next => exact more s bytes next middle round (ih others)
    | inr result =>
      obtain ⟨rfl, rfl⟩ := others.of_pure
      exact last s bytes round

end Reads

/-- The rounds of a loop that ended. -/
inductive Rounds (step : σ → Reader (σ ⊕ α)) (a : α) (rest : Bytes) : σ → Bytes → Prop where
  | last {s : σ} {bytes : Bytes} (reads : Reads (step s) bytes (.inr a) rest) : Rounds step a rest s bytes
  | more {s next : σ} {bytes middle : Bytes} (reads : Reads (step s) bytes (.inl next) middle)
      (others : Rounds step a rest next middle) : Rounds step a rest s bytes

theorem Reads.rounds {step : σ → Reader (σ ⊕ α)} {s : σ} {a : α} (reads : Reads (iterate step s) bytes a rest) :
    Rounds step a rest s bytes :=
  reads.iterate_induction (Rounds step a rest) (fun _ _ => .last) fun _ _ _ _ => .more

/-! ### Members -/

/-- What one round over the members of an object takes: a member behind its name, or nothing behind the last one. -/
theorem Reads.of_memberStep {member : σ → String → Reader σ} {first : Bool} {s : σ} {next : (Bool × σ) ⊕ σ}
    (reads : Reads (memberStep member (first, s)) bytes next rest) :
    (Reads (moreMembers first) bytes false rest ∧ next = .inr s) ∨
      ∃ quote behind name here s', Reads (moreMembers first) bytes true quote ∧ Reads drop quote () behind ∧
        Reads text behind name here ∧ Reads (member s name) here s' rest ∧ next = .inl (false, s') := by
  obtain ⟨more, quote, asked, round⟩ := reads.of_bind
  obtain ⟨rfl, round⟩ | ⟨none, round⟩ := Reads.of_ite round
  · obtain ⟨_, behind, dropped, round⟩ := round.of_bind
    obtain ⟨name, here, named, round⟩ := round.of_bind
    obtain ⟨s', _, taken, round⟩ := round.of_bind
    obtain ⟨rfl, rfl⟩ := round.of_pure
    exact .inr ⟨quote, behind, name, here, s', asked, dropped, named, taken, rfl⟩
  · obtain ⟨rfl, rfl⟩ := round.of_pure
    obtain rfl : more = false := by simpa using none
    exact .inl ⟨asked, rfl⟩

/-! ### Items -/

theorem Reads.of_moreItems_false {first : Bool} (reads : Reads (moreItems first) bytes false rest) :
    ∃ q, rest = byte ']' :: q ∧ StartsWith (byte ']') q bytes := by
  obtain ⟨head, middle, seen, reads⟩ := reads.of_bind
  cases head with
  | none => exact reads.of_throw.elim
  | some b =>
    obtain ⟨q, rfl, starts⟩ := seen.startsWith
    obtain ⟨rfl, ends⟩ | ⟨_, reads⟩ := Reads.of_ite reads
    · obtain ⟨_, rfl⟩ := ends.of_pure
      exact ⟨q, rfl, starts⟩
    obtain ⟨_, ends⟩ | ⟨_, reads⟩ := Reads.of_ite reads
    · cases ends.of_pure.1
    obtain ⟨_, more⟩ | ⟨_, reads⟩ := Reads.of_ite reads
    · obtain ⟨_, _, _, more⟩ := more.of_bind
      obtain ⟨head, _, _, more⟩ := more.of_bind
      cases head with
      | none => exact more.of_throw.elim
      | some b =>
        obtain ⟨_, more⟩ | ⟨_, more⟩ := Reads.of_ite more
        · exact more.of_throw_bind.elim
        · cases (Reads.of_pure more).1
    · exact reads.of_throw.elim

theorem Reads.of_moreItems_first (reads : Reads (moreItems true) bytes true rest) : rest = bytes.dropWhile isBlank := by
  obtain ⟨head, middle, seen, reads⟩ := reads.of_bind
  cases head with
  | none => exact reads.of_throw.elim
  | some b =>
    obtain ⟨_, ends⟩ | ⟨_, reads⟩ := Reads.of_ite reads
    · cases ends.of_pure.1
    obtain ⟨_, ends⟩ | ⟨no, _⟩ := Reads.of_ite reads
    · rw [ends.of_pure.2, seen.of_peekPast.2]
    · exact (no rfl).elim

theorem Reads.of_moreItems_next (reads : Reads (moreItems false) bytes true rest) :
    ∃ q, rest = q.dropWhile isBlank ∧ StartsWith (byte ',') q bytes := by
  obtain ⟨head, middle, seen, reads⟩ := reads.of_bind
  cases head with
  | none => exact reads.of_throw.elim
  | some b =>
    obtain ⟨q, rfl, starts⟩ := seen.startsWith
    obtain ⟨_, ends⟩ | ⟨_, reads⟩ := Reads.of_ite reads
    · cases ends.of_pure.1
    obtain ⟨no, _⟩ | ⟨_, reads⟩ := Reads.of_ite reads
    · cases no
    obtain ⟨rfl, more⟩ | ⟨_, reads⟩ := Reads.of_ite reads
    · obtain ⟨_, _, dropped, more⟩ := more.of_bind
      obtain ⟨_, rfl⟩ := (reads_drop _).unique dropped
      obtain ⟨head, _, seen, more⟩ := more.of_bind
      cases head with
      | none => exact more.of_throw.elim
      | some b =>
        obtain ⟨_, more⟩ | ⟨_, more⟩ := Reads.of_ite more
        · exact more.of_throw_bind.elim
        · obtain ⟨_, rfl⟩ := Reads.of_pure more
          exact ⟨q, seen.of_peekPast.2, starts⟩
    · exact reads.of_throw.elim

/-! ### Mirrors -/

/-- Wherever the first reader succeeds the second one does, with a related result and at the same place. -/
def Mirrors (R : α → β → Prop) (x : Reader α) (y : Reader β) : Prop :=
  ∀ bytes a rest, Reads x bytes a rest → ∃ b, Reads y bytes b rest ∧ R a b

namespace Mirrors

variable {R : α → β → Prop} {S : γ → δ → Prop} {x x' : Reader α} {y y' : Reader β}

theorem refl (x : Reader α) : Mirrors Eq x x :=
  fun _ a _ reads => ⟨a, reads, rfl⟩

theorem pure {a : α} {b : β} (related : R a b) : Mirrors R (Pure.pure a) (Pure.pure b) := by
  intro bytes a' rest reads
  obtain ⟨rfl, rfl⟩ := reads.of_pure
  exact ⟨b, .pure b, related⟩

theorem throw {reason : String} : Mirrors R (MonadExcept.throw reason) y :=
  fun _ _ _ reads => reads.of_throw.elim

theorem bind {f : α → Reader γ} {g : β → Reader δ} (first : Mirrors R x y)
    (second : ∀ a b, R a b → Mirrors S (f a) (g b)) : Mirrors S (x >>= f) (y >>= g) := by
  intro bytes c rest reads
  obtain ⟨a, middle, reads, others⟩ := reads.of_bind
  obtain ⟨b, mirrored, related⟩ := first _ _ _ reads
  obtain ⟨d, finished, result⟩ := second a b related _ _ _ others
  exact ⟨d, mirrored.bind finished, result⟩

/-- What both begin with. -/
theorem same {f : α → Reader γ} {g : α → Reader δ} (first : Reader α) (second : ∀ a, Mirrors S (f a) (g a)) :
    Mirrors S (first >>= f) (first >>= g) := by
  refine (refl first).bind ?_
  rintro a _ rfl
  exact second a

theorem ite {p : Prop} [Decidable p] (yes : p → Mirrors R x y) (no : ¬ p → Mirrors R x' y') :
    Mirrors R (if p then x else x') (if p then y else y') := by
  split
  · exact yes ‹_›
  · exact no ‹_›

variable {Q : σ → τ → Prop} {step : σ → Reader (σ ⊕ α)} {other : τ → Reader (τ ⊕ β)}

theorem iterate (each : ∀ s t, Q s t → Mirrors (Sum.LiftRel Q R) (step s) (other t)) {s : σ} {t : τ}
    (related : Q s t) : Mirrors R (iterate step s) (iterate other t) := by
  refine .same get fun bytes => ?_
  generalize bytes.length + 1 = rounds
  induction rounds generalizing s t with
  | zero => exact .throw
  | succ rounds ih =>
    refine (each s t related).bind fun next next' both => ?_
    cases both with
    | inl related => exact ih related
    | inr related => exact .pure related

theorem items {item : σ → Reader σ} {item' : τ → Reader τ} (each : ∀ s t, Q s t → Mirrors Q (item s) (item' t))
    {s : σ} {t : τ} (related : Q s t) : Mirrors Q (items item s) (items item' t) := by
  refine .iterate (Q := fun s t => s.1 = t.1 ∧ Q s.2 t.2) ?_ ⟨rfl, related⟩
  rintro ⟨first, s⟩ ⟨_, t⟩ ⟨rfl, related⟩
  refine .same (moreItems first) fun more => .ite (fun _ => ?_) fun _ => .pure (.inr related)
  exact (each s t related).bind fun _ _ related => .pure (.inl ⟨rfl, related⟩)

theorem members {member : σ → String → Reader σ} {member' : τ → String → Reader τ}
    (each : ∀ s t name, Q s t → Mirrors Q (member s name) (member' t name)) {s : σ} {t : τ} (related : Q s t) :
    Mirrors Q (members member s) (members member' t) := by
  refine .iterate (Q := fun s t => s.1 = t.1 ∧ Q s.2 t.2) ?_ ⟨rfl, related⟩
  rintro ⟨first, s⟩ ⟨_, t⟩ ⟨rfl, related⟩
  refine .same (moreMembers first) fun more => .ite (fun _ => ?_) fun _ => .pure (.inr related)
  refine .same drop fun _ => .same text fun name => ?_
  exact (each s t name related).bind fun _ _ related => .pure (.inl ⟨rfl, related⟩)

end Mirrors

/-! ### Strings -/

theorem meets_hexNumber_length (bound : Nat) :
    Meets (·.length ≤ bound) hexNumber (fun _ q => q.length ≤ bound) Anywhere := by
  refine .get_bind fun q holds => .modify_bind (·.length ≤ bound) ?_ (.ite (fun _ => ?_) fun _ => ?_)
  · rintro _ rfl
    rw [List.length_drop]
    omega
  · exact .throw_bind fun _ _ => trivial
  · split
    · exact .pure fun _ holds => holds
    · exact .throw fun _ _ => trivial

theorem Reads.of_hexNumber {n : Nat} (reads : Reads hexNumber bytes n rest) : rest.length ≤ bytes.length :=
  (meets_hexNumber_length bytes.length).after_reads (Nat.le_refl _) reads

theorem Reads.of_skipText (reads : Reads skipText bytes () rest) : rest.length ≤ bytes.length := by
  have shorter : Meets (·.length ≤ bytes.length) skipText (fun _ q => q.length ≤ bytes.length) Anywhere := by
    refine .iterate (fun _ => (·.length ≤ bytes.length)) (fun _ _ _ => trivial) (fun _ => ?_) ()
    have one (b : UInt8) : Passes (·.length ≤ bytes.length) b := fun q holds => Nat.le_of_succ_le holds
    refine .next_bind (fun _ => trivial) fun b => .ite (fun _ => .pure (one _)) fun _ => .ite (fun _ => ?_) fun _ => ?_
    · refine .next_bind (fun _ => trivial) fun b => .ite (fun _ => ?_) fun _ => ?_
      · refine .bind (.discard ((meets_hexNumber_length bytes.length).starting ?_)) fun _ => .pure fun _ holds => holds
        exact fun q holds => one _ q (one _ _ holds)
      · exact .ite (fun _ => .throw_bind fun _ _ => trivial) fun _ => .pure fun q holds => one _ q (one _ _ holds)
    · exact .ite (fun _ => .throw fun _ _ => trivial) fun _ => .pure (one _)
  exact shorter.after_reads (Nat.le_refl _) reads

theorem Reads.of_escapeByte {c : Char} (reads : Reads (escapeByte c) bytes () rest) : bytes = byte c :: rest := by
  obtain ⟨b, q, taken, reads⟩ := reads.of_bind
  obtain ⟨same, reads⟩ | ⟨_, reads⟩ := Reads.of_ite reads
  · obtain ⟨_, rfl⟩ := reads.of_pure
    rw [taken.of_next, same]
  · exact reads.of_throw.elim

/-- A character whose number is given in two parts is passed over in two rounds. -/
theorem Reads.of_numberedChar {c : Char} (reads : Reads numberedChar bytes c rest) :
    ∃ n middle, Reads hexNumber bytes n middle ∧
      (rest = middle ∨ ∃ m more, middle = byte '\\' :: byte 'u' :: more ∧ Reads hexNumber more m rest) := by
  obtain ⟨n, middle, number, reads⟩ := reads.of_bind
  refine ⟨n, middle, number, ?_⟩
  obtain ⟨_, reads⟩ | ⟨_, reads⟩ := Reads.of_ite reads
  · exact reads.of_throw_bind.elim
  obtain ⟨_, reads⟩ | ⟨_, reads⟩ := Reads.of_ite reads
  · obtain ⟨_, q, first, reads⟩ := Reads.of_bind reads
    obtain ⟨_, more, second, reads⟩ := reads.of_bind
    obtain ⟨m, behind, number, reads⟩ := reads.of_bind
    obtain ⟨_, reads⟩ | ⟨_, reads⟩ := Reads.of_ite reads
    · obtain ⟨_, rfl⟩ := Reads.of_pure reads
      exact .inr ⟨m, more, by rw [first.of_escapeByte, second.of_escapeByte], number⟩
    · exact reads.of_throw_bind.elim
  · obtain ⟨_, rfl⟩ := Reads.of_pure reads
    exact .inl rfl

theorem reads_skipTextStep_escape {n : Nat} (number : Reads hexNumber bytes n rest) :
    Reads (skipTextStep ()) (byte '\\' :: byte 'u' :: bytes) (.inl ()) rest := by
  refine .bind (reads_next _) (.ite_neg (by decide) (.ite_pos rfl (.bind (reads_next _) ?_)))
  exact .ite_pos rfl (.bind (.bind number (.pure _)) (.pure _))

/-- The rounds that pass over what is taken in one round as text. -/
theorem loops_skipTextStep {taken more final : Bytes} (reads : Reads (textStep taken) bytes (.inl more) rest)
    (others : Loops skipTextStep () rest () final) : Loops skipTextStep () bytes () final := by
  obtain ⟨b, q, first, reads⟩ := reads.of_bind
  rw [first.of_next]
  obtain ⟨_, reads⟩ | ⟨noQuote, reads⟩ := Reads.of_ite reads
  · cases (Reads.of_pure reads).1
  obtain ⟨rfl, escape⟩ | ⟨noEscape, reads⟩ := Reads.of_ite reads
  · obtain ⟨c, behind, escape, ends⟩ := Reads.of_bind escape
    obtain ⟨_, rfl⟩ := ends.of_pure
    obtain ⟨letter, q, second, escape⟩ := escape.of_bind
    rw [second.of_next]
    obtain ⟨rfl, number⟩ | ⟨notNumber, escape⟩ := Reads.of_ite escape
    · obtain ⟨n, middle, number, whole⟩ := number.of_numberedChar
      have shorter := number.of_hexNumber
      refine .more (reads_skipTextStep_escape number) (by simp only [List.length_cons]; omega) ?_
      obtain rfl | ⟨m, more, rfl, trail⟩ := whole
      · exact others
      · have shorter := trail.of_hexNumber
        exact .more (reads_skipTextStep_escape trail) (by simp only [List.length_cons]; omega) others
    · split at escape
      · next known =>
        obtain ⟨_, rfl⟩ := escape.of_pure
        have round : Reads (skipTextStep ()) (byte '\\' :: letter :: rest) (.inl ()) rest := by
          refine .bind (reads_next _) (.ite_neg noQuote (.ite_pos rfl (.bind (reads_next _) ?_)))
          exact .ite_neg notNumber (.ite_neg (by simp [known]) (.pure _))
        exact .more round (by simp only [List.length_cons]; omega) others
      · exact escape.of_throw.elim
  · obtain ⟨_, reads⟩ | ⟨noControl, reads⟩ := Reads.of_ite reads
    · exact reads.of_throw.elim
    · obtain ⟨_, rfl⟩ := Reads.of_pure reads
      refine .more ?_ (Nat.lt_succ_self _) others
      exact .bind (reads_next _) (.ite_neg noQuote (.ite_neg noEscape (.ite_neg noControl (.pure _))))

/-- A string that is text can be passed over. -/
theorem Reads.skipText {s : String} (reads : Reads text bytes s rest) : Reads skipText bytes () rest := by
  obtain ⟨taken, middle, reads, whole⟩ := reads.of_bind
  have same : rest = middle := by
    split at whole
    · exact whole.of_pure.2
    · exact whole.of_throw.elim
  subst same
  refine Loops.reads (reads.iterate_induction (fun _ bytes => Loops skipTextStep () bytes () rest) ?_ ?_)
  · intro taken bytes reads
    obtain ⟨b, q, first, reads⟩ := reads.of_bind
    rw [first.of_next]
    obtain ⟨rfl, reads⟩ | ⟨_, reads⟩ := Reads.of_ite reads
    · obtain ⟨_, rfl⟩ := Reads.of_pure reads
      exact .last (.bind (reads_next _) (.ite_pos rfl (.pure _)))
    obtain ⟨_, reads⟩ | ⟨_, reads⟩ := Reads.of_ite reads
    · obtain ⟨c, behind, _, ends⟩ := Reads.of_bind reads
      cases ends.of_pure.1
    obtain ⟨_, reads⟩ | ⟨_, reads⟩ := Reads.of_ite reads
    · exact reads.of_throw.elim
    · cases (Reads.of_pure reads).1
  · intro taken bytes more middle reads others
    exact loops_skipTextStep reads others

/-! ### Integers -/

/-- Wherever it succeeds, the reader gives a number that is no integer. -/
abbrev GivesReal (reader : Reader Number) : Prop :=
  Meets Anywhere reader (fun n _ => n = .real) Anywhere

theorem givesReal_finishReal (significand : Nat) (power : Int) : GivesReal (finishReal significand power) :=
  .ite (fun _ => .throw_bind fun _ _ => trivial) fun _ => .pure fun _ _ => rfl

theorem givesReal_exponentDigits (significand : Nat) (negative : Bool) (start : Int) (first : UInt8) :
    GivesReal (exponentDigits significand negative start first) := by
  refine .iterate (fun _ => Anywhere) (fun _ _ _ => trivial) (fun taken => ?_) _
  refine .unread fun found => .ite (fun _ => .unread fun b => ?_) fun _ => ?_
  · refine .ite (fun _ => .pure fun _ _ => trivial) fun _ => .ite (fun _ => .throw fun _ _ => trivial) fun _ => ?_
    exact .unread fun _ => .pure fun _ _ => rfl
  · exact (givesReal_finishReal _ _).bind fun _ => .pure fun _ real => real

theorem givesReal_exponentPart (significand : Nat) (start : Int) : GivesReal (exponentPart significand start) := by
  have digits (sign : Option UInt8) : GivesReal (do
      let first ← next
      unless isDigit first do throw "invalid number"
      exponentDigits significand (sign = some (byte '-')) start first) :=
    .unread fun first => .ite (fun _ => givesReal_exponentDigits _ _ _ _) fun _ => .throw_bind fun _ _ => trivial
  exact .unread fun _ => .unread fun sign => .ite (fun _ => .unread fun _ => digits sign) fun _ => digits sign

theorem givesReal_realTail (significand : Nat) (power : Int) : GivesReal (realTail significand power) :=
  .unread fun _ => .ite (fun _ => givesReal_exponentPart _ _) fun _ => givesReal_finishReal _ _

theorem givesReal_fractionPart (significand : Nat) (start : Int) : GivesReal (fractionPart significand start) := by
  refine .unread fun _ => .unread fun q => .unread fun _ => .unread fun _ => .ite (fun _ => ?_) fun _ => ?_
  · exact .unread fun _ => givesReal_realTail _ _
  · exact .ite (fun _ => .throw_bind fun _ _ => trivial) fun _ => givesReal_realTail _ _

theorem GivesReal.not_integer {reader : Reader Number} (real : GivesReal reader) {n : Int} :
    ¬ Reads reader bytes (.integer n) rest := by
  intro reads
  cases real.after_reads trivial reads

theorem reads_nextIsDigit_any (q : Bytes) : Reads nextIsDigit q (q.head?.any isDigit) q :=
  .bind reads_peek (.pure _)

theorem reads_nextIsExponent_any (q : Bytes) :
    Reads nextIsExponent q (q.head?.any fun b => b = byte 'e' || b = byte 'E') q :=
  .bind reads_peek (.pure _)

/-- Behind its digits an integer ends. -/
theorem Reads.of_afterInteger {significand : Nat} {negative : Bool} {n : Int}
    (reads : Reads (afterInteger significand negative) bytes (.integer n) rest) :
    rest = bytes ∧ Reads skipFraction bytes () bytes ∧ Reads skipExponent bytes () bytes := by
  obtain ⟨head, q, seen, reads⟩ := reads.of_bind
  obtain ⟨rfl, rfl⟩ := seen.of_peek
  obtain ⟨_, reads⟩ | ⟨noPoint, reads⟩ := Reads.of_ite reads
  · exact ((givesReal_fractionPart _ _).not_integer reads).elim
  obtain ⟨found, q, seen, reads⟩ := Reads.of_bind reads
  obtain ⟨rfl, rfl⟩ := seen.unique (reads_nextIsExponent_any _)
  obtain ⟨_, reads⟩ | ⟨noExponent, reads⟩ := Reads.of_ite reads
  · exact ((givesReal_exponentPart _ _).not_integer reads).elim
  refine ⟨?_, .bind reads_peek (.ite_neg noPoint (.pure _)), ?_⟩
  case refine_2 => exact .bind (reads_nextIsExponent_any _) (.ite_neg noExponent (.pure _))
  obtain ⟨_, reads⟩ | ⟨_, reads⟩ := Reads.of_ite reads
  · exact (Reads.of_pure reads).2
  obtain ⟨_, reads⟩ | ⟨_, reads⟩ := Reads.of_ite reads
  · exact (Reads.of_pure reads).2
  · exact (Reads.of_pure reads).2

theorem extend_eq_dropWhile (n : Nat) (q : Bytes) (ends : (extend n q).2.2.head?.any isDigit = false) :
    (extend n q).2.2 = q.dropWhile isDigit := by
  induction q generalizing n with
  | nil => rfl
  | cons b q ih =>
    unfold extend at ends ⊢
    split at ends
    · next taken =>
      rw [if_pos taken, List.dropWhile_cons_of_pos taken.1]
      exact ih _ ends
    · next left =>
      have noDigit : isDigit b = false := ends
      rw [if_neg left, List.dropWhile_cons_of_neg (by simp [noDigit])]

theorem reads_skipSomeDigits_cons (digit : isDigit b = true) (q : Bytes) :
    Reads skipSomeDigits (b :: q) () (q.dropWhile isDigit) := by
  have digits := reads_skipDigits (b :: q)
  rw [List.dropWhile_cons_of_pos digit, List.takeWhile_cons_of_pos digit] at digits
  exact .bind digits (.ite_neg (Nat.succ_ne_zero _) (.pure _))

/-- Behind its sign. -/
theorem Reads.of_number {negative : Bool} {n : Int} (reads : Reads (number negative) bytes (.integer n) rest) :
    Reads (do
      if (← peek) = some (byte '0') then
        drop
        if ← nextIsDigit then throw "invalid number"
      else skipSomeDigits
      skipFraction
      skipExponent) bytes () rest := by
  obtain ⟨first, q, taken, reads⟩ := reads.of_bind
  rw [taken.of_next]
  refine .bind reads_peek ?_
  obtain ⟨rfl, reads⟩ | ⟨noZero, reads⟩ := Reads.of_ite reads
  · obtain ⟨found, q, seen, ends⟩ := Reads.of_bind reads
    obtain ⟨same, rfl⟩ := seen.unique (reads_nextIsDigit_any _)
    obtain ⟨_, ends⟩ | ⟨noDigit, ends⟩ := Reads.of_ite ends
    · exact ends.of_throw_bind.elim
    obtain ⟨rfl, fraction, exponent⟩ := Reads.of_afterInteger ends
    rw [same] at noDigit
    refine .ite_pos rfl (.bind (reads_drop _) (.bind (reads_nextIsDigit_any _) ?_))
    exact .ite_neg noDigit (.bind fraction exponent)
  · have notZero : (first :: q).head? ≠ some (byte '0') := fun same => noZero (Option.some.inj same)
    refine .ite_neg notZero ?_
    obtain ⟨digit, reads⟩ | ⟨_, reads⟩ := Reads.of_ite reads
    · obtain ⟨_, _, got, digits⟩ := Reads.of_bind reads
      obtain ⟨rfl, rfl⟩ := reads_get.unique got
      rcases extended : extend (digitValue first) q with ⟨significand, count, left⟩
      rw [extended] at digits
      obtain ⟨_, _, stopped, ends⟩ := Reads.of_bind digits
      obtain ⟨_, rfl⟩ := (reads_set _).unique stopped
      obtain ⟨found, _, seen, ends⟩ := Reads.of_bind ends
      obtain ⟨rfl, rfl⟩ := (reads_nextIsDigit_any _).unique seen
      obtain ⟨_, ends⟩ | ⟨noDigit, ends⟩ := Reads.of_ite ends
      · have real : GivesReal (do
            let extra ← skipDigits
            if (← peek) = some (byte '.') then fractionPart significand extra
            else realTail significand extra) :=
          .unread fun _ => .unread fun _ => .ite (fun _ => givesReal_fractionPart _ _) fun _ => givesReal_realTail _ _
        exact (real.not_integer ends).elim
      · obtain ⟨rfl, fraction, exponent⟩ := Reads.of_afterInteger ends
        have stops := extend_eq_dropWhile (digitValue first) q
        rw [extended] at stops
        obtain rfl : rest = q.dropWhile isDigit := stops (by simpa using noDigit)
        exact .bind (reads_skipSomeDigits_cons digit q) (.bind fraction exponent)
    · exact reads.of_throw.elim

/-- An integer can be passed over. -/
theorem Reads.skipNumber {n : Int} (reads : Reads signedNumber bytes (.integer n) rest) :
    Reads skipNumber bytes () rest := by
  obtain ⟨head, q, seen, reads⟩ := reads.of_bind
  obtain ⟨rfl, rfl⟩ := seen.of_peek
  refine .bind reads_peek ?_
  obtain ⟨minus, reads⟩ | ⟨noMinus, reads⟩ := Reads.of_ite reads
  · obtain ⟨_, _, dropped, reads⟩ := Reads.of_bind reads
    exact .ite_pos minus (.bind dropped reads.of_number)
  · exact .ite_neg noMinus (Reads.of_number reads)

end QueryGate.Json
