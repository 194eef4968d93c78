import QueryGate.Program

/-!
# Traces of programs

Which exchanges a program can have, whoever answers it. A run against an answerer is the one trace
whose answers that answerer gives, so what holds of every trace holds of every run.
-/

/-! ### Results that may be failures -/

namespace QueryGate.Result

variable {ε α β : Type} {x : Except ε α} {b : β}

theorem ok_bind (a : α) (f : α → Except ε β) : (Except.ok a >>= f) = f a := rfl

theorem bind_ok_iff {f : α → Except ε β} : (x >>= f) = .ok b ↔ ∃ a, x = .ok a ∧ f a = .ok b := by
  constructor
  · intro h
    cases x with
    | error e => cases h
    | ok a => exact ⟨a, rfl, h⟩
  · rintro ⟨a, rfl, h⟩
    exact h

theorem bind_error_iff {f : α → Except ε β} {e : ε} :
    (x >>= f) = .error e ↔ x = .error e ∨ ∃ a, x = .ok a ∧ f a = .error e := by
  constructor
  · intro h
    cases x with
    | error e => cases h; exact .inl rfl
    | ok a => exact .inr ⟨a, rfl, h⟩
  · rintro (rfl | ⟨a, rfl, h⟩)
    · rfl
    · exact h

theorem map_error_iff {f : α → β} {e : ε} : x.map f = .error e ↔ x = .error e := by
  cases x <;> simp [Except.map]

theorem map_ok_iff {f : α → β} : x.map f = .ok b ↔ ∃ a, x = .ok a ∧ f a = b := by
  cases x <;> simp [Except.map]

end QueryGate.Result

/-! ### Traces -/

namespace QueryGate.Program

variable {E : Type} {Answer : E → Type} {σ α β ε : Type}

/-- Answered as in the exchanges, the program asks for just these and ends in the result. -/
inductive Follows : Program E Answer α → List (Exchange E Answer) → α → Prop where
  | done (a : α) : Follows (.done a) [] a
  | ask {e : E} {next : Answer e → Program E Answer α} {given : Answer e}
      {rest : List (Exchange E Answer)} {a : α} (tail : Follows (next given) rest a) :
      Follows (.ask e next) (⟨e, given⟩ :: rest) a

/-- Asked for the same in the same order, the answerer gives these answers and ends in the state. -/
def Gives (answer : (e : E) → σ → Answer e × σ) : σ → List (Exchange E Answer) → σ → Prop
  | s, [], final => final = s
  | s, ⟨e, given⟩ :: rest, final => (answer e s).1 = given ∧ Gives answer (answer e s).2 rest final

@[simp] theorem follows_done {a b : α} {t : List (Exchange E Answer)} :
    Follows (.done a) t b ↔ t = [] ∧ b = a := by
  constructor
  · intro h
    cases h
    exact ⟨rfl, rfl⟩
  · rintro ⟨rfl, rfl⟩
    exact .done _

@[simp] theorem follows_ask {e : E} {next : Answer e → Program E Answer α}
    {t : List (Exchange E Answer)} {a : α} :
    Follows (.ask e next) t a ↔ ∃ given rest, t = ⟨e, given⟩ :: rest ∧ Follows (next given) rest a := by
  constructor
  · intro h
    cases h with
    | ask tail => exact ⟨_, _, rfl, tail⟩
  · rintro ⟨given, rest, rfl, tail⟩
    exact .ask tail

@[simp] theorem follows_request {e : E} {t : List (Exchange E Answer)} {given : Answer e} :
    Follows (request e) t given ↔ t = [⟨e, given⟩] := by
  simp only [request, follows_ask, follows_done]
  constructor
  · rintro ⟨_, _, rfl, rfl, rfl⟩
    rfl
  · rintro rfl
    exact ⟨given, [], rfl, rfl, rfl⟩

theorem Follows.unique {p : Program E Answer α} {t : List (Exchange E Answer)} {a b : α}
    (first : Follows p t a) (second : Follows p t b) : a = b := by
  induction first with
  | done a =>
    cases second
    rfl
  | ask tail ih =>
    cases second with
    | ask other => exact ih other

theorem follows_ask_done {e : E} {result : Answer e → α} {t : List (Exchange E Answer)} {a : α} :
    Follows (.ask e fun given => .done (result given)) t a ↔
      ∃ given, t = [⟨e, given⟩] ∧ a = result given := by
  simp only [follows_ask, follows_done]
  constructor
  · rintro ⟨given, _, rfl, rfl, rfl⟩
    exact ⟨given, rfl, rfl⟩
  · rintro ⟨given, rfl, rfl⟩
    exact ⟨given, [], rfl, rfl, rfl⟩

theorem follows_bind {p : Program E Answer α} {f : α → Program E Answer β}
    {t : List (Exchange E Answer)} {b : β} :
    Follows (p >>= f) t b ↔
      ∃ before a after, t = before ++ after ∧ Follows p before a ∧ Follows (f a) after b := by
  induction p generalizing t with
  | done a =>
    simp only [done_bind, follows_done]
    constructor
    · exact fun tail => ⟨[], a, t, rfl, ⟨rfl, rfl⟩, tail⟩
    · rintro ⟨_, _, _, rfl, ⟨rfl, rfl⟩, tail⟩
      exact tail
  | ask e next ih =>
    simp only [ask_bind, follows_ask, ih]
    constructor
    · rintro ⟨given, _, rfl, before, a, after, rfl, head, tail⟩
      exact ⟨⟨e, given⟩ :: before, a, after, rfl, ⟨given, before, rfl, head⟩, tail⟩
    · rintro ⟨_, a, after, rfl, ⟨given, before, rfl, head⟩, tail⟩
      exact ⟨given, before ++ after, rfl, before, a, after, rfl, head, tail⟩

/-- Where each effect is carried out by a single exchange, so is each exchange of the program. -/
theorem follows_via {E' : Type} {Answer' : E' → Type} {carry : (e : E) → Program E' Answer' (Answer e)}
    {carried : Exchange E Answer → Exchange E' Answer'}
    (single : ∀ e given t, Follows (carry e) t given ↔ t = [carried ⟨e, given⟩])
    {p : Program E Answer α} {t : List (Exchange E' Answer')} {a : α} :
    Follows (p.via carry) t a ↔ ∃ s, t = s.map carried ∧ Follows p s a := by
  induction p generalizing t with
  | done b =>
    simp only [via, follows_done]
    constructor
    · rintro ⟨rfl, rfl⟩
      exact ⟨[], rfl, rfl, rfl⟩
    · rintro ⟨_, rfl, rfl, rfl⟩
      exact ⟨rfl, rfl⟩
  | ask e next ih =>
    refine (follows_bind (f := fun given => (next given).via carry)).trans ?_
    simp only [single, ih, follows_ask]
    constructor
    · rintro ⟨_, given, _, rfl, rfl, s, rfl, tail⟩
      exact ⟨⟨e, given⟩ :: s, rfl, given, s, rfl, tail⟩
    · rintro ⟨_, rfl, given, s, rfl, tail⟩
      exact ⟨_, given, _, rfl, rfl, s, rfl, tail⟩

theorem gives_append {answer : (e : E) → σ → Answer e × σ} {s final : σ}
    {before after : List (Exchange E Answer)} :
    Gives answer s (before ++ after) final ↔
      ∃ middle, Gives answer s before middle ∧ Gives answer middle after final := by
  induction before generalizing s with
  | nil => simp [Gives]
  | cons x before ih => simp [Gives, ih, and_assoc]

theorem run_bind (p : Program E Answer α) (f : α → Program E Answer β)
    (answer : (e : E) → σ → Answer e × σ) (s : σ) :
    (p >>= f).run answer s =
      let first := p.run answer s
      let second := (f first.result).run answer first.state
      ⟨second.result, first.exchanges ++ second.exchanges, second.state⟩ := by
  induction p generalizing s with
  | done a => rfl
  | ask e next ih => simp [run, ih]

/-- A run is the trace that the answerer gives. -/
theorem run_eq_iff {p : Program E Answer α} {answer : (e : E) → σ → Answer e × σ} {s final : σ}
    {t : List (Exchange E Answer)} {a : α} :
    p.run answer s = ⟨a, t, final⟩ ↔ Follows p t a ∧ Gives answer s t final := by
  induction p generalizing s t with
  | done b =>
    simp only [run, Run.mk.injEq, follows_done]
    constructor
    · rintro ⟨rfl, rfl, rfl⟩
      exact ⟨⟨rfl, rfl⟩, rfl⟩
    · rintro ⟨⟨rfl, rfl⟩, same⟩
      exact ⟨rfl, rfl, same.symm⟩
  | ask e next ih =>
    simp only [run, Run.mk.injEq, follows_ask]
    constructor
    · rintro ⟨result, rfl, state⟩
      have tail := ih (answer e s).1 (s := (answer e s).2) (t := _) |>.mp (by rw [← result, ← state])
      exact ⟨⟨_, _, rfl, tail.1⟩, rfl, tail.2⟩
    · rintro ⟨⟨given, rest, rfl, tail⟩, same, gives⟩
      subst same
      have whole := (ih _).mpr ⟨tail, gives⟩
      simp [whole]

theorem run_follows (p : Program E Answer α) (answer : (e : E) → σ → Answer e × σ) (s : σ) :
    Follows p (p.run answer s).exchanges (p.run answer s).result :=
  (run_eq_iff.mp (show p.run answer s = ⟨_, _, _⟩ from rfl)).1

theorem run_gives (p : Program E Answer α) (answer : (e : E) → σ → Answer e × σ) (s : σ) :
    Gives answer s (p.run answer s).exchanges (p.run answer s).state :=
  (run_eq_iff.mp (show p.run answer s = ⟨_, _, _⟩ from rfl)).2

/-- What holds of every answer that can be given holds of every exchange. -/
theorem forall_of_gives {P : Exchange E Answer → Prop} {answer : (e : E) → σ → Answer e × σ}
    (each : ∀ e s, P ⟨e, (answer e s).1⟩) {s final : σ} {t : List (Exchange E Answer)}
    (gives : Gives answer s t final) : ∀ x ∈ t, P x := by
  induction t generalizing s with
  | nil => nofun
  | cons x rest ih =>
    obtain ⟨e, given⟩ := x
    obtain ⟨rfl, later⟩ := gives
    exact List.forall_mem_cons.mpr ⟨each e s, ih later⟩

/-! ## Programs that may fail -/

/-- A first part that fails ends the whole program. -/
theorem follows_attempt_bind {x : ExceptT ε (Program E Answer) α}
    {f : α → ExceptT ε (Program E Answer) β} {t : List (Exchange E Answer)} {r : Except ε β} :
    Follows (x >>= f).run t r ↔
      (∃ before a after, t = before ++ after ∧ Follows x.run before (.ok a) ∧ Follows (f a).run after r) ∨
      ∃ e, r = .error e ∧ Follows x.run t (.error e) := by
  rw [ExceptT.run_bind, follows_bind]
  constructor
  · rintro ⟨before, given, after, rfl, head, tail⟩
    cases given with
    | ok a => exact .inl ⟨before, a, after, rfl, head, tail⟩
    | error e =>
      obtain ⟨rfl, rfl⟩ := follows_done.mp tail
      exact .inr ⟨e, rfl, by simpa using head⟩
  · rintro (⟨before, a, after, rfl, head, tail⟩ | ⟨e, rfl, head⟩)
    · exact ⟨before, .ok a, after, rfl, head, tail⟩
    · exact ⟨t, .error e, [], by simp, head, .done _⟩

theorem follows_attempt_ok {x : ExceptT ε (Program E Answer) α}
    {f : α → ExceptT ε (Program E Answer) β} {t : List (Exchange E Answer)} {b : β} :
    Follows (x >>= f).run t (.ok b) ↔
      ∃ before a after, t = before ++ after ∧ Follows x.run before (.ok a) ∧
        Follows (f a).run after (.ok b) := by
  refine follows_attempt_bind.trans ?_
  simp

theorem follows_lift_iff {p : Program E Answer α} {t : List (Exchange E Answer)} {r : Except ε α} :
    Follows (ExceptT.lift p : ExceptT ε (Program E Answer) α).run t r ↔ ∃ a, r = .ok a ∧ Follows p t a := by
  rw [ExceptT.run_lift, map_eq_pure_bind, follows_bind]
  constructor
  · rintro ⟨before, a, _, rfl, head, tail⟩
    obtain ⟨rfl, rfl⟩ := follows_done.mp tail
    exact ⟨a, rfl, by rwa [List.append_nil]⟩
  · rintro ⟨a, rfl, head⟩
    exact ⟨t, a, [], (List.append_nil t).symm, head, .done _⟩

@[simp] theorem follows_lift {p : Program E Answer α} {t : List (Exchange E Answer)} {a : α} :
    Follows (ExceptT.lift p : ExceptT ε (Program E Answer) α).run t (.ok a) ↔ Follows p t a := by
  rw [follows_lift_iff]
  constructor
  · rintro ⟨_, ⟨⟩, head⟩
    exact head
  · exact fun head => ⟨a, rfl, head⟩

end QueryGate.Program
