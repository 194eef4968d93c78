import QueryGate.Proofs.Program.Trace

/-! A program that asks only for effects of one kind has no others in its traces, whoever answers
it. -/

namespace QueryGate.Program

variable {E E' : Type} {Answer : E → Type} {Answer' : E' → Type} {α β ε : Type}

/-- However it is answered, the program asks only for effects with the property. -/
inductive Only (P : E → Prop) : Program E Answer α → Prop where
  | done (a : α) : Only P (.done a)
  | ask {e : E} {next : Answer e → Program E Answer α} (holds : P e) (rest : ∀ given, Only P (next given)) :
      Only P (.ask e next)

variable {P : E → Prop}

theorem only_request {e : E} (holds : P e) : Only P (request e : Program E Answer (Answer e)) :=
  .ask holds .done

theorem Only.bind {p : Program E Answer α} {f : α → Program E Answer β} (first : Only P p)
    (second : ∀ a, Only P (f a)) : Only P (p >>= f) := by
  induction first with
  | done a => exact second a
  | ask holds _ ih => exact .ask holds ih

theorem only_via {carry : (e : E') → Program E Answer (Answer' e)} (each : ∀ e, Only P (carry e))
    (p : Program E' Answer' α) : Only P (p.via carry) := by
  induction p with
  | done a => exact .done a
  | ask e next ih => exact (each e).bind ih

theorem Only.of_follows {p : Program E Answer α} {t : List (Exchange E Answer)} {a : α}
    (only : Only P p) (follows : Follows p t a) : ∀ x ∈ t, P x.1 := by
  induction follows with
  | done a => nofun
  | ask tail ih =>
    cases only with
    | ask holds rest =>
      intro x member
      rcases List.mem_cons.mp member with rfl | later
      · exact holds
      · exact ih (rest _) x later

theorem Only.attempt_bind {x : ExceptT ε (Program E Answer) α}
    {f : α → ExceptT ε (Program E Answer) β} (first : Only P x.run) (second : ∀ a, Only P (f a).run) :
    Only P (x >>= f).run := by
  rw [ExceptT.run_bind]
  refine first.bind fun result => ?_
  cases result with
  | ok a => exact second a
  | error e => exact .done _

theorem only_any (p : Program E Answer α) : Only (fun _ => True) p := by
  induction p with
  | done a => exact .done a
  | ask e next ih => exact .ask trivial ih

theorem only_lift {p : Program E Answer α} (only : Only P p) :
    Only P (ExceptT.lift p : ExceptT ε (Program E Answer) α).run := by
  rw [ExceptT.run_lift, map_eq_pure_bind]
  exact only.bind fun _ => .done _

variable {σ τ : Type} {related : σ → τ → Prop} {answer : (e : E) → σ → Answer e × σ}
  {other : (e : E) → τ → Answer e × τ}

/-- Asked the same in related states, the two give the same answer and stay related, for effects with the property. -/
def AnswerAlike (P : E → Prop) (related : σ → τ → Prop) (answer : (e : E) → σ → Answer e × σ)
    (other : (e : E) → τ → Answer e × τ) : Prop :=
  ∀ e, P e → ∀ s t, related s t → (other e t).1 = (answer e s).1 ∧ related (answer e s).2 (other e t).2

/-- A program cannot tell them apart. -/
theorem run_alike (alike : AnswerAlike P related answer other) {p : Program E Answer α} (only : Only P p)
    {s : σ} {t : τ} (start : related s t) :
    (p.run other t).result = (p.run answer s).result ∧ (p.run other t).exchanges = (p.run answer s).exchanges ∧
      related (p.run answer s).state (p.run other t).state := by
  induction only generalizing s t with
  | done a => exact ⟨rfl, rfl, start⟩
  | @ask e next holds rest ih =>
    obtain ⟨same, still⟩ := alike e holds s t start
    simp only [run]
    rw [same]
    obtain ⟨result, exchanges, final⟩ := ih (answer e s).1 still
    exact ⟨result, congrArg _ exchanges, final⟩

end QueryGate.Program
