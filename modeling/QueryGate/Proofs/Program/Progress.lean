import QueryGate.Proofs.Program.Trace

/-! How far a program has got after some exchanges. As long as every effect can be answered, what it
has asked so far is the beginning of a whole trace. -/

namespace QueryGate.Program

variable {E : Type} {Answer : E → Type} {α : Type}

/-- Answered as in the exchanges, the program has got to the rest. -/
inductive Proceeds : Program E Answer α → List (Exchange E Answer) → Program E Answer α → Prop where
  | here (p : Program E Answer α) : Proceeds p [] p
  | ask {e : E} {next : Answer e → Program E Answer α} {given : Answer e} {t : List (Exchange E Answer)}
      {rest : Program E Answer α} (tail : Proceeds (next given) t rest) :
      Proceeds (.ask e next) (⟨e, given⟩ :: t) rest

variable {p rest : Program E Answer α} {t more : List (Exchange E Answer)} {a : α}

theorem Proceeds.answered {e : E} {next : Answer e → Program E Answer α} (proceeds : Proceeds p t (.ask e next))
    (given : Answer e) : Proceeds p (t ++ [⟨e, given⟩]) (next given) := by
  generalize whole : Program.ask e next = left at proceeds
  induction proceeds with
  | here p =>
    subst whole
    exact .ask (.here _)
  | ask _ ih => exact .ask (ih whole)

theorem Proceeds.follows (proceeds : Proceeds p t rest) (goes_on : Follows rest more a) :
    Follows p (t ++ more) a := by
  induction proceeds with
  | here p => exact goes_on
  | ask _ ih => exact .ask (ih goes_on)

theorem exists_follows (answers : ∀ e : E, Nonempty (Answer e)) (p : Program E Answer α) :
    ∃ t a, Follows p t a := by
  induction p with
  | done a => exact ⟨[], a, .done a⟩
  | ask e next ih =>
    obtain ⟨given⟩ := answers e
    obtain ⟨t, a, tail⟩ := ih given
    exact ⟨_, a, .ask tail⟩

theorem Follows.eq_done (follows : Follows p [] a) : p = .done a := by
  cases follows
  rfl

theorem Follows.eq_ask {x : Exchange E Answer} (follows : Follows p (x :: more) a) :
    ∃ next, p = .ask x.1 next ∧ Follows (next x.2) more a := by
  cases follows with
  | ask tail => exact ⟨_, rfl, tail⟩

end QueryGate.Program
