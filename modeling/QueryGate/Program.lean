/-! Programs that ask for one effect at a time. One text is run against a directory, a script or the
network, and several in flight can be interleaved between any two of their requests. -/

namespace QueryGate

inductive Program (E : Type) (Answer : E → Type) (α : Type) where
  | done (result : α)
  | ask (e : E) (next : Answer e → Program E Answer α)

namespace Program

variable {E : Type} {Answer : E → Type} {α β : Type}

def bind : Program E Answer α → (α → Program E Answer β) → Program E Answer β
  | .done a, f => f a
  | .ask e next, f => .ask e fun answer => (next answer).bind f

instance : Monad (Program E Answer) where
  pure := .done
  bind := bind

@[simp] theorem done_bind (a : α) (f : α → Program E Answer β) :
    (Program.done a >>= f) = f a := rfl

@[simp] theorem ask_bind (e : E) (next : Answer e → Program E Answer α)
    (f : α → Program E Answer β) :
    (Program.ask e next >>= f) = .ask e fun answer => next answer >>= f := rfl

theorem bind_done (p : Program E Answer α) : p >>= Program.done = p := by
  induction p with
  | done a => rfl
  | ask e next ih => simp only [ask_bind, ih]

theorem bind_assoc {γ : Type} (p : Program E Answer α) (f : α → Program E Answer β)
    (g : β → Program E Answer γ) : p >>= f >>= g = p >>= fun a => f a >>= g := by
  induction p with
  | done a => rfl
  | ask e next ih => simp only [ask_bind, ih]

instance : LawfulMonad (Program E Answer) :=
  LawfulMonad.mk' _ (fun p => bind_done p) (fun _ _ => rfl) (fun p f g => bind_assoc p f g)

def request (e : E) : Program E Answer (Answer e) :=
  .ask e .done

/-- The program with each of its effects carried out by a program over other effects. -/
def via {E' : Type} {Answer' : E' → Type} (carry : (e : E) → Program E' Answer' (Answer e)) :
    Program E Answer α → Program E' Answer' α
  | .done a => .done a
  | .ask e next => (carry e).bind fun answer => (next answer).via carry

abbrev Exchange (E : Type) (Answer : E → Type) := (e : E) × Answer e

structure Run (E : Type) (Answer : E → Type) (σ α : Type) where
  result : α
  exchanges : List (Exchange E Answer)
  state : σ

def run {σ : Type} (answer : (e : E) → σ → Answer e × σ) :
    Program E Answer α → σ → Run E Answer σ α
  | .done a, s => ⟨a, [], s⟩
  | .ask e next, s =>
    let (given, s') := answer e s
    let rest := (next given).run answer s'
    { rest with exchanges := ⟨e, given⟩ :: rest.exchanges }

end Program

def loopUpTo {m : Type → Type} [Monad m] {σ α : Type} (step : σ → m (σ ⊕ α)) (giveUp : m α) :
    (rounds : Nat) → σ → m α
  | 0, _ => giveUp
  | rounds + 1, state => do
    match ← step state with
    | .inl state => loopUpTo step giveUp rounds state
    | .inr result => return result

end QueryGate
