import QueryGate.Proofs.Login.Traces
import QueryGate.Proofs.Program.Progress

/-!
# Logins in flight with one authenticator

Any number of logins are under way with one authenticator. Each move lets one of them take its next step, which is
answered as the flag and the directory are at that moment. As long as nobody sets the flag it is cleared at most
once, and who starts after that asks the directory for nothing.
-/

namespace QueryGate.Login

open Directory (Answerer Source)
open Program (Follows Proceeds follows_ask follows_bind follows_done follows_request)

structure Call where
  login : String
  password : String
  direct : Bool
  deriving DecidableEq, Repr

def Call.steps (source : Source) (call : Call) : Steps (Except Fault Identity) :=
  authenticate source call.login call.password call.direct

/-- A login with what it has asked so far and the steps that are left. -/
structure Flight where
  call : Call
  trace : List (Program.Exchange Effect Effect.Answer)
  rest : Steps (Except Fault Identity)

namespace Flight

def start (source : Source) (call : Call) : Flight where
  call := call
  trace := []
  rest := call.steps source

def answered (flight : Flight) {effect : Effect} (next : effect.Answer → Steps (Except Fault Identity))
    (given : effect.Answer) : Flight where
  call := flight.call
  trace := flight.trace ++ [⟨effect, given⟩]
  rest := next given

/-- What a flight has asked leads from its first step to those that are left. -/
def Sound (source : Source) (flight : Flight) : Prop :=
  Proceeds (flight.call.steps source) flight.trace flight.rest

/-- Some answer or act in the trace tells that the flag is cleared. -/
def NotesCleared (flight : Flight) : Prop :=
  ⟨.isAvailable, false⟩ ∈ flight.trace ∨ ⟨.disable, ()⟩ ∈ flight.trace

/-- The flight has ended because the directory was out of reach, or the source was disabled. -/
def EndedUnavailable (flight : Flight) : Prop :=
  ∃ reason, flight.rest = .done (.error (.directoryUnavailable reason))

end Flight

structure Traffic (σ : Type) where
  authenticator : Authenticator
  directory : σ
  flights : List Flight := []

inductive Move (σ : Type) where
  | start (call : Call)
  /-- The flight with this number takes its next step, if it has one. -/
  | proceed (index : Nat)
  | setAvailable (available : Bool)
  /-- The directory changes by itself. -/
  | turn (change : σ → σ)

namespace Traffic

variable {σ : Type}

def step (answerer : Answerer σ) (traffic : Traffic σ) : Move σ → Traffic σ
  | .start call => { traffic with flights := traffic.flights ++ [.start traffic.authenticator.source call] }
  | .proceed index =>
    match traffic.flights[index]? with
    | none => traffic
    | some flight =>
      match flight.rest with
      | .done _ => traffic
      | .ask effect next =>
        let (given, authenticator, directory) :=
          Authenticator.answer answerer effect (traffic.authenticator, traffic.directory)
        { authenticator, directory, flights := traffic.flights.set index (flight.answered next given) }
  | .setAvailable available => { traffic with authenticator := traffic.authenticator.setAvailable available }
  | .turn change => { traffic with directory := change traffic.directory }

def run (answerer : Answerer σ) (traffic : Traffic σ) (moves : List (Move σ)) : Traffic σ :=
  moves.foldl (step answerer) traffic

/-- What a move can do that does not set the flag: a login starts, one of them gets an answer, the flag is cleared,
or at most the directory changes. -/
inductive Moved (answerer : Answerer σ) (traffic : Traffic σ) : Traffic σ → Prop where
  | started (call : Call) :
      Moved answerer traffic
        { traffic with flights := traffic.flights ++ [.start traffic.authenticator.source call] }
  | answered {index : Nat} {flight : Flight} {effect : Effect}
      {next : effect.Answer → Steps (Except Fault Identity)} (found : traffic.flights[index]? = some flight)
      (asks : flight.rest = .ask effect next) :
      Moved answerer traffic
        { authenticator := (Authenticator.answer answerer effect (traffic.authenticator, traffic.directory)).2.1
          directory := (Authenticator.answer answerer effect (traffic.authenticator, traffic.directory)).2.2
          flights := traffic.flights.set index (flight.answered next
            (Authenticator.answer answerer effect (traffic.authenticator, traffic.directory)).1) }
  | cleared : Moved answerer traffic { traffic with authenticator := traffic.authenticator.setAvailable false }
  | turned (directory : σ) : Moved answerer traffic { traffic with directory }

variable {answerer : Answerer σ} {traffic after : Traffic σ}

theorem step_moved (answerer : Answerer σ) (traffic : Traffic σ) {move : Move σ}
    (unset : move ≠ .setAvailable true) : Moved answerer traffic (traffic.step answerer move) := by
  cases move with
  | start call => exact .started call
  | turn change => exact .turned _
  | setAvailable available =>
    cases available with
    | false => exact .cleared
    | true => exact absurd rfl unset
  | proceed index =>
    simp only [step]
    split
    · exact .turned traffic.directory
    · rename_i flight found
      split
      · exact .turned traffic.directory
      · rename_i effect next asks
        exact .answered found asks

/-- What every move keeps holds wherever moves lead that do not set the flag. -/
theorem run_keeps {P : Traffic σ → Prop} (step : ∀ {traffic after}, P traffic → Moved answerer traffic after → P after)
    (first : P traffic) {moves : List (Move σ)} (unset : ∀ move ∈ moves, move ≠ .setAvailable true) :
    P (traffic.run answerer moves) := by
  induction moves generalizing traffic with
  | nil => exact first
  | cons move moves ih =>
    obtain ⟨now, later⟩ := List.forall_mem_cons.mp unset
    exact ih (step first (step_moved answerer traffic now)) later

/-! ### The flag -/

theorem answer_cleared (effect : Effect) {authenticator : Authenticator} {directory : σ}
    (off : authenticator.available = false) :
    (Authenticator.answer answerer effect (authenticator, directory)).2.1.available = false := by
  cases effect with
  | isAvailable => exact off
  | disable => rfl
  | directory request => exact off

theorem Moved.available (moved : Moved answerer traffic after) (off : traffic.authenticator.available = false) :
    after.authenticator.available = false := by
  cases moved with
  | started call => exact off
  | answered found asks => exact answer_cleared _ off
  | cleared => rfl
  | turned directory => exact off

theorem Moved.source (moved : Moved answerer traffic after) :
    after.authenticator.source = traffic.authenticator.source := by
  cases moved with
  | @answered _ _ effect _ _ _ => cases effect <;> rfl
  | _ => rfl

/-- An exchange by which a flight notes that the flag is cleared leaves it so. -/
theorem answer_notes {effect : Effect} {authenticator : Authenticator} {directory : σ}
    (notes : (⟨effect, (Authenticator.answer answerer effect (authenticator, directory)).1⟩ :
        Program.Exchange Effect Effect.Answer) = ⟨.isAvailable, false⟩ ∨
      (⟨effect, (Authenticator.answer answerer effect (authenticator, directory)).1⟩ :
        Program.Exchange Effect Effect.Answer) = ⟨.disable, ()⟩) :
    (Authenticator.answer answerer effect (authenticator, directory)).2.1.available = false := by
  cases effect with
  | isAvailable =>
    obtain same | same := notes
    · exact eq_of_heq (Sigma.mk.inj same).2
    · cases same
  | disable => rfl
  | directory request =>
    obtain same | same := notes
    · cases congrArg Sigma.fst same
    · cases congrArg Sigma.fst same

end Traffic

/-! ### What logins note of the flag -/

section Noted

variable {source : Source} {login password : String} {direct : Bool}
  {t : List (Program.Exchange Effect Effect.Answer)} {result : Except Fault Identity}

/-- A login that ends in a directory out of reach has seen the flag cleared, or cleared it. -/
theorem cleared_of_unavailable {reason : String}
    (tried : Follows (authenticate source login password direct) t (.error (.directoryUnavailable reason))) :
    ⟨.isAvailable, false⟩ ∈ t ∨ ⟨.disable, ()⟩ ∈ t := by
  rw [Authenticator.authenticate_steps, follows_bind] at tried
  obtain ⟨before, attempted, after, rfl, _, settled⟩ := tried
  have same := (follows_settle settled).1
  rw [← same] at settled
  obtain ⟨_, available, rest, rfl, asked, ended⟩ := follows_bind.mp settled
  obtain rfl := follows_request.mp asked
  cases available with
  | false => exact .inl (by simp)
  | true =>
    obtain ⟨_, _, _, rfl, disabled, _⟩ := follows_bind.mp ended
    obtain rfl := follows_request.mp disabled
    exact .inr (by simp)

/-- A login that sees the flag cleared at first asks the directory for nothing, and ends for that reason. -/
theorem silent_of_cleared
    (tried : Follows (authenticate source login password direct) (⟨.isAvailable, false⟩ :: t) result) :
    Authenticator.directoryExchanges t = [] ∧ ∃ reason, result = .error (.directoryUnavailable reason) := by
  rw [Authenticator.authenticate_steps, Authenticator.attempt_eq] at tried
  obtain ⟨given, rest, same, settled⟩ := follows_ask.mp tried
  cases same
  obtain ⟨rfl, after⟩ := follows_settle settled
  exact ⟨after.silent, _, rfl⟩

theorem first_asks_flag (tried : Follows (authenticate source login password direct) t result) :
    ∃ available rest, t = ⟨.isAvailable, available⟩ :: rest := by
  rw [Authenticator.authenticate_steps, Authenticator.attempt_eq] at tried
  obtain ⟨available, rest, rfl, _⟩ := follows_ask.mp tried
  exact ⟨available, rest, rfl⟩

end Noted

theorem Effect.answerable (effect : Effect) : Nonempty effect.Answer := by
  cases effect with
  | isAvailable => exact ⟨true⟩
  | disable => exact ⟨()⟩
  | directory request =>
    cases request with
    | unbind => exact ⟨()⟩
    | _ => exact ⟨.error .inputRejected⟩

namespace Flight

variable {source : Source} {flight : Flight}

theorem Sound.answered {effect : Effect} {next : effect.Answer → Steps (Except Fault Identity)}
    (sound : flight.Sound source) (asks : flight.rest = .ask effect next) (given : effect.Answer) :
    (flight.answered next given).Sound source := by
  unfold Sound at sound
  rw [asks] at sound
  exact Proceeds.answered sound given

theorem Sound.notesCleared (sound : flight.Sound source) (ended : flight.EndedUnavailable) : flight.NotesCleared := by
  obtain ⟨reason, left⟩ := ended
  unfold Sound at sound
  rw [left] at sound
  have whole := sound.follows (.done _)
  rw [List.append_nil] at whole
  exact cleared_of_unavailable whole

/-- A flight that has never seen the flag set asks the directory for nothing, and can only end for that reason. -/
theorem Sound.silent (sound : flight.Sound source) (unseen : ⟨.isAvailable, true⟩ ∉ flight.trace) :
    Authenticator.directoryExchanges flight.trace = [] ∧
      ∀ result, flight.rest = .done result → ∃ reason, result = .error (.directoryUnavailable reason) := by
  obtain ⟨more, final, goes_on⟩ := Program.exists_follows Effect.answerable flight.rest
  have whole := sound.follows goes_on
  obtain ⟨available, others, first⟩ := first_asks_flag whole
  cases seen : flight.trace with
  | nil =>
    refine ⟨rfl, fun result left => ?_⟩
    -- a login has its first step to take as long as it has asked nothing
    rw [left] at goes_on
    obtain ⟨rfl, _⟩ := follows_done.mp goes_on
    rw [seen] at first
    cases first
  | cons exchange trace =>
    rw [seen, List.cons_append] at first whole
    obtain ⟨rfl, _⟩ := List.cons.inj first
    have off : available = false := by
      cases available with
      | false => rfl
      | true => exact absurd (by rw [seen]; exact List.mem_cons_self) unseen
    subst off
    obtain ⟨silent, reason, rfl⟩ := silent_of_cleared whole
    rw [Authenticator.directoryExchanges_append, List.append_eq_nil_iff] at silent
    refine ⟨silent.1, fun result left => ?_⟩
    rw [left] at goes_on
    obtain ⟨_, same⟩ := follows_done.mp goes_on
    exact ⟨reason, same.symm⟩

end Flight

/-! ### What every move keeps -/

/-- Each flight goes by the source, and what it has noted of the flag still holds. -/
structure Noted {σ : Type} (traffic : Traffic σ) : Prop where
  sound : ∀ flight ∈ traffic.flights, flight.Sound traffic.authenticator.source
  cleared : ∀ flight ∈ traffic.flights, flight.NotesCleared → traffic.authenticator.available = false

/-- The flag is cleared, and the flights from this number on have never seen it set. -/
structure ClearedSince {σ : Type} (number : Nat) (traffic : Traffic σ) : Prop where
  off : traffic.authenticator.available = false
  known : number ≤ traffic.flights.length
  unseen : ∀ index flight, number ≤ index → traffic.flights[index]? = some flight →
    ⟨.isAvailable, true⟩ ∉ flight.trace

namespace Traffic.Moved

variable {σ : Type} {answerer : Answerer σ} {traffic after : Traffic σ}

theorem noted (moved : Moved answerer traffic after) (noted : Noted traffic) : Noted after := by
  have stays := moved.source
  have keeps := moved.available
  cases moved with
  | started call =>
    refine ⟨List.forall_mem_append.mpr ⟨noted.sound, List.forall_mem_singleton.mpr (.here _)⟩,
      List.forall_mem_append.mpr ⟨noted.cleared, List.forall_mem_singleton.mpr ?_⟩⟩
    rintro (seen | seen)
    · cases seen
    · cases seen
  | @answered index flight effect next found asks =>
    have listed := List.mem_of_getElem? found
    constructor
    · intro other member
      rw [stays]
      rcases List.mem_or_eq_of_mem_set member with before | rfl
      · exact noted.sound other before
      · exact (noted.sound flight listed).answered asks _
    · intro other member notes
      rcases List.mem_or_eq_of_mem_set member with before | rfl
      · exact keeps (noted.cleared other before notes)
      · -- what was noted before still holds, and what is noted now is so now
        obtain seen | seen := notes
        · rcases List.mem_append.mp seen with earlier | last
          · exact keeps (noted.cleared flight listed (.inl earlier))
          · exact answer_notes (.inl (List.mem_singleton.mp last).symm)
        · rcases List.mem_append.mp seen with earlier | last
          · exact keeps (noted.cleared flight listed (.inr earlier))
          · exact answer_notes (.inr (List.mem_singleton.mp last).symm)
  | cleared => exact ⟨noted.sound, fun _ _ _ => rfl⟩
  | turned directory => exact ⟨noted.sound, noted.cleared⟩

theorem clearedSince {number : Nat} (moved : Moved answerer traffic after) (since : ClearedSince number traffic) :
    ClearedSince number after := by
  have off := moved.available since.off
  cases moved with
  | started call =>
    refine ⟨off, ?_, fun index flight from_here reached => ?_⟩
    · rw [List.length_append]
      exact Nat.le_trans since.known (Nat.le_add_right _ _)
    · rw [List.getElem?_append] at reached
      split at reached
      · exact since.unseen index flight from_here reached
      · obtain rfl := List.mem_singleton.mp (List.mem_of_getElem? reached)
        exact List.not_mem_nil
  | @answered position flight effect next found asks =>
    refine ⟨off, by rw [List.length_set]; exact since.known, fun index other from_here reached => ?_⟩
    by_cases same : position = index
    · subst same
      obtain ⟨inRange, _⟩ := List.getElem?_eq_some_iff.mp found
      rw [List.getElem?_set_self inRange] at reached
      cases reached
      intro seen
      rcases List.mem_append.mp seen with earlier | last
      · exact since.unseen position flight from_here found earlier
      · cases effect with
        | isAvailable =>
          have on := eq_of_heq (Sigma.mk.inj (List.mem_singleton.mp last)).2
          exact Bool.noConfusion (on.trans since.off)
        | disable => cases congrArg Sigma.fst (List.mem_singleton.mp last)
        | directory request => cases congrArg Sigma.fst (List.mem_singleton.mp last)
    · rw [List.getElem?_set_ne same] at reached
      exact since.unseen index other from_here reached
  | cleared => exact ⟨off, since.known, since.unseen⟩
  | turned directory => exact ⟨off, since.known, since.unseen⟩

end Traffic.Moved

namespace Traffic

variable {σ : Type} {answerer : Answerer σ} {traffic : Traffic σ} {moves : List (Move σ)}

theorem run_available (unset : ∀ move ∈ moves, move ≠ .setAvailable true)
    (off : traffic.authenticator.available = false) : (traffic.run answerer moves).authenticator.available = false :=
  run_keeps (P := fun traffic => traffic.authenticator.available = false) (fun off moved => moved.available off) off
    unset

theorem run_noted (unset : ∀ move ∈ moves, move ≠ .setAvailable true) (noted : Noted traffic) :
    Noted (traffic.run answerer moves) :=
  run_keeps (P := Noted) (fun noted moved => moved.noted noted) noted unset

/-- Whoever starts while the flag is cleared asks the directory for nothing, however the moves go on. -/
theorem run_silent (unset : ∀ move ∈ moves, move ≠ .setAvailable true) (noted : Noted traffic)
    (off : traffic.authenticator.available = false) {index : Nat} {flight : Flight}
    (late : traffic.flights.length ≤ index)
    (reached : (traffic.run answerer moves).flights[index]? = some flight) :
    Authenticator.directoryExchanges flight.trace = [] ∧
      ∀ result, flight.rest = .done result → ∃ reason, result = .error (.directoryUnavailable reason) := by
  have first : ClearedSince traffic.flights.length traffic := by
    refine ⟨off, Nat.le_refl _, fun index flight beyond reached => ?_⟩
    rw [List.getElem?_eq_none beyond] at reached
    cases reached
  have since : ClearedSince traffic.flights.length (traffic.run answerer moves) :=
    run_keeps (fun since moved => moved.clearedSince since) first unset
  have kept : Noted (traffic.run answerer moves) := run_noted unset noted
  exact (kept.sound flight (List.mem_of_getElem? reached)).silent (since.unseen index flight late reached)

end Traffic
end QueryGate.Login
