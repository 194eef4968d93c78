import QueryGate.Proofs.Login.Flights
import QueryGate.Proofs.Login.History

/-!
# The flag of a source is a latch

The flag is cleared by a login that finds the directory out of reach, and by whoever switches it off. Nothing but
switching it on, or a new authenticator, sets it again, so where it stands is told by the last act that touched it.
-/

namespace QueryGate.Login

open Directory (Answerer Source)

structure Event where
  act : Act
  result : Option (Except Fault Identity) := none

namespace Event

/-- The flag is switched off, or a login found the directory out of reach. -/
def Clears (event : Event) : Prop :=
  event.act = .setAvailable false ∨ ∃ reason, event.result = some (.error (.directoryUnavailable reason))

/-- The flag is switched on, or another source takes the place of this one with a flag of its own. -/
def Sets (event : Event) : Prop :=
  event.act = .setAvailable true ∨ ∃ source, event.act = .withSource source

end Event

/-- Of the events that touched the flag, the last one cleared it. -/
def LastCleared (events : List Event) : Prop :=
  ∃ earlier event later, events = earlier ++ event :: later ∧ event.Clears ∧ ∀ other ∈ later, ¬ other.Sets

theorem lastCleared_cons {event : Event} {events : List Event} :
    LastCleared (event :: events) ↔ LastCleared events ∨ (event.Clears ∧ ∀ other ∈ events, ¬ other.Sets) := by
  constructor
  · rintro ⟨_ | ⟨first, earlier⟩, last, later, same, clears, unset⟩
    · obtain ⟨rfl, rfl⟩ := List.cons.inj same
      exact .inr ⟨clears, unset⟩
    · exact .inl ⟨earlier, last, later, (List.cons.inj same).2, clears, unset⟩
  · rintro (⟨earlier, last, later, rfl, clears, unset⟩ | ⟨clears, unset⟩)
    · exact ⟨event :: earlier, last, later, rfl, clears, unset⟩
    · exact ⟨[], event, events, rfl, clears, unset⟩

namespace Authenticator

variable {σ : Type} {directory : Answerer σ} {authenticator : Authenticator} {state : σ} {login password : String}
  {direct : Bool}

theorem isUnreachable_iff {result : Except Fault Identity} :
    isUnreachable result = true ↔ ∃ reason, result = .error (.directoryUnavailable reason) := by
  unfold isUnreachable
  split <;> simp_all

/-- A login clears the flag if it finds the directory out of reach, and otherwise leaves it alone. -/
theorem authenticate_authenticator (directory : Answerer σ) (authenticator : Authenticator) (state : σ)
    (login password : String) (direct : Bool) :
    let outcome := authenticator.authenticate directory login password direct state
    outcome.authenticator = if isUnreachable outcome.result then authenticator.setAvailable false else authenticator := by
  cases on : authenticator.available with
  | false =>
    rw [authenticate_disabled on]
    obtain ⟨source, _⟩ := authenticator
    cases on
    rfl
  | true =>
    cases passed : screen authenticator.source login password direct with
    | error fault =>
      rw [authenticate_rejected on passed]
      rfl
    | ok input =>
      rw [authenticate_conversed on passed rfl]

theorem authenticate_keeps
    (reached : ∀ reason, (authenticator.authenticate directory login password direct state).result ≠
      .error (.directoryUnavailable reason)) :
    (authenticator.authenticate directory login password direct state).authenticator = authenticator := by
  rw [authenticate_authenticator]
  refine if_neg fun unreachable => ?_
  obtain ⟨reason, same⟩ := isUnreachable_iff.mp unreachable
  exact reached reason same

theorem authenticate_available :
    (authenticator.authenticate directory login password direct state).authenticator.available = false ↔
      (∃ reason, (authenticator.authenticate directory login password direct state).result =
        .error (.directoryUnavailable reason)) ∨ authenticator.available = false := by
  rw [authenticate_authenticator, ← isUnreachable_iff]
  cases isUnreachable (authenticator.authenticate directory login password direct state).result with
  | true => simp [setAvailable]
  | false => simp

/-- The groups are looked up only after a verification that succeeded, so nothing that happens then clears the flag. -/
theorem authenticate_keeps_of_lookup
    (lookup : 2 ≤ (authenticator.authenticate directory login password direct state).exchanges.countP isConnect) :
    (authenticator.authenticate directory login password direct state).authenticator = authenticator := by
  by_cases turned : authenticator.available = false ∨
      ∃ fault, screen authenticator.source login password direct = .error fault
  · rw [authenticate_silent turned] at lookup
    exact absurd lookup (by decide)
  · obtain ⟨on, admitted⟩ := not_or.mp turned
    cases passed : screen authenticator.source login password direct with
    | error fault => exact absurd ⟨fault, passed⟩ admitted
    | ok input =>
      have scheduled : Scheduled authenticator.source login password direct
          (authenticator.authenticate directory login password direct state).exchanges
          (authenticator.authenticate directory login password direct state).result.isOk :=
        authenticate_scheduled (eq_true_of_ne_false on) passed
      have accepted := scheduled.passed_of_lookup lookup
      refine authenticate_keeps fun reason failed => ?_
      rw [failed] at accepted
      cases accepted

end Authenticator

namespace Point

variable {σ : Type} {answerer : Answerer σ} {point : Point σ}

def event (answerer : Answerer σ) (point : Point σ) : Act → Event
  | .login name password =>
    { act := .login name password
      result := some (point.authenticator.login answerer name password point.directory).result }
  | .authenticate login password direct =>
    { act := .authenticate login password direct
      result := some (point.authenticator.authenticate answerer login password direct point.directory).result }
  | act => { act }

def events (answerer : Answerer σ) (point : Point σ) : List Act → List Event
  | [] => []
  | act :: acts => point.event answerer act :: (point.step answerer act).events answerer acts

/-- After an act the flag is cleared if the act cleared it, or if it was so before and the act did not set it. -/
theorem step_available (answerer : Answerer σ) (point : Point σ) (act : Act) :
    (point.step answerer act).authenticator.available = false ↔
      (point.event answerer act).Clears ∨
        (point.authenticator.available = false ∧ ¬ (point.event answerer act).Sets) := by
  cases act with
  | login name password =>
    refine Authenticator.authenticate_available.trans ?_
    simp [event, Event.Clears, Event.Sets]
    rfl
  | authenticate login password direct =>
    refine Authenticator.authenticate_available.trans ?_
    simp [event, Event.Clears, Event.Sets]
  | setAvailable available =>
    cases available with
    | false => simp [step, event, Event.Clears, Event.Sets, Authenticator.setAvailable]
    | true => simp [step, event, Event.Clears, Event.Sets, Authenticator.setAvailable]
  | withSource source => simp [step, event, Event.Clears, Event.Sets, Authenticator.withSource]

/-- After a run the flag is cleared if the last event that touched it cleared it, or if it was so from the start and
no event has set it. -/
theorem run_available (answerer : Answerer σ) (point : Point σ) (acts : List Act) :
    (point.run answerer acts).authenticator.available = false ↔
      LastCleared (point.events answerer acts) ∨
        (point.authenticator.available = false ∧ ∀ event ∈ point.events answerer acts, ¬ event.Sets) := by
  induction acts generalizing point with
  | nil => simp [run, events, LastCleared]
  | cons act acts ih =>
    show ((point.step answerer act).run answerer acts).authenticator.available = false ↔ _
    rw [ih, step_available, events, lastCleared_cons, List.forall_mem_cons, or_and_right, and_assoc, or_assoc]

end Point

/-- The flag of a source is a latch. In every history it is cleared exactly if, since the authenticator was made or
the flag was last switched on, the flag was switched off or a login found the directory out of reach; nothing else
that comes of a login touches it, the group lookup in particular, and a login that starts while it is cleared asks
the directory for nothing. With any number of logins in flight and nobody who switches it on, it never comes back,
and once one of them has found the directory out of reach, whoever starts later asks the directory for nothing. -/
theorem availability_latches {σ : Type} (answerer : Answerer σ) :
    (∀ (source : Source) (directory : σ) (acts : List Act),
      let start : Point σ := { authenticator := { source }, directory }
      (start.run answerer acts).authenticator.available = false ↔ LastCleared (start.events answerer acts)) ∧
    (∀ (authenticator : Authenticator) (directory : σ) (login password : String) (direct : Bool),
      let outcome := authenticator.authenticate answerer login password direct directory
      ((∀ reason, outcome.result ≠ .error (.directoryUnavailable reason)) → outcome.authenticator = authenticator) ∧
      (2 ≤ outcome.exchanges.countP isConnect → outcome.authenticator = authenticator) ∧
      (authenticator.available = false → outcome.exchanges = [] ∧
        ∃ reason, outcome.result = .error (.directoryUnavailable reason))) ∧
    (∀ (authenticator : Authenticator) (directory : σ) (earlier later : List (Move σ)),
      (∀ move ∈ earlier ++ later, move ≠ .setAvailable true) →
      let before := Traffic.run answerer { authenticator, directory } earlier
      let after := before.run answerer later
      (before.authenticator.available = false → after.authenticator.available = false) ∧
      ∀ flight ∈ before.flights, flight.EndedUnavailable →
        ∀ index late, before.flights.length ≤ index → after.flights[index]? = some late →
          Authenticator.directoryExchanges late.trace = [] ∧
          ∀ result, late.rest = .done result → ∃ reason, result = .error (.directoryUnavailable reason)) := by
  refine ⟨fun source directory acts => ?_, fun authenticator directory login password direct => ?_, ?_⟩
  · refine (Point.run_available answerer _ acts).trans (or_iff_left ?_)
    rintro ⟨off, _⟩
    cases off
  · refine ⟨Authenticator.authenticate_keeps, Authenticator.authenticate_keeps_of_lookup, fun off => ?_⟩
    rw [Authenticator.authenticate_disabled off]
    exact ⟨rfl, _, rfl⟩
  · intro authenticator directory earlier later unset before after
    obtain ⟨unsetEarlier, unsetLater⟩ := List.forall_mem_append.mp unset
    have noted : Noted before :=
      Traffic.run_noted unsetEarlier ⟨List.forall_mem_nil _, List.forall_mem_nil _⟩
    refine ⟨Traffic.run_available unsetLater, fun flight member ended index late beyond reached => ?_⟩
    have off := noted.cleared flight member ((noted.sound flight member).notesCleared ended)
    exact Traffic.run_silent unsetLater noted off beyond reached

def teslaCall : Call := ⟨"tesla", "volt", false⟩

def refusesFirst : Directory.Script := { connects := [.error (.directoryUnavailable "refused")] }

def refusedInFlight : Traffic Directory.Script :=
  Traffic.run Directory.Script.answer
    { authenticator := { source := { userBase := "dc=org" } }, directory := refusesFirst }
    [.start teslaCall, .start teslaCall, .proceed 1, .proceed 0, .proceed 0, .proceed 0, .proceed 0]

/-- A third login, which starts after that, asks the directory for nothing. -/
theorem availability_latches_third_login :
    let after := refusedInFlight.run Directory.Script.answer [.start teslaCall, .proceed 2, .proceed 2]
    ∃ first second third, refusedInFlight.flights = [first, second] ∧ first.EndedUnavailable ∧
      after.flights[2]? = some third ∧ Authenticator.directoryExchanges third.trace = [] := by
  intro after
  have unset : ∀ move ∈ ([.start teslaCall, .start teslaCall, .proceed 1, .proceed 0, .proceed 0, .proceed 0,
      .proceed 0] ++ [.start teslaCall, .proceed 2, .proceed 2] : List (Move Directory.Script)),
      move ≠ .setAvailable true := by
    simp
  obtain ⟨_, late⟩ := (availability_latches Directory.Script.answer).2.2
    { source := { userBase := "dc=org" } } refusesFirst _ _ unset
  have refused : ∃ first second, refusedInFlight.flights = [first, second] ∧ first.EndedUnavailable :=
    ⟨_, _, rfl, ⟨_, rfl⟩⟩
  have started : ∃ third, after.flights[2]? = some third := ⟨_, rfl⟩
  obtain ⟨first, second, both, ended⟩ := refused
  obtain ⟨third, reached⟩ := started
  have listed : first ∈ refusedInFlight.flights := by
    rw [both]
    exact List.mem_cons_self
  have known : refusedInFlight.flights.length ≤ 2 := by
    rw [both]
    exact Nat.le_refl 2
  exact ⟨first, second, third, both, ended, reached, (late first listed ended 2 third known reached).1⟩

end QueryGate.Login
