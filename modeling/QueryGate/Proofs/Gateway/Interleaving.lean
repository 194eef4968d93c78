import QueryGate.Proofs.Gateway.History
import QueryGate.Proofs.Program.Progress

/-!
# Requests and reloads in flight

Any number of requests and reloads are under way at once. Each move lets one of them take its next step, which is
answered as things are at that moment.
-/

namespace QueryGate.Gateway

open Program (Exchange Follows Proceeds)

/-! ### Flights -/

inductive Call where
  | request (request : Http.Request)
  | reload (config : Config)

inductive Ending where
  | responded (response : Option Http.Response)
  | reloaded (result : Except Fault Unit)

def Call.steps (fixed : Fixed) : Call → Steps Ending
  | .request received => serve fixed received >>= fun response => .done (.responded response)
  | .reload config => Gateway.reload config >>= fun result => .done (.reloaded result)

/-- A call with what it has asked so far and the steps that are left. -/
structure Flight where
  call : Call
  trace : List (Exchange Effect Effect.Answer)
  rest : Steps Ending

namespace Flight

def start (fixed : Fixed) (call : Call) : Flight where
  call := call
  trace := []
  rest := call.steps fixed

def answered (flight : Flight) {effect : Effect} (next : effect.Answer → Steps Ending) (given : effect.Answer) :
    Flight where
  call := flight.call
  trace := flight.trace ++ [⟨effect, given⟩]
  rest := next given

def UnderWay (flight : Flight) : Prop :=
  ∃ effect next, flight.rest = .ask effect next

/-- What a flight has asked leads from its first step to those that are left. -/
def Sound (fixed : Fixed) (flight : Flight) : Prop :=
  Proceeds (flight.call.steps fixed) flight.trace flight.rest

theorem Sound.answered {fixed : Fixed} {flight : Flight} {effect : Effect} {next : effect.Answer → Steps Ending}
    (sound : flight.Sound fixed) (asks : flight.rest = .ask effect next) (given : effect.Answer) :
    (flight.answered next given).Sound fixed := by
  unfold Sound at sound
  rw [asks] at sound
  exact Proceeds.answered sound given

end Flight

structure Traffic (σ : Type) where
  state : State
  world : σ
  flights : List Flight := []

inductive Move (σ : Type) where
  | arrive (call : Call)
  /-- The flight with this number takes its next step, if it has one. -/
  | proceed (index : Nat)
  /-- The world around the gateway changes by itself. -/
  | turn (change : σ → σ)

namespace Traffic

variable {σ : Type} {outside : Outside σ} {fixed : Fixed} {traffic : Traffic σ}

def step (outside : Outside σ) (fixed : Fixed) (traffic : Traffic σ) : Move σ → Traffic σ
  | .arrive call => { traffic with flights := traffic.flights ++ [.start fixed call] }
  | .proceed index =>
    match traffic.flights[index]? with
    | none => traffic
    | some flight =>
      match flight.rest with
      | .done _ => traffic
      | .ask effect next =>
        let (given, state, world) := answer outside effect (traffic.state, traffic.world)
        { state, world, flights := traffic.flights.set index (flight.answered next given) }
  | .turn change => { traffic with world := change traffic.world }

def run (outside : Outside σ) (fixed : Fixed) (traffic : Traffic σ) (moves : List (Move σ)) : Traffic σ :=
  moves.foldl (step outside fixed) traffic

/-- What a move can do: a call arrives, one flight gets an answer, or at most the world changes. -/
inductive Moved (outside : Outside σ) (fixed : Fixed) (traffic : Traffic σ) : Traffic σ → Prop where
  | arrived (call : Call) :
      Moved outside fixed traffic { traffic with flights := traffic.flights ++ [.start fixed call] }
  | answered {index : Nat} {flight : Flight} {effect : Effect} {next : effect.Answer → Steps Ending}
      (found : traffic.flights[index]? = some flight) (asks : flight.rest = .ask effect next) :
      Moved outside fixed traffic
        { state := (answer outside effect (traffic.state, traffic.world)).2.1
          world := (answer outside effect (traffic.state, traffic.world)).2.2
          flights := traffic.flights.set index
            (flight.answered next (answer outside effect (traffic.state, traffic.world)).1) }
  | turned (world : σ) : Moved outside fixed traffic { traffic with world }

theorem step_moved (outside : Outside σ) (fixed : Fixed) (traffic : Traffic σ) (move : Move σ) :
    Moved outside fixed traffic (traffic.step outside fixed move) := by
  cases move with
  | arrive call => exact .arrived call
  | turn change => exact .turned _
  | proceed index =>
    simp only [step]
    split
    · exact .turned traffic.world
    · rename_i flight found
      split
      · exact .turned traffic.world
      · rename_i effect next asks
        exact .answered found asks

/-- What every move keeps holds wherever the moves lead. -/
theorem run_keeps {P : Traffic σ → Prop}
    (step : ∀ {traffic after}, P traffic → Moved outside fixed traffic after → P after) (first : P traffic)
    (moves : List (Move σ)) : P (traffic.run outside fixed moves) := by
  induction moves generalizing traffic with
  | nil => exact first
  | cons move moves ih => exact ih (step first (step_moved outside fixed traffic move))

/-! ### What flights keep -/

theorem Moved.sound {after : Traffic σ} (moved : Moved outside fixed traffic after)
    (sound : ∀ flight ∈ traffic.flights, flight.Sound fixed) : ∀ flight ∈ after.flights, flight.Sound fixed := by
  cases moved with
  | arrived call =>
    refine List.forall_mem_append.mpr ⟨sound, List.forall_mem_singleton.mpr ?_⟩
    exact .here _
  | @answered index flight effect next found asks =>
    intro other member
    rcases List.mem_or_eq_of_mem_set member with before | rfl
    · exact sound other before
    · exact (sound flight (List.mem_of_getElem? found)).answered asks _
  | turned world => exact sound

end Traffic

/-! ### Handles -/

namespace State

variable (state : State) (source : Directory.Source) {handle other : Handle} (available : Bool)

@[simp] theorem handle_install : (state.install source).handle = state.handle + 1 := by
  simp [install, State.handle]

@[simp] theorem handle_setAvailable : (state.setAvailable handle available).handle = state.handle := by
  unfold setAvailable State.handle
  split
  · exact List.length_modify ..
  · rfl

theorem authenticator_retired (retired : handle < state.retired.length) :
    state.authenticator handle = state.retired[handle] := by
  rw [authenticator, List.getD_eq_getElem?_getD, List.getElem?_eq_getElem retired, Option.getD_some]

theorem authenticator_install (earlier : handle ≤ state.handle) :
    (state.install source).authenticator handle = state.authenticator handle := by
  have stays : (state.install source).authenticator handle =
      (state.retired ++ [state.current]).getD handle (state.current.withSource source) := rfl
  rcases Nat.lt_or_eq_of_le earlier with retired | rfl
  · rw [authenticator_retired state retired, stays, List.getD_eq_getElem?_getD,
      List.getElem?_append_left retired, List.getElem?_eq_getElem retired, Option.getD_some]
  · rw [authenticator_handle, stays, List.getD_eq_getElem?_getD, State.handle, List.getElem?_concat_length,
      Option.getD_some]

theorem authenticator_installed :
    (state.install source).authenticator (state.handle + 1) = { source } := by
  have last := authenticator_handle (state.install source)
  rw [handle_install] at last
  exact last

theorem authenticator_setAvailable (held : handle ≤ state.handle) (given : other ≤ state.handle) :
    (state.setAvailable handle available).authenticator other =
      if other = handle then (state.authenticator other).setAvailable available else state.authenticator other := by
  rcases Nat.lt_or_eq_of_le held with (retired : handle < state.retired.length) | rfl
  · have stays : (state.setAvailable handle available).authenticator other =
        (state.retired.modify handle (·.setAvailable available)).getD other state.current := by
      rw [setAvailable, if_pos retired]
      rfl
    rw [stays, List.getD_eq_getElem?_getD, List.getElem?_modify]
    by_cases same : other = handle
    · subst same
      simp [authenticator_retired state retired, List.getElem?_eq_getElem retired]
    · simp [authenticator, same, Ne.symm same]
  · rw [setAvailable_handle]
    by_cases same : other = state.handle
    · rw [if_pos same, same, authenticator_handle]
      exact authenticator_handle { state with current := state.current.setAvailable available }
    · have retired : other < state.retired.length := Nat.lt_of_le_of_ne given same
      rw [if_neg same, authenticator_retired state retired]
      exact authenticator_retired { state with current := state.current.setAvailable available } retired

end State

/-- Handles stay valid, each for the source that it was installed for. -/
structure State.Extends (state later : State) : Prop where
  handle : state.handle ≤ later.handle
  source : ∀ handle ≤ state.handle, (later.authenticator handle).source = (state.authenticator handle).source

namespace State

variable {state later last : State}

theorem Extends.refl (state : State) : state.Extends state :=
  ⟨Nat.le_refl _, fun _ _ => rfl⟩

theorem Extends.trans (first : state.Extends later) (second : later.Extends last) : state.Extends last where
  handle := Nat.le_trans first.handle second.handle
  source handle given := (second.source handle (Nat.le_trans given first.handle)).trans (first.source handle given)

/-- A handle that was not given out counts as that of the current authenticator. -/
theorem setAvailable_of_le {handle : Handle} (beyond : state.handle ≤ handle) (available : Bool) :
    state.setAvailable handle available = state.setAvailable state.handle available := by
  rw [setAvailable_handle]
  exact if_neg (Nat.not_lt.mpr beyond)

theorem extends_setAvailable (state : State) (handle : Handle) (available : Bool) :
    state.Extends (state.setAvailable handle available) := by
  refine ⟨Nat.le_of_eq (handle_setAvailable state available).symm, fun other given => ?_⟩
  rcases Nat.le_total handle state.handle with held | beyond
  · rw [authenticator_setAvailable state available held given]
    split <;> rfl
  · rw [setAvailable_of_le beyond, authenticator_setAvailable state available (Nat.le_refl _) given]
    split <;> rfl

theorem extends_install (state : State) (source : Directory.Source) : state.Extends (state.install source) where
  handle := by
    rw [handle_install]
    exact Nat.le_succ _
  source _ given := congrArg Login.Authenticator.source (authenticator_install state source given)

end State

namespace Traffic

variable {σ : Type} {outside : Outside σ} {fixed : Fixed} {traffic : Traffic σ}

theorem answer_extends (outside : Outside σ) (effect : Effect) (state : State) (world : σ) :
    state.Extends (answer outside effect (state, world)).2.1 := by
  cases effect with
  | disable handle => exact state.extends_setAvailable handle false
  | installAuthenticator source => exact state.extends_install source
  | installPolicy policy => exact ⟨Nat.le_refl _, fun _ _ => rfl⟩
  | _ => exact .refl state

theorem run_extends (outside : Outside σ) (fixed : Fixed) (traffic : Traffic σ) (moves : List (Move σ)) :
    traffic.state.Extends (traffic.run outside fixed moves).state := by
  refine run_keeps (P := fun after => traffic.state.Extends after.state) ?_ (.refl _) moves
  intro middle after extended moved
  cases moved with
  | arrived call => exact extended
  | answered found asks => exact extended.trans (answer_extends outside _ middle.state middle.world)
  | turned world => exact extended

/-! ### Moments -/

/-- At some moment while the flight with this number was under way, the state had the property. -/
def During (outside : Outside σ) (fixed : Fixed) (traffic : Traffic σ) (moves : List (Move σ)) (index : Nat)
    (P : State → Prop) : Prop :=
  ∃ earlier later flight, moves = earlier ++ later ∧
    (traffic.run outside fixed earlier).flights[index]? = some flight ∧ flight.UnderWay ∧
    P (traffic.run outside fixed earlier).state

variable {moves : List (Move σ)} {index : Nat} {P : State → Prop}

theorem During.after {move : Move σ} (during : During outside fixed (traffic.step outside fixed move) moves index P) :
    During outside fixed traffic (move :: moves) index P := by
  obtain ⟨earlier, later, flight, rfl, found, underWay, held⟩ := during
  exact ⟨move :: earlier, later, flight, rfl, found, underWay, held⟩

/-- What a flight has been answered after a move was there before, or is the answer of this move. -/
theorem answered_by_move {after : Traffic σ} {flight : Flight} {exchange : Exchange Effect Effect.Answer}
    (moved : Moved outside fixed traffic after) (reached : after.flights[index]? = some flight)
    (member : exchange ∈ flight.trace) :
    ∃ before, traffic.flights[index]? = some before ∧
      (exchange ∈ before.trace ∨
        before.UnderWay ∧ exchange.2 = (answer outside exchange.1 (traffic.state, traffic.world)).1) := by
  cases moved with
  | arrived call =>
    rw [List.getElem?_append] at reached
    split at reached
    · exact ⟨flight, reached, .inl member⟩
    · obtain rfl : flight = .start fixed call := List.mem_singleton.mp (List.mem_of_getElem? reached)
      cases member
  | @answered answeredIndex before effect next found asks =>
    by_cases same : answeredIndex = index
    · subst same
      obtain ⟨inRange, _⟩ := List.getElem?_eq_some_iff.mp found
      rw [List.getElem?_set_self inRange] at reached
      cases reached
      refine ⟨before, found, ?_⟩
      rcases List.mem_append.mp member with earlier | last
      · exact .inl earlier
      · cases List.mem_singleton.mp last
        exact .inr ⟨⟨effect, next, asks⟩, rfl⟩
    · rw [List.getElem?_set_ne same] at reached
      exact ⟨flight, reached, .inl member⟩
  | turned world => exact ⟨flight, reached, .inl member⟩

/-- Whatever a flight has been answered, it was answered so at a moment while it was under way. -/
theorem answered_during {flight : Flight} {exchange : Exchange Effect Effect.Answer}
    (reached : (traffic.run outside fixed moves).flights[index]? = some flight) (member : exchange ∈ flight.trace) :
    (∃ before, traffic.flights[index]? = some before ∧ exchange ∈ before.trace) ∨
      During outside fixed traffic moves index
        fun state => ∃ world, exchange.2 = (answer outside exchange.1 (state, world)).1 := by
  -- what the rest of the moves finds there already is the answer of the first move, or was there from the start
  induction moves generalizing traffic with
  | nil => exact .inl ⟨flight, reached, member⟩
  | cons move moves ih =>
    obtain ⟨between, found, there⟩ | during := ih reached
    · obtain ⟨before, started, earlier | ⟨underWay, answered⟩⟩ :=
        answered_by_move (step_moved outside fixed traffic move) found there
      · exact .inl ⟨before, started, earlier⟩
      · exact .inr ⟨[], move :: moves, before, rfl, started, underWay, traffic.world, answered⟩
    · exact .inr during.after

theorem During.extends (during : During outside fixed traffic moves index P) :
    ∃ state, P state ∧ state.Extends (traffic.run outside fixed moves).state := by
  obtain ⟨earlier, later, _, rfl, _, _, held⟩ := during
  refine ⟨_, held, ?_⟩
  have extended := run_extends outside fixed (traffic.run outside fixed earlier) later
  rwa [run, run, ← List.foldl_append] at extended

end Traffic
end QueryGate.Gateway
