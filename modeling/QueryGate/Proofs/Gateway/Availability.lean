import QueryGate.Proofs.Gateway.LoginFlights

/-! The flag of an authenticator is cleared by the logins that loaded it, and by nobody else:
installing another one leaves it as it is, and logins of the old source leave that of the new one as
it is. -/

namespace QueryGate.Gateway

open Program (Exchange Follows)

/-- An answer clears the flag that it is asked to clear, and no other. -/
theorem answer_flag {σ : Type} (outside : Outside σ) {effect : Effect} {state : State} {world : σ} {handle : Handle}
    (valid : ∀ other, effect = .disable other → other ≤ state.handle)
    (given : handle ≤ (answer outside effect (state, world)).2.1.handle) :
    ((answer outside effect (state, world)).2.1.authenticator handle).available = false ↔
      (handle ≤ state.handle ∧ (state.authenticator handle).available = false) ∨ effect = .disable handle := by
  cases effect with
  | disable other =>
    have held : other ≤ state.handle := valid other rfl
    have given : handle ≤ state.handle := by
      have size : (state.setAvailable other false).handle = state.handle := state.handle_setAvailable false
      rw [← size]
      exact given
    show ((state.setAvailable other false).authenticator handle).available = false ↔ _
    rw [state.authenticator_setAvailable false held given]
    by_cases same : handle = other
    · subst same
      simp [Login.Authenticator.setAvailable]
    · simp [same, Ne.symm same, given]
  | installAuthenticator source =>
    show ((state.install source).authenticator handle).available = false ↔ _
    rcases Nat.lt_or_eq_of_le (state.handle_install source ▸ given) with earlier | rfl
    · have held : handle ≤ state.handle := Nat.le_of_lt_succ earlier
      rw [state.authenticator_install source held]
      simp [held]
    · rw [state.authenticator_installed source]
      refine iff_of_false Bool.noConfusion ?_
      rintro (⟨beyond, _⟩ | same)
      · exact Nat.not_succ_le_self _ beyond
      · cases same
  | _ =>
    have held : handle ≤ state.handle := given
    constructor
    · exact fun off => .inl ⟨held, off⟩
    · rintro (⟨_, off⟩ | same)
      · exact off
      · cases same

theorem mem_answered {flights : List Flight} {index : Nat} {flight : Flight} {effect : Effect}
    {next : effect.Answer → Steps Ending} {given : effect.Answer} {exchange : Exchange Effect Effect.Answer}
    (found : flights[index]? = some flight) :
    (∃ other ∈ flights.set index (flight.answered next given), exchange ∈ other.trace) ↔
      (∃ other ∈ flights, exchange ∈ other.trace) ∨ exchange = ⟨effect, given⟩ := by
  obtain ⟨inRange, same⟩ := List.getElem?_eq_some_iff.mp found
  have there : flight.answered next given ∈ flights.set index (flight.answered next given) :=
    List.mem_set inRange _
  constructor
  · rintro ⟨other, member, has⟩
    rcases List.mem_or_eq_of_mem_set member with before | rfl
    · exact .inl ⟨other, before, has⟩
    · rcases List.mem_append.mp has with earlier | last
      · exact .inl ⟨flight, List.mem_of_getElem? found, earlier⟩
      · exact .inr (List.mem_singleton.mp last)
  · rintro (⟨other, member, has⟩ | rfl)
    · obtain ⟨position, listed⟩ := List.mem_iff_getElem?.mp member
      by_cases here : index = position
      · subst here
        obtain rfl := Option.some.inj (found.symm.trans listed)
        exact ⟨_, there, List.mem_append_left _ has⟩
      · refine ⟨other, List.mem_of_getElem? (i := position) ?_, has⟩
        rw [List.getElem?_set_ne here]
        exact listed
    · exact ⟨_, there, List.mem_append_right _ List.mem_cons_self⟩

theorem Flight.Sound.loaded_of_disable {fixed : Fixed} {flight : Flight} {handle : Handle}
    (sound : flight.Sound fixed) (cleared : ⟨.disable handle, ()⟩ ∈ flight.trace) :
    ∃ source, ⟨.loadAuthenticator, (handle, source)⟩ ∈ flight.trace := by
  cases sound.foundUnreachable cleared with
  | @intro _ _ _ source _ _ _ _ asked =>
    refine ⟨source, ?_⟩
    rw [asked]
    exact List.mem_cons_self

/-- Every flag is accounted for: it was cleared at first, or a flight has cleared it. -/
structure Accounted {σ : Type} (fixed : Fixed) (initial : State) (traffic : Traffic σ) : Prop where
  sound : ∀ flight ∈ traffic.flights, flight.Sound fixed
  grown : initial.Extends traffic.state
  loaded : ∀ handle source, (∃ flight ∈ traffic.flights, ⟨.loadAuthenticator, (handle, source)⟩ ∈ flight.trace) →
    handle ≤ traffic.state.handle
  flags : ∀ handle ≤ traffic.state.handle, (traffic.state.authenticator handle).available = false ↔
    (handle ≤ initial.handle ∧ (initial.authenticator handle).available = false) ∨
      ∃ flight ∈ traffic.flights, ⟨.disable handle, ()⟩ ∈ flight.trace

namespace Accounted

variable {σ : Type} {outside : Outside σ} {fixed : Fixed} {initial : State} {traffic after : Traffic σ}

theorem start (fixed : Fixed) (initial : State) (world : σ) : Accounted fixed initial { state := initial, world } where
  sound := List.forall_mem_nil _
  grown := .refl initial
  loaded := by
    rintro handle source ⟨_, none, _⟩
    cases none
  flags handle given := by
    constructor
    · exact fun off => .inl ⟨given, off⟩
    · rintro (⟨_, off⟩ | ⟨_, none, _⟩)
      · exact off
      · cases none

theorem handle_le (accounted : Accounted fixed initial traffic) {handle : Handle}
    (cleared : ∃ flight ∈ traffic.flights, ⟨.disable handle, ()⟩ ∈ flight.trace) : handle ≤ traffic.state.handle := by
  obtain ⟨flight, member, asked⟩ := cleared
  obtain ⟨source, loads⟩ := (accounted.sound flight member).loaded_of_disable asked
  exact accounted.loaded handle source ⟨flight, member, loads⟩

/-- A flight that is about to clear a flag has loaded its authenticator. -/
theorem handle_le_of_asks (accounted : Accounted fixed initial traffic) {flight : Flight} {handle : Handle}
    {next : (Effect.disable handle).Answer → Steps Ending} (member : flight ∈ traffic.flights)
    (asks : flight.rest = .ask (.disable handle) next) : handle ≤ traffic.state.handle := by
  have sound := (accounted.sound flight member).answered asks ()
  obtain ⟨source, loads⟩ := sound.loaded_of_disable (List.mem_append_right _ List.mem_cons_self)
  rcases List.mem_append.mp loads with before | last
  · exact accounted.loaded handle source ⟨flight, member, before⟩
  · cases List.mem_singleton.mp last

theorem move (accounted : Accounted fixed initial traffic) (moved : Traffic.Moved outside fixed traffic after) :
    Accounted fixed initial after := by
  have sound := moved.sound accounted.sound
  cases moved with
  | turned world => exact ⟨sound, accounted.grown, accounted.loaded, accounted.flags⟩
  | arrived call =>
    -- a flight that has just arrived has asked nothing
    have same (exchange : Exchange Effect Effect.Answer) :
        (∃ flight ∈ traffic.flights ++ [.start fixed call], exchange ∈ flight.trace) ↔
          ∃ flight ∈ traffic.flights, exchange ∈ flight.trace := by
      simp [Flight.start, or_and_right, exists_or]
    refine ⟨sound, accounted.grown, fun handle source loads => ?_, fun handle given => ?_⟩
    · exact accounted.loaded handle source ((same _).mp loads)
    · rw [same]
      exact accounted.flags handle given
  | @answered index flight effect next found asks =>
    have grown := Traffic.answer_extends outside effect traffic.state traffic.world
    refine ⟨sound, accounted.grown.trans grown, fun handle source loads => ?_, fun handle given => ?_⟩
    · rcases (mem_answered found).mp loads with before | now
      · exact Nat.le_trans (accounted.loaded handle source before) grown.handle
      · cases now
        exact grown.handle
    · have valid (other : Handle) (clears : effect = .disable other) : other ≤ traffic.state.handle := by
        subst clears
        exact accounted.handle_le_of_asks (List.mem_of_getElem? found) asks
      have now : (⟨.disable handle, ()⟩ : Exchange Effect Effect.Answer) =
          ⟨effect, (answer outside effect (traffic.state, traffic.world)).1⟩ ↔ effect = .disable handle := by
        constructor
        · intro same
          cases same
          rfl
        · rintro rfl
          rfl
      rw [answer_flag outside valid given, mem_answered found, now, ← or_assoc]
      refine or_congr_left ⟨?_, ?_⟩
      · rintro ⟨earlier, off⟩
        exact (accounted.flags handle earlier).mp off
      · intro cleared
        -- a flag that has been cleared belongs to an authenticator that was there already
        have earlier : handle ≤ traffic.state.handle := by
          rcases cleared with ⟨first, _⟩ | byFlight
          · exact Nat.le_trans first accounted.grown.handle
          · exact accounted.handle_le byFlight
        exact ⟨earlier, (accounted.flags handle earlier).mpr cleared⟩

theorem run (accounted : Accounted fixed initial traffic) (outside : Outside σ) (moves : List (Move σ)) :
    Accounted fixed initial (traffic.run outside fixed moves) :=
  Traffic.run_keeps (P := Accounted fixed initial) move accounted moves

end Accounted
end QueryGate.Gateway
