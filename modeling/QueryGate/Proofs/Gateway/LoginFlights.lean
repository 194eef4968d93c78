import QueryGate.Proofs.Gateway.Interleaving
import QueryGate.Proofs.Login.Traces

/-! A login keeps to the authenticator that it loaded at first, whatever is installed meanwhile: it
asks the directory as the source of that one wants it, and if it clears a flag then that of this
one. So an authenticator is available until a login that loaded it finds its directory out of reach.
-/

namespace QueryGate.Gateway

open Program (Exchange Follows Proceeds follows_bind follows_done)

variable {fixed : Fixed} {request : Http.Request} {name password : String}
  {t : List (Exchange Effect Effect.Answer)} {ending : Ending} {handle : Handle}

theorem follows_request_steps :
    Follows ((Call.request request).steps fixed) t ending ↔
      ∃ response, ending = .responded response ∧ Follows (serve fixed request) t response := by
  refine follows_bind.trans ?_
  constructor
  · rintro ⟨_, response, _, rfl, served, ended⟩
    obtain ⟨rfl, rfl⟩ := follows_done.mp ended
    rw [List.append_nil]
    exact ⟨response, rfl, served⟩
  · rintro ⟨response, rfl, served⟩
    exact ⟨t, response, [], by simp, served, .done _⟩

theorem reload_asks {config : Config} (reloaded : Follows ((Call.reload config).steps fixed) t ending) :
    t = [] ∨ t = [⟨.installAuthenticator config.directory, ()⟩, ⟨.installPolicy (.ofSettings config.policy), ()⟩] := by
  obtain ⟨before, result, _, rfl, ran, ended⟩ := follows_bind.mp reloaded
  obtain ⟨rfl, _⟩ := follows_done.mp ended
  rw [List.append_nil]
  unfold Gateway.reload at ran
  split at ran
  · exact .inl (follows_done.mp ran).1
  · obtain ⟨_, _, rfl, installed⟩ := Program.follows_ask.mp ran
    obtain ⟨_, _, rfl, done⟩ := Program.follows_ask.mp installed
    obtain ⟨rfl, _⟩ := follows_done.mp done
    exact .inr rfl

/-- What may be asked once the authenticator with this handle has been loaded: nothing about another one. -/
def Effect.OfLogin (handle : Handle) : Effect → Prop
  | .isAvailable other | .disable other => other = handle
  | .directory _ | .now | .random _ => True
  | .loadAuthenticator | .loadPolicy | .forward _ | .installAuthenticator _ | .installPolicy _ => False

theorem carried_ofLogin (handle : Handle) (talk : List (Exchange Login.Effect Login.Effect.Answer)) :
    ∀ x ∈ talk.map (carried handle), x.1.OfLogin handle := by
  intro x member
  obtain ⟨⟨effect, given⟩, _, rfl⟩ := List.mem_map.mp member
  cases effect <;> trivial

/-- The whole of what a login asks: its authenticator, all else for this one, and of the directory nothing or a
conversation that is scheduled for its source. -/
theorem LoggedIn.keeps_source {outcome : Except Failure Http.Response}
    (login : LoggedIn fixed name password t outcome) :
    ∃ handle source rest, t = ⟨.loadAuthenticator, (handle, source)⟩ :: rest ∧ (∀ x ∈ rest, x.1.OfLogin handle) ∧
      (asked rest = [] ∨ ∃ passed, Login.Scheduled source name password source.useDirectBind (asked rest) passed) := by
  have talked {source : Directory.Source} {talk : List (Exchange Login.Effect Login.Effect.Answer)}
      {result : Except Fault Identity} (handle : Handle)
      (tried : Follows (Login.login source name password) talk result) :
      asked (talk.map (carried handle)) = [] ∨ ∃ passed,
        Login.Scheduled source name password source.useDirectBind (asked (talk.map (carried handle))) passed := by
    obtain ⟨available, record, after, rfl, scheduled, settled⟩ := Login.follows_login tried
    have whole : Login.Authenticator.directoryExchanges (⟨.isAvailable, available⟩ ::
        (record.map Login.ofDirectory ++ after)) = record := by
      refine (Login.Authenticator.directoryExchanges_append _ _).trans ?_
      rw [Login.directoryExchanges_ofDirectory, settled.silent, List.append_nil]
    rw [asked_carried, whole]
    exact scheduled.imp_right fun scheduled => ⟨_, scheduled⟩
  cases login with
  | @failed handle source talk fault tried =>
    exact ⟨handle, source, _, rfl, carried_ofLogin handle talk, talked handle tried⟩
  | @identified handle source talk identity now salt tried =>
    refine ⟨handle, source, _, rfl, List.forall_mem_append.mpr ⟨carried_ofLogin handle talk, ?_⟩, ?_⟩
    · simp [Effect.OfLogin]
    · rw [asked_append]
      simpa [asked] using talked handle tried

theorem mem_carried_disable {other : Handle} {talk : List (Exchange Login.Effect Login.Effect.Answer)} :
    ⟨.disable handle, ()⟩ ∈ talk.map (carried other) ↔ other = handle ∧ ⟨.disable, ()⟩ ∈ talk := by
  rw [List.mem_map]
  constructor
  · rintro ⟨⟨effect, given⟩, member, same⟩
    cases effect with
    | disable =>
      cases same
      exact ⟨rfl, member⟩
    | isAvailable => cases same
    | directory request => cases same
  · rintro ⟨rfl, member⟩
    exact ⟨_, member, rfl⟩

/-- A login that clears a flag does so last, after it found the directory of its authenticator out of reach. -/
theorem LoggedIn.clears_own {outcome : Except Failure Http.Response} (login : LoggedIn fixed name password t outcome)
    (cleared : ⟨.disable handle, ()⟩ ∈ t) :
    ∃ source talk reason before, t = ⟨.loadAuthenticator, (handle, source)⟩ :: talk.map (carried handle) ∧
      Follows (Login.login source name password) talk (.error (.directoryUnavailable reason)) ∧
      outcome = .error (.fault (.directoryUnavailable reason)) ∧
      t = before ++ [⟨.disable handle, ()⟩] ∧ ⟨.disable handle, ()⟩ ∉ before := by
  cases login with
  | @failed other source talk fault tried =>
    have within : ⟨.disable handle, ()⟩ ∈ talk.map (carried other) := by
      rcases List.mem_cons.mp cleared with same | within
      · cases same
      · exact within
    obtain ⟨rfl, disabled⟩ := mem_carried_disable.mp within
    obtain ⟨reason, before, same, rfl, first⟩ := Login.disables_last tried disabled
    cases same
    refine ⟨source, _, reason, ⟨.loadAuthenticator, (other, source)⟩ :: before.map (carried other), rfl, tried, rfl,
      ?_, ?_⟩
    · rw [List.map_append]
      rfl
    · rw [List.mem_cons, mem_carried_disable]
      rintro (same | ⟨_, member⟩)
      · cases same
      · exact first member
  | @identified other source talk identity now salt tried =>
    have within : ⟨.disable handle, ()⟩ ∈ talk.map (carried other) := by
      simpa using cleared
    obtain ⟨_, disabled⟩ := mem_carried_disable.mp within
    obtain ⟨_, _, ⟨⟩, _⟩ := Login.disables_last tried disabled

theorem Effect.answerable (effect : Effect) : Nonempty effect.Answer := by
  cases effect with
  | loadAuthenticator => exact ⟨(0, {})⟩
  | isAvailable => exact ⟨true⟩
  | directory request =>
    cases request with
    | unbind => exact ⟨()⟩
    | _ => exact ⟨.error .inputRejected⟩
  | loadPolicy => exact ⟨{}⟩
  | now => exact ⟨(0 : Int)⟩
  | random => exact ⟨([] : Bytes)⟩
  | forward => exact ⟨.error ""⟩
  | _ => exact ⟨()⟩

/-- Whatever a flight has asked, it may go on to some ending. -/
theorem Flight.Sound.whole {flight : Flight} (sound : flight.Sound fixed) :
    ∃ more ending, Follows (flight.call.steps fixed) (flight.trace ++ more) ending ∧
      Follows flight.rest more ending := by
  obtain ⟨more, ending, goes_on⟩ := Program.exists_follows Effect.answerable flight.rest
  exact ⟨more, ending, sound.follows goes_on, goes_on⟩

/-- A login that loaded the authenticator with this handle and failed because its directory was out of reach. -/
inductive FoundUnreachable (handle : Handle) (flight : Flight) : Prop where
  | intro {request : Http.Request} {name password : String} {source : Directory.Source}
      {talk : List (Exchange Login.Effect Login.Effect.Answer)} {reason : String}
      (call : flight.call = .request request) (form : LoginForm request name password)
      (asked : flight.trace = ⟨.loadAuthenticator, (handle, source)⟩ :: talk.map (carried handle))
      (tried : Follows (Login.login source name password) talk (.error (.directoryUnavailable reason)))
      (ended : flight.rest = .done (.responded (some (Fault.directoryUnavailable reason).response)))

theorem eq_nil_of_append_eq_concat {α : Type} {x : α} {before more : List α} {t : List α}
    (whole : t ++ more = before ++ [x]) (member : x ∈ t) (first : x ∉ before) : more = [] := by
  rcases List.eq_nil_or_concat more with empty | ⟨others, last, rfl⟩
  · exact empty
  · rw [List.concat_eq_append, ← List.append_assoc] at whole
    obtain ⟨rfl, _⟩ := List.append_inj' whole rfl
    exact absurd (List.mem_append_left _ member) first

theorem Flight.Sound.foundUnreachable {flight : Flight} (sound : flight.Sound fixed)
    (cleared : ⟨.disable handle, ()⟩ ∈ flight.trace) : FoundUnreachable handle flight := by
  obtain ⟨more, ending, whole, left⟩ := sound.whole
  have within := List.mem_append_left more cleared
  cases kind : flight.call with
  | reload config =>
    rw [kind] at whole
    rcases reload_asks whole with none | both
    · simp [none] at within
    · simp [both] at within
  | request request =>
    rw [kind] at whole
    obtain ⟨response, rfl, served⟩ := follows_request_steps.mp whole
    obtain none | ⟨name, password, _, form, _⟩ | ⟨_, queried⟩ := exchanges_of_serve served
    · simp [none] at within
    · obtain ⟨outcome, login, rfl⟩ := loggedIn_of_serve form served
      obtain ⟨source, talk, reason, before, asked, tried, rfl, last, first⟩ := login.clears_own within
      -- the flag is cleared last, so that there is nothing left to go on to
      obtain rfl := eq_nil_of_append_eq_concat last cleared first
      rw [List.append_nil] at asked
      exact .intro kind form asked tried left.eq_done
    · generalize flight.trace ++ more = t at within queried
      cases queried <;> simp at within

end QueryGate.Gateway
