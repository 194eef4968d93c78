import QueryGate.Directory.Client
import QueryGate.Proofs.Gateway.Availability
import QueryGate.Proofs.Gateway.QueryGating

/-!
# Reloads do not tear requests

However the steps of requests and reloads are interleaved, a query is decided by one policy and a login is carried out
with one source. Both were current at a moment during the request.
-/

namespace QueryGate.Gateway

open Program (Exchange Follows)

/-! ### Queries in flight -/

def policies (t : List (Exchange Effect Effect.Answer)) : List Policy.Access :=
  t.filterMap fun
    | ⟨.loadPolicy, policy⟩ => some policy
    | _ => none

/-- A query that is not decided yet, or has been turned away before it came to that. -/
structure Undecided (flight : Flight) : Prop where
  none_loaded : policies flight.trace = []
  nothing_sent : forwarded flight.trace = []
  turned_away : ∀ ending, flight.rest = .done ending →
    ∃ response, ending = .responded (some response) ∧ (response.status = 400 ∨ response.status = 401)

/-- A query that this policy has decided: denied at once, or on its way to the database and back. -/
inductive DecidedBy (fixed : Fixed) (request : Http.Request) (policy : Policy.Access) (flight : Flight) : Prop where
  | denied {q db : String} {now : Int} {identity : Identity} {reason : Policy.DenyReason}
      (given : Given request q db) (vouched : Vouched fixed now request identity)
      (denies : policy.evaluate identity q = .deny reason)
      (trace : flight.trace = [⟨.now, now⟩, ⟨.loadPolicy, policy⟩])
      (ended : flight.rest = .done (.responded (some (Fault.policyDenied reason.message).response)))
  | sending {q db : String} {now : Int} {identity : Identity} {reason : Policy.AllowReason}
      (given : Given request q db) (vouched : Vouched fixed now request identity)
      (allows : policy.evaluate identity q = .allow reason)
      (trace : flight.trace = [⟨.now, now⟩, ⟨.loadPolicy, policy⟩])
      (next : ∃ next, flight.rest = .ask (.forward (Database.request fixed.database q db)) next)
  | sent {q db : String} {now : Int} {identity : Identity} {reason : Policy.AllowReason}
      {reply : Except String Database.Reply}
      (given : Given request q db) (vouched : Vouched fixed now request identity)
      (allows : policy.evaluate identity q = .allow reason)
      (trace : flight.trace = [⟨.now, now⟩, ⟨.loadPolicy, policy⟩,
        ⟨.forward (Database.request fixed.database q db), reply⟩])
      (ended : ∃ response, flight.rest = .done (.responded (some response)))

variable {fixed : Fixed} {request : Http.Request} {flight : Flight}

theorem undecided_of_more {begun more : List (Exchange Effect Effect.Answer)} {exchange : Exchange Effect Effect.Answer}
    {ending : Ending} (trace : flight.trace = begun) (none_loaded : policies begun = [])
    (nothing_sent : forwarded begun = []) (left : Follows flight.rest (exchange :: more) ending) :
    Undecided flight := by
  subst trace
  refine ⟨none_loaded, nothing_sent, fun other ended => ?_⟩
  obtain ⟨_, asks, _⟩ := left.eq_ask
  cases asks.symm.trans ended

theorem undecided_of_ended {begun : List (Exchange Effect Effect.Answer)} {response : Http.Response}
    (trace : flight.trace = begun) (none_loaded : policies begun = []) (nothing_sent : forwarded begun = [])
    (left : Follows flight.rest [] (.responded (some response)))
    (refused : response.status = 400 ∨ response.status = 401) : Undecided flight := by
  subst trace
  refine ⟨none_loaded, nothing_sent, fun other ended => ⟨response, ?_, refused⟩⟩
  cases left.eq_done.symm.trans ended
  rfl

/-- How a query stands that has got to the policy, in the course of a whole trace that goes on to the database. -/
theorem sending_or_sent {q db : String} {now : Int} {identity : Identity} {policy : Policy.Access}
    {reason : Policy.AllowReason} {reply : Except String Database.Reply} {response : Http.Response}
    {more : List (Exchange Effect Effect.Answer)} (given : Given request q db)
    (vouched : Vouched fixed now request identity) (allows : policy.evaluate identity q = .allow reason)
    (whole : flight.trace ++ more = [⟨.now, now⟩, ⟨.loadPolicy, policy⟩,
      ⟨.forward (Database.request fixed.database q db), reply⟩])
    (left : Follows flight.rest more (.responded (some response))) :
    Undecided flight ∨ ∃ policy, policies flight.trace = [policy] ∧ DecidedBy fixed request policy flight := by
  simp only [List.append_eq_cons_iff, List.cons_eq_append_iff, List.nil_eq_append_iff] at whole
  rcases whole with ⟨trace, rfl⟩ | ⟨_, trace, ⟨rfl, rfl⟩ | ⟨_, rfl, ⟨rfl, rfl⟩ | ⟨_, rfl, rfl, rfl⟩⟩⟩
  · exact .inl (undecided_of_more trace rfl rfl left)
  · exact .inl (undecided_of_more trace rfl rfl left)
  · obtain ⟨next, asks, _⟩ := left.eq_ask
    exact .inr ⟨policy, congrArg policies trace, .sending given vouched allows trace ⟨next, asks⟩⟩
  · exact .inr ⟨policy, congrArg policies trace, .sent given vouched allows trace ⟨response, left.eq_done⟩⟩

theorem query_flight (sound : flight.Sound fixed) (call : flight.call = .request request)
    (get : request.method = "GET") (path : request.path = "/query") :
    Undecided flight ∨ ∃ policy, policies flight.trace = [policy] ∧ DecidedBy fixed request policy flight := by
  obtain ⟨more, ending, follows, left⟩ := sound.whole
  rw [call] at follows
  obtain ⟨_, rfl, served⟩ := follows_request_steps.mp follows
  obtain ⟨response, rfl, queried⟩ := queried_of_serve get path served
  generalize whole : flight.trace ++ more = all at queried
  cases queried with
  | incomplete _ bad =>
    obtain ⟨trace, rfl⟩ := List.append_eq_nil_iff.mp whole
    exact .inl (undecided_of_ended trace rfl rfl left (.inl bad))
  | noToken =>
    obtain ⟨trace, rfl⟩ := List.append_eq_nil_iff.mp whole
    exact .inl (undecided_of_ended trace rfl rfl left (.inl rfl))
  | rejected _ _ invalid =>
    simp only [List.append_eq_cons_iff, List.nil_eq_append_iff] at whole
    rcases whole with ⟨trace, rfl⟩ | ⟨_, trace, rfl, rfl⟩
    · exact .inl (undecided_of_more trace rfl rfl left)
    · exact .inl (undecided_of_ended trace rfl rfl left
        (.inr (verify_error_status invalid)))
  | @denied _ _ _ _ policy _ given vouched denies =>
    simp only [List.append_eq_cons_iff, List.cons_eq_append_iff, List.nil_eq_append_iff] at whole
    rcases whole with ⟨trace, rfl⟩ | ⟨_, trace, ⟨rfl, rfl⟩ | ⟨_, rfl, rfl, rfl⟩⟩
    · exact .inl (undecided_of_more trace rfl rfl left)
    · exact .inl (undecided_of_more trace rfl rfl left)
    · exact .inr ⟨policy, congrArg policies trace, .denied given vouched denies trace left.eq_done⟩
  | answered given vouched allows => exact sending_or_sent given vouched allows whole left
  | failed given vouched allows => exact sending_or_sent given vouched allows whole left

/-! ### Logins in flight -/

/-- A login that uses this authenticator for all that it does, and with it this source. -/
structure UsesOnly (handle : Handle) (source : Directory.Source) (name password : String) (flight : Flight) : Prop where
  loads : ∃ rest, flight.trace = ⟨.loadAuthenticator, (handle, source)⟩ :: rest ∧ ∀ x ∈ rest, x.1.OfLogin handle
  converses : ∃ record : Login.Record,
    (record = [] ∨ ∃ passed, Login.Scheduled source name password source.useDirectBind record passed) ∧
      asked flight.trace <+: record ∧ (¬ flight.UnderWay → asked flight.trace = record)

theorem login_flight {name password : String} (sound : flight.Sound fixed) (call : flight.call = .request request)
    (form : LoginForm request name password) :
    flight.trace = [] ∨ ∃ handle source, UsesOnly handle source name password flight := by
  obtain ⟨more, ending, follows, left⟩ := sound.whole
  rw [call] at follows
  obtain ⟨_, rfl, served⟩ := follows_request_steps.mp follows
  obtain ⟨outcome, login, _⟩ := loggedIn_of_serve form served
  obtain ⟨handle, source, rest, whole, own, scheduled⟩ := login.keeps_source
  rcases List.append_eq_cons_iff.mp whole with ⟨none, _⟩ | ⟨others, trace, rfl⟩
  · exact .inl none
  · have asked_eq : asked flight.trace = asked others := by
      rw [trace]
      rfl
    refine .inr ⟨handle, source, ⟨others, trace, (List.forall_mem_append.mp own).1⟩, asked (others ++ more), scheduled,
      ?_, fun ended => ?_⟩
    · rw [asked_eq, asked_append]
      exact List.prefix_append _ _
    · have last : more = [] := by
        cases rest : flight.rest with
        | ask effect next => exact absurd ⟨effect, next, rest⟩ ended
        | done ending =>
          rw [rest] at left
          exact (Program.follows_done.mp left).1
      rw [asked_eq, last, List.append_nil]

/-! ### Whole traffic -/

variable {σ : Type} {outside : Outside σ} {initial : State} {world : σ} {moves : List (Move σ)} {index : Nat}

theorem loaded_during {exchange : Exchange Effect Effect.Answer} {P : State → Prop}
    (reached : (Traffic.run outside fixed { state := initial, world } moves).flights[index]? = some flight)
    (member : exchange ∈ flight.trace)
    (shows : ∀ state world, exchange.2 = (answer outside exchange.1 (state, world)).1 → P state) :
    Traffic.During outside fixed { state := initial, world } moves index P := by
  obtain ⟨_, none, _⟩ | ⟨earlier, later, before, same, found, underWay, world, answered⟩ :=
    Traffic.answered_during reached member
  · cases none
  · exact ⟨earlier, later, before, same, found, underWay, shows _ world answered⟩

/-- Reloads do not tear requests. However the steps of any number of requests and reloads are interleaved, a query is
decided by a single policy that was current at a moment during the query. A login does all that it does with a single
source that was current at a moment during the login, over both of its connections. A flag is cleared only by a login
that had loaded the authenticator that the flag belongs to, and had then found the directory out of reach. -/
theorem reloads_tear_no_request {σ : Type} (outside : Outside σ) (fixed : Fixed) (initial : State) (world : σ)
    (moves : List (Move σ)) :
    let begun : Traffic σ := { state := initial, world }
    let reached := begun.run outside fixed moves
    (∀ index flight request, reached.flights[index]? = some flight → flight.call = .request request →
      (request.method = "GET" → request.path = "/query" →
        Undecided flight ∨ ∃ policy, policies flight.trace = [policy] ∧ DecidedBy fixed request policy flight ∧
          Traffic.During outside fixed begun moves index (·.policy = policy)) ∧
      ∀ name password, LoginForm request name password →
        flight.trace = [] ∨ ∃ handle source, UsesOnly handle source name password flight ∧
          Traffic.During outside fixed begun moves index
            (fun state => state.handle = handle ∧ state.current.source = source) ∧
          (reached.state.authenticator handle).source = source) ∧
    (∀ handle ≤ reached.state.handle, (reached.state.authenticator handle).available = false ↔
      (handle ≤ initial.handle ∧ (initial.authenticator handle).available = false) ∨
        ∃ flight ∈ reached.flights, ⟨.disable handle, ()⟩ ∈ flight.trace) ∧
    ∀ flight ∈ reached.flights, ∀ handle, ⟨.disable handle, ()⟩ ∈ flight.trace → FoundUnreachable handle flight := by
  intro begun reached
  have accounted : Accounted fixed initial reached := (Accounted.start fixed initial world).run outside moves
  refine ⟨fun index flight request found call => ⟨fun get path => ?_, fun name password form => ?_⟩,
    accounted.flags, fun flight member handle cleared => (accounted.sound flight member).foundUnreachable cleared⟩
  · refine (query_flight (accounted.sound flight (List.mem_of_getElem? found)) call get path).imp_right ?_
    rintro ⟨policy, loaded, decided⟩
    have member : ⟨.loadPolicy, policy⟩ ∈ flight.trace := by
      cases decided with
      | denied _ _ _ trace | sending _ _ _ trace | sent _ _ _ trace => simp [trace]
    exact ⟨policy, loaded, decided, loaded_during found member fun state world same => same.symm⟩
  · refine (login_flight (accounted.sound flight (List.mem_of_getElem? found)) call form).imp_right ?_
    rintro ⟨handle, source, uses⟩
    obtain ⟨rest, trace, _⟩ := uses.loads
    have member : ⟨.loadAuthenticator, (handle, source)⟩ ∈ flight.trace := by
      rw [trace]
      exact List.mem_cons_self
    have during : Traffic.During outside fixed begun moves index
        (fun state => state.handle = handle ∧ state.current.source = source) :=
      loaded_during found member fun state world same => by
        cases same
        exact ⟨rfl, rfl⟩
    obtain ⟨state, ⟨rfl, rfl⟩, later⟩ := during.extends
    refine ⟨_, _, uses, during, ?_⟩
    rw [later.source _ (Nat.le_refl _), state.authenticator_handle]

/-- A login loads its authenticator, a reload installs another one, and then the login finds its directory out of
reach. It disables the old source, and the new one stays available. -/
theorem stale_login_spares_new_source :
    let outside : Outside Unit :=
      { directory := Directory.Client.answerer Directory.Client.unreachable
        now := fun _ => 1700000000
        random := fun _ world => ([], world)
        forward := fun _ world => (.error "connection refused", world) }
    let fixed : Fixed :=
      { signer := { algorithm := .hmac .sha256, keys := ⟨utf8 "secret", utf8 "secret"⟩, ttlMinutes := 10 }
        database := {} }
    let login : Http.Request :=
      { method := "POST", target := "/auth", headers := [("Content-Type", utf8 formType)]
        body := utf8 "uid=tesla&p=volt" }
    let config : Config :=
      { directory := { userBase := "dc=org" }, token := { method := "HS256", secret := some "secret" } }
    let initial : State := { current := { source := {} }, policy := {} }
    let moves : List (Move Unit) :=
      [.arrive (.request login), .proceed 0, .arrive (.reload config), .proceed 1, .proceed 1,
        .proceed 0, .proceed 0, .proceed 0, .proceed 0]
    let reached := Traffic.run outside fixed { state := initial, world := () } moves
    (∃ flight ∈ reached.flights, FoundUnreachable 0 flight) ∧
      (reached.state.authenticator 0).available = false ∧
      reached.state.authenticator 1 = { source := config.directory, available := true } := by
  intro outside fixed login config initial moves reached
  have clears : ∃ flight, reached.flights[0]? = some flight ∧ ⟨.disable 0, ()⟩ ∈ flight.trace := by
    simp only [reached, moves, initial, outside, fixed, login, config]
    refine ⟨_, rfl, ?_⟩
    exact .tail _ (.tail _ (.tail _ (.tail _ (.head _))))
  obtain ⟨flight, found, cleared⟩ := clears
  have member := List.mem_of_getElem? found
  obtain ⟨_, flags, unreachable⟩ := reloads_tear_no_request outside fixed initial () moves
  refine ⟨⟨flight, member, unreachable flight member 0 cleared⟩, ?_, ?_⟩
  · exact (flags 0 (Nat.zero_le _)).mpr (.inr ⟨flight, member, cleared⟩)
  · simp only [reached, moves, initial, outside, fixed, login, config]
    rfl

end QueryGate.Gateway
