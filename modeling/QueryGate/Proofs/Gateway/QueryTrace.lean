import QueryGate.Gateway.State
import QueryGate.Proofs.Gateway.Parameters
import QueryGate.Proofs.Program.Only

/-!
# Traces of queries

What a query asks of the gateway and how it is answered, for every clock, policy and database. Nothing
but a query asks the database anything.
-/

namespace QueryGate.Gateway

open Program (Exchange Follows Only follows_ask follows_bind follows_done)

/-- A query that names each of its fields once. -/
structure Given (request : Http.Request) (q db : String) : Prop where
  query : fieldValues request.query "q" = [q]
  query_nonempty : q ≠ ""
  database : fieldValues request.query "db" = [db]
  database_nonempty : db ≠ ""

def Vouched (fixed : Fixed) (now : Int) (request : Http.Request) (identity : Identity) : Prop :=
  ∃ token, accessToken? request = some token ∧ fixed.signer.verify now token = .ok identity

/-- How far a query gets, and what is responded there. -/
inductive Queried (fixed : Fixed) (request : Http.Request) :
    List (Exchange Effect Effect.Answer) → Http.Response → Prop where
  | incomplete {response : Http.Response} (missing : ∀ q db, ¬ Given request q db)
      (bad : response.status = 400) : Queried fixed request [] response
  | noToken {q db : String} (given : Given request q db) (absent : accessToken? request = none) :
      Queried fixed request [] (Fault.invalidRequest "missing access token").response
  | rejected {q db token : String} {now : Int} {fault : Fault} (given : Given request q db)
      (present : accessToken? request = some token)
      (invalid : fixed.signer.verify now token = .error fault) :
      Queried fixed request [⟨.now, now⟩] fault.response
  | denied {q db : String} {now : Int} {identity : Identity} {policy : Policy.Access}
      {reason : Policy.DenyReason} (given : Given request q db)
      (vouched : Vouched fixed now request identity)
      (denied : policy.evaluate identity q = .deny reason) :
      Queried fixed request [⟨.now, now⟩, ⟨.loadPolicy, policy⟩]
        (Fault.policyDenied reason.message).response
  | answered {q db : String} {now : Int} {identity : Identity} {policy : Policy.Access}
      {reason : Policy.AllowReason} {reply : Database.Reply} (given : Given request q db)
      (vouched : Vouched fixed now request identity)
      (allowed : policy.evaluate identity q = .allow reason) :
      Queried fixed request
        [⟨.now, now⟩, ⟨.loadPolicy, policy⟩, ⟨.forward (Database.request fixed.database q db), .ok reply⟩]
        reply.response
  | failed {q db : String} {now : Int} {identity : Identity} {policy : Policy.Access}
      {reason : Policy.AllowReason} {cause : String} (given : Given request q db)
      (vouched : Vouched fixed now request identity)
      (allowed : policy.evaluate identity q = .allow reason) :
      Queried fixed request
        [⟨.now, now⟩, ⟨.loadPolicy, policy⟩, ⟨.forward (Database.request fixed.database q db), .error cause⟩]
        (Fault.database cause).response

variable {fixed : Fixed} {request : Http.Request} {fields : List (String × String)} {q db : String}
  {t : List (Exchange Effect Effect.Answer)}

theorem given_iff (read : knownFields ["q", "db"] request.query = .ok fields) :
    Given request q db ↔ nonEmpty? fields "q" = some q ∧ nonEmpty? fields "db" = some db := by
  rw [nonEmpty?_eq_some read (by decide), nonEmpty?_eq_some read (by decide)]
  constructor
  · rintro ⟨query, someQuery, database, someDatabase⟩
    exact ⟨⟨query, someQuery⟩, database, someDatabase⟩
  · rintro ⟨⟨query, someQuery⟩, database, someDatabase⟩
    exact ⟨query, someQuery, database, someDatabase⟩

theorem Given.fields_read (given : Given request q db) :
    ∃ fields, knownFields ["q", "db"] request.query = .ok fields := by
  refine ⟨_, knownFields_eq_ok.mpr ⟨rfl, ?_⟩⟩
  simp [given.query, given.database]

/-! ### Handlers -/

section Handlers

open Handler

variable {α : Type}

theorem perform_bind (effect : Effect) (f : effect.Answer → Handler α) :
    (perform effect >>= f).run = .ask effect fun given => (f given).run := rfl

theorem ofResult_bind_ok {β : Type} (a : β) (f : β → Handler α) :
    (ofResult (.ok a) >>= f).run = (f a).run := rfl

def responseTo : Except Failure Http.Response → Option Http.Response
  | .ok response => some response
  | .error (.fault fault) => some fault.response
  | .error .crash => none

theorem respond_eq (handler : Handler Http.Response) :
    respond handler = handler.run >>= fun outcome => .done (responseTo outcome) := by
  refine congrArg (handler.run >>= ·) (funext fun outcome => ?_)
  rcases outcome with (fault | _) | response <;> rfl

theorem follows_respond {handler : Handler Http.Response} {response : Option Http.Response} :
    Follows (respond handler) t response ↔
      ∃ outcome, Follows handler.run t outcome ∧ response = responseTo outcome := by
  rw [respond_eq, follows_bind]
  constructor
  · rintro ⟨before, outcome, after, rfl, ran, ended⟩
    obtain ⟨rfl, rfl⟩ := follows_done.mp ended
    exact ⟨outcome, by simpa using ran, rfl⟩
  · rintro ⟨outcome, ran, rfl⟩
    exact ⟨t, outcome, [], by simp, ran, .done _⟩

end Handlers

/-! ### Queries -/

theorem runQuery_of_incomplete
    (missing : ∀ q db, ¬ (nonEmpty? fields "q" = some q ∧ nonEmpty? fields "db" = some db)) :
    (runQuery fixed request fields).run =
      .done (.error (.fault (.invalidRequest "query must contain a query string and a database"))) := by
  unfold runQuery
  split
  · rename_i q db hasQuery hasDatabase
    exact absurd ⟨hasQuery, hasDatabase⟩ (missing q db)
  · rfl

theorem runQuery_of_noToken (hasQuery : nonEmpty? fields "q" = some q)
    (hasDatabase : nonEmpty? fields "db" = some db) (absent : accessToken? request = none) :
    (runQuery fixed request fields).run =
      .done (.error (.fault (.invalidRequest "missing access token"))) := by
  simp only [runQuery, hasQuery, hasDatabase, absent]
  rfl

/-- A query with a token is checked against the clock and the policy, and then forwarded. -/
theorem runQuery_of_token {token : String} (hasQuery : nonEmpty? fields "q" = some q)
    (hasDatabase : nonEmpty? fields "db" = some db) (present : accessToken? request = some token) :
    (runQuery fixed request fields).run = .ask .now fun now =>
      match fixed.signer.verify now token with
      | .error fault => .done (.error (.fault fault))
      | .ok identity => .ask .loadPolicy fun policy =>
        match policy.evaluate identity q with
        | .deny reason => .done (.error (.fault (.policyDenied reason.message)))
        | .allow _ => .ask (.forward (Database.request fixed.database q db)) fun
          | .ok reply => .done (.ok reply.response)
          | .error cause => .done (.error (.fault (.database cause))) := by
  simp only [runQuery, hasQuery, hasDatabase, present]
  rw [perform_bind]
  refine congrArg (Program.ask _) (funext fun now => ?_)
  cases fixed.signer.verify now token with
  | error fault => rfl
  | ok identity =>
    rw [ofResult_bind_ok, perform_bind]
    refine congrArg (Program.ask _) (funext fun policy => ?_)
    unfold Policy.Access.authorize
    cases policy.evaluate identity q with
    | deny reason => rfl
    | allow reason =>
      rw [ofResult_bind_ok, perform_bind]
      refine congrArg (Program.ask _) (funext fun reply => ?_)
      cases reply <;> rfl

theorem queried_of_runQuery (read : knownFields ["q", "db"] request.query = .ok fields)
    {outcome : Except Failure Http.Response} (ran : Follows (runQuery fixed request fields).run t outcome) :
    ∃ response, responseTo outcome = some response ∧ Queried fixed request t response := by
  by_cases complete : ∃ q db, Given request q db
  · obtain ⟨q, db, given⟩ := complete
    obtain ⟨hasQuery, hasDatabase⟩ := (given_iff read).mp given
    cases present : accessToken? request with
    | none =>
      rw [runQuery_of_noToken hasQuery hasDatabase present] at ran
      obtain ⟨rfl, rfl⟩ := follows_done.mp ran
      exact ⟨_, rfl, .noToken given present⟩
    | some token =>
      rw [runQuery_of_token hasQuery hasDatabase present] at ran
      obtain ⟨now, _, rfl, checked⟩ := follows_ask.mp ran
      cases valid : fixed.signer.verify now token with
      | error fault =>
        rw [valid] at checked
        obtain ⟨rfl, rfl⟩ := follows_done.mp checked
        exact ⟨_, rfl, .rejected given present valid⟩
      | ok identity =>
        rw [valid] at checked
        obtain ⟨policy, _, rfl, decided⟩ := follows_ask.mp checked
        have vouched : Vouched fixed now request identity := ⟨token, present, valid⟩
        cases decision : policy.evaluate identity q with
        | deny reason =>
          rw [decision] at decided
          obtain ⟨rfl, rfl⟩ := follows_done.mp decided
          exact ⟨_, rfl, .denied given vouched decision⟩
        | allow reason =>
          rw [decision] at decided
          obtain ⟨sent, _, rfl, forwarded⟩ := follows_ask.mp decided
          cases sent with
          | ok reply =>
            obtain ⟨rfl, rfl⟩ := follows_done.mp forwarded
            exact ⟨_, rfl, .answered given vouched decision⟩
          | error cause =>
            obtain ⟨rfl, rfl⟩ := follows_done.mp forwarded
            exact ⟨_, rfl, .failed given vouched decision⟩
  · have missing : ∀ q db, ¬ Given request q db := fun q db given => complete ⟨q, db, given⟩
    rw [runQuery_of_incomplete fun q db found => missing q db ((given_iff read).mpr found)] at ran
    obtain ⟨rfl, rfl⟩ := follows_done.mp ran
    exact ⟨_, rfl, .incomplete missing rfl⟩

theorem queried_of_serveRoute {response : Option Http.Response}
    (served : Follows (serveRoute fixed request .query) t response) :
    ∃ answer, response = some answer ∧ Queried fixed request t answer := by
  cases read : knownFields ["q", "db"] request.query with
  | error name =>
    simp only [serveRoute, read] at served
    obtain ⟨rfl, rfl⟩ := follows_done.mp served
    refine ⟨_, rfl, .incomplete (fun q db given => ?_) rfl⟩
    obtain ⟨fields, same⟩ := given.fields_read
    cases read.symm.trans same
  | ok fields =>
    simp only [serveRoute, read] at served
    obtain ⟨outcome, ran, rfl⟩ := follows_respond.mp served
    exact queried_of_runQuery read ran

/-! ### All requests -/

def Effect.isForward : Effect → Bool
  | .forward _ => true
  | _ => false

/-- The requests to the database in a trace. -/
def forwarded : List (Exchange Effect Effect.Answer) → List Database.Request
  | [] => []
  | ⟨.forward request, _⟩ :: rest => request :: forwarded rest
  | _ :: rest => forwarded rest

theorem forwarded_eq_nil (quiet : ∀ x ∈ t, x.1.isForward = false) : forwarded t = [] := by
  induction t with
  | nil => rfl
  | cons x rest ih =>
    obtain ⟨head, tail⟩ := List.forall_mem_cons.mp quiet
    obtain ⟨effect, given⟩ := x
    cases effect with
    | forward request => cases head
    | _ => exact ih tail

theorem only_perform {P : Effect → Prop} {effect : Effect} (holds : P effect) :
    Only P (Handler.perform effect).run :=
  Program.only_lift (Program.only_request holds)

theorem only_ofOutcome {P : Effect → Prop} {α : Type} (outcome : Except Failure α) :
    Only P (Handler.ofOutcome outcome).run :=
  .done outcome

theorem only_ofResult {P : Effect → Prop} {α : Type} (result : Except Fault α) :
    Only P (Handler.ofResult result).run := by
  cases result with
  | ok a => exact .done _
  | error fault => exact .done _

theorem only_ofLogin {P : Effect → Prop} {handle : Handle} (flag : P (.isAvailable handle))
    (clear : P (.disable handle)) (asked : ∀ request, P (.directory request)) {α : Type}
    (steps : Login.Steps α) : Only P (ofLogin handle steps) := by
  refine Program.only_via (fun effect => ?_) steps
  cases effect with
  | isAvailable => exact Program.only_request flag
  | disable => exact Program.only_request clear
  | directory request => exact Program.only_request (asked request)

theorem only_logIn (fixed : Fixed) (name password : String) :
    Only (·.isForward = false) (logIn fixed name password).run := by
  have quiet (effect : Effect) (holds : effect.isForward = false) :
      Only (·.isForward = false) (Handler.perform effect).run := only_perform holds
  unfold logIn
  refine (quiet .loadAuthenticator rfl).attempt_bind fun loaded => ?_
  have talked : Only (·.isForward = false) (ofLogin loaded.1 (Login.login loaded.2 name password)) := by
    refine only_ofLogin ?_ ?_ (fun request => ?_) _ <;> rfl
  refine (Program.only_lift talked).attempt_bind fun result => ?_
  refine (only_ofResult result).attempt_bind fun identity => ?_
  refine (quiet .now rfl).attempt_bind fun now => ?_
  refine (quiet (.random _) rfl).attempt_bind fun salt => ?_
  exact (only_ofOutcome _).attempt_bind fun token => .done _

theorem only_serveRoute {route : Route} (other : route ≠ .query) :
    Only (·.isForward = false) (serveRoute fixed request route) := by
  cases route with
  | health => exact .done _
  | auth =>
    simp only [serveRoute]
    split
    · exact .done _
    · rw [respond_eq]
      exact (only_logIn ..).bind fun _ => .done _
  | query => contradiction

/-- A request is served by its route, or turned away without asking for anything. -/
theorem follows_serve {response : Option Http.Response} (served : Follows (serve fixed request) t response) :
    (t = [] ∧ ∀ route, Route.ofPath? request.path = some route → request.method ∉ route.methods) ∨
      ∃ route answer, Route.ofPath? request.path = some route ∧
        Follows (serveRoute fixed request route) t answer ∧
        response = if request.method = "HEAD" then answer.map withoutBody else answer := by
  unfold serve at served
  cases found : Route.ofPath? request.path with
  | none =>
    rw [found] at served
    exact .inl ⟨(follows_done.mp served).1, nofun⟩
  | some route =>
    simp only [found] at served
    split at served
    · obtain ⟨before, answer, after, rfl, ran, ended⟩ := follows_bind.mp served
      obtain ⟨rfl, rfl⟩ := follows_done.mp ended
      exact .inr ⟨route, answer, rfl, by simpa using ran, rfl⟩
    · rename_i refused
      refine .inl ⟨(follows_done.mp served).1, ?_⟩
      rintro _ ⟨⟩
      exact refused

theorem ofPath?_eq_query {path : String} : Route.ofPath? path = some .query ↔ path = "/query" := by
  unfold Route.ofPath?
  grind

theorem queried_of_serve {response : Option Http.Response} (get : request.method = "GET")
    (path : request.path = "/query") (served : Follows (serve fixed request) t response) :
    ∃ answer, response = some answer ∧ Queried fixed request t answer := by
  have found := ofPath?_eq_query.mpr path
  obtain ⟨_, refused⟩ | ⟨route, answer, same, ran, rfl⟩ := follows_serve served
  · refine absurd ?_ (refused _ found)
    rw [get]
    decide
  · obtain rfl := Option.some.inj (found.symm.trans same)
    rw [if_neg (by rw [get]; decide)]
    exact queried_of_serveRoute ran

/-- Only queries reach the database. -/
theorem forwarded_eq_nil_or_queried {response : Option Http.Response}
    (served : Follows (serve fixed request) t response) :
    forwarded t = [] ∨ request.path = "/query" ∧ ∃ answer, Queried fixed request t answer := by
  obtain ⟨rfl, _⟩ | ⟨route, answer, found, ran, _⟩ := follows_serve served
  · exact .inl rfl
  · by_cases query : route = .query
    · subst query
      obtain ⟨answer, _, queried⟩ := queried_of_serveRoute ran
      exact .inr ⟨ofPath?_eq_query.mp found, answer, queried⟩
    · exact .inl (forwarded_eq_nil ((only_serveRoute query).of_follows ran))

end QueryGate.Gateway
