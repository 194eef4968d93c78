import QueryGate.Directory.Client
import QueryGate.Gateway.State
import QueryGate.Proofs.Gateway.QueryTrace

/-!
# The gate in front of the database

A query reaches the database exactly when its token vouches for an identity that the policy allows the
query. Any other request is turned away with a status that says how far it got.
-/

namespace QueryGate.Gateway

open Program (Exchange Follows Gives)

/-- A query whose token and policy let it through. -/
structure Authorized (fixed : Fixed) (policy : Policy.Access) (now : Int) (request : Http.Request)
    (q db : String) : Prop where
  given : Given request q db
  allowed : ∃ token identity reason, accessToken? request = some token ∧
    fixed.signer.verify now token = .ok identity ∧ policy.evaluate identity q = .allow reason

/-- Why a query is turned away, and with which status. The first reason that applies counts. -/
inductive Refused (fixed : Fixed) (policy : Policy.Access) (now : Int) (request : Http.Request) :
    Nat → Prop where
  | incomplete (missing : ∀ q db, ¬ Given request q db) : Refused fixed policy now request 400
  | noToken {q db : String} (given : Given request q db) (absent : accessToken? request = none) :
      Refused fixed policy now request 400
  | rejected {q db token : String} {fault : Fault} (given : Given request q db)
      (present : accessToken? request = some token)
      (invalid : fixed.signer.verify now token = .error fault) : Refused fixed policy now request 401
  | denied {q db token : String} {identity : Identity} {reason : Policy.DenyReason}
      (given : Given request q db) (present : accessToken? request = some token)
      (valid : fixed.signer.verify now token = .ok identity)
      (denied : policy.evaluate identity q = .deny reason) : Refused fixed policy now request 403

/-- What becomes of the database's reply, or of a failure to get one. -/
def Relays (response : Http.Response) : Except String Database.Reply → Prop
  | .ok reply =>
    response.status = (if 100 ≤ reply.status ∧ reply.status < 1000 then reply.status else 502) ∧
      response.contentType = some ((reply.contentType >>= Http.printable?).getD "application/json") ∧
      response.body = reply.body
  | .error _ => response.status = 502

variable {fixed : Fixed} {policy : Policy.Access} {now : Int} {request : Http.Request}

theorem Given.unique {q q' db db' : String} (first : Given request q db) (second : Given request q' db') :
    q = q' ∧ db = db' := by
  obtain ⟨query, _, database, _⟩ := first
  obtain ⟨query', _, database', _⟩ := second
  rw [query] at query'
  rw [database] at database'
  exact ⟨(List.cons.inj query').1, (List.cons.inj database').1⟩

theorem verify_error_status {signer : Token.Signer} {token : String} {fault : Fault}
    (invalid : signer.verify now token = .error fault) : fault.response.status = 401 := by
  unfold Token.Signer.verify at invalid
  split at invalid
  · cases invalid
  · cases invalid
    rfl

theorem Refused.not_authorized {status : Nat} (refused : Refused fixed policy now request status)
    (q db : String) : ¬ Authorized fixed policy now request q db := by
  rintro ⟨given, token, identity, reason, present, valid, allowed⟩
  cases refused with
  | incomplete missing => exact missing q db given
  | noToken _ absent => cases absent.symm.trans present
  | rejected _ present' invalid =>
    obtain rfl := Option.some.inj (present.symm.trans present')
    cases invalid.symm.trans valid
  | denied given' present' valid' denied =>
    obtain ⟨rfl, rfl⟩ := given.unique given'
    obtain rfl := Option.some.inj (present.symm.trans present')
    obtain rfl := Except.ok.inj (valid.symm.trans valid')
    cases denied.symm.trans allowed

theorem Refused.unique {status status' : Nat} (first : Refused fixed policy now request status)
    (second : Refused fixed policy now request status') : status = status' := by
  cases first <;> cases second <;> grind

variable {σ : Type} {outside : Outside σ} {state : State} {world : σ} {final : State × σ}
  {t : List (Exchange Effect Effect.Answer)} {response : Http.Response}

/-- A query is let through or turned away, by the clock and the policy as they are. -/
theorem authorized_or_refused (queried : Queried fixed request t response)
    (gives : Gives (answer outside) (state, world) t final) :
    final.1 = state ∧
      ((∃ q db, Authorized fixed state.policy (outside.now world) request q db ∧
          forwarded t = [Database.request fixed.database q db] ∧
          Relays response (outside.forward (Database.request fixed.database q db) world).1) ∨
        ∃ status, Refused fixed state.policy (outside.now world) request status ∧
          forwarded t = [] ∧ final.2 = world ∧ response.status = status) := by
  cases queried with
  | incomplete missing bad =>
    cases gives
    exact ⟨rfl, .inr ⟨400, .incomplete missing, rfl, rfl, bad⟩⟩
  | noToken given absent =>
    cases gives
    exact ⟨rfl, .inr ⟨400, .noToken given absent, rfl, rfl, rfl⟩⟩
  | rejected given present invalid =>
    obtain ⟨rfl, rfl⟩ := gives
    exact ⟨rfl, .inr ⟨401, .rejected given present invalid, rfl, rfl, verify_error_status invalid⟩⟩
  | denied given vouched denied =>
    obtain ⟨rfl, rfl, rfl⟩ := gives
    obtain ⟨token, present, valid⟩ := vouched
    exact ⟨rfl, .inr ⟨403, .denied given present valid denied, rfl, rfl, rfl⟩⟩
  | @answered q db _ identity _ reason reply given vouched allowed =>
    obtain ⟨rfl, rfl, sent, rfl⟩ := gives
    obtain ⟨token, present, valid⟩ := vouched
    have replied : (outside.forward (Database.request fixed.database q db) world).1 = .ok reply := sent
    refine ⟨rfl, .inl ⟨q, db, ⟨given, token, identity, reason, present, valid, allowed⟩, rfl, ?_⟩⟩
    rw [replied]
    exact ⟨rfl, rfl, rfl⟩
  | @failed q db _ identity _ reason cause given vouched allowed =>
    obtain ⟨rfl, rfl, sent, rfl⟩ := gives
    obtain ⟨token, present, valid⟩ := vouched
    have replied : (outside.forward (Database.request fixed.database q db) world).1 = .error cause := sent
    refine ⟨rfl, .inl ⟨q, db, ⟨given, token, identity, reason, present, valid, allowed⟩, rfl, ?_⟩⟩
    rw [replied]
    rfl

theorem Queried.no_directory (queried : Queried fixed request t response) :
    ∀ x ∈ t, ∀ asked, x.1 ≠ .directory asked := by
  cases queried <;> simp

theorem get_query_judged (outside : Outside σ) (gateway : Running) (world : σ)
    (get : request.method = "GET") (path : request.path = "/query") :
    let fixed := gateway.fixed
    let policy := gateway.state.policy
    let now := outside.now world
    let run := gateway.run outside (serve fixed request) world
    ∃ response, run.result = some response ∧ Queried fixed request run.exchanges response ∧
      run.state.1 = gateway.state ∧
      ((∃ q db, Authorized fixed policy now request q db ∧
          forwarded run.exchanges = [Database.request fixed.database q db] ∧
          Relays response (outside.forward (Database.request fixed.database q db) world).1) ∨
        ∃ status, Refused fixed policy now request status ∧
          forwarded run.exchanges = [] ∧ run.state.2 = world ∧ response.status = status) := by
  intro fixed policy now run
  have served := Program.run_follows (serve fixed request) (answer outside) (gateway.state, world)
  have gives := Program.run_gives (serve fixed request) (answer outside) (gateway.state, world)
  obtain ⟨response, responded, queried⟩ := queried_of_serve get path served
  exact ⟨response, responded, queried, authorized_or_refused queried gives⟩

theorem refused_run {outside : Outside σ} {gateway : Running} {world : σ} {status : Nat}
    (get : request.method = "GET") (path : request.path = "/query")
    (refused : Refused gateway.fixed gateway.state.policy (outside.now world) request status) :
    let run := gateway.run outside (serve gateway.fixed request) world
    forwarded run.exchanges = [] ∧ run.state.2 = world ∧
      ∃ response, run.result = some response ∧ response.status = status := by
  intro run
  obtain ⟨response, responded, _, _, judged⟩ := get_query_judged outside gateway world get path
  obtain ⟨q, db, authorized, _⟩ | ⟨other, refused', quiet, left, said⟩ := judged
  · exact absurd authorized (refused.not_authorized q db)
  · obtain rfl := refused.unique refused'
    exact ⟨quiet, left, response, responded, said⟩

/--
No query reaches the database unless it is authorized. An authorized one is sent exactly once, as it
was evaluated, and its reply is relayed; any other one is refused with the status of the first reason
that applies. No other request reaches the database, and queries leave the directory and the state of
the gateway alone.
-/
theorem query_forwarded_iff_authorized {σ : Type} (outside : Outside σ) (gateway : Running)
    (request : Http.Request) (world : σ) :
    let fixed := gateway.fixed
    let policy := gateway.state.policy
    let now := outside.now world
    let run := gateway.run outside (serve fixed request) world
    (request.method = "GET" → request.path = "/query" →
      (forwarded run.exchanges ≠ [] ↔ ∃ q db, Authorized fixed policy now request q db) ∧
      (∀ q db, Authorized fixed policy now request q db →
        forwarded run.exchanges = [Database.request fixed.database q db] ∧
        ∃ response, run.result = some response ∧
          Relays response (outside.forward (Database.request fixed.database q db) world).1) ∧
      ((∀ q db, ¬ Authorized fixed policy now request q db) →
        ∃ status, Refused fixed policy now request status) ∧
      (∀ status, Refused fixed policy now request status →
        forwarded run.exchanges = [] ∧ run.state.2 = world ∧
        ∃ response, run.result = some response ∧ response.status = status) ∧
      (∀ x ∈ run.exchanges, ∀ asked, x.1 ≠ .directory asked) ∧
      run.state.1 = gateway.state) ∧
    (forwarded run.exchanges ≠ [] →
      request.path = "/query" ∧ ∃ q db, Authorized fixed policy now request q db) := by
  intro fixed policy now run
  refine ⟨fun get path => ?_, fun sent => ?_⟩
  · obtain ⟨response, responded, queried, unchanged, judged⟩ :=
      get_query_judged outside gateway world get path
    refine ⟨?_, ?_, ?_, fun _ => refused_run get path, queried.no_directory, unchanged⟩
    · constructor
      · intro sent
        obtain ⟨q, db, authorized, _⟩ | ⟨_, _, quiet, _⟩ := judged
        · exact ⟨q, db, authorized⟩
        · exact absurd quiet sent
      · rintro ⟨q, db, authorized⟩ quiet
        obtain ⟨_, _, _, once, _⟩ | ⟨_, refused, _⟩ := judged
        · exact List.cons_ne_nil _ _ (once.symm.trans quiet)
        · exact refused.not_authorized q db authorized
    · intro q db authorized
      obtain ⟨_, _, same, once, relayed⟩ | ⟨_, refused, _⟩ := judged
      · obtain ⟨rfl, rfl⟩ := authorized.given.unique same.given
        exact ⟨once, response, responded, relayed⟩
      · exact absurd authorized (refused.not_authorized q db)
    · intro none
      obtain ⟨q, db, authorized, _⟩ | ⟨status, refused, _⟩ := judged
      · exact absurd authorized (none q db)
      · exact ⟨status, refused⟩
  · have served := Program.run_follows (serve fixed request) (answer outside) (gateway.state, world)
    have gives := Program.run_gives (serve fixed request) (answer outside) (gateway.state, world)
    obtain quiet | ⟨path, response, queried⟩ := forwarded_eq_nil_or_queried served
    · exact absurd quiet sent
    · obtain ⟨_, ⟨q, db, authorized, _⟩ | ⟨_, _, quiet, _⟩⟩ := authorized_or_refused queried gives
      · exact ⟨path, q, db, authorized⟩
      · exact absurd quiet sent

/-- A field that is there twice counts as missing, and that before the token is looked at. -/
theorem repeated_field_is_refused_before_token :
    let request : Http.Request :=
      { target := "/query?q=a&q=b&db=d", headers := [("AccessToken", utf8 "x")] }
    let signer : Token.Signer :=
      { algorithm := .hmac .sha256, keys := ⟨utf8 "secret", utf8 "secret"⟩, ttlMinutes := 10 }
    let gateway : Running :=
      { fixed := { signer, database := {} }, state := { current := { source := {} }, policy := {} } }
    let outside : Outside Unit :=
      { directory := Directory.Client.answerer Directory.Client.unreachable
        now := fun _ => 1700000000
        random := fun _ world => ([], world)
        forward := fun _ world => (.error "connection refused", world) }
    let run := gateway.run outside (serve gateway.fixed request) ()
    fieldValues request.query "q" = ["a", "b"] ∧ fieldValues request.query "db" = ["d"] ∧
    (∃ token fault, accessToken? request = some token ∧
      signer.verify (outside.now ()) token = .error fault) ∧
    ∃ response, run.result = some response ∧ response.status = 400 := by
  intro request signer gateway outside run
  have twice : fieldValues request.query "q" = ["a", "b"] := by decide
  have once : fieldValues request.query "db" = ["d"] := by decide
  have path : request.path = "/query" := by decide
  have read : accessToken? request = some "x" := by decide
  have invalid : signer.verify 1700000000 "x" = .error (.invalidCredential "InvalidToken") := by rfl
  have missing : ∀ q db, ¬ Given request q db := by
    rintro q db ⟨query, _⟩
    rw [twice] at query
    cases query
  exact ⟨twice, once, ⟨"x", _, read, invalid⟩, (refused_run rfl path (.incomplete missing)).2.2⟩

end QueryGate.Gateway
