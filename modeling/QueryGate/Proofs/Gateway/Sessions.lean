import QueryGate.Directory.Script
import QueryGate.Proofs.Gateway.QueryGating
import QueryGate.Proofs.Gateway.Reloading
import QueryGate.Proofs.Token.Transport

/-!
# Sessions

What a token is worth later on. It stands for the identity of the login that it was issued for, and it lasts as long
as it was issued for, whatever becomes of the directory and of the policy; what it gives access to is up to the
policy at the time of the query.
-/

namespace QueryGate.Gateway

open Token (Algorithm Signer)

variable {σ : Type} {outside : Outside σ}

/-- A login with this identity is answered with a token, for which the clock was read at this time. -/
structure LogsIn (outside : Outside σ) (point : Point σ) (request : Http.Request) (identity : Identity)
    (issuedAt : Int) (token : String) : Prop where
  identified : ∃ name password, LoginForm request name password ∧
    (Login.Authenticator.login outside.directory name password point.gateway.state.current point.world).result =
      .ok identity
  clock : ⟨.now, issuedAt⟩ ∈ (point.gateway.run outside (serve point.gateway.fixed request) point.world).exchanges
  answered : (point.gateway.run outside (serve point.gateway.fixed request) point.world).result =
    some (.text 200 token)

theorem utf8_injective {first second : String} (same : utf8 first = utf8 second) : first = second := by
  have read := congrArg ofUtf8? same
  rw [ofUtf8?_utf8, ofUtf8?_utf8] at read
  exact Option.some.inj read

theorem issued_of_answered {issued : Except Failure String} {token : String}
    (answered : responseTo (issued.map (.text 200)) = some (.text 200 token)) : issued = .ok token := by
  rcases issued with (fault | _) | other
  · have kind := congrArg Http.Response.contentType (Option.some.inj answered)
    have other : some "application/json" = some "text/plain; charset=utf-8" := kind
    exact absurd other (by decide)
  · cases answered
  · have bodies := congrArg Http.Response.body (Option.some.inj answered)
    rw [utf8_injective bodies]

theorem LogsIn.issued {point : Point σ} {request : Http.Request} {identity : Identity} {issuedAt : Int}
    {token : String} (logsIn : LogsIn outside point request identity issuedAt token) :
    ∃ world, point.gateway.fixed.signer.issue
      (outside.random point.gateway.fixed.signer.algorithm.saltSize world).1 issuedAt identity = .ok token := by
  obtain ⟨⟨name, password, form, identified⟩, clock, answered⟩ := logsIn
  obtain ⟨_, _, ⟨fault, failed, _⟩ | ⟨other, same, read, responded⟩⟩ :=
    serve_login form outside point.gateway point.world
  · cases failed.symm.trans identified
  · obtain rfl := Except.ok.inj (same.symm.trans identified)
    have issued := issued_of_answered (responded.symm.trans answered)
    rw [← (read issuedAt).mp clock] at issued
    exact ⟨_, issued⟩

theorem logsIn_of_issued {point : Point σ} {request : Http.Request} {name password token : String}
    {identity : Identity} (form : LoginForm request name password) :
    let tried :=
      Login.Authenticator.login outside.directory name password point.gateway.state.current point.world
    tried.result = .ok identity →
      point.gateway.fixed.signer.issue
        (outside.random point.gateway.fixed.signer.algorithm.saltSize tried.directory).1
        (outside.now tried.directory) identity = .ok token →
      LogsIn outside point request identity (outside.now tried.directory) token := by
  intro tried identified issued
  obtain ⟨_, _, ⟨_, failed, _⟩ | ⟨_, same, read, responded⟩⟩ := serve_login form outside point.gateway point.world
  · cases failed.symm.trans identified
  · obtain rfl := Except.ok.inj (same.symm.trans identified)
    refine ⟨⟨name, password, form, identified⟩, (read _).mpr rfl, responded.trans ?_⟩
    exact congrArg (fun issued => responseTo (Except.map (Http.Response.text 200) issued)) issued

theorem accessToken?_of_header {request : Http.Request} {token : String}
    (carried : request.header? "AccessToken" = some (utf8 token)) (nonempty : token ≠ "")
    (printable : ∀ c ∈ token.toList, IsPrintable c) : accessToken? request = some token := by
  have own : (request.header? "AccessToken" >>= Http.printable?).filter (· ≠ "") = some token := by
    rw [carried, Option.bind_eq_bind, Option.bind_some, Http.printable?_utf8 printable]
    exact Option.filter_some_pos (decide_eq_true nonempty)
  unfold accessToken?
  rw [own]
  rfl

theorem Database.client_eq_ok {settings database : Config.Database} (made : client settings = .ok database) :
    database = settings := by
  unfold client at made
  split at made <;> cases made
  rfl

theorem serve_token (outside : Outside σ) (gateway : Running) (world : σ) {request : Http.Request}
    {q db token : String} (get : request.method = "GET") (path : request.path = "/query")
    (given : Given request q db) (present : accessToken? request = some token) :
    let run := gateway.run outside (serve gateway.fixed request) world
    let verified := gateway.fixed.signer.verify (outside.now world) token
    (∃ fault, verified = .error fault ∧ forwarded run.exchanges = [] ∧
      ∃ response, run.result = some response ∧ response.status = 401) ∨
    (∃ identity reason, verified = .ok identity ∧ gateway.state.policy.evaluate identity q = .allow reason ∧
      forwarded run.exchanges = [Database.request gateway.fixed.database q db]) ∨
    ∃ identity reason, verified = .ok identity ∧ gateway.state.policy.evaluate identity q = .deny reason ∧
      forwarded run.exchanges = [] ∧ ∃ response, run.result = some response ∧ response.status = 403 := by
  intro run verified
  cases checked : verified with
  | error fault =>
    obtain ⟨quiet, _, responded⟩ := refused_run get path (.rejected given present checked)
    exact .inl ⟨fault, rfl, quiet, responded⟩
  | ok identity =>
    cases decision : gateway.state.policy.evaluate identity q with
    | deny reason =>
      obtain ⟨quiet, _, responded⟩ := refused_run get path (.denied given present checked decision)
      exact .inr (.inr ⟨identity, reason, rfl, decision, quiet, responded⟩)
    | allow reason =>
      have authorized : Authorized gateway.fixed gateway.state.policy (outside.now world) request q db :=
        ⟨given, token, identity, reason, present, checked, decision⟩
      obtain ⟨_, _, _, _, ⟨q', db', same, sent, _⟩ | ⟨_, refused, _⟩⟩ :=
        get_query_judged outside gateway world get path
      · obtain ⟨rfl, rfl⟩ := given.unique same.given
        exact .inr (.inl ⟨identity, reason, rfl, decision, sent⟩)
      · exact absurd authorized (refused.not_authorized q db)

/-- How a query goes that comes with a token which stands for an identity up to a time. -/
theorem serve_lasting_token (outside : Outside σ) (gateway : Running) (world : σ) {request : Http.Request}
    {q db token : String} {identity : Identity} {expiry : Int} {expired : Fault} (get : request.method = "GET")
    (path : request.path = "/query") (given : Given request q db) (present : accessToken? request = some token)
    (lasts : gateway.fixed.signer.verify (outside.now world) token =
      if outside.now world ≤ expiry then .ok identity else .error expired) :
    let run := gateway.run outside (serve gateway.fixed request) world
    (forwarded run.exchanges = [Database.request gateway.fixed.database q db] ↔
      outside.now world ≤ expiry ∧ ∃ reason, gateway.state.policy.evaluate identity q = .allow reason) ∧
    (forwarded run.exchanges = [Database.request gateway.fixed.database q db] ∨ forwarded run.exchanges = []) ∧
    (expiry < outside.now world → ∃ response, run.result = some response ∧ response.status = 401) ∧
    (outside.now world ≤ expiry → ∀ reason, gateway.state.policy.evaluate identity q = .deny reason →
      ∃ response, run.result = some response ∧ response.status = 403) := by
  intro run
  have apart : ([Database.request gateway.fixed.database q db] : List Database.Request) ≠ [] := List.cons_ne_nil _ _
  by_cases inTime : outside.now world ≤ expiry
  · rw [if_pos inTime] at lasts
    obtain ⟨_, rejected, _⟩ | ⟨who, reason, valid, allowed, sent⟩ |
      ⟨who, reason, valid, denied, quiet, responded⟩ := serve_token outside gateway world get path given present
    · cases lasts.symm.trans rejected
    · cases lasts.symm.trans valid
      refine ⟨iff_of_true sent ⟨inTime, reason, allowed⟩, .inl sent, fun late => ?_, fun _ other denied => ?_⟩
      · exact absurd inTime (Int.not_le.mpr late)
      · cases allowed.symm.trans denied
    · cases lasts.symm.trans valid
      refine ⟨iff_of_false (fun sent => apart (sent.symm.trans quiet)) ?_, .inr quiet, fun late => ?_,
        fun _ _ _ => responded⟩
      · rintro ⟨_, other, allowed⟩
        cases denied.symm.trans allowed
      · exact absurd inTime (Int.not_le.mpr late)
  · rw [if_neg inTime] at lasts
    obtain ⟨_, _, quiet, responded⟩ | ⟨_, _, valid, _⟩ | ⟨_, _, valid, _⟩ :=
      serve_token outside gateway world get path given present
    · exact ⟨iff_of_false (fun sent => apart (sent.symm.trans quiet)) (fun allowed => inTime allowed.1), .inr quiet,
        fun _ => responded, fun early => absurd early inTime⟩
    · cases lasts.symm.trans valid
    · cases lasts.symm.trans valid

/-- A session carries the identity of its login and the policy of its query. However the gateway is used, reloaded
and disabled before and after a login, and whatever becomes of the directory, the token of that login stands for its
identity and lasts as long as it was issued for; a query with it is forwarded exactly when it comes in time and the
last policy that was accepted allows it. -/
theorem session_keeps_identity_and_expiry {files : Files.Tree} {config : Config} {gateway : Running}
    (started : start files config = .ok gateway)
    (agree : gateway.fixed.signer.algorithm.isShared = false →
      gateway.fixed.signer.algorithm.KeysAgree gateway.fixed.signer.keys)
    (salts : ∀ count world, (outside.random count world).1.length = count) {world : σ}
    (before after : List (Act σ)) {login : Http.Request} {identity : Identity} {issuedAt : Int} {token : String}
    (logsIn : LogsIn outside ((Point.started gateway config world).run outside before) login identity issuedAt token)
    (since1970 : 0 ≤ issuedAt) {query : Http.Request} {q db : String} (get : query.method = "GET")
    (path : query.path = "/query") (given : Given query q db)
    (carried : query.header? "AccessToken" = some (utf8 token)) :
    let point := (Point.started gateway config world).run outside (before ++ .serve login :: after)
    let expiry := issuedAt + 60 * config.token.ttlMinutes
    let now := outside.now point.world
    let policy := Policy.Access.ofSettings point.config.policy
    let run := point.gateway.run outside (serve point.gateway.fixed query) point.world
    (forwarded run.exchanges = [Database.request config.database q db] ↔
      now ≤ expiry ∧ ∃ reason, policy.evaluate identity q = .allow reason) ∧
    (forwarded run.exchanges = [Database.request config.database q db] ∨ forwarded run.exchanges = []) ∧
    (expiry < now → ∃ response, run.result = some response ∧ response.status = 401) ∧
    (now ≤ expiry → ∀ reason, policy.evaluate identity q = .deny reason →
      ∃ response, run.result = some response ∧ response.status = 403) ∧
    ∀ time, point.gateway.fixed.signer.verify time token =
      if time ≤ expiry then .ok identity else .error (.invalidCredential "ExpiredSignature") := by
  intro point expiry now policy run
  obtain ⟨_, signs, sends, _⟩ := start_eq_ok.mp started
  have keeps : point.Keeps gateway.fixed := Point.run_keeps (Point.started_keeps started) _
  obtain ⟨later, issued⟩ := logsIn.issued
  rw [(Point.run_keeps (Point.started_keeps started) before).fixed] at issued
  have checks (time : Int) : point.gateway.fixed.signer.verify time token =
      if time ≤ expiry then .ok identity else .error (.invalidCredential "ExpiredSignature") := by
    rw [keeps.fixed]
    exact Signer.verify_of_settings signs agree (salts _ later) since1970 issued time
  obtain ⟨nonempty, printable⟩ := Signer.printable_of_issue issued
  have present : accessToken? query = some token := accessToken?_of_header carried nonempty printable
  have database : point.gateway.fixed.database = config.database := by
    rw [keeps.fixed]
    exact Database.client_eq_ok sends
  have policy_eq : point.gateway.state.policy = policy := keeps.policy
  have judged := serve_lasting_token outside point.gateway point.world get path given present (checks _)
  rw [policy_eq, database] at judged
  obtain ⟨sent_iff, sent_or_not, expired, denied⟩ := judged
  exact ⟨sent_iff, sent_or_not, expired, denied, checks⟩

/-- A member of a group logs in, and the group is denied a query later on. The token is worth what it was. -/
theorem session_meets_new_policy :
    let config : Config :=
      { directory := { userBase := "dc=org" }, token := { method := "HS256", secret := some "secret" }
        policy := { groups := [{ dn := some "g" }] } }
    let stricter : Config := { config with policy := { groups := [{ dn := some "g", deniedQueries := ["b"] }] } }
    let outside : Outside Directory.Script :=
      { directory := Directory.Script.answer
        now := fun _ => 1000
        random := fun count world => (List.replicate count 0, world)
        forward := fun _ world => (.error "connection refused", world) }
    let entry : Directory.Entry := { dn := "u=a", attributes := [("memberOf", ["g"])] }
    let world : Directory.Script := { searches := [.ok [entry], .ok [entry], .ok [entry]] }
    let login : Http.Request :=
      { method := "POST", target := "/auth", headers := [("Content-Type", utf8 formType)], body := utf8 "uid=a&p=volt" }
    ∃ gateway token, start [] config = .ok gateway ∧
      LogsIn outside (Point.started gateway config world) login { username := "a", groups := ["g"] } 1000 token ∧
      let query : Http.Request := { target := "/query?q=b&db=d", headers := [("AccessToken", utf8 token)] }
      let point :=
        (Point.started gateway config world).run outside [.serve login, .setAvailable false, .reload stricter]
      forwarded (point.gateway.run outside (serve point.gateway.fixed query) point.world).exchanges = [] ∧
        point.gateway.fixed.signer.verify 4600 token = .ok { username := "a", groups := ["g"] } := by
  intro config stricter outside entry world login
  let identity : Identity := { username := "a", groups := ["g"] }
  let gateway : Running :=
    { fixed :=
        { signer := { algorithm := .hmac .sha256, keys := ⟨utf8 "secret", utf8 "secret"⟩, ttlMinutes := 60 }
          database := {} }
      state := { current := { source := config.directory }, policy := .ofSettings config.policy } }
  have valid : config.validate = .ok () := by
    simp only [config]
    rfl
  have named : Algorithm.ofName? config.token.method = some (.hmac .sha256) := by decide
  have started : start [] config = .ok gateway := start_of_shared [] valid named rfl (by decide) (by decide)
  have form : LoginForm login "a" "volt" :=
    { method := rfl, path := by decide, form := by decide, size := by decide
      name_field := .inl (by decide), password_field := .inl (by decide) }
  have identified : (Login.Authenticator.login outside.directory "a" "volt" gateway.state.current world).result =
      .ok identity := by
    simp only [outside, gateway, config, world, entry, identity]
    rfl
  have dated : (1000 : Int) + Signer.secondsPerMinute * gateway.fixed.signer.ttlMinutes ≤ Signer.lastSecond := by
    decide
  have issues : ∃ token, gateway.fixed.signer.issue [] 1000 identity = .ok token :=
    (Signer.issue_ok_iff dated).mpr rfl
  obtain ⟨token, issued⟩ := issues
  have logsIn : LogsIn outside (Point.started gateway config world) login identity 1000 token :=
    logsIn_of_issued form identified issued
  refine ⟨gateway, token, started, logsIn, ?_⟩
  intro query point
  have path : query.path = "/query" := by
    show Http.Request.path { target := "/query?q=b&db=d" } = "/query"
    decide
  have fields : query.query = [("q", "b"), ("db", "d")] := by
    show Http.Request.query { target := "/query?q=b&db=d" } = _
    decide
  have given : Given query "b" "d" :=
    { query := by rw [fields]; decide
      query_nonempty := by decide
      database := by rw [fields]; decide
      database_nonempty := by decide }
  have session := session_keeps_identity_and_expiry started (fun asymmetric => nomatch asymmetric)
    (fun count _ => List.length_replicate) [] [.setAvailable false, .reload stricter] logsIn (by decide) rfl path
    given rfl
  obtain ⟨forwarded_iff, sent_or_not, _, _, checks⟩ := session
  refine ⟨sent_or_not.resolve_left fun sent => ?_, checks 4600⟩
  obtain ⟨_, reason, allowed⟩ := forwarded_iff.mp sent
  have accepted : stricter.validate = .ok () := by
    simp only [stricter, config]
    rfl
  have latest : point.config = stricter := congrArg Point.config (Point.step_reload_accepted outside _ accepted)
  have denied : (Policy.Access.ofSettings stricter.policy).evaluate identity "b" = .deny (.groupDenylist "g") := by
    simp only [stricter, identity]
    rfl
  rw [← latest] at denied
  cases allowed.symm.trans denied

end QueryGate.Gateway
