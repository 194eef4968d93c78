import QueryGate.Proofs.Gateway.LoginTrace
import QueryGate.Proofs.Gateway.QueryGating
import QueryGate.Proofs.Login.Faults

/-! Callers who cannot be authenticated get one and the same response. It tells them neither why
they were turned away nor whether there is a user of the name that they gave. -/

namespace QueryGate

def authenticationFailed : Http.Response where
  status := 401
  contentType := some "application/json"
  body := utf8 "\x7b\"error\":\"AuthenticationFailed\",\"message\":\"authentication failed\"\x7d"

theorem Fault.response_of_isAuthentication {fault : Fault} (authentication : fault.isAuthentication = true) :
    fault.response = authenticationFailed := by
  have code : fault.code = "AuthenticationFailed" := if_pos authentication
  have status : fault.status = 401 := if_pos authentication
  have message : fault.callerMessage = "authentication failed" := if_pos authentication
  unfold Fault.response
  rw [code, status, message]
  decide

namespace Gateway

open Program (Exchange Follows Gives)

/-- A request whose caller is not authenticated. -/
inductive Unauthenticated {σ : Type} (outside : Outside σ) (gateway : Running) (world : σ)
    (request : Http.Request) : Prop where
  | login {name password : String} {fault : Fault}
      (operational : Directory.FailsOperationally outside.directory)
      (form : LoginForm request name password)
      (failed : (Login.Authenticator.login outside.directory name password gateway.state.current world).result =
        .error fault)
  | query {q db token : String} {fault : Fault} (method : request.method = "GET")
      (path : request.path = "/query") (given : Given request q db)
      (present : accessToken? request = some token)
      (invalid : gateway.fixed.signer.verify (outside.now world) token = .error fault)

variable {σ : Type} {outside : Outside σ} {gateway : Running} {world : σ} {request : Http.Request}

theorem verify_error_isAuthentication {signer : Token.Signer} {now : Int} {token : String} {fault : Fault}
    (invalid : signer.verify now token = .error fault) : fault.isAuthentication = true := by
  unfold Token.Signer.verify at invalid
  split at invalid
  · cases invalid
  · cases invalid
    rfl

theorem serve_invalid_token {q db token : String} {fault : Fault} (get : request.method = "GET")
    (path : request.path = "/query") (given : Given request q db) (present : accessToken? request = some token)
    (invalid : gateway.fixed.signer.verify (outside.now world) token = .error fault) :
    (gateway.run outside (serve gateway.fixed request) world).result = some fault.response := by
  have served := Program.run_follows (serve gateway.fixed request) (answer outside) (gateway.state, world)
  have gives := Program.run_gives (serve gateway.fixed request) (answer outside) (gateway.state, world)
  obtain ⟨response, responded, queried⟩ := queried_of_serve get path served
  refine responded.trans (congrArg some ?_)
  generalize ((serve gateway.fixed request).run (answer outside) (gateway.state, world)).exchanges = t
    at queried gives
  have unvouched {identity : Identity} : ¬ Vouched gateway.fixed (outside.now world) request identity := by
    rintro ⟨other, found, valid⟩
    obtain rfl := Option.some.inj (present.symm.trans found)
    cases valid.symm.trans invalid
  cases queried with
  | incomplete missing _ => exact absurd given (missing q db)
  | noToken _ absent => cases absent.symm.trans present
  | rejected _ found rejected =>
    obtain rfl := Option.some.inj (present.symm.trans found)
    obtain ⟨rfl, _⟩ := gives
    cases rejected.symm.trans invalid
    rfl
  | denied _ vouched _ | answered _ vouched _ | failed _ vouched _ =>
    obtain ⟨rfl, _⟩ := gives
    exact absurd vouched unvouched

theorem Unauthenticated.response (unauthenticated : Unauthenticated outside gateway world request) :
    (gateway.run outside (serve gateway.fixed request) world).result = some authenticationFailed := by
  cases unauthenticated with
  | login operational form failed =>
    obtain ⟨_, _, ⟨fault, same, responded⟩ | ⟨_, identified, _⟩⟩ := serve_login form outside gateway world
    · have authentication := Login.Authenticator.authenticate_fault operational same
      rw [responded, Fault.response_of_isAuthentication authentication]
    · cases identified.symm.trans failed
  | query get path given present invalid =>
    rw [serve_invalid_token get path given present invalid,
      Fault.response_of_isAuthentication (verify_error_isAuthentication invalid)]

/-- Two callers who are not authenticated cannot tell why: whatever they ask, in whatever states, over whatever
directories that have no other faults than those of the directory client, they get the same response. -/
theorem authentication_failures_look_alike {σ τ : Type} {outside : Outside σ} {outside' : Outside τ}
    {gateway gateway' : Running} {world : σ} {world' : τ} {request request' : Http.Request}
    (first : Unauthenticated outside gateway world request)
    (second : Unauthenticated outside' gateway' world' request') :
    (gateway.run outside (serve gateway.fixed request) world).result =
        (gateway'.run outside' (serve gateway'.fixed request') world').result ∧
      (gateway.run outside (serve gateway.fixed request) world).result = some authenticationFailed ∧
      ∀ {ρ : Type} (network : Directory.Client.Network ρ),
        Directory.FailsOperationally (Directory.Client.answerer network) :=
  ⟨first.response.trans second.response.symm, first.response, Directory.Client.answerer_failsOperationally⟩

/-- A login while the directory is out of reach, and a query with a token that is none. -/
theorem unreachable_directory_looks_like_invalid_token :
    let outside : Outside Unit :=
      { directory := Directory.Client.answerer Directory.Client.unreachable
        now := fun _ => 1700000000
        random := fun _ world => ([], world)
        forward := fun _ world => (.error "connection refused", world) }
    let signer : Token.Signer :=
      { algorithm := .hmac .sha256, keys := ⟨utf8 "secret", utf8 "secret"⟩, ttlMinutes := 10 }
    let gateway : Running :=
      { fixed := { signer, database := {} }, state := { current := { source := {} }, policy := {} } }
    let login : Http.Request :=
      { method := "POST", target := "/auth", headers := [("Content-Type", utf8 formType)]
        body := utf8 "uid=tesla&p=volt" }
    let query : Http.Request := { target := "/query?q=a&db=d", headers := [("AccessToken", utf8 "x")] }
    (gateway.run outside (serve gateway.fixed login) ()).result =
        (gateway.run outside (serve gateway.fixed query) ()).result ∧
      (gateway.run outside (serve gateway.fixed login) ()).result = some authenticationFailed := by
  intro outside signer gateway login query
  have form : LoginForm login "tesla" "volt" :=
    { method := rfl, path := by decide, form := by decide, size := by decide
      name_field := .inl (by decide), password_field := .inl (by decide) }
  have failed : (Login.Authenticator.login outside.directory "tesla" "volt" gateway.state.current ()).result =
      .error (.directoryUnavailable
        ("connect to " ++ gateway.state.current.source.url ++ ": " ++ "connection refused")) := by
    rfl
  have given : Given query "a" "d" :=
    { query := by decide, query_nonempty := by decide, database := by decide, database_nonempty := by decide }
  have invalid : signer.verify 1700000000 "x" = .error (.invalidCredential "InvalidToken") := by rfl
  have unreachable : Unauthenticated outside gateway () login :=
    .login (Directory.Client.answerer_failsOperationally _) form failed
  have untrusted : Unauthenticated outside gateway () query :=
    .query rfl (by decide) given (by decide) invalid
  obtain ⟨alike, same, _⟩ := authentication_failures_look_alike unreachable untrusted
  exact ⟨alike, same⟩

end Gateway
end QueryGate
