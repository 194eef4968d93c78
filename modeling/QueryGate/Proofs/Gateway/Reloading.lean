import QueryGate.Directory.Client
import QueryGate.Proofs.Gateway.History
import QueryGate.Proofs.Token.Transport

/-! A reload puts both the source and the policy of its configuration to use, or changes nothing. At
every moment a gateway works with those of the last configuration that was accepted, and with the
signer and the database that it was started with. -/

namespace QueryGate.Gateway

open Program (Exchange)

theorem orProblem_eq_ok {α : Type} {result : Except Config.Problem α} {a : α} :
    orProblem result = .ok a ↔ result = .ok a := by
  cases result <;> simp [orProblem]

theorem start_eq_ok {files : Files.Tree} {config : Config} {gateway : Running} :
    start files config = .ok gateway ↔
      config.validate = .ok () ∧ Token.Signer.ofSettings files config.token = .ok gateway.fixed.signer ∧
        Database.client config.database = .ok gateway.fixed.database ∧
        gateway.state = { current := { source := config.directory }, policy := .ofSettings config.policy } := by
  unfold start
  simp only [Result.bind_ok_iff, orProblem_eq_ok]
  constructor
  · rintro ⟨_, valid, signer, signs, database, sends, ⟨⟩⟩
    exact ⟨valid, signs, sends, rfl⟩
  · obtain ⟨⟨signer, database⟩, state⟩ := gateway
    rintro ⟨valid, signs, sends, rfl⟩
    exact ⟨(), valid, signer, signs, database, sends, rfl⟩

/-- With a shared secret a gateway starts from any configuration that is accepted, without a look at the files. -/
theorem start_of_shared (files : Files.Tree) {config : Config} {algorithm : Token.Algorithm}
    (valid : config.validate = .ok ()) (named : Token.Algorithm.ofName? config.token.method = some algorithm)
    (shared : algorithm.isShared = true)
    (fits : config.token.ttlMinutes * Token.Signer.millisecondsPerMinute ≤ Token.Signer.maxMilliseconds)
    (agent : Database.isHeaderValue config.database.userAgent = true) :
    start files config = .ok
      { fixed :=
          { signer :=
              { algorithm
                keys := ⟨utf8 (config.token.secret.getD ""), utf8 (config.token.secret.getD "")⟩
                ttlMinutes := config.token.ttlMinutes }
            database := config.database }
        state := { current := { source := config.directory }, policy := .ofSettings config.policy } } := by
  obtain ⟨_, _, token⟩ := Result.bind_ok_iff.mp valid
  exact start_eq_ok.mpr ⟨valid, Token.Signer.ofSettings_of_shared files token named shared fits, if_pos agent, rfl⟩

def Point.started {σ : Type} (gateway : Running) (config : Config) (world : σ) : Point σ :=
  { gateway, config, world }

theorem Point.started_keeps {σ : Type} {files : Files.Tree} {config : Config} {gateway : Running} {world : σ}
    (started : start files config = .ok gateway) :
    (Point.started gateway config world).Keeps gateway.fixed := by
  obtain ⟨_, _, _, state⟩ := start_eq_ok.mp started
  refine ⟨rfl, ?_, ?_⟩
  all_goals
    show _ = _
    rw [Point.started, state]

/-- A reload fails with the problem of its configuration and then leaves everything as it was, or it leaves the new
source, which is available, and the new policy. -/
theorem reload_run {σ : Type} (outside : Outside σ) (gateway : Running) (world : σ) (config : Config) :
    let run := gateway.run outside (reload config) world
    (∃ problem, config.validate = .error problem ∧ run.result = .error problem.fault ∧
      run.exchanges = [] ∧ run.state = (gateway.state, world)) ∨
    (config.validate = .ok () ∧ run.result = .ok () ∧
      run.state.1.current = { source := config.directory, available := true } ∧
      run.state.1.policy = .ofSettings config.policy ∧ run.state.2 = world) := by
  intro run
  cases valid : config.validate with
  | error problem =>
    have ran : run = _ := reload_rejected outside gateway world valid
    rw [ran]
    exact .inl ⟨problem, rfl, rfl, rfl, rfl⟩
  | ok =>
    have ran : run = _ := reload_accepted outside gateway world valid
    rw [ran]
    exact .inr ⟨rfl, rfl, rfl, rfl, rfl⟩

/-- Reloads are all or nothing throughout every history of a gateway. The source and the policy in use are those of
the last configuration that was accepted, and logins ask the same directory as ever; the signer and the database
are those of the start. A reload fails exactly when its configuration is not valid, and then leaves the source, the
policy and the flag of the source alone; a source that it installs is available. -/
theorem reloads_are_all_or_nothing {σ : Type} {files : Files.Tree} {config : Config} {gateway : Running}
    (started : start files config = .ok gateway) (outside : Outside σ) (world : σ) (acts : List (Act σ)) :
    let point := (Point.started gateway config world).run outside acts
    let state := point.gateway.state
    state.current.source = point.config.directory ∧
    (∀ identity q, state.policy.evaluate identity q =
      (Policy.Access.ofSettings point.config.policy).evaluate identity q) ∧
    (∀ request name password, LoginForm request name password →
      asked (point.gateway.run outside (serve point.gateway.fixed request) point.world).exchanges =
        (Login.Authenticator.login outside.directory name password
          { source := point.config.directory, available := state.current.available } point.world).exchanges) ∧
    Token.Signer.ofSettings files config.token = .ok point.gateway.fixed.signer ∧
    Database.client config.database = .ok point.gateway.fixed.database ∧
    ∀ next : Config,
      let run := point.gateway.run outside (reload next) point.world
      ((∃ fault, run.result = .error fault) ↔ ∃ problem, next.validate = .error problem) ∧
      (∀ fault, run.result = .error fault → run.state = (state, point.world)) ∧
      (run.result = .ok () → run.state.1.current = { source := next.directory, available := true } ∧
        run.state.1.policy = .ofSettings next.policy ∧ run.state.2 = point.world) := by
  intro point state
  obtain ⟨_, signs, sends, _⟩ := start_eq_ok.mp started
  have keeps : point.Keeps gateway.fixed := Point.run_keeps (Point.started_keeps started) acts
  refine ⟨keeps.source, fun identity q => ?_, fun request name password form => ?_, ?_, ?_, fun next => ?_⟩
  · rw [← keeps.policy]
  · rw [← keeps.source]
    exact (serve_login form outside point.gateway point.world).2.1
  · rw [keeps.fixed]
    exact signs
  · rw [keeps.fixed]
    exact sends
  · intro run
    obtain ⟨problem, invalid, failed, _, left⟩ | ⟨valid, succeeded, left⟩ :=
      reload_run outside point.gateway point.world next
    · refine ⟨iff_of_true ⟨_, failed⟩ ⟨problem, invalid⟩, fun _ _ => left, fun succeeded => ?_⟩
      cases failed.symm.trans succeeded
    · refine ⟨iff_of_false ?_ ?_, fun fault failed => ?_, fun _ => left⟩
      · rintro ⟨fault, failed⟩
        cases succeeded.symm.trans failed
      · rintro ⟨problem, invalid⟩
        cases valid.symm.trans invalid
      · cases succeeded.symm.trans failed

/-- A login finds the directory out of reach. A reload without a host is turned away, so that the source stays
disabled; the next one mends it. -/
theorem reload_mends_disabled_source :
    let config : Config :=
      { directory := { userBase := "dc=org" }, token := { method := "HS256", secret := some "secret" } }
    let hostless : Config := { config with directory := { userBase := "dc=org", host := "" } }
    let mended : Config := { config with directory := { userBase := "dc=org", host := "ldap" } }
    let outside : Outside Unit :=
      { directory := Directory.Client.answerer Directory.Client.unreachable
        now := fun _ => 1700000000
        random := fun _ world => ([], world)
        forward := fun _ world => (.error "connection refused", world) }
    let login : Http.Request :=
      { method := "POST", target := "/auth", headers := [("Content-Type", utf8 formType)]
        body := utf8 "uid=tesla&p=volt" }
    ∃ gateway, start [] config = .ok gateway ∧
      let point := (Point.started gateway config ()).run outside [.serve login, .reload hostless]
      point.gateway.state.current = { source := config.directory, available := false } ∧
        (point.gateway.run outside (reload mended) point.world).state.1.current =
          { source := mended.directory, available := true } := by
  intro config hostless mended outside login
  have valid : config.validate = .ok () := by
    simp only [config]
    rfl
  have named : Token.Algorithm.ofName? config.token.method = some (.hmac .sha256) := by decide
  obtain ⟨gateway, started, fresh⟩ : ∃ gateway, start [] config = .ok gateway ∧
      gateway.state.current = { source := config.directory } :=
    ⟨_, start_of_shared [] valid named rfl (by decide) (by decide), rfl⟩
  refine ⟨gateway, started, ?_⟩
  intro point
  obtain ⟨_, _, _, _, _, reloads⟩ := reloads_are_all_or_nothing started outside () [.serve login, .reload hostless]
  have form : LoginForm login "tesla" "volt" :=
    { method := rfl, path := by decide, form := by decide, size := by decide
      name_field := .inl (by decide), password_field := .inl (by decide) }
  obtain ⟨left, _⟩ := serve_login form outside gateway ()
  have rejected : hostless.validate = .error .hostMissing := by
    simp only [hostless, config]
    rfl
  have stays : point = (Point.started gateway config ()).step outside (.serve login) :=
    Point.step_reload_rejected outside _ rejected
  have disabled : point.gateway.state.current = { source := config.directory, available := false } := by
    rw [stays, Point.step_serve_state, Point.started, left, fresh]
    simp only [config]
    rfl
  have accepted : mended.validate = .ok () := by
    simp only [mended, config]
    rfl
  have reloaded := reload_accepted outside point.gateway point.world accepted
  exact ⟨disabled, ((reloads mended).2.2 (congrArg Program.Run.result reloaded)).1⟩

end QueryGate.Gateway
