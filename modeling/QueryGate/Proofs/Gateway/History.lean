import QueryGate.Proofs.Config.Validation
import QueryGate.Proofs.Gateway.LoginTrace

/-!
# Histories of a gateway

Requests, reloads, switches of the source's flag and changes of the world around the gateway, one after the other.
Only a reload that succeeds puts another source and another policy to use.
-/

namespace QueryGate.Gateway

open Program (Exchange Follows Gives follows_done)

/-! ### Requests -/

theorem exchanges_of_serve {fixed : Fixed} {request : Http.Request} {t : List (Exchange Effect Effect.Answer)}
    {response : Option Http.Response} (served : Follows (serve fixed request) t response) :
    t = [] ∨
      (∃ name password outcome, LoginForm request name password ∧ LoggedIn fixed name password t outcome) ∨
      ∃ answer, Queried fixed request t answer := by
  obtain ⟨rfl, _⟩ | ⟨route, answer, found, ran, _⟩ := follows_serve served
  · exact .inl rfl
  · cases route with
    | health => exact .inl (follows_done.mp ran).1
    | query =>
      obtain ⟨answer, _, queried⟩ := queried_of_serveRoute ran
      exact .inr (.inr ⟨answer, queried⟩)
    | auth =>
      by_cases post : request.method ∈ Route.auth.methods
      · cases read : loginForm request with
        | error response =>
          simp only [serveRoute, read] at ran
          exact .inl (follows_done.mp ran).1
        | ok given =>
          obtain ⟨name, password⟩ := given
          simp only [serveRoute, read] at ran
          obtain ⟨outcome, logged, _⟩ := follows_respond.mp ran
          obtain ⟨form, size, name_field, password_field⟩ := loginForm_eq_ok.mp read
          have method : request.method = "POST" := List.mem_singleton.mp post
          exact .inr (.inl ⟨name, password, outcome,
            ⟨method, ofPath?_eq_auth.mp found, form, size, name_field, password_field⟩, follows_logIn.mp logged⟩)
      · -- the method is judged before the form is read
        unfold serve at served
        simp only [found, if_neg post] at served
        exact .inl (follows_done.mp served).1

def Effect.installs : Effect → Bool
  | .installAuthenticator _ | .installPolicy _ => true
  | _ => false

theorem carried_installs (handle : Handle) (exchange : Exchange Login.Effect Login.Effect.Answer) :
    (carried handle exchange).1.installs = false := by
  obtain ⟨effect, given⟩ := exchange
  cases effect <;> rfl

theorem serve_installs_nothing {fixed : Fixed} {request : Http.Request}
    {t : List (Exchange Effect Effect.Answer)} {response : Option Http.Response}
    (served : Follows (serve fixed request) t response) : ∀ x ∈ t, x.1.installs = false := by
  obtain rfl | ⟨_, _, _, _, login⟩ | ⟨_, queried⟩ := exchanges_of_serve served
  · exact List.forall_mem_nil _
  · have talked (handle : Handle) (talk : List (Exchange Login.Effect Login.Effect.Answer)) :
        ∀ x ∈ talk.map (carried handle), x.1.installs = false := by
      intro x member
      obtain ⟨exchange, _, rfl⟩ := List.mem_map.mp member
      exact carried_installs handle exchange
    cases login with
    | failed _ => exact List.forall_mem_cons.mpr ⟨rfl, talked _ _⟩
    | identified _ =>
      refine List.forall_mem_cons.mpr ⟨rfl, List.forall_mem_append.mpr ⟨talked _ _, ?_⟩⟩
      simp [Effect.installs]
  · cases queried <;> simp [Effect.installs]

variable {σ : Type} {outside : Outside σ}

theorem State.setAvailable_keeps (state : State) (handle : Handle) (available : Bool) :
    (state.setAvailable handle available).current.source = state.current.source ∧
      (state.setAvailable handle available).policy = state.policy := by
  unfold State.setAvailable
  split <;> exact ⟨rfl, rfl⟩

/-- As long as nothing is installed, the source and the policy stay. -/
theorem gives_keeps {t : List (Exchange Effect Effect.Answer)} {state : State} {world : σ} {final : State × σ}
    (gives : Gives (answer outside) (state, world) t final) (nothing : ∀ x ∈ t, x.1.installs = false) :
    final.1.current.source = state.current.source ∧ final.1.policy = state.policy := by
  induction t generalizing state world with
  | nil =>
    cases gives
    exact ⟨rfl, rfl⟩
  | cons x rest ih =>
    obtain ⟨effect, given⟩ := x
    obtain ⟨_, later⟩ := gives
    obtain ⟨first, others⟩ := List.forall_mem_cons.mp nothing
    obtain ⟨source, policy⟩ := ih later others
    -- a flag that is cleared leaves the source and the policy as they are
    have kept : (answer outside effect (state, world)).2.1.current.source = state.current.source ∧
        (answer outside effect (state, world)).2.1.policy = state.policy := by
      cases effect with
      | disable handle => exact state.setAvailable_keeps handle false
      | installAuthenticator source => cases first
      | installPolicy policy => cases first
      | _ => exact ⟨rfl, rfl⟩
    exact ⟨source.trans kept.1, policy.trans kept.2⟩

theorem serve_keeps (outside : Outside σ) (gateway : Running) (request : Http.Request) (world : σ) :
    let run := gateway.run outside (serve gateway.fixed request) world
    run.state.1.current.source = gateway.state.current.source ∧ run.state.1.policy = gateway.state.policy := by
  intro run
  have served : Follows (serve gateway.fixed request) run.exchanges run.result := Program.run_follows ..
  have gives : Gives (answer outside) (gateway.state, world) run.exchanges run.state := Program.run_gives ..
  exact gives_keeps gives (serve_installs_nothing served)

/-! ### Reloads -/

theorem reload_rejected (outside : Outside σ) (gateway : Running) (world : σ) {config : Config}
    {problem : Config.Problem} (rejected : config.validate = .error problem) :
    gateway.run outside (reload config) world = ⟨.error problem.fault, [], (gateway.state, world)⟩ := by
  unfold Running.run reload
  rw [rejected]
  rfl

theorem reload_accepted (outside : Outside σ) (gateway : Running) (world : σ) {config : Config}
    (accepted : config.validate = .ok ()) :
    gateway.run outside (reload config) world =
      ⟨.ok (), [⟨.installAuthenticator config.directory, ()⟩,
        ⟨.installPolicy (.ofSettings config.policy), ()⟩],
        ({ gateway.state.install config.directory with policy := .ofSettings config.policy }, world)⟩ := by
  unfold Running.run reload
  rw [accepted]
  rfl

/-! ### Runs -/

inductive Act (σ : Type) where
  | serve (request : Http.Request)
  | reload (config : Config)
  /-- Switch the flag of the current authenticator. -/
  | setAvailable (available : Bool)
  /-- The world around the gateway changes by itself. -/
  | turn (change : σ → σ)

/-- Where a history has got to, and the last configuration whose reload has succeeded. -/
structure Point (σ : Type) where
  gateway : Running
  world : σ
  config : Config

namespace Point

def after {α : Type} (point : Point σ) (run : Program.Run Effect Effect.Answer (State × σ) α) : Point σ :=
  { point with
    gateway := { point.gateway with state := run.state.1 }
    world := run.state.2 }

def step (outside : Outside σ) (point : Point σ) : Act σ → Point σ
  | .serve request => point.after (point.gateway.run outside (Gateway.serve point.gateway.fixed request) point.world)
  | .reload config =>
    let run := point.gateway.run outside (Gateway.reload config) point.world
    { point.after run with config := if run.result.isOk then config else point.config }
  | .setAvailable available =>
    let state := point.gateway.state.setAvailable point.gateway.state.handle available
    { point with gateway := { point.gateway with state } }
  | .turn change => { point with world := change point.world }

def run (outside : Outside σ) (point : Point σ) (acts : List (Act σ)) : Point σ :=
  acts.foldl (step outside) point

/-- The parts of the gateway that are never replaced are these, the others those of the last configuration. -/
structure Keeps (point : Point σ) (fixed : Fixed) : Prop where
  fixed : point.gateway.fixed = fixed
  source : point.gateway.state.current.source = point.config.directory
  policy : point.gateway.state.policy = .ofSettings point.config.policy

variable {fixed : Fixed} {point : Point σ}

theorem step_serve_state (outside : Outside σ) (point : Point σ) (request : Http.Request) :
    (point.step outside (.serve request)).gateway.state =
      (point.gateway.run outside (Gateway.serve point.gateway.fixed request) point.world).state.1 := rfl

theorem step_reload_rejected (outside : Outside σ) (point : Point σ) {config : Config} {problem : Config.Problem}
    (rejected : config.validate = .error problem) : point.step outside (.reload config) = point := by
  simp only [step, reload_rejected outside point.gateway point.world rejected]
  rfl

theorem step_reload_accepted (outside : Outside σ) (point : Point σ) {config : Config}
    (accepted : config.validate = .ok ()) :
    point.step outside (.reload config) =
      { gateway :=
          { point.gateway with
            state := { point.gateway.state.install config.directory with policy := .ofSettings config.policy } }
        world := point.world
        config } := by
  simp only [step, reload_accepted outside point.gateway point.world accepted]
  rfl

theorem after_keeps {α : Type} (keeps : point.Keeps fixed)
    {run : Program.Run Effect Effect.Answer (State × σ) α}
    (source : run.state.1.current.source = point.gateway.state.current.source)
    (policy : run.state.1.policy = point.gateway.state.policy) : (point.after run).Keeps fixed :=
  ⟨keeps.fixed, source.trans keeps.source, policy.trans keeps.policy⟩

theorem step_keeps (keeps : point.Keeps fixed) (act : Act σ) : (point.step outside act).Keeps fixed := by
  cases act with
  | serve request =>
    obtain ⟨source, policy⟩ := serve_keeps outside point.gateway request point.world
    exact after_keeps keeps source policy
  | reload config =>
    cases valid : config.validate with
    | error problem =>
      rw [step_reload_rejected outside point valid]
      exact keeps
    | ok =>
      rw [step_reload_accepted outside point valid]
      exact ⟨keeps.fixed, rfl, rfl⟩
  | setAvailable available =>
    obtain ⟨source, policy⟩ := point.gateway.state.setAvailable_keeps point.gateway.state.handle available
    exact ⟨keeps.fixed, source.trans keeps.source, policy.trans keeps.policy⟩
  | turn change => exact ⟨keeps.fixed, keeps.source, keeps.policy⟩

theorem run_keeps (keeps : point.Keeps fixed) (acts : List (Act σ)) : (point.run outside acts).Keeps fixed := by
  induction acts generalizing point with
  | nil => exact keeps
  | cons act acts ih => exact ih (step_keeps keeps act)

end Point
end QueryGate.Gateway
