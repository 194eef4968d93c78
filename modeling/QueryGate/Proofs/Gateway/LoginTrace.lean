import QueryGate.Gateway.State
import QueryGate.Proofs.Gateway.QueryTrace
import QueryGate.Proofs.Login.Outcome

/-!
# Traces of logins

What a login asks of the gateway. It loads one authenticator, and all that it asks up to the identity it asks for
that one; the clock and the salt of the token come last.
-/

namespace QueryGate.Gateway

open Program (Exchange Follows Gives follows_ask follows_bind follows_done follows_request)

/-! ### Login forms -/

/-- A field with this value. A field that is not there counts as empty. -/
def IsField (pairs : List (String × String)) (field value : String) : Prop :=
  fieldValues pairs field = [value] ∨ fieldValues pairs field = [] ∧ value = ""

/-- A request to log in whose form can be read. -/
structure LoginForm (request : Http.Request) (name password : String) : Prop where
  method : request.method = "POST"
  path : request.path = "/auth"
  form : isForm request = true
  size : request.body.length ≤ maxBodySize
  name_field : IsField (Encoding.Form.decode request.body) "uid" name
  password_field : IsField (Encoding.Form.decode request.body) "p" password

section Forms

variable {request : Http.Request} {name password value field : String} {names : List String}
  {pairs given : List (String × String)}

theorem lookup_getD_eq (read : knownFields names pairs = .ok given) (known : field ∈ names) :
    (given.lookup field).getD "" = value ↔ IsField pairs field value := by
  obtain ⟨rfl, once⟩ := knownFields_eq_ok.mp read
  have single := once field known
  unfold IsField
  rw [lookup_eq_head?, fieldValues_known known]
  cases values : fieldValues pairs field with
  | nil => simp [eq_comm]
  | cons first others =>
    obtain rfl : others = [] := by simpa [values] using single
    simp

theorem IsField.length_le_one (given : IsField pairs field value) : (fieldValues pairs field).length ≤ 1 := by
  obtain one | ⟨none, _⟩ := given
  · rw [one]
    exact Nat.le_refl 1
  · rw [none]
    exact Nat.zero_le 1

theorem loginForm_eq_ok :
    loginForm request = .ok (name, password) ↔
      isForm request = true ∧ request.body.length ≤ maxBodySize ∧
        IsField (Encoding.Form.decode request.body) "uid" name ∧
        IsField (Encoding.Form.decode request.body) "p" password := by
  unfold loginForm
  by_cases form : isForm request = true
  · by_cases size : request.body.length ≤ maxBodySize
    · rw [if_neg (by simp [form]), if_neg (Nat.not_lt.mpr size)]
      simp only [form, size, true_and]
      cases read : knownFields ["uid", "p"] (Encoding.Form.decode request.body) with
      | error again =>
        refine ⟨nofun, ?_⟩
        rintro ⟨login, secret⟩
        have once : ∀ field ∈ ["uid", "p"],
            (fieldValues (Encoding.Form.decode request.body) field).length ≤ 1 := by
          simp [login.length_le_one, secret.length_le_one]
        cases read.symm.trans (knownFields_eq_ok.mpr ⟨rfl, once⟩)
      | ok given =>
        have login : (given.lookup "uid").getD "" = name ↔ IsField _ "uid" name := lookup_getD_eq read (by simp)
        have secret : (given.lookup "p").getD "" = password ↔ IsField _ "p" password := lookup_getD_eq read (by simp)
        simp only [Except.ok.injEq, Prod.mk.injEq, login, secret]
    · rw [if_neg (by simp [form]), if_pos (Nat.lt_of_not_le size)]
      exact ⟨nofun, fun read => absurd read.2.1 size⟩
  · rw [if_pos (by simpa using form)]
    exact ⟨nofun, fun read => absurd read.1 form⟩

theorem ofPath?_eq_auth {path : String} : Route.ofPath? path = some .auth ↔ path = "/auth" := by
  unfold Route.ofPath?
  grind

theorem LoginForm.loginForm_eq (form : LoginForm request name password) :
    loginForm request = .ok (name, password) :=
  loginForm_eq_ok.mpr ⟨form.form, form.size, form.name_field, form.password_field⟩

end Forms

/-! ### What a login asks -/

/-- An exchange of a login, as one of the gateway for the authenticator with this handle. -/
def carried (handle : Handle) :
    Exchange Login.Effect Login.Effect.Answer → Exchange Effect Effect.Answer
  | ⟨.isAvailable, given⟩ => ⟨.isAvailable handle, given⟩
  | ⟨.disable, given⟩ => ⟨.disable handle, given⟩
  | ⟨.directory request, given⟩ => ⟨.directory request, given⟩

theorem follows_ofLogin {α : Type} {handle : Handle} {steps : Login.Steps α}
    {t : List (Exchange Effect Effect.Answer)} {a : α} :
    Follows (ofLogin handle steps) t a ↔ ∃ talk, t = talk.map (carried handle) ∧ Follows steps talk a := by
  refine Program.follows_via fun effect given t => ?_
  cases effect
  all_goals exact follows_request

/-- How a login goes: by the authenticator that was loaded, up to a failure or to a token. -/
inductive LoggedIn (fixed : Fixed) (name password : String) :
    List (Exchange Effect Effect.Answer) → Except Failure Http.Response → Prop where
  | failed {handle : Handle} {source : Directory.Source}
      {talk : List (Exchange Login.Effect Login.Effect.Answer)} {fault : Fault}
      (tried : Follows (Login.login source name password) talk (.error fault)) :
      LoggedIn fixed name password (⟨.loadAuthenticator, (handle, source)⟩ :: talk.map (carried handle))
        (.error (.fault fault))
  | identified {handle : Handle} {source : Directory.Source}
      {talk : List (Exchange Login.Effect Login.Effect.Answer)} {identity : Identity} {now : Int} {salt : Bytes}
      (tried : Follows (Login.login source name password) talk (.ok identity)) :
      LoggedIn fixed name password
        (⟨.loadAuthenticator, (handle, source)⟩ ::
          (talk.map (carried handle) ++ [⟨.now, now⟩, ⟨.random fixed.signer.algorithm.saltSize, salt⟩]))
        ((fixed.signer.issue salt now identity).map (.text 200))

variable {fixed : Fixed} {request : Http.Request} {name password : String}
  {t : List (Exchange Effect Effect.Answer)}

theorem logIn_run (fixed : Fixed) (name password : String) :
    (logIn fixed name password).run = .ask .loadAuthenticator fun loaded =>
      ofLogin loaded.1 (Login.login loaded.2 name password) >>= fun
        | .error fault => .done (.error (.fault fault))
        | .ok identity => .ask .now fun now => .ask (.random fixed.signer.algorithm.saltSize) fun salt =>
          .done ((fixed.signer.issue salt now identity).map (.text 200)) := by
  unfold logIn
  rw [perform_bind]
  refine congrArg (Program.ask _) (funext fun loaded => ?_)
  obtain ⟨handle, source⟩ := loaded
  refine (ExceptT.run_bind_lift _ _).trans (congrArg (_ >>= ·) (funext fun result => ?_))
  cases result with
  | error fault => rfl
  | ok identity =>
    rw [ofResult_bind_ok, perform_bind]
    refine congrArg (Program.ask _) (funext fun now => ?_)
    rw [perform_bind]
    refine congrArg (Program.ask _) (funext fun salt => ?_)
    cases fixed.signer.issue salt now identity <;> rfl

theorem follows_logIn {outcome : Except Failure Http.Response} :
    Follows (logIn fixed name password).run t outcome ↔ LoggedIn fixed name password t outcome := by
  rw [logIn_run, follows_ask]
  constructor
  · rintro ⟨⟨handle, source⟩, _, rfl, rest⟩
    obtain ⟨_, result, after, rfl, talked, ended⟩ := follows_bind.mp rest
    obtain ⟨talk, rfl, tried⟩ := follows_ofLogin.mp talked
    cases result with
    | error fault =>
      obtain ⟨rfl, rfl⟩ := follows_done.mp ended
      rw [List.append_nil]
      exact .failed tried
    | ok identity =>
      obtain ⟨now, _, rfl, salted⟩ := follows_ask.mp ended
      obtain ⟨salt, rfl, rfl⟩ := Program.follows_ask_done.mp salted
      exact .identified tried
  · intro login
    cases login with
    | failed tried =>
      exact ⟨_, _, rfl, follows_bind.mpr ⟨_, _, [], by simp, follows_ofLogin.mpr ⟨_, rfl, tried⟩, .done _⟩⟩
    | identified tried =>
      exact ⟨_, _, rfl, follows_bind.mpr
        ⟨_, _, _, rfl, follows_ofLogin.mpr ⟨_, rfl, tried⟩, .ask (.ask (.done _))⟩⟩

theorem loggedIn_of_serve (form : LoginForm request name password) {response : Option Http.Response}
    (served : Follows (serve fixed request) t response) :
    ∃ outcome, LoggedIn fixed name password t outcome ∧ response = responseTo outcome := by
  have found := ofPath?_eq_auth.mpr form.path
  obtain ⟨_, refused⟩ | ⟨route, answer, same, ran, rfl⟩ := follows_serve served
  · refine absurd ?_ (refused _ found)
    rw [form.method]
    decide
  · obtain rfl := Option.some.inj (found.symm.trans same)
    rw [if_neg (by rw [form.method]; decide)]
    simp only [serveRoute, form.loginForm_eq] at ran
    obtain ⟨outcome, logged, rfl⟩ := follows_respond.mp ran
    exact ⟨outcome, follows_logIn.mp logged, rfl⟩

/-! ### Logins with nothing else in between -/

theorem State.authenticator_handle (state : State) : state.authenticator state.handle = state.current := by
  simp [State.authenticator, State.handle]

theorem State.setAvailable_handle (state : State) (available : Bool) :
    state.setAvailable state.handle available = { state with current := state.current.setAvailable available } := by
  simp [State.setAvailable, State.handle]

/-- The exchanges with the directory. -/
def asked : List (Exchange Effect Effect.Answer) → Login.Record
  | [] => []
  | ⟨.directory request, given⟩ :: rest => ⟨request, given⟩ :: asked rest
  | _ :: rest => asked rest

theorem asked_append (before after : List (Exchange Effect Effect.Answer)) :
    asked (before ++ after) = asked before ++ asked after := by
  induction before with
  | nil => rfl
  | cons exchange before ih =>
    obtain ⟨effect, given⟩ := exchange
    cases effect <;> simp [asked, ih]

theorem asked_carried (handle : Handle) (talk : List (Exchange Login.Effect Login.Effect.Answer)) :
    asked (talk.map (carried handle)) = Login.Authenticator.directoryExchanges talk := by
  induction talk with
  | nil => rfl
  | cons exchange talk ih =>
    obtain ⟨effect, given⟩ := exchange
    cases effect <;> simp [asked, carried, Login.Authenticator.directoryExchanges, ih]

variable {σ : Type} {outside : Outside σ} {state : State} {world : σ} {final : State × σ}

/-- Asked for the current authenticator, the gateway answers as that authenticator by itself. -/
theorem gives_carried {talk : List (Exchange Login.Effect Login.Effect.Answer)} :
    Gives (answer outside) (state, world) (talk.map (carried state.handle)) final ↔
      ∃ authenticator after,
        Gives (Login.Authenticator.answer outside.directory) (state.current, world) talk (authenticator, after) ∧
          final = ({ state with current := authenticator }, after) := by
  induction talk generalizing state world with
  | nil =>
    constructor
    · intro same
      exact ⟨_, _, rfl, same⟩
    · rintro ⟨_, _, same, rfl⟩
      cases same
      rfl
  | cons exchange talk ih =>
    obtain ⟨effect, given⟩ := exchange
    rw [List.map_cons]
    cases effect with
    | isAvailable =>
      have shown : answer outside (.isAvailable state.handle) (state, world) =
          (state.current.available, (state, world)) := by
        rw [answer, State.authenticator_handle]
      simp only [carried, Gives, shown, ih, Login.Authenticator.answer]
      grind
    | disable =>
      have shown : answer outside (.disable state.handle) (state, world) =
          ((), ({ state with current := state.current.setAvailable false }, world)) := by
        rw [answer, State.setAvailable_handle]
      have same : state.handle =
          State.handle { state with current := state.current.setAvailable false } := rfl
      simp only [carried, Gives, shown, Login.Authenticator.answer]
      rw [same, ih]
      grind
    | directory request =>
      simp only [carried, Gives, answer, ih, Login.Authenticator.answer]
      grind

/-- What a login that runs by itself leaves, for the outcome that the current authenticator gives. -/
theorem loggedIn_run {outcome : Except Failure Http.Response} (login : LoggedIn fixed name password t outcome)
    (gives : Gives (answer outside) (state, world) t final) :
    let tried := Login.Authenticator.login outside.directory name password state.current world
    final.1 = { state with current := tried.authenticator } ∧ asked t = tried.exchanges ∧
      ((∃ fault, tried.result = .error fault ∧ outcome = .error (.fault fault)) ∨
        ∃ identity, tried.result = .ok identity ∧
          (∀ now, ⟨.now, now⟩ ∈ t ↔ now = outside.now tried.directory) ∧
          outcome = (fixed.signer.issue (outside.random fixed.signer.algorithm.saltSize tried.directory).1
            (outside.now tried.directory) identity).map (.text 200)) := by
  intro tried
  have alone {source : Directory.Source} {talk : List (Exchange Login.Effect Login.Effect.Answer)}
      {result : Except Fault Identity} {middle : State × σ} (same : state.current.source = source)
      (follows : Follows (Login.login source name password) talk result)
      (given : Gives (answer outside) (state, world) (talk.map (carried state.handle)) middle) :
      tried.result = result ∧ tried.exchanges = Login.Authenticator.directoryExchanges talk ∧
        middle = ({ state with current := tried.authenticator }, tried.directory) := by
    subst same
    obtain ⟨authenticator, after, within, rfl⟩ := gives_carried.mp given
    have ran := Program.run_eq_iff.mpr ⟨follows, within⟩
    simp [tried, Login.Authenticator.login, Login.Authenticator.run, ran]
  have noClock (handle : Handle) (now : Int) (talk : List (Exchange Login.Effect Login.Effect.Answer)) :
      ⟨.now, now⟩ ∉ talk.map (carried handle) := by
    intro member
    obtain ⟨⟨effect, given⟩, _, same⟩ := List.mem_map.mp member
    cases effect <;> cases same
  cases login with
  | @failed _ _ talk fault follows =>
    obtain ⟨loaded, given⟩ := gives
    cases loaded
    obtain ⟨result, exchanges, rfl⟩ := alone rfl follows given
    exact ⟨rfl, (asked_carried _ talk).trans exchanges.symm, .inl ⟨fault, result, rfl⟩⟩
  | @identified _ _ talk identity now salt follows =>
    obtain ⟨loaded, given⟩ := gives
    cases loaded
    obtain ⟨middle, given, clock, salted, ended⟩ := Program.gives_append.mp given
    obtain ⟨result, exchanges, rfl⟩ := alone rfl follows given
    cases clock
    cases salted
    cases ended
    refine ⟨rfl, ?_, .inr ⟨identity, result, fun now => ?_, rfl⟩⟩
    · refine (asked_append _ _).trans ?_
      rw [asked_carried, exchanges]
      exact List.append_nil _
    · simp [noClock, answer]

/-- A request to log in that is served with nothing else in between. -/
theorem serve_login (form : LoginForm request name password) (outside : Outside σ) (gateway : Running)
    (world : σ) :
    let tried := Login.Authenticator.login outside.directory name password gateway.state.current world
    let run := gateway.run outside (serve gateway.fixed request) world
    run.state.1 = { gateway.state with current := tried.authenticator } ∧ asked run.exchanges = tried.exchanges ∧
      ((∃ fault, tried.result = .error fault ∧ run.result = some fault.response) ∨
        ∃ identity, tried.result = .ok identity ∧
          (∀ now, ⟨.now, now⟩ ∈ run.exchanges ↔ now = outside.now tried.directory) ∧
          run.result = responseTo ((gateway.fixed.signer.issue
            (outside.random gateway.fixed.signer.algorithm.saltSize tried.directory).1
            (outside.now tried.directory) identity).map (.text 200))) := by
  intro tried run
  have served := Program.run_follows (serve gateway.fixed request) (answer outside) (gateway.state, world)
  have gives := Program.run_gives (serve gateway.fixed request) (answer outside) (gateway.state, world)
  obtain ⟨outcome, login, responded⟩ := loggedIn_of_serve form served
  obtain ⟨left, record, ended⟩ := loggedIn_run login gives
  refine ⟨left, record, ?_⟩
  obtain ⟨fault, failed, rfl⟩ | ⟨identity, identified, clock, rfl⟩ := ended
  · exact .inl ⟨fault, failed, responded⟩
  · exact .inr ⟨identity, identified, clock, responded⟩

end QueryGate.Gateway
