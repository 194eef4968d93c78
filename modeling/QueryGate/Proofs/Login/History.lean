import QueryGate.Proofs.Login.Passwords

/-! Logins, switches of the flag and changes of the source, in any order. What holds of each attempt
to log in holds throughout every history. -/

namespace QueryGate.Login

open Directory (Answerer Source)

inductive Act where
  | login (name password : String)
  | authenticate (login password : String) (direct : Bool)
  | setAvailable (available : Bool)
  | withSource (source : Source)
  deriving DecidableEq, Repr

structure Attempted where
  source : Source
  login : String
  password : String
  direct : Bool
  record : Record

structure Point (σ : Type) where
  authenticator : Authenticator
  directory : σ
  attempts : List Attempted := []

namespace Point

variable {σ : Type}

/-- Note what an attempt asked, and go on where it has left off. -/
def note (point : Point σ) (login password : String) (direct : Bool) (outcome : Authenticator.Outcome σ) :
    Point σ where
  authenticator := outcome.authenticator
  directory := outcome.directory
  attempts := point.attempts ++
    [{ source := point.authenticator.source, login, password, direct, record := outcome.exchanges }]

def step (answerer : Answerer σ) (point : Point σ) : Act → Point σ
  | .login name password =>
    point.note name password point.authenticator.source.useDirectBind
      (point.authenticator.login answerer name password point.directory)
  | .authenticate login password direct =>
    point.note login password direct
      (point.authenticator.authenticate answerer login password direct point.directory)
  | .setAvailable available => { point with authenticator := point.authenticator.setAvailable available }
  | .withSource source => { point with authenticator := point.authenticator.withSource source }

def run (answerer : Answerer σ) (point : Point σ) (acts : List Act) : Point σ :=
  acts.foldl (step answerer) point

variable {P : Attempted → Prop} {answerer : Answerer σ} {point : Point σ}

/-- What holds of every single attempt, whatever authenticator and directory it is made with. -/
def HoldsOfAttempts (answerer : Answerer σ) (P : Attempted → Prop) : Prop :=
  ∀ (authenticator : Authenticator) (directory : σ) (login password : String) (direct : Bool),
    P { source := authenticator.source, login, password, direct,
        record := (authenticator.authenticate answerer login password direct directory).exchanges }

theorem step_keeps (every : HoldsOfAttempts answerer P) (before : ∀ attempted ∈ point.attempts, P attempted)
    (act : Act) : ∀ attempted ∈ (point.step answerer act).attempts, P attempted := by
  have noted (login password : String) (direct : Bool) :
      ∀ attempted ∈ (point.note login password direct
        (point.authenticator.authenticate answerer login password direct point.directory)).attempts,
        P attempted := by
    intro attempted member
    rcases List.mem_append.mp member with early | last
    · exact before attempted early
    · rw [List.mem_singleton.mp last]
      exact every point.authenticator point.directory login password direct
  cases act with
  | login name password => exact noted name password point.authenticator.source.useDirectBind
  | authenticate login password direct => exact noted login password direct
  | setAvailable available => exact before
  | withSource source => exact before

theorem run_keeps (every : HoldsOfAttempts answerer P) (before : ∀ attempted ∈ point.attempts, P attempted)
    (acts : List Act) : ∀ attempted ∈ (point.run answerer acts).attempts, P attempted := by
  induction acts generalizing point with
  | nil => exact before
  | cons act acts ih => exact ih (step_keeps every before act)

end Point

namespace Authenticator

variable {σ : Type}

theorem authenticate_guarded (answerer : Answerer σ) (authenticator : Authenticator) (directory : σ)
    (login password : String) (direct : Bool) :
    PasswordsGuarded authenticator.source login password direct
      (authenticator.authenticate answerer login password direct directory).exchanges := by
  obtain ⟨_, silent⟩ | ⟨_, admissible, talked⟩ :=
    turned_away_or_conversed answerer authenticator directory login password direct
  · rw [silent]
    exact .silent
  · have follows := (Program.run_eq_iff.mp talked).1
    exact (scheduled_of_follows follows).guarded admissible

end Authenticator

namespace Point

/-- In every history of an authenticator, over any directory, no bind is anonymous, and each is made as the service
or as the user who is logging in, under the name just established. The user's password is sent once at most, never
without a single match for the user and never over the second connection, except that a service with the same
password sends it when it binds itself, once over each connection. -/
theorem run_guards_passwords {σ : Type} (answerer : Answerer σ) (authenticator : Authenticator) (directory : σ)
    (acts : List Act) :
    ∀ attempted ∈ (Point.run answerer { authenticator, directory } acts).attempts,
      PasswordsGuarded attempted.source attempted.login attempted.password attempted.direct attempted.record := by
  have every : HoldsOfAttempts answerer fun attempted =>
      PasswordsGuarded attempted.source attempted.login attempted.password attempted.direct attempted.record :=
    Authenticator.authenticate_guarded answerer
  exact run_keeps every (fun _ member => absurd member List.not_mem_nil) acts

/-- A login that only the user binds in: the user's password is sent once, under the name that was found. -/
theorem run_guards_found_user :
    let source : Source := { userBase := "dc=org", userFilter := "(u=%s)" }
    let directory : Directory.Script := { searches := [.ok [{ dn := "u=a" }], .ok [{ dn := "u=a" }]] }
    ∃ record : Record,
      (Point.run Directory.Script.answer { authenticator := { source }, directory } [.login "a" "volt"]).attempts =
        [⟨source, "a", "volt", false, record⟩] ∧
      timesSent "volt" record = 1 ∧ PasswordsGuarded source "a" "volt" false record := by
  intro source directory
  have guards := run_guards_passwords Directory.Script.answer { source } directory [.login "a" "volt"]
  have attempted : (Point.run Directory.Script.answer { authenticator := { source }, directory }
      [.login "a" "volt"]).attempts = [⟨source, "a", "volt", false,
        [⟨.connect source, .ok ()⟩, ⟨.search "dc=org" (Template.fill "(u=%s)" "a") [], .ok [{ dn := "u=a" }]⟩,
          ⟨.bind "u=a" "volt", .ok .bound⟩,
          ⟨.search "u=a" (Template.fill "(u=%s)" "a") source.attributes.toList, .ok [{ dn := "u=a" }]⟩, ⟨.unbind, ()⟩,
          ⟨.connect source, .ok ()⟩, ⟨.search "dc=org" (Template.fill "(u=%s)" "a") ["memberOf"], .ok []⟩, ⟨.unbind, ()⟩]⟩] := rfl
  rw [attempted] at guards
  exact ⟨_, attempted, rfl, guards _ List.mem_cons_self⟩

/-- A user with the password of the service. It is sent three times in a login that succeeds, twice of them by the
service, and once in a login that finds nobody. -/
theorem shared_password_is_sent_by_service :
    let source : Source :=
      { bindDn := some "cn=svc", bindPassword := some "volt", userBase := "dc=org", userFilter := "(u=%s)" }
    let found : Directory.Script := { searches := [.ok [{ dn := "u=a" }], .ok [{ dn := "u=a" }]] }
    let attempts (directory : Directory.Script) :=
      (Point.run Directory.Script.answer { authenticator := { source }, directory } [.login "a" "volt"]).attempts
    (∃ record, attempts found = [⟨source, "a", "volt", false, record⟩] ∧ timesSent "volt" record = 3) ∧
    ∃ record, attempts {} = [⟨source, "a", "volt", false, record⟩] ∧ timesSent "volt" record = 1 ∧
      (⟨.search "dc=org" (Template.fill "(u=%s)" "a") [], .ok []⟩ : Exchange) ∈ record := by
  intro source found attempts
  have alone : attempts {} = [⟨source, "a", "volt", false,
      [⟨.connect source, .ok ()⟩, ⟨.bind "cn=svc" "volt", .ok .bound⟩,
        ⟨.search "dc=org" (Template.fill "(u=%s)" "a") [], .ok []⟩, ⟨.unbind, ()⟩]⟩] := rfl
  exact ⟨⟨_, rfl, rfl⟩, _, alone, rfl, by simp⟩

end Point
end QueryGate.Login
