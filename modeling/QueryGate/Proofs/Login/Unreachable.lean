import QueryGate.Proofs.Login.Faults
import QueryGate.Proofs.Login.Latch

/-!
# Directories out of reach

An operation over the first connection that does not get through ends the login, which then disables the source.
The administrator search is the exception: it withholds the administrator's rights and says nothing of the reason,
so that a source whose directory is lost during that search stays available.
-/

namespace QueryGate.Login

open Directory (Answerer BindOutcome Request Source)
open Program (Follows follows_attempt_bind follows_done follows_lift_iff)

variable {α β : Type} {source : Source} {login password dn filter base : String} {direct : Bool} {t : Record}

/-- The operation ended because the directory was out of reach. -/
def FindsUnreachable (exchange : Exchange) : Prop :=
  ∃ reason, exchange.1.fault? exchange.2 = some (.directoryUnavailable reason)

/-- The search whether the user is an administrator. Over the first connection no other search is for one attribute. -/
def IsAdminSearch (source : Source) (request : Request) : Prop :=
  ∃ dn filter, request = .search dn filter [source.attributes.name]

/-- An operation whose end is told to the login, and which ended because the directory was out of reach. -/
def Tells (source : Source) (exchange : Exchange) : Prop :=
  FindsUnreachable exchange ∧ ¬ IsAdminSearch source exchange.1

/-- What is asked over the first connection, from the connect up to the unbind. -/
def firstConnection (record : Record) : Record :=
  record.takeWhile fun exchange => !isUnbind exchange

def EndsUnreachable (result : Except Fault α) : Prop :=
  ∃ reason, result = .error (.directoryUnavailable reason)

theorem not_endsUnreachable_ok (a : α) : ¬ EndsUnreachable (.ok a : Except Fault α) := by
  rintro ⟨reason, same⟩
  cases same

theorem endsUnreachable_error {fault : Fault} :
    EndsUnreachable (.error fault : Except Fault α) ↔ ∃ reason, fault = .directoryUnavailable reason := by
  simp [EndsUnreachable]

/-- The part ends with a directory out of reach exactly if one of its operations does and tells it. -/
def Reports (source : Source) (part : Attempt α) : Prop :=
  ∀ t r, Follows part.run t r → (EndsUnreachable r ↔ ∃ exchange ∈ t, Tells source exchange)

namespace Reports

variable {part : Attempt α} {rest : α → Attempt β}

theorem pure (a : α) : Reports source (Pure.pure a : Attempt α) := by
  intro t r follows
  obtain ⟨rfl, rfl⟩ := follows_done.mp follows
  exact iff_of_false (not_endsUnreachable_ok a) (by simp)

theorem result {r : Except Fault α} (other : ¬ EndsUnreachable r) :
    Reports source (ExceptT.mk (Pure.pure r) : Attempt α) := by
  intro t r' follows
  obtain ⟨rfl, rfl⟩ := follows_done.mp follows
  exact iff_of_false other (by simp)

theorem bind (first : Reports source part) (second : ∀ a, Reports source (rest a)) :
    Reports source (part >>= rest) := by
  intro t r follows
  obtain ⟨before, a, after, rfl, head, tail⟩ | ⟨fault, rfl, failed⟩ := follows_attempt_bind.mp follows
  · -- what has succeeded has told nothing
    have quiet := mt (first before (.ok a) head).mpr (not_endsUnreachable_ok a)
    rw [second a after r tail]
    constructor
    · rintro ⟨exchange, member, tells⟩
      exact ⟨exchange, List.mem_append_right _ member, tells⟩
    · rintro ⟨exchange, member, tells⟩
      rcases List.mem_append.mp member with early | late
      · exact absurd ⟨exchange, early, tells⟩ quiet
      · exact ⟨exchange, late, tells⟩
  · rw [← first t (.error fault) failed, endsUnreachable_error, endsUnreachable_error]

theorem lift {talk : Talk α} (quiet : ∀ t a, Follows talk t a → ∀ exchange ∈ t, ¬ Tells source exchange) :
    Reports source (ExceptT.lift talk) := by
  intro t r follows
  obtain ⟨a, rfl, talked⟩ := follows_lift_iff.mp follows
  refine iff_of_false (not_endsUnreachable_ok a) ?_
  rintro ⟨exchange, member, tells⟩
  exact quiet t a talked exchange member tells

theorem single {request : Request} {comes : request.Answer → Except Fault α}
    (each : ∀ t r, Follows part.run t r → ∃ answer, t = [⟨request, answer⟩] ∧ r = comes answer)
    (plain : ¬ IsAdminSearch source request)
    (same : ∀ answer, EndsUnreachable (comes answer) ↔ FindsUnreachable ⟨request, answer⟩) :
    Reports source part := by
  intro t r follows
  obtain ⟨answer, rfl, rfl⟩ := each t r follows
  simp [same, Tells, plain]

end Reports

theorem bindResult_unreachable {refused : Nat → Fault}
    (other : ∀ code reason, refused code ≠ .directoryUnavailable reason)
    (answer : Except Fault BindOutcome) :
    EndsUnreachable (bindResult refused answer) ↔ FindsUnreachable ⟨.bind dn password, answer⟩ := by
  rcases answer with fault | _ | code
  · simp [bindResult, EndsUnreachable, FindsUnreachable, Request.fault?]
  · exact iff_of_false (not_endsUnreachable_ok ()) (by simp [FindsUnreachable, Request.fault?])
  · refine iff_of_false ?_ (by simp [FindsUnreachable, Request.fault?])
    rintro ⟨reason, same⟩
    exact other code reason (Except.error.inj same)

theorem not_isAdminSearch_bind : ¬ IsAdminSearch source (.bind dn password) := by
  rintro ⟨_, _, same⟩
  cases same

theorem reports_bindUser : Reports source (bindUser dn password) :=
  .single (fun _ _ follows => follows_bindUser.mp follows) not_isAdminSearch_bind
    (bindResult_unreachable fun _ _ same => Fault.noConfusion same)

theorem reports_bindService : Reports source (bindService source) := by
  cases given : source.serviceCredentials with
  | none =>
    intro t r follows
    rw [bindService_of_none given] at follows
    obtain ⟨rfl, rfl⟩ := follows_done.mp follows
    exact iff_of_false (not_endsUnreachable_ok ()) (by simp)
  | some credentials =>
    obtain ⟨name, secret⟩ := credentials
    have asks (t : Record) (r : Except Fault Unit) (follows : Follows (bindService source).run t r) :
        ∃ answer, t = [⟨.bind name secret, answer⟩] ∧ r = bindResult .serviceBindRejected answer := by
      rw [bindService_of_some given] at follows
      exact Program.follows_ask_done.mp follows
    exact .single asks not_isAdminSearch_bind (bindResult_unreachable fun _ _ same => Fault.noConfusion same)

theorem reports_searchOr {instead : Fault} (other : ∀ reason, instead ≠ .directoryUnavailable reason)
    {attributes : List String} (plain : attributes ≠ [source.attributes.name]) :
    Reports source (searchOr instead base filter attributes) := by
  refine .single (fun _ _ follows => follows_searchOr.mp follows) ?_ fun answer => ?_
  · rintro ⟨_, _, same⟩
    cases same
    exact plain rfl
  · rcases answer with fault | entries
    · cases fault <;> simp [searchResult, EndsUnreachable, FindsUnreachable, Request.fault?, other]
    · simp [searchResult, EndsUnreachable, FindsUnreachable, Request.fault?]

theorem reports_findUser : Reports source (findUser source filter) := by
  refine reports_bindService.bind fun _ => (reports_searchOr (fun _ => Fault.noConfusion) (by simp)).bind fun entries => ?_
  refine .result ?_
  rintro ⟨reason, failed⟩
  cases onlyDn_fault failed

theorem reports_readEntry : Reports source (readEntry source dn filter) := by
  refine (reports_searchOr (fun _ => Fault.noConfusion)
    (by simp [Directory.AttributeNames.toList])).bind fun entries => ?_
  cases entries with
  | nil =>
    refine .result ?_
    rintro ⟨reason, same⟩
    cases same
  | cons entry others => exact .pure entry

/-- Whatever comes of the administrator search, the login is told nothing of it. -/
theorem reports_checkAdmin : Reports source (ExceptT.lift (checkAdmin source dn login)) := by
  refine .lift fun t isAdmin asked exchange member tells => ?_
  cases follows_checkAdmin.mp asked with
  | noFilter absent => cases member
  | asked given nonempty matched =>
    obtain rfl := List.mem_singleton.mp member
    exact tells.2 ⟨_, _, rfl⟩

theorem reports_readUser : Reports source (readUser source login filter dn) :=
  reports_readEntry.bind fun entry => reports_checkAdmin.bind fun isAdmin => .pure (entry, isAdmin)

theorem reports_checkUser (bindsFirst : Bool) :
    Reports source (checkUser source login password filter bindsFirst dn) := by
  cases bindsFirst with
  | true => exact reports_bindUser.bind fun _ => reports_readUser.bind fun _ => .pure _
  | false => exact reports_readUser.bind fun _ => reports_bindUser.bind fun _ => .pure _

theorem reports_verify (input : Screened) : Reports source (verify source login password input) := by
  rw [verify_eq]
  refine Reports.bind ?_ fun _ => reports_checkUser _
  unfold establish
  split
  · exact .pure _
  · exact reports_findUser

theorem firstConnection_append {session lookup : Record} (unclosed : ∀ exchange ∈ session, exchange.1 ≠ .unbind) :
    firstConnection (⟨.connect source, .ok ()⟩ :: (session ++ ⟨.unbind, ()⟩ :: lookup)) =
      ⟨.connect source, .ok ()⟩ :: session := by
  have opened : ∀ exchange ∈ session, (!isUnbind exchange) = true := by
    intro exchange member
    obtain ⟨request, answer⟩ := exchange
    cases request with
    | unbind => exact absurd rfl (unclosed _ member)
    | _ => rfl
  unfold firstConnection
  rw [List.takeWhile_cons_of_pos rfl, List.takeWhile_append_of_pos opened, List.takeWhile_cons_of_neg (by simp [isUnbind]),
    List.append_nil]

/-- A conversation ends with a directory out of reach exactly if an operation over its first connection tells so. -/
theorem converse_unreachable {r : Except Fault Identity}
    (follows : Follows (converse source login password (screened source login direct)).run t r) :
    EndsUnreachable r ↔ ∃ exchange ∈ firstConnection t, Tells source exchange := by
  have quiet : ¬ Tells source ⟨.connect source, .ok ()⟩ := by
    rintro ⟨⟨reason, same⟩, _⟩
    cases same
  have verified {session lookup : Record} {r : Except Fault Identity}
      (held : Follows (verify source login password (screened source login direct)).run session r) :
      EndsUnreachable r ↔ ∃ exchange ∈ firstConnection (⟨.connect source, .ok ()⟩ ::
        (session ++ ⟨.unbind, ()⟩ :: lookup)), Tells source exchange := by
    rw [firstConnection_append (session_of_follows held).no_unbind, reports_verify _ session r held]
    simp [quiet]
  obtain ⟨before, identity, after, rfl, talked, looked⟩ | ⟨fault, rfl, failed⟩ := follows_attempt_bind.mp follows
  · obtain ⟨_, _, ⟨⟩⟩ | ⟨session, rfl, held⟩ := follows_connected.mp talked
    obtain ⟨_, groups, _, _, _, ended⟩ | ⟨_, rfl, lost⟩ := follows_attempt_bind.mp looked
    · obtain ⟨_, rfl⟩ := follows_done.mp ended
      rw [List.cons_append, List.append_assoc, List.singleton_append, ← verified held]
      exact iff_of_false (not_endsUnreachable_ok _) (not_endsUnreachable_ok _)
    · obtain ⟨_, ⟨⟩, _⟩ := follows_lift_iff.mp lost
  · obtain ⟨other, rfl, ⟨⟩⟩ | ⟨session, rfl, held⟩ := follows_connected.mp failed
    · simp [firstConnection, isUnbind, Tells, FindsUnreachable, Request.fault?, IsAdminSearch, EndsUnreachable]
    · rw [← verified held]

namespace Authenticator

variable {σ : Type} {directory : Answerer σ} {authenticator : Authenticator} {state : σ}

/-- What a login comes to, and whether it clears the flag, hangs on the same operations. -/
theorem authenticate_unreachable (directory : Answerer σ) (state : σ) (login password : String) (direct : Bool)
    (on : authenticator.available = true) :
    let outcome := authenticator.authenticate directory login password direct state
    (EndsUnreachable outcome.result ↔
      ∃ exchange ∈ firstConnection outcome.exchanges, Tells authenticator.source exchange) ∧
    (outcome.authenticator.available = false ↔ EndsUnreachable outcome.result) := by
  constructor
  · cases passed : screen authenticator.source login password direct with
    | error fault =>
      rw [authenticate_rejected on passed]
      refine iff_of_false ?_ (by simp [firstConnection])
      rintro ⟨reason, same⟩
      cases same
    | ok input =>
      obtain ⟨_, rfl⟩ := screen_eq_ok.mp passed
      cases talked : (converse authenticator.source login password
          (screened authenticator.source login direct)).run.run directory state with
      | mk result record final =>
        rw [authenticate_conversed on passed talked]
        exact converse_unreachable (Program.run_eq_iff.mp talked).1
  · refine authenticate_available.trans (or_iff_left ?_)
    rw [on]
    exact Bool.noConfusion

/-- A login disables its source exactly if an operation over its first connection, other than the administrator
search, ended because the directory was out of reach. So that every such end disables the source fails of a login
exactly when the administrator search is the only operation that came to it. -/
theorem authenticate_disables_iff (directory : Answerer σ) (authenticator : Authenticator) (state : σ)
    (login password : String) (direct : Bool) (on : authenticator.available = true) :
    let source := authenticator.source
    let outcome := authenticator.authenticate directory login password direct state
    let first := firstConnection outcome.exchanges
    (outcome.authenticator.available = false ↔
      ∃ exchange ∈ first, FindsUnreachable exchange ∧ ¬ IsAdminSearch source exchange.1) ∧
    (((∃ exchange ∈ first, FindsUnreachable exchange) → outcome.authenticator.available = false) ↔
      ¬ ((∃ exchange ∈ first, FindsUnreachable exchange) ∧
        ∀ exchange ∈ first, FindsUnreachable exchange → IsAdminSearch source exchange.1)) := by
  intro source outcome first
  obtain ⟨told, cleared⟩ := authenticate_unreachable directory state login password direct on
  have exact : outcome.authenticator.available = false ↔
      ∃ exchange ∈ first, FindsUnreachable exchange ∧ ¬ IsAdminSearch source exchange.1 := cleared.trans told
  refine ⟨exact, ?_⟩
  rw [exact]
  constructor
  · rintro disables ⟨lost, only⟩
    obtain ⟨exchange, member, unreachable, other⟩ := disables lost
    exact other (only exchange member unreachable)
  · intro others lost
    refine Classical.byContradiction fun silent => others ⟨lost, fun exchange member unreachable => ?_⟩
    exact Classical.byContradiction fun other => silent ⟨exchange, member, unreachable, other⟩

def administered : Source where
  userDn := "uid=%s,dc=org"
  adminFilter := some "(role=admin)"
  useDirectBind := true

def lostAt (searches : List (Except Fault (List Directory.Entry))) : Directory.Script where
  searches := searches

/-- A directory that is lost during the attribute search disables the source. -/
theorem attribute_timeout_disables :
    let outcome := authenticate Directory.Script.answer "tesla" "volt" true { source := administered }
      (lostAt [.error (.directoryUnavailable "timeout")])
    outcome.authenticator.available = false ∧
      ∃ exchange ∈ firstConnection outcome.exchanges, FindsUnreachable exchange ∧
        ¬ IsAdminSearch administered exchange.1 := by
  intro outcome
  have exact := (authenticate_disables_iff Directory.Script.answer { source := administered }
    (lostAt [.error (.directoryUnavailable "timeout")]) "tesla" "volt" true rfl).1
  have cleared : outcome.authenticator.available = false := rfl
  exact ⟨cleared, exact.mp cleared⟩

/-- Lost during the administrator search, it leaves the source available, and the login succeeds. -/
theorem admin_timeout_keeps_source :
    let outcome := authenticate Directory.Script.answer "tesla" "volt" true { source := administered }
      (lostAt [.ok [{ dn := "uid=tesla,dc=org" }], .error (.directoryUnavailable "timeout")])
    (∃ exchange ∈ firstConnection outcome.exchanges, FindsUnreachable exchange) ∧
      outcome.authenticator.available = true ∧ outcome.result = .ok { username := "tesla" } := by
  intro outcome
  have searched : firstConnection outcome.exchanges =
      [⟨.connect administered, .ok ()⟩, ⟨.bind "uid=tesla,dc=org" "volt", .ok .bound⟩,
        ⟨.search "uid=tesla,dc=org" "(uid=tesla)" administered.attributes.toList, .ok [{ dn := "uid=tesla,dc=org" }]⟩,
        ⟨.search "uid=tesla,dc=org" "(role=admin)" ["givenName"], .error (.directoryUnavailable "timeout")⟩] := rfl
  refine ⟨⟨⟨.search "uid=tesla,dc=org" "(role=admin)" ["givenName"], .error (.directoryUnavailable "timeout")⟩, ?_,
    "timeout", rfl⟩, rfl, rfl⟩
  rw [searched]
  simp

end Authenticator
end QueryGate.Login
