import QueryGate.Directory.Client
import QueryGate.Proofs.Login.Schedule

/-!
# Faults of logins

Every fault that a login can end in is a failure to authenticate, provided that the directory has no faults of
its own but being out of reach and failing in an operation. Those are the only ones of the directory client.
-/

namespace QueryGate.Directory

/-- A fault that an operation of a directory may have. -/
inductive IsOperational : Fault → Prop where
  | unavailable (reason : String) : IsOperational (.directoryUnavailable reason)
  | operation (reason : String) : IsOperational (.directoryOperation reason)

theorem IsOperational.isAuthentication {fault : Fault} (operational : IsOperational fault) :
    fault.isAuthentication = true := by
  cases operational <;> rfl

namespace Request

def fault? : (request : Request) → request.Answer → Option Fault
  | .connect _, .error fault => some fault
  | .bind .., .error fault => some fault
  | .search .., .error fault => some fault
  | .connect _, .ok _ => none
  | .bind .., .ok _ => none
  | .search .., .ok _ => none
  | .unbind, () => none

end Request

/-- The operations of the directory fail only as those of a directory may. -/
def FailsOperationally {σ : Type} (directory : Answerer σ) : Prop :=
  ∀ (request : Request) (state : σ) (fault : Fault),
    request.fault? (directory request state).1 = some fault → IsOperational fault

namespace Client

open Program (Follows follows_bind follows_done)

variable {fault : Fault} {t : List (Program.Exchange Transfer Transfer.Answer)}

theorem send_fault {message : Message} (failed : Follows (send message) t (.error fault)) :
    IsOperational fault := by
  obtain ⟨_, answer, _, _, _, ended⟩ := follows_bind.mp failed
  cases answer with
  | ok reply => cases ended
  | error reason =>
    cases ended
    exact .unavailable reason

theorem connect_fault {source : Source} (failed : Follows (connect source) t (.error fault)) :
    IsOperational fault := by
  obtain ⟨_, opened, _, _, _, secured⟩ := follows_bind.mp failed
  cases opened with
  | error reason =>
    cases secured
    exact .unavailable _
  | ok =>
    simp only at secured
    split at secured
    · obtain ⟨_, answer, _, _, _, ended⟩ := follows_bind.mp secured
      cases answer with
      | error reason =>
        cases ended
        exact .unavailable _
      | ok reply =>
        simp only at ended
        split at ended
        · cases ended
        · cases ended
          exact .unavailable _
    · cases secured

theorem entriesUnder_fault {reply : Reply} {base : String} (failed : reply.entriesUnder base = .error fault) :
    IsOperational fault := by
  unfold Reply.entriesUnder at failed
  split at failed
  · cases failed
  · split at failed
    · cases failed
    · cases failed
      exact .operation _

theorem search_fault {base filter : String} {attributes : List String}
    (failed : Follows (search base filter attributes) t (.error fault)) : IsOperational fault := by
  unfold search at failed
  split at failed
  · obtain ⟨_, answer, _, _, sent, ended⟩ := follows_bind.mp failed
    cases answer with
    | error other =>
      cases ended
      exact send_fault sent
    | ok reply => exact entriesUnder_fault (follows_done.mp ended).2.symm
  · cases failed
    exact .operation _

/-- Whatever the network does, the client has no other faults. -/
theorem answerer_failsOperationally {σ : Type} (network : Network σ) :
    FailsOperationally (answerer network) := by
  intro request state fault failed
  have ran : Follows (carry request) _ (answerer network request state).1 :=
    Program.run_follows (carry request) network state
  generalize (answerer network request state).1 = given at failed ran
  cases request with
  | connect source =>
    cases given with
    | ok => cases failed
    | error other =>
      cases failed
      exact connect_fault ran
  | bind dn password =>
    cases given with
    | ok outcome => cases failed
    | error other =>
      cases failed
      obtain ⟨_, answer, _, _, sent, ended⟩ := follows_bind.mp ran
      cases answer with
      | ok reply => cases ended
      | error other =>
        cases ended
        exact send_fault sent
  | search base filter attributes =>
    cases given with
    | ok entries => cases failed
    | error other =>
      cases failed
      exact search_fault ran
  | unbind => cases failed

end Client
end QueryGate.Directory

namespace QueryGate.Login

open Directory (Answerer FailsOperationally IsOperational Source)
open Program (Follows follows_attempt_bind follows_done follows_lift_iff)

/-- The exchange is no failure, or one that an operation of a directory may have. -/
def IsOrdinary (exchange : Exchange) : Prop :=
  ∀ fault, exchange.1.fault? exchange.2 = some fault → IsOperational fault

/-- As long as the directory fails as directories do, the part fails only to authenticate. -/
def FailsToAuthenticate {α : Type} (part : Attempt α) : Prop :=
  ∀ (t : Record) (fault : Fault), (∀ exchange ∈ t, IsOrdinary exchange) → Follows part.run t (.error fault) →
    fault.isAuthentication = true

namespace FailsToAuthenticate

variable {α β : Type} {part : Attempt α} {rest : α → Attempt β}

theorem pure (a : α) : FailsToAuthenticate (Pure.pure a : Attempt α) := by
  intro t fault _ follows
  cases follows

theorem throw {fault : Fault} (authentication : fault.isAuthentication = true) :
    FailsToAuthenticate (MonadExcept.throw fault : Attempt α) := by
  intro t other _ follows
  cases follows
  exact authentication

theorem bind (first : FailsToAuthenticate part) (second : ∀ a, FailsToAuthenticate (rest a)) :
    FailsToAuthenticate (part >>= rest) := by
  intro t fault ordinary follows
  obtain ⟨before, a, after, rfl, _, tail⟩ | ⟨_, ⟨⟩, failed⟩ := follows_attempt_bind.mp follows
  · exact second a after fault (List.forall_mem_append.mp ordinary).2 tail
  · exact first t fault ordinary failed

theorem lift (talk : Talk α) : FailsToAuthenticate (ExceptT.lift talk) := by
  intro t fault _ follows
  obtain ⟨_, ⟨⟩, _⟩ := follows_lift_iff.mp follows

theorem connected {source : Source} (within : FailsToAuthenticate part) :
    FailsToAuthenticate (connected source part) := by
  intro t fault ordinary follows
  obtain ⟨other, rfl, ⟨⟩⟩ | ⟨t, rfl, held⟩ := follows_connected.mp follows
  · exact (ordinary _ List.mem_cons_self fault rfl).isAuthentication
  · have later := (List.forall_mem_cons.mp ordinary).2
    exact within t fault (List.forall_mem_append.mp later).1 held

end FailsToAuthenticate

variable {source : Source} {login password dn base filter : String} {attributes : List String}

theorem searchOr_fails {instead : Fault} (authentication : instead.isAuthentication = true) :
    FailsToAuthenticate (searchOr instead base filter attributes) := by
  intro t fault ordinary follows
  obtain ⟨answer, rfl, same⟩ := follows_searchOr.mp follows
  cases answer with
  | ok entries => cases same
  | error other =>
    have operational : IsOperational other := ordinary _ List.mem_cons_self other rfl
    cases operational with
    | unavailable reason =>
      cases same
      rfl
    | operation reason =>
      cases same
      exact authentication

theorem bindResult_fails {refused : Nat → Fault} (authentication : ∀ code, (refused code).isAuthentication = true)
    {answer : Except Fault Directory.BindOutcome} (ordinary : IsOrdinary ⟨.bind dn password, answer⟩)
    {fault : Fault} (failed : bindResult refused answer = .error fault) : fault.isAuthentication = true := by
  rcases answer with other | _ | code
  · cases failed
    exact (ordinary fault rfl).isAuthentication
  · cases failed
  · cases failed
    exact authentication code

theorem bindUser_fails : FailsToAuthenticate (bindUser dn password) := by
  intro t fault ordinary follows
  obtain ⟨answer, rfl, failed⟩ := follows_bindUser.mp follows
  exact bindResult_fails (fun _ => rfl) (ordinary _ List.mem_cons_self) failed.symm

theorem bindService_fails : FailsToAuthenticate (bindService source) := by
  intro t fault ordinary follows
  obtain ⟨_, ⟨⟩⟩ | ⟨_, _, answer, _, _, rfl, failed⟩ := follows_bindService.mp follows
  exact bindResult_fails (fun _ => rfl) (ordinary _ List.mem_cons_self) failed.symm

theorem onlyDn_fault {entries : List Directory.Entry} {fault : Fault} (failed : onlyDn entries = .error fault) :
    fault = .identityNotFound := by
  unfold onlyDn at failed
  split at failed
  · split at failed <;> cases failed
    rfl
  · cases failed
    rfl

theorem findUser_fails : FailsToAuthenticate (findUser source filter) := by
  refine bindService_fails.bind fun _ => (searchOr_fails rfl).bind fun entries => ?_
  intro t fault _ follows
  rw [onlyDn_fault (follows_done.mp follows).2.symm]
  rfl

theorem readEntry_fails : FailsToAuthenticate (readEntry source dn filter) := by
  refine (searchOr_fails rfl).bind fun entries => ?_
  cases entries with
  | nil => exact .throw rfl
  | cons entry others => exact .pure entry

theorem establish_fails (input : Screened) : FailsToAuthenticate (establish source input) := by
  unfold establish
  split
  · exact .pure _
  · exact findUser_fails

theorem readUser_fails : FailsToAuthenticate (readUser source login filter dn) :=
  readEntry_fails.bind fun entry => (FailsToAuthenticate.lift _).bind fun isAdmin => .pure (entry, isAdmin)

theorem checkUser_fails (bindsFirst : Bool) :
    FailsToAuthenticate (checkUser source login password filter bindsFirst dn) := by
  cases bindsFirst with
  | true => exact bindUser_fails.bind fun _ => readUser_fails.bind fun _ => .pure _
  | false => exact readUser_fails.bind fun _ => bindUser_fails.bind fun _ => .pure _

theorem converse_fails (input : Screened) : FailsToAuthenticate (converse source login password input) := by
  have verified : FailsToAuthenticate (verify source login password input) := by
    rw [verify_eq]
    exact (establish_fails input).bind fun _ => checkUser_fails _
  exact verified.connected.bind fun identity => (FailsToAuthenticate.lift _).bind fun groups => .pure _

namespace Authenticator

variable {σ : Type} {directory : Answerer σ} {authenticator : Authenticator} {state : σ} {direct : Bool}

/-- Whatever a login fails by, it is a failure to authenticate. -/
theorem authenticate_fault (operational : FailsOperationally directory) {fault : Fault}
    (failed : (authenticate directory login password direct authenticator state).result = .error fault) :
    fault.isAuthentication = true := by
  cases on : authenticator.available with
  | false =>
    rw [authenticate_disabled on] at failed
    cases failed
    rfl
  | true =>
    cases passed : screen authenticator.source login password direct with
    | error other =>
      rw [authenticate_rejected on passed] at failed
      cases failed
      rfl
    | ok input =>
      cases talked : (converse authenticator.source login password input).run.run directory state with
      | mk result record final =>
        rw [authenticate_conversed on passed talked] at failed
        obtain rfl : result = .error fault := failed
        obtain ⟨follows, gives⟩ := Program.run_eq_iff.mp talked
        have ordinary : ∀ exchange ∈ record, IsOrdinary exchange :=
          Program.forall_of_gives (fun request state => operational request state) gives
        exact converse_fails input record fault ordinary follows

end Authenticator
end QueryGate.Login
