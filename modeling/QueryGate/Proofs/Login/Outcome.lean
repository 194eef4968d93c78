import QueryGate.Proofs.Login.Record
import QueryGate.Proofs.Program.Trace

/-!
# Outcomes of logins

How the run of a login against an authenticator and a directory comes down to the conversation. The
flag is looked at before and after it, and neither look is seen by the directory.
-/

namespace QueryGate.Login

open Directory (Answerer Source)

def screened (source : Source) (login : String) (direct : Bool) : Screened where
  directDn := if direct then some (Template.fill source.userDn login) else none
  filter := Template.fill source.userFilter login

theorem hasAny_eq_false {specials : List Char} {text : String} :
    hasAny specials text = false ↔ ∀ c ∈ text.toList, c ∉ specials := by
  simp [hasAny]

theorem filterSpecials_subset : filterSpecials ⊆ nameSpecials :=
  List.subset_append_left _ _

theorem userFilter_eq_ok {source : Source} {login filter : String} :
    userFilter source login = .ok filter ↔
      (∀ c ∈ login.toList, c ∉ filterSpecials) ∧ filter = Template.fill source.userFilter login := by
  rw [← hasAny_eq_false]
  cases special : hasAny filterSpecials login <;> simp [userFilter, special, eq_comm]

theorem userDn_eq_ok {source : Source} {login dn : String} :
    userDn source login = .ok dn ↔
      Template.holes source.userDn = 1 ∧ (∀ c ∈ login.toList, c ∉ nameSpecials) ∧
        dn = Template.fill source.userDn login := by
  rw [← hasAny_eq_false]
  by_cases template : Template.holes source.userDn = 1
  · cases special : hasAny nameSpecials login <;> simp [userDn, template, special, eq_comm]
  · simp [userDn, template]

theorem screen_eq_ok {source : Source} {login password : String} {direct : Bool} {input : Screened} :
    screen source login password direct = .ok input ↔
      Admissible source login password direct ∧ input = screened source login direct := by
  unfold screen
  split
  · rename_i missing
    constructor
    · intro h
      cases h
    · rintro ⟨admissible, _⟩
      exact (missing.elim admissible.login_given admissible.password_given).elim
  · rename_i given
    obtain ⟨loginGiven, passwordGiven⟩ := not_or.mp given
    cases direct with
    | false =>
      simp only [Bool.false_eq_true, if_false, Result.bind_ok_iff]
      constructor
      · rintro ⟨_, ⟨⟩, filter, filtered, ⟨⟩⟩
        obtain ⟨plain, rfl⟩ := userFilter_eq_ok.mp filtered
        exact ⟨⟨loginGiven, passwordGiven, plain, by simp⟩, rfl⟩
      · rintro ⟨admissible, rfl⟩
        exact ⟨none, rfl, _, userFilter_eq_ok.mpr ⟨admissible.plain, rfl⟩, rfl⟩
    | true =>
      simp only [if_true, Result.bind_ok_iff, Result.map_ok_iff]
      constructor
      · rintro ⟨_, ⟨dn, named, rfl⟩, filter, filtered, ⟨⟩⟩
        obtain ⟨template, plain, rfl⟩ := userDn_eq_ok.mp named
        obtain ⟨_, rfl⟩ := userFilter_eq_ok.mp filtered
        exact ⟨⟨loginGiven, passwordGiven, plain, fun _ => template⟩, rfl⟩
      · rintro ⟨admissible, rfl⟩
        refine ⟨_, ⟨_, userDn_eq_ok.mpr ⟨admissible.template rfl, admissible.plain, rfl⟩, rfl⟩, _,
          userFilter_eq_ok.mpr ⟨?_, rfl⟩, rfl⟩
        -- the filter is checked against fewer characters than the name was
        exact fun c member special => admissible.plain c member (filterSpecials_subset special)

theorem screen_eq_error {source : Source} {login password : String} {direct : Bool} {fault : Fault}
    (rejected : screen source login password direct = .error fault) : fault = .inputRejected := by
  have filtered {fault : Fault} (h : userFilter source login = .error fault) : fault = .inputRejected := by
    unfold userFilter at h
    split at h <;> cases h
    rfl
  have named {fault : Fault} (h : userDn source login = .error fault) : fault = .inputRejected := by
    unfold userDn at h
    split at h
    · cases h; rfl
    · split at h <;> cases h
      rfl
  unfold screen at rejected
  split at rejected
  · cases rejected
    rfl
  · cases direct with
    | false =>
      simp only [Bool.false_eq_true, if_false, Result.bind_error_iff] at rejected
      obtain ⟨⟨⟩⟩ | ⟨_, _, h | ⟨_, _, ⟨⟩⟩⟩ := rejected
      exact filtered h
    | true =>
      simp only [if_true, Result.bind_error_iff, Result.map_error_iff] at rejected
      obtain h | ⟨_, _, h | ⟨_, _, ⟨⟩⟩⟩ := rejected
      · exact named h
      · exact filtered h

namespace Authenticator

variable {σ : Type} {directory : Answerer σ} {authenticator : Authenticator} {state : σ}
  {login password : String} {direct : Bool}

theorem directoryExchanges_append (before after : List (Program.Exchange Effect Effect.Answer)) :
    directoryExchanges (before ++ after) = directoryExchanges before ++ directoryExchanges after := by
  induction before with
  | nil => rfl
  | cons exchange before ih =>
    obtain ⟨effect, given⟩ := exchange
    cases effect <;> simp [directoryExchanges, ih]

/-- A conversation within a login runs as it does by itself, and leaves the flag alone. -/
theorem run_ofTalk {α : Type} {talk : Talk α} (authenticator : Authenticator) {state : σ} {result : α}
    {record : Record} {final : σ}
    (talked : talk.run directory state = ⟨result, record, final⟩) :
    ∃ exchanges, (Steps.ofTalk talk).run (answer directory) (authenticator, state) =
        ⟨result, exchanges, (authenticator, final)⟩ ∧ directoryExchanges exchanges = record := by
  induction talk generalizing state record with
  | done a =>
    cases talked
    exact ⟨[], rfl, rfl⟩
  | ask request next ih =>
    rw [Program.run] at talked
    cases talked
    obtain ⟨exchanges, ran, same⟩ := ih (directory request state).1 rfl
    refine ⟨⟨.directory request, (directory request state).1⟩ :: exchanges, ?_, ?_⟩
    · have step : (Steps.ofTalk (.ask request next)).run (answer directory) (authenticator, state) =
          let rest := (Steps.ofTalk (next (directory request state).1)).run (answer directory)
            (authenticator, (directory request state).2)
          { rest with
            exchanges := ⟨.directory request, (directory request state).1⟩ :: rest.exchanges } := rfl
      rw [step, ran]
    · rw [directoryExchanges, same]

def isUnreachable : Except Fault Identity → Bool
  | .error (.directoryUnavailable _) => true
  | _ => false

/-- What follows an attempt: a directory out of reach disables the source. -/
def settle (result : Except Fault Identity) : Steps (Except Fault Identity) :=
  if isUnreachable result then do
    if ← Steps.isAvailable then Steps.disable
    return result
  else return result

theorem authenticate_steps (source : Source) :
    Login.authenticate source login password direct = attempt source login password direct >>= settle := by
  refine congrArg (_ >>= ·) (funext fun result => ?_)
  rcases result with fault | identity
  · cases fault <;> rfl
  · rfl

theorem run_settle (directory : Answerer σ) (authenticator : Authenticator) (state : σ)
    (result : Except Fault Identity) :
    let settled := (settle result).run (answer directory) (authenticator, state)
    settled.result = result ∧ directoryExchanges settled.exchanges = [] ∧
      settled.state =
        (if isUnreachable result then authenticator.setAvailable false else authenticator, state) := by
  unfold settle
  split
  · obtain ⟨source, _ | _⟩ := authenticator <;> exact ⟨rfl, rfl, rfl⟩
  · exact ⟨rfl, rfl, rfl⟩

theorem authenticate_of_attempt {result : Except Fault Identity} {final : σ}
    {exchanges : List (Program.Exchange Effect Effect.Answer)}
    (ran : (attempt authenticator.source login password direct).run (answer directory)
      (authenticator, state) = ⟨result, exchanges, (authenticator, final)⟩) :
    authenticate directory login password direct authenticator state =
      { result
        authenticator := if isUnreachable result then authenticator.setAvailable false else authenticator
        directory := final
        exchanges := directoryExchanges exchanges } := by
  unfold authenticate run
  simp only [authenticate_steps, Program.run_bind, ran, directoryExchanges_append]
  obtain ⟨same, quiet, flag⟩ := run_settle directory authenticator final result
  simp only [same, quiet, flag, List.append_nil]

theorem attempt_eq (source : Source) :
    attempt source login password direct = .ask .isAvailable fun available =>
      if available then
        match screen source login password direct with
        | .error fault => .done (.error fault)
        | .ok input => Steps.ofTalk (converse source login password input).run
      else .done (.error (.directoryUnavailable ("source '" ++ source.name ++ "' is disabled"))) :=
  rfl

/-- A disabled source is not asked again. -/
theorem authenticate_disabled (off : authenticator.available = false) :
    authenticate directory login password direct authenticator state =
      { result := .error
          (.directoryUnavailable ("source '" ++ authenticator.source.name ++ "' is disabled"))
        authenticator
        directory := state
        exchanges := [] } := by
  have ran : (attempt authenticator.source login password direct).run (answer directory)
      (authenticator, state) =
      ⟨.error (.directoryUnavailable ("source '" ++ authenticator.source.name ++ "' is disabled")),
        [⟨.isAvailable, false⟩], (authenticator, state)⟩ := by
    simp only [attempt_eq, Program.run, answer, off]
    rfl
  rw [authenticate_of_attempt ran]
  obtain ⟨source, _⟩ := authenticator
  cases off
  rfl

theorem authenticate_rejected (on : authenticator.available = true) {fault : Fault}
    (rejected : screen authenticator.source login password direct = .error fault) :
    authenticate directory login password direct authenticator state =
      { result := .error .inputRejected, authenticator, directory := state, exchanges := [] } := by
  have ran : (attempt authenticator.source login password direct).run (answer directory)
      (authenticator, state) = ⟨.error .inputRejected, [⟨.isAvailable, true⟩], (authenticator, state)⟩ := by
    simp only [attempt_eq, rejected, screen_eq_error rejected, Program.run, answer, on]
    rfl
  rw [authenticate_of_attempt ran]
  rfl

theorem authenticate_conversed (on : authenticator.available = true) {input : Screened}
    (passed : screen authenticator.source login password direct = .ok input)
    {result : Except Fault Identity} {record : Record} {final : σ}
    (talked : (converse authenticator.source login password input).run.run directory state =
      ⟨result, record, final⟩) :
    authenticate directory login password direct authenticator state =
      { result
        authenticator := if isUnreachable result then authenticator.setAvailable false else authenticator
        directory := final
        exchanges := record } := by
  obtain ⟨exchanges, within, same⟩ := run_ofTalk authenticator talked
  have ran : (attempt authenticator.source login password direct).run (answer directory)
      (authenticator, state) = ⟨result, ⟨.isAvailable, true⟩ :: exchanges, (authenticator, final)⟩ := by
    simp only [attempt_eq, passed, Program.run, answer, on, if_true, within]
  have silent : directoryExchanges (⟨.isAvailable, true⟩ :: exchanges) = record := same
  rw [authenticate_of_attempt ran, silent]

end Authenticator
end QueryGate.Login
