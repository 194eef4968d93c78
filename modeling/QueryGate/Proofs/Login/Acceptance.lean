import QueryGate.Directory.Script
import QueryGate.Proofs.Login.Outcome
import QueryGate.Proofs.Login.Parts

/-!
# Accepted logins

A login succeeds exactly when the directory answers the requests of its first connection favourably,
and its identity is then the one that its record speaks of.
-/

namespace QueryGate.Login

open Directory (Answerer Entry Source)
open Program (Follows Gives follows_attempt_ok follows_bind follows_done follows_lift)

variable {source : Source} {login password dn filter : String} {direct bindsFirst : Bool} {t : Record}

/-- How a conversation finds out the name to bind with. -/
def establish (source : Source) (input : Screened) : Attempt String :=
  match input.directDn with
  | some dn => pure dn
  | none => findUser source input.filter

def readUser (source : Source) (login filter dn : String) : Attempt (Entry × Bool) := do
  let entry ← readEntry source dn filter
  let isAdmin ← (checkAdmin source dn login : Talk Bool)
  return (entry, isAdmin)

def checkUser (source : Source) (login password filter : String) (bindsFirst : Bool) (dn : String) :
    Attempt Identity :=
  if bindsFirst then do
    bindUser dn password
    let (entry, isAdmin) ← readUser source login filter dn
    return identityOf source login entry isAdmin
  else do
    let (entry, isAdmin) ← readUser source login filter dn
    bindUser dn password
    return identityOf source login entry isAdmin

theorem verify_eq (input : Screened) :
    verify source login password input = establish source input >>= checkUser source login password
      input.filter (input.directDn.isSome || !source.attributesInBind) := by
  unfold verify establish checkUser readUser
  cases input.directDn with
  | some dn => simp
  | none => cases source.attributesInBind <;> simp

theorem follows_establish_ok :
    Follows (establish source (screened source login direct)).run t (.ok dn) ↔
      Named source login direct t dn := by
  cases direct with
  | true =>
    constructor
    · intro h
      obtain ⟨rfl, same⟩ := follows_done.mp h
      cases same
      exact .template
    · rintro ⟨⟩
      exact .done _
  | false =>
    refine follows_findUser_ok.trans ?_
    constructor
    · rintro ⟨found, rfl, named, rfl⟩
      exact .search named
    · rintro ⟨⟩
      exact ⟨_, rfl, ‹_›, rfl⟩

theorem follows_readUser_ok {entry : Entry} {isAdmin : Bool} :
    Follows (readUser source login filter dn).run t (.ok (entry, isAdmin)) ↔
      ∃ others admin, t = ⟨.search dn filter source.attributes.toList, .ok (entry :: others)⟩ :: admin ∧
        AdminChecked source dn login admin isAdmin := by
  simp only [readUser, follows_attempt_ok]
  constructor
  · rintro ⟨_, found, _, rfl, read, admin, elevated, _, rfl, asked, ended⟩
    obtain ⟨rfl, same⟩ := follows_done.mp ended
    cases same
    obtain ⟨others, rfl⟩ := follows_readEntry_ok.mp read
    exact ⟨others, admin, by simp, follows_checkAdmin.mp (follows_lift.mp asked)⟩
  · rintro ⟨others, admin, rfl, checked⟩
    exact ⟨[_], entry, admin, rfl, follows_readEntry_ok.mpr ⟨others, rfl⟩, admin, isAdmin, [], by simp,
      follows_lift.mpr (follows_checkAdmin.mpr checked), .done _⟩

theorem follows_checkUser_ok {identity : Identity} :
    Follows (checkUser source login password (Template.fill source.userFilter login) bindsFirst dn).run t
        (.ok identity) ↔
      ∃ entry isAdmin, Checked source login password dn bindsFirst t entry isAdmin ∧
        identity = identityOf source login entry isAdmin := by
  cases bindsFirst with
  | true =>
    simp only [checkUser, if_true, follows_attempt_ok]
    constructor
    · rintro ⟨_, _, _, rfl, bound, _, ⟨entry, isAdmin⟩, _, rfl, read, ended⟩
      obtain rfl := follows_bindUser_ok.mp bound
      obtain ⟨others, admin, rfl, administrator⟩ := follows_readUser_ok.mp read
      obtain ⟨rfl, same⟩ := follows_done.mp ended
      cases same
      exact ⟨entry, isAdmin, by simpa using .bindFirst administrator, rfl⟩
    · rintro ⟨entry, isAdmin, checked, rfl⟩
      cases checked with
      | bindFirst administrator =>
        exact ⟨[_], (), _, rfl, follows_bindUser_ok.mpr rfl, _, (entry, isAdmin), [],
          (List.append_nil _).symm, follows_readUser_ok.mpr ⟨_, _, rfl, administrator⟩, .done _⟩
  | false =>
    simp only [checkUser, Bool.false_eq_true, if_false, follows_attempt_ok]
    constructor
    · rintro ⟨_, ⟨entry, isAdmin⟩, _, rfl, read, _, _, _, rfl, bound, ended⟩
      obtain rfl := follows_bindUser_ok.mp bound
      obtain ⟨others, admin, rfl, administrator⟩ := follows_readUser_ok.mp read
      obtain ⟨rfl, same⟩ := follows_done.mp ended
      cases same
      exact ⟨entry, isAdmin, by simpa using .bindLast administrator, rfl⟩
    · rintro ⟨entry, isAdmin, checked, rfl⟩
      cases checked with
      | bindLast administrator =>
        exact ⟨_ :: _, (entry, isAdmin), [_], rfl, follows_readUser_ok.mpr ⟨_, _, rfl, administrator⟩,
          [_], (), [], rfl, follows_bindUser_ok.mpr rfl, .done _⟩

theorem screened_bindsFirst :
    ((screened source login direct).directDn.isSome || !source.attributesInBind) =
      (direct || !source.attributesInBind) := by
  cases direct <;> rfl

theorem follows_connected_verify_ok {identity : Identity} :
    Follows (connected source (verify source login password (screened source login direct))).run t
        (.ok identity) ↔
      ∃ entry isAdmin, Verified source login password direct t entry isAdmin ∧
        identity = identityOf source login entry isAdmin := by
  rw [follows_connected, verify_eq, screened_bindsFirst]
  simp only [follows_attempt_ok]
  constructor
  · rintro (⟨_, _, ⟨⟩⟩ | ⟨_, rfl, naming, dn, checking, rfl, named, user⟩)
    obtain ⟨entry, isAdmin, checked, rfl⟩ := follows_checkUser_ok.mp user
    exact ⟨entry, isAdmin, .intro (follows_establish_ok.mp named) checked, rfl⟩
  · rintro ⟨entry, isAdmin, ⟨named, checked⟩, rfl⟩
    exact .inr ⟨_, rfl, _, _, _, rfl, follows_establish_ok.mpr named,
      follows_checkUser_ok.mpr ⟨entry, isAdmin, checked, rfl⟩⟩

theorem follows_converse_ok {identity : Identity} :
    Follows (converse source login password (screened source login direct)).run t (.ok identity) ↔
      Accepted source login password direct t identity := by
  simp only [converse, follows_attempt_ok, follows_connected_verify_ok]
  constructor
  · rintro ⟨session, _, _, rfl, ⟨entry, isAdmin, verified, rfl⟩, lookup, groups, _, rfl, looked, ended⟩
    obtain ⟨rfl, same⟩ := follows_done.mp ended
    cases same
    rw [List.append_nil]
    exact .intro verified (follows_lookUpGroups.mp (follows_lift.mp looked))
  · rintro ⟨verified, looked⟩
    exact ⟨_, _, _, rfl, ⟨_, _, verified, rfl⟩, _, _, [], by simp,
      follows_lift.mpr (follows_lookUpGroups.mpr looked), .done _⟩

namespace Authenticator

variable {σ : Type} {directory : Answerer σ} {authenticator : Authenticator} {state : σ}

/-- A login is turned away before the directory is asked anything, or holds its conversation. -/
theorem turned_away_or_conversed (directory : Answerer σ) (authenticator : Authenticator) (state : σ)
    (login password : String) (direct : Bool) :
    let outcome := authenticate directory login password direct authenticator state
    ((∃ fault, outcome.result = .error fault) ∧ outcome.exchanges = []) ∨
      (authenticator.available = true ∧ Admissible authenticator.source login password direct ∧
        (converse authenticator.source login password
            (screened authenticator.source login direct)).run.run directory state =
          ⟨outcome.result, outcome.exchanges, outcome.directory⟩) := by
  cases on : authenticator.available with
  | false => exact .inl (by simp [authenticate_disabled on])
  | true =>
    cases passed : screen authenticator.source login password direct with
    | error fault => exact .inl (by simp [authenticate_rejected on passed])
    | ok input =>
      obtain ⟨admissible, rfl⟩ := screen_eq_ok.mp passed
      refine .inr ⟨rfl, admissible, ?_⟩
      cases talked : (converse authenticator.source login password
          (screened authenticator.source login direct)).run.run directory state with
      | mk result record final => rw [authenticate_conversed on passed talked]

theorem accepted_of_ok {identity : Identity}
    (accepted : (authenticate directory login password direct authenticator state).result = .ok identity) :
    let outcome := authenticate directory login password direct authenticator state
    authenticator.available = true ∧ Admissible authenticator.source login password direct ∧
      Gives directory state outcome.exchanges outcome.directory ∧
      Accepted authenticator.source login password direct outcome.exchanges identity := by
  obtain ⟨⟨fault, rejected⟩, _⟩ | ⟨on, admissible, talked⟩ :=
    turned_away_or_conversed directory authenticator state login password direct
  · rw [accepted] at rejected
    cases rejected
  · obtain ⟨follows, gives⟩ := Program.run_eq_iff.mp talked
    rw [accepted] at follows
    exact ⟨on, admissible, gives, follows_converse_ok.mp follows⟩

/-- Once the user is verified the login succeeds, whatever becomes of the group lookup. -/
theorem ok_of_verified (on : authenticator.available = true)
    (admissible : Admissible authenticator.source login password direct) {session : Record} {entry : Entry}
    {isAdmin : Bool} {middle : σ}
    (verified : Verified authenticator.source login password direct session entry isAdmin)
    (gives : Gives directory state session middle) :
    ∃ lookup groups final, Gives directory middle lookup final ∧
      GroupsLookedUp authenticator.source (Template.fill authenticator.source.userFilter login)
        lookup groups ∧
      authenticate directory login password direct authenticator state =
        { result := .ok { identityOf authenticator.source login entry isAdmin with groups }
          authenticator
          directory := final
          exchanges := session ++ lookup } := by
  have passed := screen_eq_ok.mpr ⟨admissible, rfl⟩
  let search := lookUpGroups authenticator.source (Template.fill authenticator.source.userFilter login)
  have looked := follows_lookUpGroups.mp (search.run_follows directory middle)
  have searched := search.run_gives directory middle
  have accepted : Accepted authenticator.source login password direct _ _ := .intro verified looked
  have talked := Program.run_eq_iff.mpr
    ⟨follows_converse_ok.mpr accepted, Program.gives_append.mpr ⟨middle, gives, searched⟩⟩
  exact ⟨_, _, _, searched, looked, authenticate_conversed on passed talked⟩

/--
Soundness and completeness of logins: exactly the logins succeed whose source is available, whose
input passes the screening and whose first connection verifies the user, whatever the directory does
later on; and the identity is then made of what the record of the whole login says.
-/
theorem authenticate_succeeds_iff_verified {σ : Type} (directory : Answerer σ)
    (authenticator : Authenticator) (state : σ) (login password : String) (direct : Bool) :
    let source := authenticator.source
    let outcome := authenticate directory login password direct authenticator state
    ((∃ identity, outcome.result = .ok identity) ↔
      authenticator.available = true ∧ Admissible source login password direct ∧
        ∃ session entry isAdmin after, Verified source login password direct session entry isAdmin ∧
          Gives directory state session after) ∧
    ∀ identity, outcome.result = .ok identity ↔
      Accepted source login password direct outcome.exchanges identity := by
  intro source outcome
  refine ⟨⟨?_, ?_⟩, fun identity => ⟨?_, ?_⟩⟩
  · rintro ⟨identity, accepted⟩
    obtain ⟨on, admissible, gives, whole⟩ := accepted_of_ok accepted
    generalize outcome.exchanges = record at gives whole
    cases whole with
    | intro verified looked =>
      obtain ⟨middle, first, _⟩ := Program.gives_append.mp gives
      exact ⟨on, admissible, _, _, _, middle, verified, first⟩
  · rintro ⟨on, admissible, session, entry, isAdmin, after, verified, gives⟩
    obtain ⟨_, groups, _, _, _, same⟩ := ok_of_verified on admissible verified gives
    exact ⟨_, congrArg Outcome.result same⟩
  · exact fun accepted => (accepted_of_ok accepted).2.2.2
  · intro whole
    obtain ⟨_, silent⟩ | ⟨_, _, talked⟩ :=
      turned_away_or_conversed directory authenticator state login password direct
    · exact absurd silent whole.ne_nil
    · exact (Program.run_eq_iff.mp talked).1.unique (follows_converse_ok.mpr whole)

/-- A password is only bound with, so characters that are special in filters do no harm in it. -/
theorem special_password_succeeds :
    let entry : Entry := { dn := "uid=tesla" }
    let outcome := authenticate Directory.Script.answer "tesla" "pa(ss" false { source := {} }
      { searches := [.ok [entry], .ok [entry]] }
    (∃ identity, outcome.result = .ok identity) ∧ ∃ c ∈ "pa(ss".toList, c ∈ filterSpecials := by
  intro entry outcome
  have accepted : outcome.result = .ok { username := "tesla" } := by rfl
  exact ⟨⟨_, accepted⟩, '(', by decide, by decide⟩

end Authenticator
end QueryGate.Login
