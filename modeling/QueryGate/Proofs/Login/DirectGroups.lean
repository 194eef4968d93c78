import QueryGate.Config.Validation
import QueryGate.Proofs.Login.InMemory

/-!
# Groups after a direct bind

A direct bind takes the user's name from a template, but the groups are those of the first match under
the user base. They are the user's own only if that match happens to have the user's groups.
-/

namespace QueryGate.Login

open Directory (Entry Memory Source)

/-- No groups, or those of an entry with the name. -/
def GroupsOf (memory : Memory) (source : Source) (dn : String) (groups : List String) : Prop :=
  groups = [] ∨ ∃ member ∈ memory.members, Text.sameLetters member.entry.dn dn = true ∧
    groups = member.entry.values source.groupAttribute

def LooksUp (memory : Memory) (source : Source) : Prop :=
  source.userBase ≠ "" ∧ memory.refuses = false ∧ serviceBinds memory source = true

variable {memory : Memory} {source : Source} {filter : String}

theorem groupsIn_eq_nil {entries : List Entry} (searched : memory.search source.userBase filter = .ok entries)
    (nothing : ¬ LooksUp memory source ∨ entries = []) : groupsIn memory source filter = [] := by
  unfold groupsIn
  rw [searched]
  rcases nothing with idle | rfl
  · have stopped : source.userBase = "" ∨ memory.refuses ∨ !serviceBinds memory source := by
      grind [LooksUp]
    rw [if_pos stopped]
  · exact ite_self _

theorem groupsIn_eq_first (busy : LooksUp memory source) {first : Entry} {others : List Entry}
    (searched : memory.search source.userBase filter = .ok (first :: others)) :
    groupsIn memory source filter = first.values source.groupAttribute := by
  obtain ⟨base, connects, service⟩ := busy
  unfold groupsIn
  rw [searched]
  exact if_neg (by simp [base, connects, service])

namespace Authenticator

theorem login_eq_authenticate {σ : Type} {directory : Directory.Answerer σ} {authenticator : Authenticator}
    {name password : String} {state : σ} (direct : authenticator.source.useDirectBind = true) :
    login directory name password authenticator state =
      authenticate directory name password true authenticator state := by
  unfold login authenticate Login.login
  rw [direct]

theorem direct_login_ok {memory : Memory} {name password dn : String} {entry : Entry} {isAdmin : Bool}
    (authenticator : Authenticator) (direct : authenticator.source.useDirectBind = true)
    (on : authenticator.available = true) (admissible : Admissible authenticator.source name password true)
    (verified : VerifiedIn memory authenticator.source name password true dn entry isAdmin)
    {groups : List String}
    (found : groupsIn memory.opened authenticator.source
      (Template.fill authenticator.source.userFilter name) = groups) :
    (login Memory.answer name password authenticator memory).result =
      .ok { identityOf authenticator.source name entry isAdmin with groups } := by
  rw [login_eq_authenticate direct, ← found]
  exact authenticate_in_memory.mpr ⟨on, admissible, dn, entry, isAdmin, verified, rfl⟩

/--
The groups after a direct bind are those of the first match under the user base, so they are the
user's own exactly when that match has the groups of an entry with the user's name, or none.
-/
theorem direct_login_groups_own_iff (memory : Memory) (authenticator : Authenticator)
    (name password : String) (identity : Identity) (direct : authenticator.source.useDirectBind = true)
    (accepted : (login Memory.answer name password authenticator memory).result = .ok identity) :
    let source := authenticator.source
    let own := GroupsOf memory source (Template.fill source.userDn name)
    let matching := memory.entriesMatching source.userBase (Template.fill source.userFilter name)
    (¬ LooksUp memory.opened source ∨ matching = [] → identity.groups = []) ∧
    (∀ first others, LooksUp memory.opened source → matching = first :: others →
      identity.groups = first.values source.groupAttribute) ∧
    (own identity.groups ↔
      ∀ first others, LooksUp memory.opened source → matching = first :: others →
        own (first.values source.groupAttribute)) := by
  intro source own matching
  rw [login_eq_authenticate direct] at accepted
  obtain ⟨_, _, _, _, _, verified, rfl⟩ := authenticate_in_memory.mp accepted
  -- The attributes were found with the same filter, so it fails no search.
  obtain ⟨_, read⟩ := verified.read
  obtain ⟨answered, succeeds, _⟩ := Memory.search_eq_ok.mp read
  have searched : memory.opened.search source.userBase (Template.fill source.userFilter name) =
      .ok matching :=
    Memory.search_eq_ok.mpr ⟨answered, succeeds, rfl⟩
  have groups : ∀ first others, LooksUp memory.opened source → matching = first :: others →
      groupsIn memory.opened source (Template.fill source.userFilter name) =
        first.values source.groupAttribute := by
    intro first others busy found
    rw [found] at searched
    exact groupsIn_eq_first busy searched
  refine ⟨groupsIn_eq_nil searched, groups, ?_, ?_⟩
  · intro holds first others busy found
    rw [← groups first others busy found]
    exact holds
  · intro holds
    by_cases nothing : ¬ LooksUp memory.opened source ∨ matching = []
    · exact .inl (groupsIn_eq_nil searched nothing)
    · obtain ⟨notIdle, some⟩ := not_or.mp nothing
      have busy := Classical.not_not.mp notIdle
      obtain ⟨first, others, found⟩ := List.exists_cons_of_ne_nil some
      show own (groupsIn memory.opened source (Template.fill source.userFilter name))
      rw [groups first others busy found]
      exact holds first others busy found

/-! ### Two entries with one login name -/

def tesla : Entry where
  dn := "uid=tesla,dc=example,dc=com"
  attributes := [("uid", ["tesla"]), ("memberOf", ["scientists"])]

def namesake : Entry where
  dn := "uid=tesla,ou=guests,dc=example,dc=com"
  attributes := [("uid", ["tesla"]), ("memberOf", ["admins"])]

def templated : Source where
  userBase := "dc=example,dc=com"
  userDn := "uid=%s,dc=example,dc=com"
  useDirectBind := true

theorem tesla_matches : Directory.Filter.matchesText tesla "(uid=tesla)".toList = true := by
  rw [Directory.Filter.matchesText]
  rfl

theorem namesake_matches : Directory.Filter.matchesText namesake "(uid=tesla)".toList = true := by
  rw [Directory.Filter.matchesText]
  rfl

theorem tesla_logs_in {memory : Memory} (unlimited : memory.maxConnects = none)
    (bound : memory.bind tesla.dn "password" = .bound)
    (own : memory.search tesla.dn "(uid=tesla)" = .ok [tesla]) {first : Entry} {others : List Entry}
    (searched : memory.search templated.userBase "(uid=tesla)" = .ok (first :: others)) :
    (login Memory.answer "tesla" "password" { source := templated } memory).result =
      .ok { username := "tesla", groups := first.values "memberOf" } := by
  have named : Template.fill templated.userDn "tesla" = tesla.dn := by decide
  have filter : Template.fill templated.userFilter "tesla" = "(uid=tesla)" := by decide
  have admissible : Admissible templated "tesla" "password" true :=
    ⟨by decide, by decide, hasAny_eq_false.mp (by decide), fun _ => by decide⟩
  have verified : VerifiedIn memory templated "tesla" "password" true tesla.dn tesla false := {
    connects := by simp [Memory.refuses, unlimited]
    found := named.symm
    bound
    read := ⟨[], by rw [filter, own]⟩
    elevated := by simp [Elevated, templated] }
  have busy : LooksUp memory.opened templated :=
    ⟨by decide, by simp [Memory.refuses, Memory.opened, unlimited], rfl⟩
  have groups := groupsIn_eq_first busy searched
  rw [← filter] at groups
  have identified : identityOf templated "tesla" tesla false = { username := "tesla" } := by decide
  have accepted := direct_login_ok { source := templated } rfl rfl admissible verified groups
  rw [identified] at accepted
  exact accepted

/-- A match listed after the user's own entry does no harm. -/
theorem direct_login_keeps_own_groups :
    let memory : Memory :=
      { members := [{ entry := tesla, password := some "password" }, { entry := namesake }] }
    let identity : Identity := { username := "tesla", groups := ["scientists"] }
    templated.useDirectBind = true ∧
    (login Memory.answer "tesla" "password" { source := templated } memory).result = .ok identity ∧
    GroupsOf memory templated (Template.fill templated.userDn "tesla") identity.groups := by
  intro memory identity
  have matched : ∀ member ∈ memory.members,
      Directory.Filter.matchesText member.entry "(uid=tesla)".toList = true :=
    List.forall_mem_cons.mpr ⟨tesla_matches, List.forall_mem_singleton.mpr namesake_matches⟩
  have own : memory.search tesla.dn "(uid=tesla)" = .ok [tesla] :=
    Memory.search_of_all_match List.not_mem_nil List.not_mem_nil matched (by decide)
  have searched : memory.search templated.userBase "(uid=tesla)" = .ok [tesla, namesake] :=
    Memory.search_of_all_match List.not_mem_nil List.not_mem_nil matched (by decide)
  have accepted : (login Memory.answer "tesla" "password" { source := templated } memory).result =
      .ok identity := tesla_logs_in rfl (by decide) own searched
  refine ⟨rfl, accepted,
    (direct_login_groups_own_iff memory { source := templated } "tesla" "password" identity rfl
      accepted).2.2.mpr ?_⟩
  have filter : Template.fill templated.userFilter "tesla" = "(uid=tesla)" := by decide
  intro first others _ found
  rw [filter, (Memory.search_eq_ok.mp searched).2.2] at found
  obtain ⟨rfl, -⟩ := List.cons.inj found
  exact .inr ⟨_, List.mem_cons_self, by decide, rfl⟩

/-- Another entry with the login name, listed before the user's own, hands its groups to the user. -/
theorem direct_login_gives_groups_of_another :
    let memory : Memory :=
      { members := [{ entry := namesake }, { entry := tesla, password := some "password" }] }
    templated.validate = .ok () ∧
    ∃ identity, (login Memory.answer "tesla" "password" { source := templated } memory).result = .ok identity ∧
      identity.groups = namesake.values "memberOf" ∧
      ¬ GroupsOf memory templated (Template.fill templated.userDn "tesla") identity.groups := by
  intro memory
  have valid : templated.validate = .ok () := by
    unfold Source.validate Source.checkTemplate
    rfl
  have matched : ∀ member ∈ memory.members,
      Directory.Filter.matchesText member.entry "(uid=tesla)".toList = true :=
    List.forall_mem_cons.mpr ⟨namesake_matches, List.forall_mem_singleton.mpr tesla_matches⟩
  have own : memory.search tesla.dn "(uid=tesla)" = .ok [tesla] :=
    Memory.search_of_all_match List.not_mem_nil List.not_mem_nil matched (by decide)
  have searched : memory.search templated.userBase "(uid=tesla)" = .ok [namesake, tesla] :=
    Memory.search_of_all_match List.not_mem_nil List.not_mem_nil matched (by decide)
  refine ⟨valid, _, tesla_logs_in rfl (by decide) own searched, rfl, ?_⟩
  rintro (nothing | ⟨member, listed, same, groups⟩)
  · cases nothing
  · rcases List.mem_cons.mp listed with rfl | listed
    · revert same
      decide
    · rw [List.mem_singleton.mp listed] at groups
      revert groups
      decide

end Authenticator
end QueryGate.Login
