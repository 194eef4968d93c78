import QueryGate.Proofs.Login.InMemory

/-! The name to bind with, the attributes and the groups come from three searches with different
bases. When the first of them finds a single entry, the others find that entry too. -/

namespace QueryGate.Login

open Directory (Entry Memory Source)

/-- What it takes to log in as an entry that is searched for. -/
structure Entitled (memory : Memory) (source : Source) (login password : String) (entry : Entry) :
    Prop where
  admissible : Admissible source login password false
  connects : memory.refuses = false
  service : ∀ dn secret, source.serviceCredentials = some (dn, secret) →
    ∃ member ∈ memory.members, Text.sameLetters member.entry.dn dn = true ∧ member.password = some secret
  answered : Template.fill source.userFilter login ∉ memory.stalledFilters
  succeeds : Template.fill source.userFilter login ∉ memory.failingFilters
  only : memory.entriesMatching source.userBase (Template.fill source.userFilter login) = [entry]
  named : entry.dn ≠ ""
  secret : ∃ member ∈ memory.members, Text.sameLetters member.entry.dn entry.dn = true ∧
    member.password = some password

variable {memory : Memory} {source : Source} {login password dn : String} {entry : Entry} {isAdmin : Bool}

theorem serviceBinds_iff :
    serviceBinds memory source = true ↔
      ∀ dn secret, source.serviceCredentials = some (dn, secret) →
        ∃ member ∈ memory.members, Text.sameLetters member.entry.dn dn = true ∧
          member.password = some secret := by
  simp only [← Memory.accepts_iff]
  unfold serviceBinds
  cases source.serviceCredentials with
  | none => simp
  | some credentials => simp [Prod.ext_iff]

/-- The entry that is read is the entry that was found. -/
theorem entitled_of_verifiedIn (admissible : Admissible source login password false)
    (verified : VerifiedIn memory source login password false dn entry isAdmin) :
    Entitled memory source login password entry ∧ dn = entry.dn := by
  obtain ⟨connects, ⟨service, found, searched, rfl, named⟩, bound, ⟨others, read⟩, _⟩ := verified
  obtain ⟨answered, succeeds, only⟩ := Memory.search_eq_ok.mp searched
  obtain ⟨_, _, matched⟩ := Memory.search_eq_ok.mp read
  rw [Memory.entriesMatching_own_name named only] at matched
  obtain ⟨rfl, -⟩ := List.cons.inj matched
  have secret := Memory.accepts_iff.mp ((Memory.bind_eq_bound admissible.password_given).mp bound)
  exact ⟨⟨admissible, connects, serviceBinds_iff.mp service, answered, succeeds, only, named, secret⟩, rfl⟩

theorem Entitled.verifiedIn (entitled : Entitled memory source login password entry)
    (elevated : isAdmin = true ↔ Elevated memory source entry.dn login) :
    VerifiedIn memory source login password false entry.dn entry isAdmin := by
  have searched := Memory.search_eq_ok.mpr ⟨entitled.answered, entitled.succeeds, entitled.only⟩
  have own := Memory.entriesMatching_own_name entitled.named entitled.only
  exact {
    connects := entitled.connects
    found := ⟨serviceBinds_iff.mpr entitled.service, entry, searched, rfl, entitled.named⟩
    bound := (Memory.bind_eq_bound entitled.admissible.password_given).mpr
      (Memory.accepts_iff.mpr entitled.secret)
    read := ⟨[], Memory.search_eq_ok.mpr ⟨entitled.answered, entitled.succeeds, own⟩⟩
    elevated }

theorem Entitled.groupsIn_eq (entitled : Entitled memory source login password entry) :
    groupsIn memory.opened source (Template.fill source.userFilter login) =
      if source.userBase = "" ∨ memory.opened.refuses = true then []
      else entry.values source.groupAttribute := by
  have searched := Memory.search_eq_ok.mpr ⟨entitled.answered, entitled.succeeds, entitled.only⟩
  unfold groupsIn
  rw [serviceBinds_opened, serviceBinds_iff.mpr entitled.service, Memory.opened_search, searched]
  simp

namespace Authenticator

theorem succeeds_of_entitled {authenticator : Authenticator} (on : authenticator.available = true)
    (entitled : Entitled memory authenticator.source login password entry) :
    ∃ identity, (authenticate Memory.answer login password false authenticator memory).result =
      .ok identity := by
  obtain ⟨isAdmin, elevated⟩ : ∃ isAdmin : Bool,
      isAdmin = true ↔ Elevated memory authenticator.source entry.dn login := by
    classical exact ⟨decide _, decide_eq_true_iff⟩
  have verified := entitled.verifiedIn elevated
  exact ⟨_, authenticate_in_memory.mpr ⟨on, entitled.admissible, _, _, _, verified, rfl⟩⟩

/--
Against an in-memory directory exactly the entitled users log in, with the attributes and the groups
of the one entry that was found.
-/
theorem searched_login_succeeds_iff_entitled (memory : Memory) (authenticator : Authenticator)
    (login password : String) :
    let source := authenticator.source
    let outcome := authenticate Memory.answer login password false authenticator memory
    ((∃ identity, outcome.result = .ok identity) ↔
      authenticator.available = true ∧ ∃ entry, Entitled memory source login password entry) ∧
    ∀ identity entry, outcome.result = .ok identity → Entitled memory source login password entry →
      identity.username =
        (if entry.firstValue source.attributes.username = "" then login
        else entry.firstValue source.attributes.username) ∧
      identity.name = entry.firstValue source.attributes.name ∧
      identity.surname = entry.firstValue source.attributes.surname ∧
      identity.mail = entry.firstValue source.attributes.mail ∧
      (identity.isAdmin = true ↔ Elevated memory source entry.dn login) ∧
      identity.groups =
        if source.userBase = "" ∨ memory.opened.refuses = true then []
        else entry.values source.groupAttribute := by
  intro source outcome
  refine ⟨⟨?_, ?_⟩, ?_⟩
  · rintro ⟨identity, accepted⟩
    obtain ⟨on, admissible, dn, entry, isAdmin, verified, _⟩ := authenticate_in_memory.mp accepted
    exact ⟨on, entry, (entitled_of_verifiedIn admissible verified).1⟩
  · rintro ⟨on, entry, entitled⟩
    exact succeeds_of_entitled on entitled
  · intro identity entry accepted entitled
    obtain ⟨_, admissible, dn, found, isAdmin, verified, rfl⟩ := authenticate_in_memory.mp accepted
    obtain ⟨foundEntitled, rfl⟩ := entitled_of_verifiedIn admissible verified
    obtain ⟨rfl, -⟩ := List.cons.inj (foundEntitled.only.symm.trans entitled.only)
    exact ⟨rfl, rfl, rfl, rfl, verified.elevated, entitled.groupsIn_eq⟩

/-- A password may hold characters that are special in filters. -/
theorem searched_login_allows_special_password :
    let entry : Entry := { dn := "uid=tesla,dc=example,dc=com", attributes := [("uid", ["tesla"])] }
    let memory : Memory := { members := [{ entry, password := some "pa(ss" }] }
    let outcome := authenticate Memory.answer "tesla" "pa(ss" false
      { source := { userBase := "dc=example,dc=com" } } memory
    (∃ identity, outcome.result = .ok identity) ∧ ∃ c ∈ "pa(ss".toList, c ∈ filterSpecials := by
  intro entry memory outcome
  let source : Source := { userBase := "dc=example,dc=com" }
  have admissible : Admissible source "tesla" "pa(ss" false :=
    ⟨by decide, by decide, hasAny_eq_false.mp (by decide), nofun⟩
  have filter : Template.fill source.userFilter "tesla" = "(uid=tesla)" := by decide
  have matched : ∀ member ∈ memory.members,
      Directory.Filter.matchesText member.entry "(uid=tesla)".toList = true := by
    intro member listed
    rw [List.mem_singleton.mp listed, Directory.Filter.matchesText]
    rfl
  have only : memory.entriesMatching source.userBase "(uid=tesla)" = [entry] := by
    rw [Memory.entriesMatching_of_all_match matched]
    decide
  have entitled : Entitled memory source "tesla" "pa(ss" entry := {
    admissible
    connects := rfl
    service := by
      intro dn secret given
      cases given
    answered := List.not_mem_nil
    succeeds := List.not_mem_nil
    only := by rw [filter, only]
    named := by decide
    secret := ⟨_, List.mem_singleton_self _, by decide, rfl⟩ }
  exact ⟨succeeds_of_entitled rfl entitled, '(', by decide, by decide⟩

end Authenticator
end QueryGate.Login
