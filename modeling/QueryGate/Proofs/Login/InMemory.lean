import QueryGate.Proofs.Directory.Memory
import QueryGate.Proofs.Login.Acceptance

/-!
# Logins against in-memory directories

Which logins an in-memory directory lets succeed, and of which entries their identities are made.
-/

namespace QueryGate.Login

open Directory (BindOutcome Entry Memory Source isUnder)
open Program (Gives)

/-- Whether the service identity, if there is one, can bind. -/
def serviceBinds (memory : Memory) (source : Source) : Bool :=
  source.serviceCredentials.all fun (dn, password) => memory.accepts dn password

/-- The name that a login binds with. -/
def FoundIn (memory : Memory) (source : Source) (login : String) : Bool → String → Prop
  | true, dn => dn = Template.fill source.userDn login
  | false, dn =>
    serviceBinds memory source = true ∧ ∃ found,
      memory.search source.userBase (Template.fill source.userFilter login) = .ok [found] ∧
        found.dn = dn ∧ dn ≠ ""

/-- Whether something under a name matches the administrator filter. -/
def Elevated (memory : Memory) (source : Source) (dn login : String) : Prop :=
  ∃ template entry others, source.adminFilter = some template ∧ template ≠ "" ∧
    memory.search dn (Template.fill template login) = .ok (entry :: others)

/-- What the directory has to hold for a user to be verified. -/
structure VerifiedIn (memory : Memory) (source : Source) (login password : String) (direct : Bool)
    (dn : String) (entry : Entry) (isAdmin : Bool) : Prop where
  connects : memory.refuses = false
  found : FoundIn memory source login direct dn
  bound : memory.bind dn password = .bound
  read : ∃ others, memory.search dn (Template.fill source.userFilter login) = .ok (entry :: others)
  elevated : isAdmin = true ↔ Elevated memory source dn login

/-- The groups of the first match, if the connection, the service bind and the search succeed. -/
def groupsIn (memory : Memory) (source : Source) (filter : String) : List String :=
  if source.userBase = "" ∨ memory.refuses ∨ !serviceBinds memory source then []
  else
    match memory.search source.userBase filter with
    | .ok (entry :: _) => entry.values source.groupAttribute
    | _ => []

variable {memory final : Memory} {source : Source} {login password dn filter : String}
  {direct bindsFirst isAdmin : Bool} {entry : Entry} {record rest : Record}

@[simp] theorem serviceBinds_opened : serviceBinds memory.opened source = serviceBinds memory source :=
  rfl

@[simp] theorem foundIn_opened :
    FoundIn memory.opened source login direct dn ↔ FoundIn memory source login direct dn := by
  cases direct <;> rfl

/-! ### The first connection -/

theorem gives_serviceBind :
    Gives Memory.answer memory (serviceBind source ++ rest) final ↔
      serviceBinds memory source = true ∧ Gives Memory.answer memory rest final := by
  unfold serviceBind serviceBinds
  cases given : source.serviceCredentials with
  | none => simp
  | some credentials =>
    obtain ⟨dn, password⟩ := credentials
    have nonempty : password ≠ "" := (Directory.Source.serviceCredentials_eq_some_iff.mp given).2.2.2
    simp [Memory.bind_eq_bound nonempty]

theorem named_in_memory :
    (∃ record, Named source login direct record dn ∧ Gives Memory.answer memory (record ++ rest) final) ↔
      FoundIn memory source login direct dn ∧ Gives Memory.answer memory rest final := by
  cases direct with
  | true =>
    constructor
    · rintro ⟨_, ⟨⟩, gives⟩
      exact ⟨rfl, gives⟩
    · rintro ⟨rfl, gives⟩
      exact ⟨[], .template, gives⟩
  | false =>
    constructor
    · rintro ⟨_, found, gives⟩
      cases found with
      | search named =>
        rw [List.append_assoc, gives_serviceBind] at gives
        obtain ⟨service, searched, gives⟩ := gives
        exact ⟨⟨service, _, searched, rfl, named⟩, gives⟩
    · rintro ⟨⟨service, found, searched, rfl, named⟩, gives⟩
      refine ⟨_, .search named, ?_⟩
      rw [List.append_assoc, gives_serviceBind]
      exact ⟨service, searched, gives⟩

theorem elevated_of_adminChecked (checked : AdminChecked source dn login record isAdmin)
    (gives : Gives Memory.answer memory (record ++ rest) final) :
    (isAdmin = true ↔ Elevated memory source dn login) ∧ Gives Memory.answer memory rest final := by
  cases checked with
  | noFilter absent =>
    refine ⟨⟨nofun, ?_⟩, gives⟩
    rintro ⟨template, _, _, given, nonempty, _⟩
    rw [given] at absent
    exact absurd absent nonempty
  | @asked template answer _ given nonempty matched =>
    obtain ⟨rfl, gives⟩ := gives
    refine ⟨matched.trans ⟨?_, ?_⟩, gives⟩
    · rintro ⟨entry, others, found⟩
      exact ⟨template, entry, others, given, nonempty, found⟩
    · rintro ⟨_, entry, others, same, _, found⟩
      obtain rfl := Option.some.inj (given.symm.trans same)
      exact ⟨entry, others, found⟩

theorem adminChecked_in_memory (memory : Memory) (source : Source) (dn login : String) :
    ∃ record isAdmin, AdminChecked source dn login record isAdmin ∧
      ∀ rest final, Gives Memory.answer memory rest final →
        Gives Memory.answer memory (record ++ rest) final := by
  rcases adminFilter_absent_or_given source with absent | ⟨template, given, nonempty⟩
  · exact ⟨[], false, .noFilter absent, fun _ _ gives => gives⟩
  · exact ⟨_, _, .asked given nonempty elevates_iff, fun _ _ gives => ⟨rfl, gives⟩⟩

theorem checked_in_memory (checked : Checked source login password dn bindsFirst record entry isAdmin)
    (gives : Gives Memory.answer memory (record ++ rest) final) :
    memory.bind dn password = .bound ∧
      (∃ others, memory.search dn (Template.fill source.userFilter login) = .ok (entry :: others)) ∧
      (isAdmin = true ↔ Elevated memory source dn login) ∧ Gives Memory.answer memory rest final := by
  cases checked with
  | bindFirst administrator =>
    obtain ⟨bound, read, gives⟩ := gives
    obtain ⟨elevated, gives⟩ := elevated_of_adminChecked administrator gives
    exact ⟨Except.ok.inj bound, ⟨_, read⟩, elevated, gives⟩
  | bindLast administrator =>
    rw [List.cons_append, List.append_assoc, Memory.gives_search] at gives
    obtain ⟨read, gives⟩ := gives
    obtain ⟨elevated, bound, gives⟩ := elevated_of_adminChecked administrator gives
    exact ⟨Except.ok.inj bound, ⟨_, read⟩, elevated, gives⟩

theorem exists_checked (memory : Memory) (bindsFirst : Bool) {others : List Entry}
    (bound : memory.bind dn password = .bound)
    (read : memory.search dn (Template.fill source.userFilter login) = .ok (entry :: others)) :
    ∃ record isAdmin, Checked source login password dn bindsFirst record entry isAdmin ∧
      ∀ rest final, Gives Memory.answer memory rest final →
        Gives Memory.answer memory (record ++ rest) final := by
  obtain ⟨admin, isAdmin, administrator, through⟩ := adminChecked_in_memory memory source dn login
  have bindGiven : Except.ok (memory.bind dn password) = (.ok .bound : Except Fault BindOutcome) := by
    rw [bound]
  let found : Program.Exchange Directory.Request Directory.Request.Answer :=
    ⟨.search dn (Template.fill source.userFilter login) source.attributes.toList, .ok (entry :: others)⟩
  cases bindsFirst with
  | true =>
    refine ⟨⟨.bind dn password, .ok .bound⟩ :: found :: admin, isAdmin, .bindFirst administrator, ?_⟩
    intro rest final gives
    exact ⟨bindGiven, read, through rest final gives⟩
  | false =>
    refine ⟨found :: (admin ++ [⟨.bind dn password, .ok .bound⟩]), isAdmin, .bindLast administrator, ?_⟩
    intro rest final gives
    rw [List.cons_append, List.append_assoc, Memory.gives_search]
    exact ⟨read, through _ final ⟨bindGiven, gives⟩⟩

theorem verifiedIn_of_verified {session : Record} {after : Memory}
    (verified : Verified source login password direct session entry isAdmin)
    (gives : Gives Memory.answer memory session after) :
    after = memory.opened ∧ ∃ dn, VerifiedIn memory source login password direct dn entry isAdmin := by
  obtain ⟨named, checked⟩ := verified
  rw [Memory.gives_connect, List.append_assoc] at gives
  obtain ⟨connects, gives⟩ := gives
  obtain ⟨found, gives⟩ := named_in_memory.mp ⟨_, named, gives⟩
  obtain ⟨bound, read, elevated, gives⟩ := checked_in_memory checked gives
  exact ⟨Memory.gives_unbind.mp gives, _, connects, foundIn_opened.mp found, bound, read, elevated⟩

theorem exists_verified (verified : VerifiedIn memory source login password direct dn entry isAdmin) :
    ∃ session, Verified source login password direct session entry isAdmin ∧
      Gives Memory.answer memory session memory.opened := by
  obtain ⟨connects, found, bound, ⟨others, read⟩, elevated⟩ := verified
  obtain ⟨checking, admin, checked, through⟩ :=
    exists_checked memory.opened (direct || !source.attributesInBind) bound read
  have closed := through _ _ (Memory.gives_unbind.mpr rfl)
  have same : isAdmin = admin := by
    obtain ⟨_, _, elevatedToo, _⟩ := checked_in_memory checked closed
    exact Bool.eq_iff_iff.mpr (elevated.trans elevatedToo.symm)
  subst same
  obtain ⟨naming, named, gives⟩ := named_in_memory.mpr ⟨foundIn_opened.mpr found, closed⟩
  refine ⟨_, .intro named checked, ?_⟩
  rw [Memory.gives_connect, List.append_assoc]
  exact ⟨connects, gives⟩

/-! ### The group lookup -/

theorem searched_of_gives {base : String} {attributes : List String}
    {outcome : Except Fault (List Entry)}
    (gives : Gives Memory.answer memory
      (⟨.connect source, .ok ()⟩ ::
        (serviceBind source ++ [⟨.search base filter attributes, outcome⟩, ⟨.unbind, ()⟩])) final) :
    memory.refuses = false ∧ serviceBinds memory source = true ∧ memory.search base filter = outcome := by
  obtain ⟨connects, gives⟩ := Memory.gives_connect.mp gives
  obtain ⟨service, gives⟩ := gives_serviceBind.mp gives
  exact ⟨connects, service, (Memory.gives_search.mp gives).1⟩

theorem groups_eq_of_lookedUp {groups : List String}
    (looked : GroupsLookedUp source filter record groups)
    (gives : Gives Memory.answer memory record final) : groups = groupsIn memory source filter := by
  unfold groupsIn
  cases looked with
  | noBase absent => simp [absent]
  | unreachable base =>
    obtain ⟨refused, _⟩ := Memory.gives_connect_refused.mp gives
    simp [refused]
  | @refused dn password answer base service unbound =>
    obtain ⟨_, bound, _⟩ := Memory.gives_connect.mp gives
    have nonempty : password ≠ "" := (Directory.Source.serviceCredentials_eq_some_iff.mp service).2.2.2
    have rejected : memory.accepts dn password = false := by
      rw [← Bool.not_eq_true, ← Memory.bind_eq_bound nonempty]
      intro accepted
      exact unbound (bound.symm.trans (congrArg Except.ok accepted))
    simp [serviceBinds, service, rejected]
  | failed base =>
    obtain ⟨_, _, searched⟩ := searched_of_gives gives
    simp [searched]
  | nobody base =>
    obtain ⟨_, _, searched⟩ := searched_of_gives gives
    simp [searched]
  | found base =>
    obtain ⟨connects, service, searched⟩ := searched_of_gives gives
    simp [base, connects, service, searched]

namespace Authenticator

variable {authenticator : Authenticator} {identity : Identity}

theorem authenticate_in_memory :
    (authenticate Memory.answer login password direct authenticator memory).result = .ok identity ↔
      authenticator.available = true ∧ Admissible authenticator.source login password direct ∧
        ∃ dn entry isAdmin,
          VerifiedIn memory authenticator.source login password direct dn entry isAdmin ∧
          identity = { identityOf authenticator.source login entry isAdmin with
            groups := groupsIn memory.opened authenticator.source
              (Template.fill authenticator.source.userFilter login) } := by
  constructor
  · intro accepted
    obtain ⟨on, admissible, gives, whole⟩ := accepted_of_ok accepted
    generalize (authenticate Memory.answer login password direct authenticator memory).exchanges = record
      at gives whole
    cases whole with
    | intro verified looked =>
      obtain ⟨middle, first, second⟩ := Program.gives_append.mp gives
      obtain ⟨rfl, dn, holds⟩ := verifiedIn_of_verified verified first
      obtain rfl := groups_eq_of_lookedUp looked second
      exact ⟨on, admissible, dn, _, _, holds, rfl⟩
  · rintro ⟨on, admissible, dn, entry, isAdmin, holds, rfl⟩
    obtain ⟨session, verified, gives⟩ := exists_verified holds
    obtain ⟨_, groups, _, second, looked, same⟩ := ok_of_verified on admissible verified gives
    rw [same, groups_eq_of_lookedUp looked second]

end Authenticator
end QueryGate.Login
