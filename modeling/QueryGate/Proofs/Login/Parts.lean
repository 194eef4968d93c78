import QueryGate.Proofs.Login.Record

/-!
# Parts of a login's conversation

What each part of the conversation asks the directory and how it ends, for every way of answering.
-/

namespace QueryGate.Login

open Directory (BindOutcome Entry Request Source)
open Program (Follows follows_ask_done follows_attempt_bind follows_attempt_ok follows_bind follows_done
  follows_lift follows_request)

/-- How a bind ends that is needed to go on. -/
def bindResult (refused : Nat → Fault) : Except Fault BindOutcome → Except Fault Unit
  | .ok .bound => .ok ()
  | .ok (.rejected code) => .error (refused code)
  | .error fault => .error fault

def searchResult (fault : Fault) : Except Fault (List Entry) → Except Fault (List Entry)
  | .error (.directoryOperation _) => .error fault
  | .error other => .error other
  | .ok entries => .ok entries

theorem bindResult_eq_ok {refused : Nat → Fault} {answer : Except Fault BindOutcome} {u : Unit} :
    bindResult refused answer = .ok u ↔ answer = .ok .bound := by
  unfold bindResult
  split <;> simp

theorem bindResult_error (refused : Nat → Fault) {answer : Except Fault BindOutcome}
    (unbound : answer ≠ .ok .bound) : ∃ fault, bindResult refused answer = .error fault := by
  rcases answer with fault | _ | code
  · exact ⟨fault, rfl⟩
  · contradiction
  · exact ⟨refused code, rfl⟩

theorem searchResult_eq_ok {fault : Fault} {answer : Except Fault (List Entry)} {entries : List Entry} :
    searchResult fault answer = .ok entries ↔ answer = .ok entries := by
  unfold searchResult
  split <;> simp

variable {source : Source} {login password dn base filter : String} {attributes : List String}
  {t : Record}

/-! ### Single requests -/

theorem follows_search {answer : Except Fault (List Entry)} :
    Follows (search base filter attributes).run t answer ↔ t = [⟨.search base filter attributes, answer⟩] :=
  follows_request

theorem follows_searchOr {fault : Fault} {r : Except Fault (List Entry)} :
    Follows (searchOr fault base filter attributes).run t r ↔
      ∃ answer, t = [⟨.search base filter attributes, answer⟩] ∧ r = searchResult fault answer := by
  have opened : (searchOr fault base filter attributes).run =
      .ask (.search base filter attributes) fun answer => .done (searchResult fault answer) := by
    refine congrArg (Program.ask _) (funext fun answer => ?_)
    cases answer with
    | ok entries => rfl
    | error other => cases other <;> rfl
  rw [opened, follows_ask_done]

theorem follows_bindUser {r : Except Fault Unit} :
    Follows (bindUser dn password).run t r ↔
      ∃ answer, t = [⟨.bind dn password, answer⟩] ∧
        r = bindResult (fun _ => .credentialRejected) answer := by
  have opened : (bindUser dn password).run =
      .ask (.bind dn password) fun answer => .done (bindResult (fun _ => .credentialRejected) answer) := by
    refine congrArg (Program.ask _) (funext fun answer => ?_)
    rcases answer with fault | _ | code <;> rfl
  rw [opened, follows_ask_done]

theorem follows_bindUser_ok :
    Follows (bindUser dn password).run t (.ok ()) ↔ t = [⟨.bind dn password, .ok .bound⟩] := by
  rw [follows_bindUser]
  constructor
  · rintro ⟨answer, rfl, bound⟩
    rw [bindResult_eq_ok.mp bound.symm]
  · rintro rfl
    exact ⟨_, rfl, rfl⟩

theorem bindService_of_none (absent : source.serviceCredentials = none) :
    (bindService source).run = .done (.ok ()) := by
  unfold bindService
  rw [absent]
  rfl

theorem bindService_of_some (given : source.serviceCredentials = some (dn, password)) :
    (bindService source).run =
      .ask (.bind dn password) fun answer => .done (bindResult .serviceBindRejected answer) := by
  unfold bindService
  rw [given]
  refine congrArg (Program.ask _) (funext fun answer => ?_)
  rcases answer with fault | _ | code <;> rfl

/-- Without a service identity nothing is asked; with one, only its bind. -/
theorem follows_bindService {r : Except Fault Unit} :
    Follows (bindService source).run t r ↔
      (t = serviceBind source ∧ r = .ok ()) ∨
      ∃ dn password answer, source.serviceCredentials = some (dn, password) ∧ answer ≠ .ok .bound ∧
        t = [⟨.bind dn password, answer⟩] ∧ r = bindResult .serviceBindRejected answer := by
  unfold serviceBind
  cases given : source.serviceCredentials with
  | none => simp [bindService_of_none given]
  | some credentials =>
    obtain ⟨dn, password⟩ := credentials
    rw [bindService_of_some given, follows_ask_done]
    constructor
    · rintro ⟨answer, rfl, rfl⟩
      by_cases bound : answer = .ok .bound
      · exact .inl ⟨by rw [bound], by rw [bound]; rfl⟩
      · exact .inr ⟨dn, password, answer, rfl, bound, rfl, rfl⟩
    · rintro (⟨rfl, rfl⟩ | ⟨_, _, answer, same, _, rfl, rfl⟩)
      · exact ⟨.ok .bound, rfl, rfl⟩
      · cases same
        exact ⟨answer, rfl, rfl⟩

theorem follows_bindService_ok :
    Follows (bindService source).run t (.ok ()) ↔ t = serviceBind source := by
  rw [follows_bindService]
  constructor
  · rintro (⟨same, _⟩ | ⟨_, _, answer, _, unbound, _, bound⟩)
    · exact same
    · exact absurd (bindResult_eq_ok.mp bound.symm) unbound
  · exact fun same => .inl ⟨same, rfl⟩

theorem follows_readEntry_ok {entry : Entry} :
    Follows (readEntry source dn filter).run t (.ok entry) ↔
      ∃ others, t = [⟨.search dn filter source.attributes.toList, .ok (entry :: others)⟩] := by
  unfold readEntry
  rw [follows_attempt_ok]
  constructor
  · rintro ⟨before, entries, after, rfl, searched, taken⟩
    obtain ⟨answer, rfl, same⟩ := follows_searchOr.mp searched
    obtain rfl := searchResult_eq_ok.mp same.symm
    cases entries with
    | nil => cases taken
    | cons first others =>
      obtain ⟨rfl, same⟩ := follows_done.mp taken
      cases same
      exact ⟨others, rfl⟩
  · rintro ⟨others, rfl⟩
    exact ⟨_, entry :: others, [], rfl, follows_searchOr.mpr ⟨_, rfl, rfl⟩, .done _⟩

def elevates : Except Fault (List Entry) → Bool
  | .ok entries => !entries.isEmpty
  | .error _ => false

theorem elevates_iff {answer : Except Fault (List Entry)} :
    elevates answer = true ↔ ∃ entry others, answer = .ok (entry :: others) := by
  rcases answer with fault | _ | ⟨entry, others⟩ <;> simp [elevates]

theorem adminFilter_absent_or_given (source : Source) :
    source.adminFilter.getD "" = "" ∨ ∃ template, source.adminFilter = some template ∧ template ≠ "" := by
  cases source.adminFilter with
  | none => exact .inl rfl
  | some template =>
    by_cases empty : template = ""
    · exact .inl empty
    · exact .inr ⟨template, rfl, empty⟩

theorem checkAdmin_of_absent (absent : source.adminFilter.getD "" = "") :
    checkAdmin source dn login = .done false := by
  unfold checkAdmin
  split
  · rfl
  · rename_i template given
    rw [if_pos (by simpa [given] using absent)]
    rfl

theorem checkAdmin_of_given {template : String} (given : source.adminFilter = some template)
    (nonempty : template ≠ "") :
    checkAdmin source dn login =
      .ask (.search dn (Template.fill template login) [source.attributes.name]) fun answer =>
        .done (elevates answer) := by
  simp only [checkAdmin, given, if_neg nonempty]
  refine congrArg (Program.ask _) (funext fun answer => ?_)
  cases answer <;> rfl

theorem follows_checkAdmin {isAdmin : Bool} :
    Follows (checkAdmin source dn login) t isAdmin ↔ AdminChecked source dn login t isAdmin := by
  constructor
  · intro h
    rcases adminFilter_absent_or_given source with absent | ⟨template, given, nonempty⟩
    · rw [checkAdmin_of_absent absent] at h
      obtain ⟨rfl, rfl⟩ := follows_done.mp h
      exact .noFilter absent
    · rw [checkAdmin_of_given given nonempty] at h
      obtain ⟨answer, rfl, rfl⟩ := follows_ask_done.mp h
      exact .asked given nonempty elevates_iff
  · intro checked
    cases checked with
    | noFilter absent =>
      rw [checkAdmin_of_absent absent]
      exact .done _
    | @asked template answer _ given nonempty matched =>
      rw [checkAdmin_of_given given nonempty, follows_ask_done]
      exact ⟨answer, rfl, Bool.eq_iff_iff.mpr (matched.trans elevates_iff.symm)⟩

/-! ### Sequences of requests -/

theorem onlyDn_eq_ok {entries : List Entry} :
    onlyDn entries = .ok dn ↔ ∃ found, entries = [found] ∧ found.dn = dn ∧ dn ≠ "" := by
  unfold onlyDn
  split
  · split <;> grind
  · grind

theorem follows_findUser_ok :
    Follows (findUser source filter).run t (.ok dn) ↔
      ∃ found : Entry, found.dn = dn ∧ dn ≠ "" ∧
        t = serviceBind source ++ [⟨.search source.userBase filter [], .ok [found]⟩] := by
  unfold findUser
  simp only [follows_attempt_ok]
  constructor
  · rintro ⟨_, _, _, rfl, service, _, entries, _, rfl, searched, only⟩
    obtain rfl := follows_bindService_ok.mp service
    obtain ⟨answer, rfl, same⟩ := follows_searchOr.mp searched
    obtain rfl := searchResult_eq_ok.mp same.symm
    obtain ⟨rfl, same⟩ := follows_done.mp only
    obtain ⟨found, rfl, named, nonempty⟩ := onlyDn_eq_ok.mp same.symm
    exact ⟨found, named, nonempty, by simp⟩
  · rintro ⟨found, named, nonempty, rfl⟩
    refine ⟨_, (), _, rfl, follows_bindService_ok.mpr rfl, _, [found], [], rfl,
      follows_searchOr.mpr ⟨_, rfl, rfl⟩, ?_⟩
    exact follows_done.mpr ⟨rfl, (onlyDn_eq_ok.mpr ⟨found, rfl, named, nonempty⟩).symm⟩

/-- A connection that could be opened is unbound at the end, whatever the part came to. -/
theorem follows_connected {α : Type} {part : Attempt α} {r : Except Fault α} :
    Follows (connected source part).run t r ↔
      (∃ fault, t = [⟨.connect source, .error fault⟩] ∧ r = .error fault) ∨
      ∃ within, t = ⟨.connect source, .ok ()⟩ :: (within ++ [⟨.unbind, ()⟩]) ∧ Follows part.run within r := by
  unfold connected
  rw [ExceptT.run_mk, follows_bind]
  constructor
  · rintro ⟨_, answer, _, rfl, opened, rest⟩
    obtain rfl := follows_request.mp opened
    cases answer with
    | error fault =>
      obtain ⟨rfl, rfl⟩ := follows_done.mp rest
      exact .inl ⟨fault, rfl, rfl⟩
    | ok =>
      obtain ⟨within, result, _, rfl, held, closing⟩ := follows_bind.mp rest
      obtain ⟨_, _, last, rfl, unbound, ended⟩ := follows_bind.mp closing
      obtain rfl := follows_request.mp unbound
      obtain ⟨rfl, rfl⟩ : last = [] ∧ r = result := follows_done.mp ended
      exact .inr ⟨within, rfl, held⟩
  · rintro (⟨fault, rfl, rfl⟩ | ⟨within, rfl, held⟩)
    · exact ⟨_, .error fault, [], rfl, follows_request.mpr rfl, .done _⟩
    · refine ⟨_, .ok (), _, rfl, follows_request.mpr rfl, follows_bind.mpr ⟨within, r, _, rfl, held, ?_⟩⟩
      exact follows_bind.mpr ⟨_, (), [], rfl, follows_request.mpr rfl, .done _⟩

theorem follows_searchGroups {r : Except Fault (List String)} :
    Follows (searchGroups source filter).run t r ↔
      (∃ dn password answer fault, source.serviceCredentials = some (dn, password) ∧
        answer ≠ .ok .bound ∧ t = [⟨.bind dn password, answer⟩] ∧
        bindResult .serviceBindRejected answer = .error fault ∧ r = .error fault) ∨
      ∃ answer,
        t = serviceBind source ++ [⟨.search source.userBase filter [source.groupAttribute], answer⟩] ∧
        r = answer.map fun entries => (entries.head?.map (·.values source.groupAttribute)).getD [] := by
  unfold searchGroups
  rw [follows_attempt_bind]
  constructor
  · rintro (⟨_, _, _, rfl, service, searched⟩ | ⟨fault, rfl, service⟩)
    · obtain rfl := follows_bindService_ok.mp service
      refine .inr ?_
      obtain ⟨_, entries, _, rfl, found, ended⟩ | ⟨fault, rfl, failed⟩ := follows_attempt_bind.mp searched
      · obtain rfl := follows_search.mp found
        obtain ⟨rfl, rfl⟩ := follows_done.mp ended
        exact ⟨.ok entries, rfl, rfl⟩
      · obtain rfl := follows_search.mp failed
        exact ⟨.error fault, rfl, rfl⟩
    · obtain ⟨_, same⟩ | ⟨dn, password, answer, given, unbound, rfl, same⟩ := follows_bindService.mp service
      · cases same
      · exact .inl ⟨dn, password, answer, fault, given, unbound, rfl, same.symm, rfl⟩
  · rintro (⟨dn, password, answer, fault, given, unbound, rfl, same, rfl⟩ | ⟨answer, rfl, rfl⟩)
    · exact .inr ⟨fault, rfl, follows_bindService.mpr
        (.inr ⟨dn, password, answer, given, unbound, rfl, same.symm⟩)⟩
    · refine .inl ⟨_, (), _, rfl, follows_bindService_ok.mpr rfl, follows_attempt_bind.mpr ?_⟩
      cases answer with
      | ok entries => exact .inl ⟨_, entries, [], rfl, follows_search.mpr rfl, .done _⟩
      | error fault => exact .inr ⟨fault, rfl, follows_search.mpr rfl⟩

theorem lookUpGroups_of_base (base : source.userBase ≠ "") :
    lookUpGroups source filter =
      (connected source (searchGroups source filter)).run >>= fun found => .done (found.toOption.getD []) := by
  simp only [lookUpGroups, if_neg base]
  refine congrArg (_ >>= ·) (funext fun found => ?_)
  cases found <;> rfl

theorem follows_lookUpGroups {groups : List String} :
    Follows (lookUpGroups source filter) t groups ↔ GroupsLookedUp source filter t groups := by
  by_cases base : source.userBase = ""
  · have skipped : lookUpGroups source filter = .done [] := by simp only [lookUpGroups, if_pos base]; rfl
    rw [skipped, follows_done]
    constructor
    · rintro ⟨rfl, rfl⟩
      exact .noBase base
    · intro looked
      cases looked with
      | noBase => exact ⟨rfl, rfl⟩
      | _ => contradiction
  · rw [lookUpGroups_of_base base, follows_bind]
    constructor
    · rintro ⟨_, _, _, rfl, search, ended⟩
      obtain ⟨rfl, rfl⟩ := follows_done.mp ended
      rw [List.append_nil]
      obtain ⟨fault, rfl, rfl⟩ | ⟨within, rfl, held⟩ := follows_connected.mp search
      · exact .unreachable base
      · obtain ⟨dn, password, answer, fault, given, unbound, rfl, _, rfl⟩ | ⟨answer, rfl, rfl⟩ :=
          follows_searchGroups.mp held
        · exact .refused base given unbound
        · rw [List.append_assoc]
          rcases answer with fault | _ | ⟨entry, others⟩
          · exact .failed base
          · exact .nobody base
          · exact .found base
    · intro looked
      suffices ∃ found, Follows (connected source (searchGroups source filter)).run t found ∧
          groups = found.toOption.getD [] by
        obtain ⟨found, search, same⟩ := this
        exact ⟨t, found, [], by simp, search, follows_done.mpr ⟨rfl, same⟩⟩
      cases looked with
      | noBase absent => contradiction
      | @unreachable fault => exact ⟨.error fault, follows_connected.mpr (.inl ⟨fault, rfl, rfl⟩), rfl⟩
      | @refused dn password answer _ given unbound =>
        obtain ⟨fault, same⟩ := bindResult_error .serviceBindRejected unbound
        exact ⟨.error fault, follows_connected.mpr (.inr ⟨_, rfl, follows_searchGroups.mpr
          (.inl ⟨dn, password, answer, fault, given, unbound, rfl, same, rfl⟩)⟩), rfl⟩
      | @failed fault =>
        exact ⟨.error fault, follows_connected.mpr (.inr ⟨_, by simp, follows_searchGroups.mpr
          (.inr ⟨.error fault, rfl, rfl⟩)⟩), rfl⟩
      | nobody =>
        exact ⟨.ok [], follows_connected.mpr (.inr ⟨_, by simp, follows_searchGroups.mpr
          (.inr ⟨.ok [], rfl, rfl⟩)⟩), rfl⟩
      | @found entry others =>
        exact ⟨.ok (entry.values source.groupAttribute), follows_connected.mpr (.inr ⟨_, by simp,
          follows_searchGroups.mpr (.inr ⟨.ok (entry :: others), rfl, rfl⟩)⟩), rfl⟩

end QueryGate.Login
