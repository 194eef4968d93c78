import QueryGate.Proofs.Login.Acceptance

/-!
# The schedule of a login

Over each connection a login performs the operations of a fixed schedule, one after the other, up to
the first whose outcome fails the login. Whatever that outcome is, the connection is unbound.
-/

namespace QueryGate.Login

open Directory (Entry Request Source)
open Program (Follows follows_attempt_bind follows_bind follows_done follows_lift)

/-- What an operation over an open connection is for. -/
inductive Step where
  | serviceBind
  | userSearch
  | userBind
  | attributeSearch
  | adminSearch
  | groupSearch
  deriving DecidableEq, Repr

/-- The bind as the service, if there is a service identity. -/
def serviceSteps (source : Source) : List Step :=
  if source.serviceCredentials.isSome then [.serviceBind] else []

/-- The check whether the user is an administrator, if there is a filter for it. -/
def adminSteps (source : Source) : List Step :=
  if source.adminFilter.getD "" = "" then [] else [.adminSearch]

/-- How the user is checked once the user's name is known. -/
def checkSteps (source : Source) (bindsFirst : Bool) : List Step :=
  if bindsFirst then .userBind :: .attributeSearch :: adminSteps source
  else .attributeSearch :: (adminSteps source ++ [.userBind])

/-- The operations over the first connection. -/
def schedule (source : Source) (direct : Bool) : List Step :=
  if direct then checkSteps source true
  else serviceSteps source ++ .userSearch :: checkSteps source (!source.attributesInBind)

/-- The operations over the second connection. -/
def groupSchedule (source : Source) : List Step :=
  serviceSteps source ++ [.groupSearch]

namespace Step

/-- What is asked in a step, for a user with this name in the directory. -/
def request (source : Source) (login password dn : String) : Step → Request
  | serviceBind => .bind (source.bindDn.getD "") (source.bindPassword.getD "")
  | userSearch => .search source.userBase (Template.fill source.userFilter login) []
  | userBind => .bind dn password
  | attributeSearch => .search dn (Template.fill source.userFilter login) source.attributes.toList
  | adminSearch => .search dn (Template.fill (source.adminFilter.getD "") login) [source.attributes.name]
  | groupSearch => .search source.userBase (Template.fill source.userFilter login) [source.groupAttribute]

/-- Whether a session goes on after this answer. The administrator search always lets it go on. -/
def passes : Step → Program.Exchange Request Request.Answer → Bool
  | serviceBind, ⟨.bind .., .ok .bound⟩ => true
  | userSearch, ⟨.search .., .ok [entry]⟩ => entry.dn ≠ ""
  | userBind, ⟨.bind .., .ok .bound⟩ => true
  | attributeSearch, ⟨.search .., .ok (_ :: _)⟩ => true
  | adminSearch, _ => true
  | groupSearch, ⟨.search .., .ok _⟩ => true
  | _, _ => false

end Step

abbrev Exchange := Program.Exchange Request Request.Answer

/-- Steps that are performed in order, all of them or up to one that fails the session. -/
inductive Conducted (request : Step → Request) : List Step → Record → Bool → Prop where
  | finished : Conducted request [] [] true
  | cut {step : Step} {others : List Step} {exchange : Exchange} (asked : exchange.1 = request step)
      (fails : step.passes exchange = false) : Conducted request (step :: others) [exchange] false
  | went {step : Step} {others : List Step} {exchange : Exchange} {record : Record} {passed : Bool}
      (asked : exchange.1 = request step) (passes : step.passes exchange = true)
      (rest : Conducted request others record passed) :
      Conducted request (step :: others) (exchange :: record) passed

namespace Conducted

variable {request : Step → Request} {steps others : List Step} {record more : Record} {passed : Bool}

theorem single {step : Step} {exchange : Exchange} (asked : exchange.1 = request step) :
    Conducted request [step] [exchange] (step.passes exchange) := by
  cases went : step.passes exchange with
  | true => exact .went asked went .finished
  | false => exact .cut asked went

theorem append (first : Conducted request steps record true) (second : Conducted request others more passed) :
    Conducted request (steps ++ others) (record ++ more) passed := by
  generalize whole : true = all at first
  induction first with
  | finished => exact second
  | cut => cases whole
  | went asked passes _ ih => exact .went asked passes (ih whole)

theorem append_cut (first : Conducted request steps record false) (others : List Step) :
    Conducted request (steps ++ others) record false := by
  generalize failed : false = all at first
  induction first with
  | finished => cases failed
  | cut asked fails => exact .cut asked fails
  | went asked passes _ ih => exact .went asked passes (ih failed)

/-- What is performed of two parts of the steps: the first part up to a failure, or all of it and something of
the second part. -/
theorem split (conducted : Conducted request (steps ++ others) record passed) :
    (Conducted request steps record false ∧ passed = false) ∨
      ∃ before after, record = before ++ after ∧ Conducted request steps before true ∧
        Conducted request others after passed := by
  induction steps generalizing record with
  | nil => exact .inr ⟨[], record, rfl, .finished, conducted⟩
  | cons step steps ih =>
    cases conducted with
    | cut asked fails => exact .inl ⟨.cut asked fails, rfl⟩
    | went asked passes rest =>
      obtain ⟨first, same⟩ | ⟨before, after, rfl, first, second⟩ := ih rest
      · exact .inl ⟨.went asked passes first, same⟩
      · exact .inr ⟨_ :: before, after, rfl, .went asked passes first, second⟩

theorem asked_of_mem (conducted : Conducted request steps record passed) {exchange : Exchange}
    (member : exchange ∈ record) : ∃ step ∈ steps, exchange.1 = request step := by
  induction conducted with
  | finished => cases member
  | @cut step _ _ asked _ =>
    obtain rfl := List.mem_singleton.mp member
    exact ⟨step, List.mem_cons_self, asked⟩
  | @went step _ _ _ _ asked _ _ ih =>
    rcases List.mem_cons.mp member with rfl | later
    · exact ⟨step, List.mem_cons_self, asked⟩
    · obtain ⟨other, listed, same⟩ := ih later
      exact ⟨other, List.mem_cons_of_mem _ listed, same⟩

/-- What holds of the request of every step holds of all that is asked. -/
theorem forall_asked {P : Request → Prop} (conducted : Conducted request steps record passed)
    (each : ∀ step ∈ steps, P (request step)) : ∀ exchange ∈ record, P exchange.1 := by
  intro exchange member
  obtain ⟨step, listed, asked⟩ := conducted.asked_of_mem member
  rw [asked]
  exact each step listed

end Conducted

/-! ### Parts of a session -/

/-- However it is answered, the part performs these steps, and succeeds if all of them pass. -/
def Performs {α : Type} (request : Step → Request) (part : Attempt α) (steps : List Step) : Prop :=
  ∀ t r, Follows part.run t r → Conducted request steps t r.isOk

namespace Performs

variable {α β : Type} {request : Step → Request} {steps others : List Step}

theorem pure (a : α) : Performs request (Pure.pure a) [] := by
  intro t r follows
  obtain ⟨rfl, rfl⟩ := follows_done.mp follows
  exact .finished

theorem bind {x : Attempt α} {f : α → Attempt β} (first : Performs request x steps)
    (second : ∀ a, Performs request (f a) others) : Performs request (x >>= f) (steps ++ others) := by
  intro t r follows
  obtain ⟨before, a, after, rfl, head, tail⟩ | ⟨fault, rfl, failed⟩ := follows_attempt_bind.mp follows
  · exact (first before (.ok a) head).append (second a after r tail)
  · exact (first t (.error fault) failed).append_cut others

end Performs

variable (source : Source) (login password dn : String)

theorem performs_bindUser :
    Performs (Step.request source login password dn) (bindUser dn password) [.userBind] := by
  intro t r follows
  obtain ⟨answer, rfl, rfl⟩ := follows_bindUser.mp follows
  rcases answer with fault | _ | code
  all_goals exact .single rfl

theorem performs_bindService :
    Performs (Step.request source login password dn) (bindService source) (serviceSteps source) := by
  intro t r follows
  unfold serviceSteps
  cases given : source.serviceCredentials with
  | none =>
    rw [bindService_of_none given] at follows
    obtain ⟨rfl, rfl⟩ := follows_done.mp follows
    exact .finished
  | some credentials =>
    obtain ⟨name, secret⟩ := credentials
    obtain ⟨named, shared, _, _⟩ := Directory.Source.serviceCredentials_eq_some_iff.mp given
    have asked : Request.bind name secret = Step.request source login password dn .serviceBind := by
      rw [Step.request, named, shared]
      rfl
    rw [bindService_of_some given] at follows
    obtain ⟨answer, rfl, rfl⟩ := Program.follows_ask_done.mp follows
    rcases answer with fault | _ | code
    all_goals exact .single asked

theorem performs_readEntry : Performs (Step.request source login password dn)
    (readEntry source dn (Template.fill source.userFilter login)) [.attributeSearch] := by
  intro t r follows
  unfold readEntry at follows
  obtain ⟨_, entries, _, rfl, searched, taken⟩ | ⟨fault, rfl, failed⟩ := follows_attempt_bind.mp follows
  · obtain ⟨answer, rfl, same⟩ := follows_searchOr.mp searched
    obtain rfl := searchResult_eq_ok.mp same.symm
    cases entries with
    | nil =>
      obtain ⟨rfl, rfl⟩ := follows_done.mp taken
      exact .cut rfl rfl
    | cons entry others =>
      obtain ⟨rfl, rfl⟩ := follows_done.mp taken
      exact .went rfl rfl .finished
  · obtain ⟨answer, rfl, same⟩ := follows_searchOr.mp failed
    cases answer with
    | ok entries => cases same
    | error other => exact .cut rfl rfl

theorem performs_checkAdmin : Performs (Step.request source login password dn)
    (ExceptT.lift (checkAdmin source dn login)) (adminSteps source) := by
  intro t r follows
  obtain ⟨isAdmin, rfl, asked⟩ := Program.follows_lift_iff.mp follows
  unfold adminSteps
  cases follows_checkAdmin.mp asked with
  | noFilter absent =>
    rw [if_pos absent]
    exact .finished
  | asked given nonempty _ =>
    have template : ¬ source.adminFilter.getD "" = "" := by
      rw [given]
      exact nonempty
    rw [if_neg template]
    refine .went ?_ rfl .finished
    rw [Step.request, given]
    rfl

theorem performs_readUser : Performs (Step.request source login password dn)
    (readUser source login (Template.fill source.userFilter login) dn) (.attributeSearch :: adminSteps source) := by
  have steps := (performs_readEntry source login password dn).bind fun entry =>
    (performs_checkAdmin source login password dn).bind fun isAdmin => .pure (entry, isAdmin)
  rw [List.append_nil] at steps
  exact steps

theorem performs_checkUser (bindsFirst : Bool) : Performs (Step.request source login password dn)
    (checkUser source login password (Template.fill source.userFilter login) bindsFirst dn)
    (checkSteps source bindsFirst) := by
  cases bindsFirst with
  | true =>
    have steps : Performs (Step.request source login password dn) _ ([.userBind] ++ (_ ++ [])) :=
      (performs_bindUser source login password dn).bind fun _ =>
        (performs_readUser source login password dn).bind fun read =>
          .pure (identityOf source login read.1 read.2)
    rw [List.append_nil] at steps
    exact steps
  | false =>
    have steps : Performs (Step.request source login password dn) _ (_ ++ ([.userBind] ++ [])) :=
      (performs_readUser source login password dn).bind fun read =>
        (performs_bindUser source login password dn).bind fun _ =>
          .pure (identityOf source login read.1 read.2)
    rw [List.append_nil] at steps
    exact steps

theorem passes_userSearch (base filter : String) (entries : List Entry) :
    Step.passes .userSearch ⟨.search base filter [], .ok entries⟩ = (onlyDn entries).isOk := by
  rcases entries with _ | ⟨entry, _ | _⟩
  · rfl
  · by_cases named : entry.dn = ""
    · simp [Step.passes, onlyDn, named, Except.isOk, Except.toBool]
    · simp [Step.passes, onlyDn, named, Except.isOk, Except.toBool]
  · rfl

theorem performs_findUser : Performs (Step.request source login password dn)
    (findUser source (Template.fill source.userFilter login)) (serviceSteps source ++ [.userSearch]) := by
  refine (performs_bindService source login password dn).bind fun _ => ?_
  intro t r follows
  obtain ⟨_, entries, _, rfl, searched, taken⟩ | ⟨fault, rfl, failed⟩ := follows_attempt_bind.mp follows
  · obtain ⟨answer, rfl, same⟩ := follows_searchOr.mp searched
    obtain rfl := searchResult_eq_ok.mp same.symm
    obtain ⟨rfl, rfl⟩ := follows_done.mp taken
    have passes := passes_userSearch source.userBase (Template.fill source.userFilter login) entries
    rw [← passes]
    exact .single rfl
  · obtain ⟨answer, rfl, same⟩ := follows_searchOr.mp failed
    cases answer with
    | ok entries => cases same
    | error other => exact .cut rfl rfl

theorem performs_searchGroups : Performs (Step.request source login password dn)
    (searchGroups source (Template.fill source.userFilter login)) (groupSchedule source) := by
  refine (performs_bindService source login password dn).bind fun _ => ?_
  intro t r follows
  obtain ⟨_, entries, _, rfl, searched, taken⟩ | ⟨fault, rfl, failed⟩ := follows_attempt_bind.mp follows
  · obtain rfl := follows_search.mp searched
    obtain ⟨rfl, rfl⟩ := follows_done.mp taken
    exact .went rfl rfl .finished
  · obtain rfl := follows_search.mp failed
    exact .cut rfl rfl

end QueryGate.Login
