import QueryGate.Proofs.Login.Sessions
import QueryGate.Proofs.Template

/-!
# Where passwords go

A login binds as the service, with the source's own name and password, and at most once as the user, under
the name that it has just established. All other binds, and all of the second connection's, are the
service's own. So a user's password is sent once at most, unless the service has the same one.
-/

namespace QueryGate.Login

open Directory (BindOutcome Entry Request Source)

/-- A request that neither binds as the user nor searches for the user. -/
def IsRoutine (source : Source) : Request → Prop
  | .bind dn secret => source.serviceCredentials = some (dn, secret)
  | .search _ _ attributes => attributes ≠ []
  | .connect _ | .unbind => True

def AreRoutine (source : Source) (record : Record) : Prop :=
  ∀ exchange ∈ record, IsRoutine source exchange.1

/-- All binds among these exchanges are made with the source's own name and password. -/
def BindsAsService (source : Source) (record : Record) : Prop :=
  ∀ dn secret answer, (⟨.bind dn secret, answer⟩ : Exchange) ∈ record →
    source.serviceCredentials = some (dn, secret)

/-- A login in which somebody binds as the user: over the first connection, once, and under the name that was
established just before. All other requests are routine. -/
inductive UserBound (source : Source) (login password : String) (direct : Bool) : Record → Prop where
  | intro {naming reading after : Record} {dn : String} {answer : Except Fault BindOutcome}
      (established : Named source login direct naming dn) (read : AreRoutine source reading)
      (unclosed : ∀ exchange ∈ naming ++ reading, exchange.1 ≠ .unbind) (closed : AreRoutine source after) :
      UserBound source login password direct
        (⟨.connect source, .ok ()⟩ :: (naming ++ reading ++ ⟨.bind dn password, answer⟩ :: after))

/-- Whether a request is a bind with this password. -/
def carries (password : String) : Request → Bool
  | .bind _ secret => secret = password
  | _ => false

def timesSent (password : String) (record : Record) : Nat :=
  record.countP fun exchange => carries password exchange.1

/-- The service binds with this very password. -/
def SharesPassword (source : Source) (password : String) : Prop :=
  source.serviceCredentials.map Prod.snd = some password

instance (source : Source) (password : String) : Decidable (SharesPassword source password) :=
  inferInstanceAs (Decidable (_ = _))

/-- What holds of every attempt to log in. -/
structure PasswordsGuarded (source : Source) (login password : String) (direct : Bool) (record : Record) :
    Prop where
  /-- No bind is anonymous. -/
  given : ∀ dn secret answer, (⟨.bind dn secret, answer⟩ : Exchange) ∈ record → dn ≠ "" ∧ secret ≠ ""
  service_or_user : BindsAsService source record ∨ UserBound source login password direct record
  /-- Beside the bind as the user, only a service with the same password sends it, once over each connection. -/
  once : timesSent password record ≤ if SharesPassword source password then 3 else 1
  /-- Only the service binds unless the search for the user finds a single entry, and that has a name. -/
  unfound : ∀ answer,
    (⟨.search source.userBase (Template.fill source.userFilter login) [], answer⟩ : Exchange) ∈ record →
    (∀ found, answer = .ok [found] → found.dn = "") →
    BindsAsService source record ∧ timesSent password record = if SharesPassword source password then 1 else 0
  /-- Nor does anybody else bind if the service was not let in before that search. -/
  refused : ∀ dn secret answer rest, direct = false → source.serviceCredentials = some (dn, secret) →
    record = ⟨.connect source, .ok ()⟩ :: ⟨.bind dn secret, answer⟩ :: rest → answer ≠ .ok .bound →
    BindsAsService source record ∧ timesSent password record = if SharesPassword source password then 1 else 0
  /-- Over the second connection nobody binds but the service. -/
  lookup : ∀ first second, record = first ++ ⟨.unbind, ()⟩ :: second → BindsAsService source second

variable {source : Source} {login password dn : String} {direct passed : Bool} {t session record : Record}

/-! ### Routine requests -/

theorem areRoutine_nil (source : Source) : AreRoutine source [] :=
  fun _ member => absurd member List.not_mem_nil

theorem AreRoutine.bindsAsService (routine : AreRoutine source record) : BindsAsService source record :=
  fun _ _ _ member => routine _ member

theorem AreRoutine.append {others : Record} (first : AreRoutine source record) (second : AreRoutine source others) :
    AreRoutine source (record ++ others) := by
  intro exchange member
  rcases List.mem_append.mp member with early | late
  · exact first exchange early
  · exact second exchange late

theorem AreRoutine.cons {exchange : Exchange} (first : IsRoutine source exchange.1)
    (second : AreRoutine source record) : AreRoutine source (exchange :: record) := by
  intro other member
  rcases List.mem_cons.mp member with rfl | later
  · exact first
  · exact second other later

theorem BindsAsService.append {others : Record} (first : BindsAsService source record)
    (second : BindsAsService source others) : BindsAsService source (record ++ others) := by
  intro dn secret answer member
  rcases List.mem_append.mp member with early | late
  · exact first dn secret answer early
  · exact second dn secret answer late

theorem BindsAsService.cons {exchange : Exchange} (first : IsRoutine source exchange.1)
    (second : BindsAsService source record) : BindsAsService source (exchange :: record) := by
  intro dn secret answer member
  rcases List.mem_cons.mp member with rfl | later
  · exact first
  · exact second dn secret answer later

theorem mem_serviceSteps {step : Step} (listed : step ∈ serviceSteps source) :
    step = .serviceBind ∧ ∃ name secret, source.serviceCredentials = some (name, secret) := by
  unfold serviceSteps at listed
  cases given : source.serviceCredentials with
  | none =>
    rw [given] at listed
    cases listed
  | some credentials =>
    rw [given] at listed
    exact ⟨List.mem_singleton.mp listed, credentials.1, credentials.2, rfl⟩

theorem routine_serviceBind {name secret : String} (given : source.serviceCredentials = some (name, secret)) :
    IsRoutine source (Step.request source login password dn .serviceBind) := by
  obtain ⟨named, shared, _, _⟩ := Directory.Source.serviceCredentials_eq_some_iff.mp given
  rw [Step.request, named, shared]
  exact given

theorem routine_serviceSteps {step : Step} (listed : step ∈ serviceSteps source) :
    IsRoutine source (step.request source login password dn) := by
  obtain ⟨rfl, name, secret, given⟩ := mem_serviceSteps listed
  exact routine_serviceBind given

theorem routine_readingSteps {step : Step} (listed : step ∈ Step.attributeSearch :: adminSteps source) :
    IsRoutine source (step.request source login password dn) := by
  have known : step = .attributeSearch ∨ step = .adminSearch := by
    unfold adminSteps at listed
    split at listed
    · exact .inl (List.mem_singleton.mp listed)
    · simpa using listed
  obtain rfl | rfl := known
  all_goals exact List.cons_ne_nil _ _

theorem GroupLookup.areRoutine {lookup : Record} (looked : GroupLookup source login lookup) :
    AreRoutine source lookup := by
  refine looked.forall_asked trivial trivial fun step listed => ?_
  rcases List.mem_append.mp listed with service | group
  · exact routine_serviceSteps service
  · rw [List.mem_singleton.mp group]
    exact List.cons_ne_nil _ _

theorem areRoutine_lookup (looked : if source.userBase = "" then record = [] else GroupLookup source login record) :
    AreRoutine source record := by
  split at looked
  · rw [looked]
    exact areRoutine_nil source
  · exact looked.areRoutine

/-! ### The bind as the user -/

theorem conducted_serviceSteps (conducted : Conducted (Step.request source login password dn) (serviceSteps source)
    session true) : session = serviceBind source := by
  unfold serviceSteps at conducted
  unfold serviceBind
  cases given : source.serviceCredentials with
  | none =>
    rw [given] at conducted
    cases conducted
    rfl
  | some credentials =>
    obtain ⟨name, secret⟩ := credentials
    obtain ⟨named, shared, _, _⟩ := Directory.Source.serviceCredentials_eq_some_iff.mp given
    rw [given] at conducted
    cases conducted with
    | @went _ _ exchange _ _ asked passes rest =>
      cases rest
      obtain ⟨request, answer⟩ := exchange
      have same : request = Step.request source login password dn .serviceBind := asked
      rw [Step.request, named, shared] at same
      obtain rfl : request = .bind name secret := same
      rcases answer with fault | _ | code
      · cases passes
      · rfl
      · cases passes

theorem conducted_userSearch
    (conducted : Conducted (Step.request source login password dn) [.userSearch] session true) :
    ∃ found : Entry, found.dn ≠ "" ∧
      session = [⟨.search source.userBase (Template.fill source.userFilter login) [], .ok [found]⟩] := by
  cases conducted with
  | @went _ _ exchange _ _ asked passes rest =>
    cases rest
    obtain ⟨request, answer⟩ := exchange
    obtain rfl : request = Step.request source login password dn .userSearch := asked
    rcases answer with fault | _ | ⟨found, _ | _⟩
    · cases passes
    · cases passes
    · exact ⟨found, of_decide_eq_true passes, rfl⟩
    · cases passes

/-- The steps by which the first session finds out the user's name. -/
def namingSteps (source : Source) (direct : Bool) : List Step :=
  if direct then [] else serviceSteps source ++ [.userSearch]

/-- The steps between the naming and the bind as the user. -/
def readingSteps (source : Source) (bindsFirst : Bool) : List Step :=
  if bindsFirst then [] else .attributeSearch :: adminSteps source

/-- The steps after the bind as the user. -/
def closingSteps (source : Source) (bindsFirst : Bool) : List Step :=
  if bindsFirst then .attributeSearch :: adminSteps source else []

theorem schedule_eq (source : Source) (direct : Bool) :
    let bindsFirst := direct || !source.attributesInBind
    schedule source direct = namingSteps source direct ++
      (readingSteps source bindsFirst ++ .userBind :: closingSteps source bindsFirst) := by
  cases direct with
  | true => rfl
  | false =>
    simp only [schedule, namingSteps, readingSteps, closingSteps, checkSteps, Bool.false_eq_true, if_false,
      Bool.false_or]
    cases source.attributesInBind <;> simp

/-- The name that is established is the one that the session works with from then on. -/
theorem conducted_namingSteps {rest : Record}
    (conducted : Conducted (Step.request source login password dn) (namingSteps source direct) session true) :
    Named source login direct session (nameIn source login direct (session ++ rest)) := by
  cases direct with
  | true =>
    cases conducted
    exact .template
  | false =>
    obtain ⟨_, ⟨⟩⟩ | ⟨service, search, rfl, first, second⟩ := conducted.split
    obtain rfl := conducted_serviceSteps first
    obtain ⟨found, named, rfl⟩ := conducted_userSearch second
    rw [nameIn, if_neg Bool.false_ne_true, foundName_serviceBind]
    exact .search named

/-- What the first connection has come to when no name was established: the service is turned away, or the search
finds no single entry with a name. -/
inductive Unnamed (source : Source) (login : String) : Record → Prop where
  | refused {name secret : String} {answer : Except Fault BindOutcome}
      (credentials : source.serviceCredentials = some (name, secret)) (unbound : answer ≠ .ok .bound) :
      Unnamed source login [⟨.bind name secret, answer⟩]
  | unfound {answer : Except Fault (List Entry)} (nobody : ∀ found, answer = .ok [found] → found.dn = "") :
      Unnamed source login
        (serviceBind source ++ [⟨.search source.userBase (Template.fill source.userFilter login) [], answer⟩])

theorem unnamed_of_serviceSteps (conducted : Conducted (Step.request source login password dn) (serviceSteps source)
    session false) : Unnamed source login session := by
  unfold serviceSteps at conducted
  cases given : source.serviceCredentials with
  | none =>
    rw [given] at conducted
    cases conducted
  | some credentials =>
    obtain ⟨name, secret⟩ := credentials
    obtain ⟨named, shared, _, _⟩ := Directory.Source.serviceCredentials_eq_some_iff.mp given
    rw [given] at conducted
    cases conducted with
    | @cut _ _ exchange asked fails =>
      obtain ⟨request, answer⟩ := exchange
      have same : request = Step.request source login password dn .serviceBind := asked
      rw [Step.request, named, shared] at same
      obtain rfl : request = .bind name secret := same
      refine .refused given ?_
      rintro rfl
      cases fails
    | went _ _ rest => cases rest

theorem unnamed_of_namingSteps
    (conducted : Conducted (Step.request source login password dn) (namingSteps source direct) session false) :
    Unnamed source login session := by
  cases direct with
  | true => cases conducted
  | false =>
    obtain ⟨failed, _⟩ | ⟨service, search, rfl, first, second⟩ := conducted.split
    · exact unnamed_of_serviceSteps failed
    · obtain rfl := conducted_serviceSteps first
      cases second with
      | @cut _ _ exchange asked fails =>
        obtain ⟨request, answer⟩ := exchange
        obtain rfl : request = Step.request source login password dn .userSearch := asked
        refine .unfound fun found single => ?_
        rw [single] at fails
        exact Decidable.not_not.mp (of_decide_eq_false fails)
      | went _ _ rest => cases rest

theorem routine_of_mem_readingSteps {bindsFirst : Bool} {step : Step}
    (listed : step ∈ readingSteps source bindsFirst) :
    IsRoutine source (step.request source login password dn) := by
  cases bindsFirst with
  | true => cases listed
  | false => exact routine_readingSteps listed

theorem routine_of_mem_closingSteps {bindsFirst : Bool} {step : Step}
    (listed : step ∈ closingSteps source bindsFirst) :
    IsRoutine source (step.request source login password dn) := by
  cases bindsFirst with
  | true => exact routine_readingSteps listed
  | false => cases listed

/-- What comes after the naming: the bind as the user stands among routine requests, if it is reached at all. -/
inductive Checking (source : Source) (password dn : String) : Record → Prop where
  | unbound {record : Record} (routine : AreRoutine source record) : Checking source password dn record
  | bound {reading after : Record} {answer : Except Fault BindOutcome} (read : AreRoutine source reading)
      (closed : AreRoutine source after) :
      Checking source password dn (reading ++ ⟨.bind dn password, answer⟩ :: after)

theorem Checking.append (checking : Checking source password dn record) {others : Record}
    (routine : AreRoutine source others) : Checking source password dn (record ++ others) := by
  cases checking with
  | unbound first => exact .unbound (first.append routine)
  | bound read closed =>
    rw [List.append_assoc]
    exact .bound read (closed.append routine)

theorem checking_of_steps {bindsFirst : Bool}
    (conducted : Conducted (Step.request source login password dn)
      (readingSteps source bindsFirst ++ .userBind :: closingSteps source bindsFirst) record passed) :
    Checking source password dn record := by
  obtain ⟨failed, _⟩ | ⟨reading, rest, rfl, first, last⟩ := conducted.split
  · exact .unbound (failed.forall_asked fun _ => routine_of_mem_readingSteps)
  · have read : AreRoutine source reading := first.forall_asked fun _ => routine_of_mem_readingSteps
    cases last with
    | @cut _ _ exchange asked =>
      obtain ⟨request, answer⟩ := exchange
      obtain rfl : request = .bind dn password := asked
      exact .bound read (areRoutine_nil source)
    | @went _ _ exchange _ _ asked _ closing =>
      obtain ⟨request, answer⟩ := exchange
      obtain rfl : request = .bind dn password := asked
      exact .bound read (closing.forall_asked fun _ => routine_of_mem_closingSteps)

/-- A session fails to establish a name, or establishes one and checks the user under it. -/
theorem Session.naming_cases (held : Session source login password direct session passed) :
    (Unnamed source login session ∧ passed = false) ∨
    ∃ naming rest dn, session = naming ++ rest ∧ Named source login direct naming dn ∧
      Checking source password dn rest := by
  rw [Session, schedule_eq] at held
  obtain ⟨failed, stopped⟩ | ⟨naming, rest, same, first, second⟩ := held.split
  · exact .inl ⟨unnamed_of_namingSteps failed, stopped⟩
  · have named : Named source login direct naming (nameIn source login direct session) := by
      rw [same]
      rw [same] at first
      exact conducted_namingSteps first
    exact .inr ⟨naming, rest, _, same, named, checking_of_steps second⟩

theorem Session.no_unbind (held : Session source login password direct session passed) :
    ∀ exchange ∈ session, exchange.1 ≠ .unbind := by
  have each : ∀ step ∈ schedule source direct,
      step.request source login password (nameIn source login direct session) ≠ .unbind := by
    intro step _
    cases step
    all_goals exact nofun
  exact Conducted.forall_asked (P := (· ≠ Request.unbind)) held each

theorem mem_serviceBind {exchange : Exchange} (member : exchange ∈ serviceBind source) :
    ∃ name secret, source.serviceCredentials = some (name, secret) ∧ exchange = ⟨.bind name secret, .ok .bound⟩ := by
  unfold serviceBind at member
  cases given : source.serviceCredentials with
  | none =>
    rw [given] at member
    cases member
  | some credentials =>
    rw [given] at member
    exact ⟨credentials.1, credentials.2, rfl, List.mem_singleton.mp member⟩

theorem bindsAsService_serviceBind (source : Source) : BindsAsService source (serviceBind source) := by
  intro name secret answer member
  obtain ⟨_, _, given, same⟩ := mem_serviceBind member
  cases congrArg Sigma.fst same
  exact given

theorem bindsAsService_search {base filter : String} {attributes : List String} {answer : Except Fault (List Entry)} :
    BindsAsService source [⟨.search base filter attributes, answer⟩] := by
  intro name secret bound member
  cases congrArg Sigma.fst (List.mem_singleton.mp member)

theorem Named.bindsAsService (named : Named source login direct session dn) : BindsAsService source session := by
  cases named with
  | template => exact (areRoutine_nil source).bindsAsService
  | search => exact (bindsAsService_serviceBind source).append bindsAsService_search

theorem Unnamed.bindsAsService (unnamed : Unnamed source login session) : BindsAsService source session := by
  cases unnamed with
  | refused credentials =>
    intro name secret answer member
    cases congrArg Sigma.fst (List.mem_singleton.mp member)
    exact credentials
  | unfound => exact (bindsAsService_serviceBind source).append bindsAsService_search

theorem Named.ne_empty (named : Named source login direct session dn)
    (admissible : Admissible source login password direct) : dn ≠ "" := by
  cases named with
  | template =>
    obtain ⟨before, after, splits⟩ := Template.exists_splits (admissible.template rfl)
    rw [splits.fill_eq]
    simp [admissible.login_given]
  | search named => exact named

/-! ### Whole logins -/

theorem Session.passwords {lookup : Record} (held : Session source login password direct session passed)
    (looked : AreRoutine source lookup) :
    let record : Record := ⟨.connect source, .ok ()⟩ :: (session ++ ⟨.unbind, ()⟩ :: lookup)
    BindsAsService source record ∨ UserBound source login password direct record := by
  have ending : AreRoutine source (⟨.unbind, ()⟩ :: lookup) := looked.cons trivial
  have inside := held.no_unbind
  obtain ⟨unnamed, _⟩ | ⟨naming, rest, dn, rfl, named, checking⟩ := held.naming_cases
  · exact .inl ((unnamed.bindsAsService.append ending.bindsAsService).cons trivial)
  cases checking with
  | unbound routine =>
    have own := named.bindsAsService.append routine.bindsAsService
    exact .inl ((own.append ending.bindsAsService).cons trivial)
  | @bound reading after answer read closed =>
    have joined : naming ++ (reading ++ ⟨.bind dn password, answer⟩ :: after) ++ ⟨.unbind, ()⟩ :: lookup =
        naming ++ reading ++ ⟨.bind dn password, answer⟩ :: (after ++ ⟨.unbind, ()⟩ :: lookup) := by
      simp only [List.append_assoc, List.cons_append]
    right
    rw [joined]
    refine .intro named read (fun exchange member => inside exchange ?_) (closed.append ending)
    rw [← List.append_assoc]
    exact List.mem_append_left _ member

theorem Scheduled.passwords (scheduled : Scheduled source login password direct record passed) :
    BindsAsService source record ∨ UserBound source login password direct record := by
  cases scheduled with
  | @unreached fault =>
    have routine : AreRoutine source [⟨.connect source, .error fault⟩] := (areRoutine_nil source).cons trivial
    exact .inl routine.bindsAsService
  | failed held => exact held.passwords (areRoutine_nil source)
  | passed held looked => exact held.passwords (areRoutine_lookup looked)

theorem serviceCredentials_ne_empty {name secret : String} (given : source.serviceCredentials = some (name, secret)) :
    name ≠ "" ∧ secret ≠ "" :=
  (Directory.Source.serviceCredentials_eq_some_iff.mp given).2.2

theorem AreRoutine.tail {first second : Record} (routine : AreRoutine source (first ++ second)) :
    AreRoutine source second :=
  fun exchange member => routine exchange (List.mem_append_right _ member)

namespace UserBound

theorem given (bound : UserBound source login password direct record)
    (admissible : Admissible source login password direct) {name secret : String}
    {answer : Except Fault BindOutcome} (member : (⟨.bind name secret, answer⟩ : Exchange) ∈ record) :
    name ≠ "" ∧ secret ≠ "" := by
  cases bound with
  | intro established read _ closed =>
    have before := established.bindsAsService.append read.bindsAsService
    rcases List.mem_cons.mp member with same | inside
    · cases congrArg Sigma.fst same
    rcases List.mem_append.mp inside with early | late
    · exact serviceCredentials_ne_empty (before name secret answer early)
    rcases List.mem_cons.mp late with same | after
    · cases congrArg Sigma.fst same
      exact ⟨established.ne_empty admissible, admissible.password_given⟩
    · exact serviceCredentials_ne_empty (closed.bindsAsService name secret answer after)

theorem lookup (bound : UserBound source login password direct record) {first second : Record}
    (parted : record = first ++ ⟨.unbind, ()⟩ :: second) : BindsAsService source second := by
  cases bound with
  | @intro naming reading after dn answer _ _ unclosed closed =>
    rw [← List.cons_append] at parted
    -- the unbind comes after the bind as the user: nothing before it closes the connection
    obtain ⟨middle, rfl, later⟩ | ⟨middle, before, later⟩ := List.append_eq_append_iff.mp parted
    · cases middle with
      | nil => cases congrArg Sigma.fst (List.cons.inj later).1
      | cons _ middle =>
        have behind : after = middle ++ ⟨.unbind, ()⟩ :: second := (List.cons.inj later).2
        rw [behind] at closed
        intro name secret answer member
        exact closed.tail _ (List.mem_cons_of_mem _ member)
    · cases middle with
      | nil => cases congrArg Sigma.fst (List.cons.inj later).1
      | cons exchange middle =>
        obtain rfl : ⟨.unbind, ()⟩ = exchange := (List.cons.inj later).1
        have inside : (⟨.unbind, ()⟩ : Exchange) ∈ ⟨.connect source, .ok ()⟩ :: (naming ++ reading) := by
          rw [before]
          exact List.mem_append_right _ List.mem_cons_self
        rcases List.mem_cons.mp inside with same | within
        · cases congrArg Sigma.fst same
        · exact absurd rfl (unclosed _ within)

end UserBound

/-! ### How often a password is sent -/

theorem timesSent_append (first second : Record) :
    timesSent password (first ++ second) = timesSent password first + timesSent password second :=
  List.countP_append

theorem sharesPassword_iff {name secret : String} (given : source.serviceCredentials = some (name, secret)) :
    SharesPassword source password ↔ secret = password := by
  rw [SharesPassword, given]
  exact Option.some_inj

theorem not_sharesPassword (none : source.serviceCredentials = none) : ¬ SharesPassword source password := by
  rw [SharesPassword, none]
  exact nofun

theorem timesSent_bind {name secret : String} {answer : Except Fault BindOutcome}
    (given : source.serviceCredentials = some (name, secret)) :
    timesSent password [⟨.bind name secret, answer⟩] = if SharesPassword source password then 1 else 0 := by
  simp [timesSent, carries, sharesPassword_iff given]

theorem timesSent_serviceBind :
    timesSent password (serviceBind source) = if SharesPassword source password then 1 else 0 := by
  unfold serviceBind
  cases given : source.serviceCredentials with
  | none => exact (if_neg (not_sharesPassword given)).symm
  | some credentials => exact timesSent_bind given

theorem Unnamed.timesSent_eq (unnamed : Unnamed source login session) :
    timesSent password session = if SharesPassword source password then 1 else 0 := by
  cases unnamed with
  | refused credentials => exact timesSent_bind credentials
  | unfound =>
    rw [timesSent_append, timesSent_serviceBind]
    exact Nat.add_zero _

/-- Nothing is asked more often than the steps ask it. -/
theorem Conducted.timesSent_le {request : Step → Request} {steps : List Step}
    (conducted : Conducted request steps record passed) :
    timesSent password record ≤ steps.countP fun step => carries password (request step) := by
  induction conducted with
  | finished => exact Nat.le_refl 0
  | cut asked _ =>
    rw [timesSent, List.countP_singleton, List.countP_cons, asked]
    exact Nat.le_add_left ..
  | went asked _ _ ih =>
    rw [timesSent, List.countP_cons, List.countP_cons, asked]
    exact Nat.add_le_add_right ih _

theorem countP_serviceSteps {secret : String} :
    (serviceSteps source).countP (fun step => carries password (step.request source login secret dn)) =
      if SharesPassword source password then 1 else 0 := by
  unfold serviceSteps
  cases given : source.serviceCredentials with
  | none => exact (if_neg (not_sharesPassword given)).symm
  | some credentials =>
    obtain ⟨named, shared, _, _⟩ := Directory.Source.serviceCredentials_eq_some_iff.mp given
    simp [Step.request, carries, named, shared, sharesPassword_iff given]

theorem countP_adminSteps {secret : String} :
    (adminSteps source).countP (fun step => carries password (step.request source login secret dn)) = 0 := by
  unfold adminSteps
  split
  · rfl
  · rfl

theorem countP_checkSteps (bindsFirst : Bool) :
    (checkSteps source bindsFirst).countP (fun step => carries password (step.request source login password dn)) = 1 := by
  have user : carries password (Step.request source login password dn .userBind) = true := decide_eq_true rfl
  have attributes : carries password (Step.request source login password dn .attributeSearch) = false := rfl
  cases bindsFirst with
  | true =>
    simp only [checkSteps, if_true, List.countP_cons, countP_adminSteps, user, attributes, Bool.false_eq_true,
      if_false]
  | false =>
    simp only [checkSteps, Bool.false_eq_true, if_false, List.countP_cons, List.countP_append, List.countP_nil,
      countP_adminSteps, user, attributes, if_true]

theorem countP_schedule_le :
    (schedule source direct).countP (fun step => carries password (step.request source login password dn)) ≤
      1 + if SharesPassword source password then 1 else 0 := by
  unfold schedule
  split
  · rw [countP_checkSteps]
    exact Nat.le_add_right ..
  · rw [List.countP_append, countP_serviceSteps, List.countP_cons_of_neg Bool.false_ne_true, countP_checkSteps]
    exact Nat.le_of_eq (Nat.add_comm ..)

theorem GroupLookup.timesSent_le {lookup : Record} (looked : GroupLookup source login lookup) :
    timesSent password lookup ≤ if SharesPassword source password then 1 else 0 := by
  cases looked with
  | unreached => exact Nat.zero_le _
  | @held session passed conducted =>
    have steps : (groupSchedule source).countP (fun step => carries password (step.request source login "" "")) =
        if SharesPassword source password then 1 else 0 := by
      rw [groupSchedule, List.countP_append, countP_serviceSteps]
      rfl
    have within : timesSent password (⟨.connect source, .ok ()⟩ :: (session ++ [⟨.unbind, ()⟩])) =
        timesSent password session := timesSent_append session _
    rw [within, ← steps]
    exact conducted.timesSent_le

theorem Scheduled.timesSent_le (scheduled : Scheduled source login password direct record passed) :
    timesSent password record ≤ if SharesPassword source password then 3 else 1 := by
  have first {session : Record} {passed : Bool} (held : Session source login password direct session passed) :
      timesSent password session ≤ 1 + if SharesPassword source password then 1 else 0 :=
    Nat.le_trans (Conducted.timesSent_le held) countP_schedule_le
  have whole (session lookup : Record) :
      timesSent password (⟨.connect source, .ok ()⟩ :: (session ++ ⟨.unbind, ()⟩ :: lookup)) =
        timesSent password session + timesSent password lookup := timesSent_append session _
  have total : (if SharesPassword source password then 3 else 1) =
      (1 + if SharesPassword source password then 1 else 0) + if SharesPassword source password then 1 else 0 := by
    split <;> rfl
  rw [total]
  cases scheduled with
  | unreached => exact Nat.zero_le _
  | failed held =>
    rw [whole]
    exact Nat.le_trans (first held) (Nat.le_add_right ..)
  | @passed session lookup held looked =>
    have second : timesSent password lookup ≤ if SharesPassword source password then 1 else 0 := by
      split at looked
      · rw [looked]
        exact Nat.zero_le _
      · exact looked.timesSent_le
    rw [whole]
    exact Nat.add_le_add (first held) second

/-! ### Users without a name -/

/-- Nothing in a record asks for the user, up to the name that is bound. -/
theorem Checking.no_search (checking : Checking source password dn record) {base filter : String}
    {answer : Except Fault (List Entry)} : (⟨.search base filter [], answer⟩ : Exchange) ∉ record := by
  intro member
  cases checking with
  | unbound routine => exact routine _ member rfl
  | bound read closed =>
    rcases List.mem_append.mp member with early | late
    · exact read _ early rfl
    rcases List.mem_cons.mp late with same | after
    · cases congrArg Sigma.fst same
    · exact closed _ after rfl

theorem Named.found (named : Named source login direct session dn) {base filter : String}
    {answer : Except Fault (List Entry)} (searched : (⟨.search base filter [], answer⟩ : Exchange) ∈ session) :
    ∃ found, answer = .ok [found] ∧ found.dn ≠ "" := by
  cases named with
  | template => cases searched
  | @search found nonempty =>
    rcases List.mem_append.mp searched with service | search
    · obtain ⟨_, _, _, same⟩ := mem_serviceBind service
      cases congrArg Sigma.fst same
    · cases List.mem_singleton.mp search
      exact ⟨found, rfl, nonempty⟩

/-- What is left of a login in which no name was established. -/
theorem Unnamed.guarded (unnamed : Unnamed source login session) :
    let record : Record := ⟨.connect source, .ok ()⟩ :: (session ++ [⟨.unbind, ()⟩])
    BindsAsService source record ∧ timesSent password record = if SharesPassword source password then 1 else 0 := by
  have ending : AreRoutine source [⟨.unbind, ()⟩] := (areRoutine_nil source).cons trivial
  refine ⟨(unnamed.bindsAsService.append ending.bindsAsService).cons trivial, ?_⟩
  rw [← unnamed.timesSent_eq]
  exact timesSent_append session _

/-- A login does not reach the directory, or fails to establish a name, or goes on under the name. -/
theorem Scheduled.naming_cases (scheduled : Scheduled source login password direct record passed) :
    (∃ fault, record = [⟨.connect source, .error fault⟩]) ∨
    (∃ session, record = ⟨.connect source, .ok ()⟩ :: (session ++ [⟨.unbind, ()⟩]) ∧ Unnamed source login session) ∨
    ∃ naming rest dn, record = ⟨.connect source, .ok ()⟩ :: (naming ++ rest) ∧ Named source login direct naming dn ∧
      Checking source password dn rest := by
  have named {session lookup naming rest : Record} {dn : String} (same : session = naming ++ rest)
      (established : Named source login direct naming dn) (checking : Checking source password dn rest)
      (looked : AreRoutine source lookup) :
      ∃ naming rest dn, (⟨.connect source, .ok ()⟩ :: (session ++ ⟨.unbind, ()⟩ :: lookup) : Record) =
        ⟨.connect source, .ok ()⟩ :: (naming ++ rest) ∧ Named source login direct naming dn ∧
        Checking source password dn rest := by
    refine ⟨naming, rest ++ ⟨.unbind, ()⟩ :: lookup, dn, ?_, established, checking.append (looked.cons trivial)⟩
    rw [same, List.append_assoc]
  cases scheduled with
  | @unreached fault => exact .inl ⟨fault, rfl⟩
  | @failed session held =>
    obtain ⟨unnamed, _⟩ | ⟨naming, rest, dn, same, established, checking⟩ := held.naming_cases
    · exact .inr (.inl ⟨session, rfl, unnamed⟩)
    · exact .inr (.inr (named same established checking (areRoutine_nil source)))
  | passed held looked =>
    obtain ⟨_, ⟨⟩⟩ | ⟨naming, rest, dn, same, established, checking⟩ := held.naming_cases
    exact .inr (.inr (named same established checking (areRoutine_lookup looked)))

theorem Scheduled.unfound (scheduled : Scheduled source login password direct record passed)
    {answer : Except Fault (List Entry)} (searched :
      (⟨.search source.userBase (Template.fill source.userFilter login) [], answer⟩ : Exchange) ∈ record)
    (nobody : ∀ found, answer = .ok [found] → found.dn = "") :
    BindsAsService source record ∧ timesSent password record = if SharesPassword source password then 1 else 0 := by
  obtain ⟨fault, rfl⟩ | ⟨session, rfl, unnamed⟩ | ⟨naming, rest, dn, rfl, named, checking⟩ := scheduled.naming_cases
  · cases congrArg Sigma.fst (List.mem_singleton.mp searched)
  · exact unnamed.guarded
  · rcases List.mem_cons.mp searched with same | inside
    · cases congrArg Sigma.fst same
    rcases List.mem_append.mp inside with early | late
    · obtain ⟨found, single, nonempty⟩ := named.found early
      exact absurd (nobody found single) nonempty
    · exact absurd late checking.no_search

theorem Scheduled.refused (scheduled : Scheduled source login password direct record passed) {name secret : String}
    {answer : Except Fault BindOutcome} {others : Record} (searches : direct = false)
    (credentials : source.serviceCredentials = some (name, secret))
    (asked : record = ⟨.connect source, .ok ()⟩ :: ⟨.bind name secret, answer⟩ :: others)
    (unbound : answer ≠ .ok .bound) :
    BindsAsService source record ∧ timesSent password record = if SharesPassword source password then 1 else 0 := by
  obtain ⟨fault, rfl⟩ | ⟨session, rfl, unnamed⟩ | ⟨naming, rest, dn, rfl, named, _⟩ := scheduled.naming_cases
  · cases (List.cons.inj asked).2
  · exact unnamed.guarded
  · cases named with
    | template => cases searches
    | search =>
      have service : serviceBind source = [⟨.bind name secret, .ok .bound⟩] := by
        rw [serviceBind, credentials]
      rw [service] at asked
      cases (List.cons.inj (List.cons.inj asked).2).1
      exact absurd rfl unbound

/-! ### Every attempt -/

theorem PasswordsGuarded.silent : PasswordsGuarded source login password direct [] where
  given _ _ _ member := absurd member List.not_mem_nil
  service_or_user := .inl (areRoutine_nil source).bindsAsService
  once := Nat.zero_le _
  unfound _ searched := absurd searched List.not_mem_nil
  refused _ _ _ _ _ _ asked := nomatch asked
  lookup first _ parted := absurd parted.symm (List.append_ne_nil_of_right_ne_nil first (List.cons_ne_nil _ _))

theorem Scheduled.guarded (scheduled : Scheduled source login password direct record passed)
    (admissible : Admissible source login password direct) :
    PasswordsGuarded source login password direct record where
  given name secret answer member := by
    obtain own | bound := scheduled.passwords
    · exact serviceCredentials_ne_empty (own name secret answer member)
    · exact bound.given admissible member
  service_or_user := scheduled.passwords
  once := scheduled.timesSent_le
  unfound _ := scheduled.unfound
  refused _ _ _ _ := scheduled.refused
  lookup first second parted := by
    obtain own | bound := scheduled.passwords
    · rw [parted] at own
      exact fun name secret answer member =>
        own name secret answer (List.mem_append_right _ (List.mem_cons_of_mem _ member))
    · exact bound.lookup parted

end QueryGate.Login
