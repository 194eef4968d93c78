import QueryGate.Proofs.Login.Schedule

/-!
# Sessions of a login

A login holds at most two sessions with the directory, each over a connection of its own: one to verify
the user and, once that has passed, one to look up the groups. Both follow their schedule, and no
connection is left open.
-/

namespace QueryGate.Login

open Directory (Answerer Entry Request Source)
open Program (Follows follows_attempt_bind follows_done follows_lift_iff)

def foundName : Record → String
  | [] => ""
  | ⟨.search .., .ok [entry]⟩ :: _ => entry.dn
  | ⟨.search .., _⟩ :: _ => ""
  | _ :: rest => foundName rest

/-- The name that the first session works with: by the template, or as that of the entry found. -/
def nameIn (source : Source) (login : String) (direct : Bool) (session : Record) : String :=
  if direct then Template.fill source.userDn login else foundName session

/-- The operations over the first connection, without the connect and the unbind. -/
def Session (source : Source) (login password : String) (direct : Bool) (session : Record) (passed : Bool) :
    Prop :=
  Conducted (Step.request source login password (nameIn source login direct session)) (schedule source direct)
    session passed

/-- The second connection. No step of it asks with the user's password or name. -/
inductive GroupLookup (source : Source) (login : String) : Record → Prop where
  | unreached {fault : Fault} : GroupLookup source login [⟨.connect source, .error fault⟩]
  | held {session : Record} {passed : Bool}
      (conducted : Conducted (Step.request source login "" "") (groupSchedule source) session passed) :
      GroupLookup source login (⟨.connect source, .ok ()⟩ :: (session ++ [⟨.unbind, ()⟩]))

/-- The whole conversation of a login, which passes if its first session does. -/
inductive Scheduled (source : Source) (login password : String) (direct : Bool) : Record → Bool → Prop where
  | unreached {fault : Fault} : Scheduled source login password direct [⟨.connect source, .error fault⟩] false
  | failed {session : Record} (held : Session source login password direct session false) :
      Scheduled source login password direct
        (⟨.connect source, .ok ()⟩ :: (session ++ [⟨.unbind, ()⟩])) false
  | passed {session lookup : Record} (held : Session source login password direct session true)
      (looked : if source.userBase = "" then lookup = [] else GroupLookup source login lookup) :
      Scheduled source login password direct
        (⟨.connect source, .ok ()⟩ :: (session ++ ⟨.unbind, ()⟩ :: lookup)) true

variable {source : Source} {login password : String} {direct passed : Bool} {t session record : Record}

theorem foundName_serviceBind (found : Entry) (base filter : String) (rest : Record) :
    foundName (serviceBind source ++ [⟨.search base filter [], .ok [found]⟩] ++ rest) = found.dn := by
  unfold serviceBind
  cases source.serviceCredentials <;> rfl

theorem session_of_follows {r : Except Fault Identity}
    (follows : Follows (verify source login password (screened source login direct)).run t r) :
    Session source login password direct t r.isOk := by
  rw [verify_eq, screened_bindsFirst] at follows
  cases direct with
  | true => exact performs_checkUser source login password _ true t r follows
  | false =>
    obtain ⟨naming, dn, checking, rfl, named, checked⟩ | ⟨fault, rfl, failed⟩ := follows_attempt_bind.mp follows
    · obtain ⟨found, rfl, _, rfl⟩ := follows_findUser_ok.mp named
      have first := performs_findUser source login password found.dn _ _ named
      have whole := first.append (performs_checkUser source login password found.dn _ _ _ checked)
      rw [List.append_assoc] at whole
      rw [Session, nameIn, if_neg Bool.false_ne_true, foundName_serviceBind]
      exact whole
    -- whatever stands for the name of a user who was not found, no step performed so far has asked with it
    · have first := performs_findUser source login password (foundName t) _ _ failed
      have whole := first.append_cut (checkSteps source (!source.attributesInBind))
      rw [List.append_assoc] at whole
      exact whole

theorem groupLookup_of_follows {groups : List String}
    (follows : Follows (lookUpGroups source (Template.fill source.userFilter login)) t groups) :
    if source.userBase = "" then t = [] else GroupLookup source login t := by
  by_cases base : source.userBase = ""
  · rw [if_pos base]
    have skipped : lookUpGroups source (Template.fill source.userFilter login) = .done [] := by
      rw [lookUpGroups, if_pos base]
      rfl
    rw [skipped] at follows
    exact (follows_done.mp follows).1
  · rw [if_neg base]
    rw [lookUpGroups_of_base base] at follows
    obtain ⟨_, found, _, rfl, searched, ended⟩ := Program.follows_bind.mp follows
    obtain ⟨rfl, _⟩ := follows_done.mp ended
    rw [List.append_nil]
    obtain ⟨fault, rfl, _⟩ | ⟨within, rfl, held⟩ := follows_connected.mp searched
    · exact .unreached
    · exact .held (performs_searchGroups source login "" "" within found held)

theorem scheduled_of_follows {r : Except Fault Identity}
    (follows : Follows (converse source login password (screened source login direct)).run t r) :
    Scheduled source login password direct t r.isOk := by
  obtain ⟨_, identity, _, rfl, verified, rest⟩ | ⟨fault, rfl, failed⟩ := follows_attempt_bind.mp follows
  · obtain ⟨fault, _, ⟨⟩⟩ | ⟨session, rfl, held⟩ := follows_connected.mp verified
    obtain ⟨lookup, groups, _, rfl, looked, ended⟩ | ⟨fault, _, failed⟩ := follows_attempt_bind.mp rest
    · obtain ⟨rfl, rfl⟩ := follows_done.mp ended
      obtain ⟨_, ⟨⟩, asked⟩ := follows_lift_iff.mp looked
      rw [List.append_nil, List.cons_append, List.append_assoc]
      exact .passed (session_of_follows held) (groupLookup_of_follows asked)
    · obtain ⟨_, ⟨⟩, _⟩ := follows_lift_iff.mp failed
  · obtain ⟨fault, rfl, _⟩ | ⟨session, rfl, held⟩ := follows_connected.mp failed
    · exact .unreached
    · exact .failed (session_of_follows held)

section Asked

variable {P : Request → Prop} (connect : P (.connect source)) (unbind : P .unbind)
  (lookup : ∀ step ∈ groupSchedule source, P (step.request source login "" ""))

include connect unbind lookup

theorem GroupLookup.forall_asked (looked : GroupLookup source login record) : ∀ exchange ∈ record, P exchange.1 := by
  cases looked with
  | unreached => exact List.forall_mem_singleton.mpr connect
  | held conducted =>
    exact List.forall_mem_cons.mpr ⟨connect, List.forall_mem_append.mpr ⟨conducted.forall_asked lookup,
      List.forall_mem_singleton.mpr unbind⟩⟩

theorem Scheduled.forall_asked (scheduled : Scheduled source login password direct record passed)
    (verification : ∀ session, ∀ step ∈ schedule source direct,
      P (step.request source login password (nameIn source login direct session))) :
    ∀ exchange ∈ record, P exchange.1 := by
  cases scheduled with
  | unreached => exact List.forall_mem_singleton.mpr connect
  | failed held =>
    exact List.forall_mem_cons.mpr ⟨connect, List.forall_mem_append.mpr
      ⟨Conducted.forall_asked held (verification _), List.forall_mem_singleton.mpr unbind⟩⟩
  | @passed _ second held looked =>
    have inLookup : ∀ exchange ∈ second, P exchange.1 := by
      split at looked
      · rw [looked]
        exact List.forall_mem_nil _
      · exact looked.forall_asked connect unbind lookup
    exact List.forall_mem_cons.mpr ⟨connect, List.forall_mem_append.mpr
      ⟨Conducted.forall_asked held (verification _), List.forall_mem_cons.mpr ⟨unbind, inLookup⟩⟩⟩

end Asked

/-! ### Open connections -/

/-- Whether a connection is open after these exchanges. Nothing comes out if a connect comes while one is
open, or anything else while none is. -/
def openAfter : Bool → Record → Option Bool
  | isOpen, [] => some isOpen
  | false, ⟨.connect _, .ok ()⟩ :: rest => openAfter true rest
  | false, ⟨.connect _, .error _⟩ :: rest => openAfter false rest
  | true, ⟨.bind .., _⟩ :: rest => openAfter true rest
  | true, ⟨.search .., _⟩ :: rest => openAfter true rest
  | true, ⟨.unbind, _⟩ :: rest => openAfter false rest
  | _, _ :: _ => none

def isConnect : Exchange → Bool
  | ⟨.connect _, _⟩ => true
  | _ => false

def opens : Exchange → Bool
  | ⟨.connect _, .ok ()⟩ => true
  | _ => false

def isUnbind : Exchange → Bool
  | ⟨.unbind, _⟩ => true
  | _ => false

/-- Connections that were opened are unbound or still open. -/
theorem opened_eq_unbound {before after : Bool} (balanced : openAfter before record = some after) :
    before.toNat + record.countP opens = record.countP isUnbind + after.toNat := by
  fun_induction openAfter before record with
  | case1 isOpen =>
    cases balanced
    exact Nat.add_comm _ _
  | case7 => cases balanced
  | case2 source rest ih | case3 source fault rest ih | case4 dn password answer rest ih
  | case5 base filter attributes answer rest ih | case6 answer rest ih =>
    have others := ih balanced
    simp only [List.countP_cons, opens, isUnbind, Bool.toNat_true, Bool.toNat_false, if_true, Bool.false_eq_true,
      if_false] at others ⊢
    omega

/-- A step neither opens nor closes a connection. -/
theorem Step.openAfter_request {dn : String} {step : Step} {exchange : Exchange}
    (asked : exchange.1 = step.request source login password dn) (rest : Record) :
    openAfter true (exchange :: rest) = openAfter true rest ∧ isConnect exchange = false := by
  obtain ⟨request, answer⟩ := exchange
  obtain rfl : request = _ := asked
  cases step
  all_goals exact ⟨rfl, rfl⟩

theorem Conducted.openAfter_append {dn : String} {steps : List Step}
    (conducted : Conducted (Step.request source login password dn) steps session passed) (rest : Record) :
    openAfter true (session ++ rest) = openAfter true rest ∧ session.countP isConnect = 0 := by
  induction conducted with
  | finished => exact ⟨rfl, rfl⟩
  | cut asked _ =>
    obtain ⟨stays, noConnect⟩ := Step.openAfter_request asked rest
    refine ⟨stays, ?_⟩
    rw [List.countP_singleton, noConnect, if_neg Bool.false_ne_true]
  | @went _ _ exchange record _ asked _ _ ih =>
    obtain ⟨stays, noConnect⟩ := Step.openAfter_request asked (record ++ rest)
    refine ⟨stays.trans ih.1, ?_⟩
    rw [List.countP_cons_of_neg (by rw [noConnect]; exact Bool.false_ne_true), ih.2]

theorem GroupLookup.balanced {lookup : Record} (looked : GroupLookup source login lookup) :
    openAfter false lookup = some false ∧ lookup.countP isConnect = 1 := by
  cases looked with
  | unreached => exact ⟨rfl, rfl⟩
  | held conducted =>
    obtain ⟨stays, noConnect⟩ := conducted.openAfter_append [⟨.unbind, ()⟩]
    refine ⟨stays, ?_⟩
    rw [List.countP_cons_of_pos rfl, List.countP_append, noConnect]
    rfl

theorem Scheduled.balanced (scheduled : Scheduled source login password direct record passed) :
    openAfter false record = some false ∧ record.countP isConnect ≤ 2 := by
  cases scheduled with
  | unreached => exact ⟨rfl, Nat.le_succ 1⟩
  | failed held =>
    obtain ⟨stays, noConnect⟩ := held.openAfter_append [⟨.unbind, ()⟩]
    refine ⟨stays, ?_⟩
    rw [List.countP_cons_of_pos rfl, List.countP_append, noConnect]
    decide
  | @passed session lookup held looked =>
    obtain ⟨stays, noConnect⟩ := held.openAfter_append (⟨.unbind, ()⟩ :: lookup)
    have second : openAfter false lookup = some false ∧ lookup.countP isConnect ≤ 1 := by
      split at looked
      · rw [looked]
        exact ⟨rfl, Nat.zero_le 1⟩
      · exact ⟨looked.balanced.1, Nat.le_of_eq looked.balanced.2⟩
    refine ⟨stays.trans second.1, ?_⟩
    have unbind : ¬ isConnect ⟨.unbind, ()⟩ = true := Bool.false_ne_true
    rw [List.countP_cons_of_pos rfl, List.countP_append, noConnect, List.countP_cons_of_neg unbind]
    omega

/-- A second connection is asked for only once the first session has passed. -/
theorem Scheduled.passed_of_lookup (scheduled : Scheduled source login password direct record passed)
    (lookup : 2 ≤ record.countP isConnect) : passed = true := by
  cases scheduled with
  | unreached =>
    rw [List.countP_cons_of_pos rfl] at lookup
    exact absurd lookup (by decide)
  | failed held =>
    rw [List.countP_cons_of_pos rfl, List.countP_append, (held.openAfter_append []).2] at lookup
    exact absurd lookup (by decide)
  | passed held looked => rfl

theorem Scheduled.ne_nil (scheduled : Scheduled source login password direct record passed) : record ≠ [] := by
  cases scheduled
  all_goals exact List.cons_ne_nil _ _

namespace Authenticator

variable {σ : Type} {directory : Answerer σ} {authenticator : Authenticator} {state : σ}

theorem authenticate_silent (turned : authenticator.available = false ∨
      ∃ fault, screen authenticator.source login password direct = .error fault) :
    (authenticator.authenticate directory login password direct state).exchanges = [] := by
  cases on : authenticator.available with
  | false => rw [authenticate_disabled on]
  | true =>
    rw [on] at turned
    obtain ⟨⟨⟩⟩ | ⟨fault, rejected⟩ := turned
    rw [authenticate_rejected on rejected]

theorem authenticate_scheduled (on : authenticator.available = true) {input : Screened}
    (passed : screen authenticator.source login password direct = .ok input) :
    let outcome := authenticator.authenticate directory login password direct state
    Scheduled authenticator.source login password direct outcome.exchanges outcome.result.isOk := by
  obtain ⟨_, rfl⟩ := screen_eq_ok.mp passed
  cases talked : (converse authenticator.source login password
      (screened authenticator.source login direct)).run.run directory state with
  | mk result record final =>
    rw [authenticate_conversed on passed talked]
    exact scheduled_of_follows (Program.run_eq_iff.mp talked).1

/-- Every login keeps to the schedule and leaves no connection open, whatever the directory answers. Nothing
is asked exactly when the source is not available or the input is turned away; otherwise the connect fails, or
the first session performs its steps up to the first that fails the login and is unbound, and once it has
passed, and only then, a user base brings about a second session. -/
theorem authenticate_follows_schedule (directory : Answerer σ) (authenticator : Authenticator) (state : σ)
    (login password : String) (direct : Bool) :
    let source := authenticator.source
    let outcome := authenticator.authenticate directory login password direct state
    (outcome.exchanges = [] ↔ authenticator.available = false ∨
      ∃ fault, screen source login password direct = .error fault) ∧
    (outcome.exchanges ≠ [] → Scheduled source login password direct outcome.exchanges outcome.result.isOk) ∧
    openAfter false outcome.exchanges = some false ∧
    outcome.exchanges.countP isConnect ≤ 2 ∧
    outcome.exchanges.countP opens = outcome.exchanges.countP isUnbind := by
  intro source outcome
  by_cases turned : authenticator.available = false ∨ ∃ fault, screen source login password direct = .error fault
  · have silent : outcome.exchanges = [] := authenticate_silent turned
    rw [silent]
    exact ⟨iff_of_true rfl turned, fun given => absurd rfl given, rfl, Nat.zero_le 2, rfl⟩
  · obtain ⟨on, noFault⟩ := not_or.mp turned
    have scheduled : Scheduled source login password direct outcome.exchanges outcome.result.isOk := by
      cases passed : screen source login password direct with
      | error fault => exact absurd ⟨fault, passed⟩ noFault
      | ok input => exact authenticate_scheduled (eq_true_of_ne_false on) passed
    obtain ⟨balanced, few⟩ := scheduled.balanced
    have counted := opened_eq_unbound balanced
    rw [Bool.toNat_false, Nat.zero_add, Nat.add_zero] at counted
    exact ⟨iff_of_false scheduled.ne_nil turned, fun _ => scheduled, balanced, few, counted⟩

end Authenticator
end QueryGate.Login
