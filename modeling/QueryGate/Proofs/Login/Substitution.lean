import QueryGate.Proofs.Config.Validation
import QueryGate.Proofs.Directory.Filter.Texts
import QueryGate.Proofs.Login.Passwords

/-!
# Names in requests

A login name that is not turned away reaches the directory only where a template has its hole, and changes
nothing around it: a filter keeps its tree, and a distinguished name its parts. The two sets of forbidden
characters cover what separates the parts of either.
-/

namespace QueryGate.Login

open Directory (Answerer Filter Request Source)

/-- The value stands once in the text, in place of the only hole of the template. -/
def InsertedInto (template value text : String) : Prop :=
  ∃ before after, template = before ++ "%s" ++ after ∧
    (∀ first last, template = first ++ "%s" ++ last → first = before ∧ last = after) ∧
    text = before ++ value ++ after

/-- What a user can be called in requests: any name that the directory gave, or what the template yields. -/
def IsNameOf (source : Source) (login dn : String) : Prop :=
  source.useDirectBind = true → InsertedInto source.userDn login dn

/-- A request in which the login name, if at all, fills the hole of a template. -/
inductive Inserted (source : Source) (login password : String) : Request → Prop where
  | connect : Inserted source login password (.connect source)
  | unbind : Inserted source login password .unbind
  | serviceBind {dn secret : String} (own : source.serviceCredentials = some (dn, secret)) :
      Inserted source login password (.bind dn secret)
  | userBind {dn : String} (named : IsNameOf source login dn) : Inserted source login password (.bind dn password)
  | search {base filter : String} {attributes : List String}
      (based : base = source.userBase ∨ IsNameOf source login base)
      (filled : InsertedInto source.userFilter login filter) :
      Inserted source login password (.search base filter attributes)
  | adminSearch {dn template filter : String} (named : IsNameOf source login dn)
      (given : source.adminFilter = some template)
      (filled : if Template.holes template = 0 then filter = template else InsertedInto template login filter) :
      Inserted source login password (.search dn filter [source.attributes.name])

/-- If the template is the text of a filter with its hole in the value of an equality, the name changes that
value and nothing else in the filter. If the filter is well-formed, the text has no other meaning. The items
around may be of any kind: by its text a comparison is an equality of an attribute such as `age>`. -/
def KeepsTree (template name : String) : Prop :=
  ∀ (context : Filter.Context) (attr before after : String), '*' ∉ before.toList → '*' ∉ after.toList →
    template.toList = (context.plug (.equal attr (before ++ "%s" ++ after))).text →
    let filled := context.plug (.equal attr (before ++ name ++ after))
    (Template.fill template name).toList = filled.text ∧ '*' ∉ (before ++ name ++ after).toList ∧
      ((context.plug (.equal attr (before ++ "%s" ++ after))).WellFormed →
        filled.WellFormed ∧
        ∀ other : Filter, other.WellFormed → other.text = (Template.fill template name).toList → other = filled)

/-- Taken apart at special characters, whichever these are, the template and the filled text have the same
parts but for the one with the hole, and the same separators between them. -/
def KeepsParts (template name : String) : Prop :=
  ∀ separators ⊆ nameSpecials, ∃ front first last back,
    template.toList.splitOnP separators.contains = front ++ (first ++ "%s".toList ++ last) :: back ∧
    (Template.fill template name).toList.splitOnP separators.contains =
      front ++ (first ++ name.toList ++ last) :: back ∧
    (Template.fill template name).toList.filter separators.contains = template.toList.filter separators.contains

/-! ### Filled templates -/

theorem insertedInto_fill {template : String} (single : Template.holes template = 1) (value : String) :
    InsertedInto template value (Template.fill template value) := by
  obtain ⟨before, after, splits⟩ := Template.exists_splits single
  refine ⟨before, after, splits.whole, fun first last same => ?_, splits.fill_eq value⟩
  obtain ⟨front, back⟩ := splits.unique ⟨single, same⟩
  exact ⟨front.symm, back.symm⟩

theorem keepsTree {template name : String} (holes : Template.holes template ≤ 1)
    (plain : ∀ c ∈ name.toList, c ∉ filterSpecials) : KeepsTree template name := by
  intro context attr before after beforePlain afterPlain same filled
  have star : '*' ∉ (before ++ name ++ after).toList := by
    have inside : '*' ∉ name.toList := fun member => plain '*' member (by decide)
    simp [beforePlain, afterPlain, inside]
  obtain ⟨front, back, around⟩ := context.text_plug
  have text : (Template.fill template name).toList = filled.text := by
    have parted : template.toList =
        front ++ '(' :: (attr.toList ++ '=' :: before.toList) ++ '%' :: 's' :: (after.toList ++ ')' :: back) := by
      rw [same, around]
      simp [Filter.text]
    -- the place for the name is a hole itself, so there is no other one
    rw [Template.holes, parted, Template.holesIn_append_hole] at holes
    have single : Template.holesIn
        (front ++ '(' :: (attr.toList ++ '=' :: before.toList) ++ '%' :: 's' :: (after.toList ++ ')' :: back)) = 1 := by
      rw [Template.holesIn_append_hole]
      omega
    rw [Template.fill, String.toList_ofList, parted, Template.fillIn_single single, around]
    simp [Filter.text]
  refine ⟨text, star, fun wellFormed => ?_⟩
  obtain ⟨⟨named, valued⟩, replaced⟩ := Filter.Context.wellFormed_plug wellFormed
  have value : Filter.IsValue (before ++ name ++ after) := by
    constructor
    · intro c member
      rw [String.toList_append, String.toList_append, List.mem_append, List.mem_append] at member
      have around (member : c ∈ before.toList ∨ c ∈ after.toList) : c ≠ '(' ∧ c ≠ ')' := by
        refine valued.plain c ?_
        rw [String.toList_append, String.toList_append, List.mem_append, List.mem_append]
        exact member.imp_left .inl
      rcases member with (early | inside) | late
      · exact around (.inl early)
      · have special := plain c inside
        exact ⟨fun same => special (by rw [same]; decide), fun same => special (by rw [same]; decide)⟩
      · exact around (.inr late)
    · intro same
      rw [same] at star
      exact star List.mem_cons_self
  have whole : filled.WellFormed := replaced _ ⟨named, value⟩
  exact ⟨whole, fun other given written => Filter.text_inj given whole (written.trans text)⟩

theorem splitOnP_plain_append {p : Char → Bool} {value : List Char} (plain : ∀ c ∈ value, p c = false)
    {after last : List Char} {back : List (List Char)} (parts : after.splitOnP p = last :: back) :
    (value ++ after).splitOnP p = (value ++ last) :: back := by
  induction value with
  | nil => exact parts
  | cons c value ih =>
    have inside : ¬ p c = true := by
      rw [plain c List.mem_cons_self]
      exact Bool.false_ne_true
    rw [List.cons_append, List.splitOnP_cons_eq_if_modifyHead, if_neg inside,
      ih fun d member => plain d (List.mem_cons_of_mem _ member)]
    rfl

/-- Characters that are no separators go into one of the parts. -/
theorem exists_splitOnP_append (p : Char → Bool) (before after : List Char) :
    ∃ front first last back, ∀ value : List Char, (∀ c ∈ value, p c = false) →
      (before ++ value ++ after).splitOnP p = front ++ (first ++ value ++ last) :: back := by
  induction before with
  | nil =>
    cases parts : after.splitOnP p with
    | nil => exact absurd parts (List.splitOnP_ne_nil p after)
    | cons last back => exact ⟨[], [], last, back, fun value plain => splitOnP_plain_append plain parts⟩
  | cons c before ih =>
    obtain ⟨front, first, last, back, split⟩ := ih
    have step (value : List Char) (plain : ∀ c ∈ value, p c = false) : (c :: before ++ value ++ after).splitOnP p =
        if p c then [] :: (front ++ (first ++ value ++ last) :: back)
        else (front ++ (first ++ value ++ last) :: back).modifyHead (List.cons c) := by
      rw [List.cons_append, List.cons_append, List.splitOnP_cons_eq_if_modifyHead, split value plain]
    by_cases separates : p c = true
    · refine ⟨[] :: front, first, last, back, fun value plain => ?_⟩
      rw [step value plain, if_pos separates]
      rfl
    · cases front with
      | nil =>
        refine ⟨[], c :: first, last, back, fun value plain => ?_⟩
        rw [step value plain, if_neg separates]
        rfl
      | cons part front =>
        refine ⟨(c :: part) :: front, first, last, back, fun value plain => ?_⟩
        rw [step value plain, if_neg separates]
        rfl

theorem keepsParts {template name : String} (single : Template.holes template = 1)
    (plain : ∀ c ∈ name.toList, c ∉ nameSpecials) : KeepsParts template name := by
  intro separators special
  obtain ⟨before, after, splits⟩ := Template.exists_splits single
  have within (value : List Char) (plain : ∀ c ∈ value, c ∉ nameSpecials) :
      ∀ c ∈ value, separators.contains c = false := by
    intro c member
    rw [List.contains_eq_mem, decide_eq_false_iff_not]
    exact fun separates => plain c member (special separates)
  have kept (value : List Char) (inside : ∀ c ∈ value, separators.contains c = false) :
      (before.toList ++ value ++ after.toList).filter separators.contains =
        before.toList.filter separators.contains ++ after.toList.filter separators.contains := by
    have none : value.filter separators.contains = [] := by
      refine List.filter_eq_nil_iff.mpr fun c member => ?_
      rw [inside c member]
      exact Bool.false_ne_true
    rw [List.filter_append, List.filter_append, none, List.append_nil]
  have hole := within "%s".toList (List.forall_mem_cons.mpr ⟨by decide, List.forall_mem_singleton.mpr (by decide)⟩)
  have filled := within name.toList plain
  obtain ⟨front, first, last, back, split⟩ := exists_splitOnP_append separators.contains before.toList after.toList
  refine ⟨front, first, last, back, ?_, ?_, ?_⟩
  · rw [splits.whole, String.toList_append, String.toList_append]
    exact split _ hole
  · rw [splits.fill_eq, String.toList_append, String.toList_append]
    exact split _ filled
  · rw [splits.fill_eq, splits.whole]
    simp only [String.toList_append]
    exact (kept _ filled).trans (kept _ hole).symm

/-! ### Requests of a login -/

variable {source : Source} {login password : String} {direct passed : Bool} {record : Record}

/-- A step that this source has a use for. -/
def Step.Offered (source : Source) : Step → Prop
  | serviceBind => ∃ name secret, source.serviceCredentials = some (name, secret)
  | adminSearch => source.adminFilter.getD "" ≠ ""
  | _ => True

theorem offered_of_mem_adminSteps {step : Step} (listed : step ∈ adminSteps source) : step.Offered source := by
  unfold adminSteps at listed
  split at listed
  · cases listed
  · rename_i given
    rw [List.mem_singleton.mp listed]
    exact given

theorem offered_of_mem_checkSteps {bindsFirst : Bool} {step : Step} (listed : step ∈ checkSteps source bindsFirst) :
    step.Offered source := by
  have known : step = .userBind ∨ step = .attributeSearch ∨ step ∈ adminSteps source := by
    unfold checkSteps at listed
    cases bindsFirst with
    | true => simpa using listed
    | false => simpa [or_comm, or_left_comm] using listed
  obtain rfl | rfl | admin := known
  · trivial
  · trivial
  · exact offered_of_mem_adminSteps admin

theorem offered_of_mem_serviceSteps {step : Step} (listed : step ∈ serviceSteps source) : step.Offered source := by
  obtain ⟨rfl, given⟩ := mem_serviceSteps listed
  exact given

theorem offered_of_mem_schedule {step : Step} (listed : step ∈ schedule source direct) : step.Offered source := by
  unfold schedule at listed
  split at listed
  · exact offered_of_mem_checkSteps listed
  · rcases List.mem_append.mp listed with service | others
    · exact offered_of_mem_serviceSteps service
    · rcases List.mem_cons.mp others with rfl | checking
      · trivial
      · exact offered_of_mem_checkSteps checking

theorem offered_of_mem_groupSchedule {step : Step} (listed : step ∈ groupSchedule source) (dn : String) :
    step.Offered source ∧ step.request source login "" "" = step.request source login password dn := by
  rcases List.mem_append.mp listed with service | group
  · have offered := offered_of_mem_serviceSteps service
    obtain ⟨rfl, _⟩ := mem_serviceSteps service
    exact ⟨offered, rfl⟩
  · rw [List.mem_singleton.mp group]
    exact ⟨trivial, rfl⟩

theorem Step.inserted (valid : source.Valid) {step : Step} (offered : step.Offered source) {dn : String}
    (named : IsNameOf source login dn) : Inserted source login password (step.request source login password dn) := by
  have filled := insertedInto_fill valid.filter_hole login
  cases step with
  | serviceBind =>
    obtain ⟨name, secret, own⟩ := offered
    obtain ⟨given, shared, _, _⟩ := Directory.Source.serviceCredentials_eq_some_iff.mp own
    rw [Step.request, given, shared]
    exact .serviceBind own
  | userSearch | groupSearch => exact .search (.inl rfl) filled
  | userBind => exact .userBind named
  | attributeSearch => exact .search (.inr named) filled
  | adminSearch =>
    cases given : source.adminFilter with
    | none =>
      rw [Step.Offered, given] at offered
      exact absurd rfl offered
    | some template =>
      rw [Step.request, given]
      refine .adminSearch named given ?_
      have holes := valid.admin_holes template given
      split
      · rename_i none
        exact Template.fill_of_no_hole none
      · exact insertedInto_fill (by omega) login

theorem Scheduled.inserted (valid : source.Valid)
    (scheduled : Scheduled source login password source.useDirectBind record passed) :
    ∀ exchange ∈ record, Inserted source login password exchange.1 := by
  have template : IsNameOf source login (Template.fill source.userDn login) :=
    fun direct => insertedInto_fill (valid.name_hole direct) login
  refine scheduled.forall_asked .connect .unbind (fun step listed => ?_) fun session step listed => ?_
  · obtain ⟨offered, same⟩ := offered_of_mem_groupSchedule listed (Template.fill source.userDn login)
    rw [same]
    exact Step.inserted valid offered template
  · refine Step.inserted valid (offered_of_mem_schedule listed) fun direct => ?_
    rw [nameIn, if_pos direct]
    exact template direct

/-- A name that is let in can be put into a filter, whichever strategy is selected. -/
theorem Admissible.filter_plain (admissible : Admissible source login password direct) :
    ∀ c ∈ login.toList, c ∉ filterSpecials := by
  intro c member special
  refine admissible.plain c member ?_
  split
  · exact filterSpecials_subset special
  · exact special

/-- With a valid source, only the input decides whether it is turned away. -/
theorem admissible_iff (valid : source.Valid) : Admissible source login password source.useDirectBind ↔
    ¬ (login = "" ∨ password = "" ∨
      ∃ c ∈ login.toList, c ∈ if source.useDirectBind then nameSpecials else filterSpecials) := by
  constructor
  · rintro admissible (nameless | unlocked | ⟨c, member, special⟩)
    · exact admissible.login_given nameless
    · exact admissible.password_given unlocked
    · exact admissible.plain c member special
  · intro fine
    obtain ⟨named, locked, plain⟩ : login ≠ "" ∧ password ≠ "" ∧ _ := by
      simpa only [not_or] using fine
    exact ⟨named, locked, fun c member special => plain ⟨c, member, special⟩, valid.name_hole⟩

namespace Authenticator

variable {σ : Type}

/-- A login cannot change what a request means. With a valid source it is turned away, before anything is
asked, exactly when a part of it is missing or the name has a forbidden character. Otherwise the name only
fills the holes of the templates, which leaves the trees of all filters and the parts of the
distinguished name as they are. -/
theorem login_keeps_requests (directory : Answerer σ) (authenticator : Authenticator) (state : σ)
    (name password : String) (valid : authenticator.source.validate = .ok ()) (on : authenticator.available = true) :
    let source := authenticator.source
    let forbidden := if source.useDirectBind then nameSpecials else filterSpecials
    let outcome := authenticator.login directory name password state
    let turnedAway := name = "" ∨ password = "" ∨ ∃ c ∈ name.toList, c ∈ forbidden
    (outcome.result = .error .inputRejected ∧ outcome.exchanges = [] ↔ turnedAway) ∧
    (¬ turnedAway →
      outcome.exchanges ≠ [] ∧
      (∀ exchange ∈ outcome.exchanges, Inserted source name password exchange.1) ∧
      KeepsTree source.userFilter name ∧
      (∀ template, source.adminFilter = some template → KeepsTree template name) ∧
      (source.useDirectBind = true → KeepsParts source.userDn name)) := by
  intro source forbidden outcome turnedAway
  have accepted : source.Valid := Source.validate_eq_ok_iff.mp valid
  have fine : Admissible source name password source.useDirectBind ↔ ¬ turnedAway := admissible_iff accepted
  by_cases turned : turnedAway
  · cases passed : screen source name password source.useDirectBind with
    | ok input => exact absurd turned (fine.mp (screen_eq_ok.mp passed).1)
    | error fault =>
      have rejected : outcome = ⟨.error .inputRejected, authenticator, state, []⟩ := authenticate_rejected on passed
      rw [rejected]
      exact ⟨iff_of_true ⟨rfl, rfl⟩ turned, fun stays => absurd turned stays⟩
  · have admissible := fine.mpr turned
    have scheduled : Scheduled source name password source.useDirectBind outcome.exchanges outcome.result.isOk :=
      authenticate_scheduled on (screen_eq_ok.mpr ⟨admissible, rfl⟩)
    have filterPlain := admissible.filter_plain
    have named (direct : source.useDirectBind = true) : KeepsParts source.userDn name := by
      have plain := admissible.plain
      rw [if_pos direct] at plain
      exact keepsParts (admissible.template direct) plain
    exact ⟨iff_of_false (fun silent => scheduled.ne_nil silent.2) turned, fun _ => ⟨scheduled.ne_nil,
      scheduled.inserted accepted, keepsTree (Nat.le_of_eq accepted.filter_hole) filterPlain,
      fun template given => keepsTree (accepted.admin_holes template given) filterPlain, named⟩⟩

/-- A name with a hole in it is not filled again, here by a direct bind. -/
theorem login_keeps_requests_percent_name :
    let source : Source := {
      useDirectBind := true
      userDn := "uid=%s,dc=org"
      userFilter := "(&(uid=%s)(kind=user))"
      adminFilter := some "(role=admin)" }
    let outcome := Authenticator.login Directory.Script.answer "a%s" "volt" { source } {}
    source.validate = .ok () ∧ outcome.exchanges ≠ [] ∧
      (∀ exchange ∈ outcome.exchanges, Inserted source "a%s" "volt" exchange.1) ∧
      KeepsTree "(&(uid=%s)(kind=user))" "a%s" ∧ KeepsTree "(role=admin)" "a%s" ∧
      KeepsParts "uid=%s,dc=org" "a%s" := by
  intro source outcome
  have admin : ∀ template, source.adminFilter = some template → Template.holes template ≤ 1 := by
    rintro _ ⟨⟩
    decide
  have valid : source.validate = .ok () :=
    Source.validate_eq_ok_iff.mpr ⟨by decide, by decide, by decide, by decide, admin, by decide⟩
  have keeps := login_keeps_requests Directory.Script.answer { source } {} "a%s" "volt" valid rfl
  have plain : ∀ c ∈ ['a', '%', 's'], c ∉ nameSpecials := by
    simp [nameSpecials, filterSpecials]
  obtain ⟨talked, inserted, user, elevated, parts⟩ := keeps.2 (by
    rintro (nameless | unlocked | ⟨c, member, special⟩)
    · exact absurd nameless (by decide)
    · exact absurd unlocked (by decide)
    · exact plain c member special)
  exact ⟨valid, talked, inserted, user, elevated _ rfl, parts rfl⟩

end Authenticator
end QueryGate.Login
