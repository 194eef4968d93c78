import Mathlib.Data.List.Induction
import QueryGate.Policy.Access

/-!
# What a policy decides

A policy is made from a denylist for everybody and from denylists that are assigned to groups, one after the other.
Its decisions are said here in terms of the lists as they were given, without sets and look-ups:
`evaluate_eq_iff_judged`. The caller counts by the groups alone.
-/

namespace QueryGate.Policy

/-- An entry counts as the same query. -/
def Covers (queries : List String) (query : String) : Prop :=
  ∃ entry ∈ queries, normalForm entry = normalForm query

/-- Groups and the denylists assigned to them, in the order of the assignments. -/
abbrev Assignments := List (String × List String)

namespace Assignments

def Names (lists : Assignments) (group : String) : Prop :=
  ∃ queries, (group, queries) ∈ lists

/-- The denylist that was assigned to a group last. -/
def Last (lists : Assignments) (group : String) (queries : List String) : Prop :=
  ∃ earlier later, lists = earlier ++ (group, queries) :: later ∧ ∀ other ∈ later, other.1 ≠ group

/-- The first group, in the caller's order, that any denylist was assigned to. -/
def First (lists : Assignments) (groups : List String) (group : String) : Prop :=
  ∃ before after, groups = before ++ group :: after ∧ lists.Names group ∧ ∀ other ∈ before, ¬ lists.Names other

variable {lists : Assignments} {groups : List String} {group other : String} {queries latest : List String}

theorem First.names (first : lists.First groups group) : lists.Names group := by
  obtain ⟨before, after, -, named, -⟩ := first
  exact named

theorem names_concat :
    Names (lists ++ [(other, latest)]) group ↔ group = other ∨ lists.Names group := by
  constructor
  · rintro ⟨queries, member⟩
    rcases List.mem_append.mp member with earlier | added
    · exact .inr ⟨queries, earlier⟩
    · exact .inl (congrArg Prod.fst (List.mem_singleton.mp added))
  · rintro (rfl | ⟨queries, member⟩)
    · exact ⟨latest, List.mem_append_right _ List.mem_cons_self⟩
    · exact ⟨queries, List.mem_append_left _ member⟩

/-- One more assignment replaces the list of its own group and keeps those of the others. -/
theorem last_concat :
    Last (lists ++ [(other, latest)]) group queries ↔
      if group = other then queries = latest else lists.Last group queries := by
  constructor
  · rintro ⟨earlier, later, same, none⟩
    rcases List.eq_nil_or_concat later with rfl | ⟨later, last, rfl⟩
    · obtain ⟨-, added⟩ := List.append_inj' same rfl
      obtain ⟨rfl, rfl⟩ := Prod.mk.inj (List.singleton_inj.mp added)
      exact (if_pos rfl).mpr rfl
    · rw [List.concat_eq_append] at same none
      rw [← List.cons_append, ← List.append_assoc] at same
      obtain ⟨within, added⟩ := List.append_inj' same rfl
      obtain rfl := List.singleton_inj.mp added
      have different : other ≠ group := none _ (List.mem_append_right _ List.mem_cons_self)
      rw [if_neg different.symm]
      exact ⟨earlier, later, within, fun pair member => none pair (List.mem_append_left _ member)⟩
  · intro given
    by_cases same : group = other
    · rw [if_pos same] at given
      subst same given
      exact ⟨lists, [], rfl, fun _ member => absurd member List.not_mem_nil⟩
    · rw [if_neg same] at given
      obtain ⟨earlier, later, rfl, none⟩ := given
      refine ⟨earlier, later ++ [(other, latest)], by simp, fun pair member => ?_⟩
      rcases List.mem_append.mp member with within | added
      · exact none pair within
      · rw [List.mem_singleton.mp added]
        exact fun equal => same equal.symm

theorem Names.exists_last (named : lists.Names group) : ∃ queries, lists.Last group queries := by
  induction lists using List.reverseRecOn with
  | nil =>
    obtain ⟨queries, member⟩ := named
    exact absurd member List.not_mem_nil
  | append_singleton lists pair ih =>
    obtain ⟨other, latest⟩ := pair
    simp only [last_concat]
    by_cases same : group = other
    · exact ⟨latest, (if_pos same).mpr rfl⟩
    · simp only [if_neg same]
      exact ih ((names_concat.mp named).resolve_left same)

theorem Last.names (last : lists.Last group queries) : lists.Names group := by
  obtain ⟨earlier, later, rfl, -⟩ := last
  exact ⟨queries, List.mem_append_right _ List.mem_cons_self⟩

end Assignments

/-- The caller is in the group that skips every check. An empty name is as good as none. -/
def Administers (adminGroup : Option String) (groups : List String) : Prop :=
  ∃ group, adminGroup = some group ∧ group ≠ "" ∧ group ∈ groups

theorem not_administers_none (groups : List String) : ¬ Administers none groups := by
  rintro ⟨group, ⟨⟩, -⟩

theorem administers_some {group : String} {groups : List String} :
    Administers (some group) groups ↔ group ≠ "" ∧ group ∈ groups := by
  constructor
  · rintro ⟨_, ⟨⟩, admin⟩
    exact admin
  · intro admin
    exact ⟨group, rfl, admin⟩

instance (adminGroup : Option String) (groups : List String) : Decidable (Administers adminGroup groups) :=
  match adminGroup with
  | none => isFalse (not_administers_none groups)
  | some _ => decidable_of_iff _ administers_some.symm

/-- What is decided about a query of a caller with these groups. -/
inductive Judged (denied : List String) (adminGroup : Option String) (lists : Assignments) (groups : List String)
    (query : String) : Decision → Prop where
  | adminGroup (admin : Administers adminGroup groups) :
      Judged denied adminGroup lists groups query (.allow .adminGroup)
  | globalDenylist (caller : ¬ Administers adminGroup groups) (listed : Covers denied query) :
      Judged denied adminGroup lists groups query (.deny .globalDenylist)
  | noMatchingGroup (caller : ¬ Administers adminGroup groups) (unlisted : ¬ Covers denied query)
      (unknown : ∀ group ∈ groups, ¬ lists.Names group) :
      Judged denied adminGroup lists groups query (.deny .noMatchingGroup)
  | groupDenylist {group : String} {queries : List String} (caller : ¬ Administers adminGroup groups)
      (unlisted : ¬ Covers denied query) (first : lists.First groups group) (last : lists.Last group queries)
      (listed : Covers queries query) :
      Judged denied adminGroup lists groups query (.deny (.groupDenylist group))
  | group {group : String} {queries : List String} (caller : ¬ Administers adminGroup groups)
      (unlisted : ¬ Covers denied query) (first : lists.First groups group) (last : lists.Last group queries)
      (unlistedForGroup : ¬ Covers queries query) :
      Judged denied adminGroup lists groups query (.allow (.group group))

theorem Denylist.denies_normalForm {queries : List String} {query : String} :
    (ofQueries queries).denies (normalForm query) = true ↔ Covers queries query :=
  denies_ofQueries

namespace Access

/-- The policy with denylists assigned to groups, one after the other. -/
def assign (policy : Access) (lists : Assignments) : Access :=
  lists.foldl (fun policy list => policy.withGroup list.1 (.ofQueries list.2)) policy

variable {policy : Access} {denied : List String} {adminGroup : Option String} {lists : Assignments}
  {identity : Identity} {group query : String} {list : Denylist}

theorem assign_concat (policy : Access) (lists : Assignments) (group : String) (queries : List String) :
    policy.assign (lists ++ [(group, queries)]) = (policy.assign lists).withGroup group (.ofQueries queries) := by
  simp [assign]

@[simp] theorem denied_assign (policy : Access) (lists : Assignments) :
    (policy.assign lists).denied = policy.denied := by
  induction lists using List.reverseRecOn with
  | nil => rfl
  | append_singleton lists pair ih =>
    rw [assign_concat]
    exact ih

@[simp] theorem adminGroup_assign (policy : Access) (lists : Assignments) :
    (policy.assign lists).adminGroup = policy.adminGroup := by
  induction lists using List.reverseRecOn with
  | nil => rfl
  | append_singleton lists pair ih =>
    rw [assign_concat]
    exact ih

/-- The invariant of the assignments: each group has the list that was assigned to it last. -/
theorem group?_assign_eq_some :
    ((ofDenied denied adminGroup).assign lists).group? group = some list ↔
      ∃ queries, lists.Last group queries ∧ .ofQueries queries = list := by
  induction lists using List.reverseRecOn with
  | nil => simp [assign, ofDenied, group?, Assignments.Last]
  | append_singleton lists pair ih =>
    obtain ⟨other, latest⟩ := pair
    rw [assign_concat, group?_withGroup]
    simp only [Assignments.last_concat]
    by_cases same : group = other
    · simp [same]
    · simp only [if_neg same]
      exact ih

theorem group?_assign_eq_none :
    ((ofDenied denied adminGroup).assign lists).group? group = none ↔ ¬ lists.Names group := by
  induction lists using List.reverseRecOn with
  | nil => simp [assign, ofDenied, group?, Assignments.Names]
  | append_singleton lists pair ih =>
    obtain ⟨other, latest⟩ := pair
    rw [assign_concat, group?_withGroup, Assignments.names_concat]
    by_cases same : group = other
    · simp [same]
    · simp only [same, false_or]
      exact ih

/-- The first match in the caller's order. -/
theorem resolve_assign :
    ((ofDenied denied adminGroup).assign lists).resolve identity = some (group, list) ↔
      lists.First identity.groups group ∧ ∃ queries, lists.Last group queries ∧ .ofQueries queries = list := by
  simp only [resolve, List.findSome?_eq_some_iff, Option.map_eq_some_iff, Option.map_eq_none_iff,
    group?_assign_eq_some, group?_assign_eq_none]
  constructor
  · rintro ⟨before, group, after, split, ⟨list, found, same⟩, unknown⟩
    obtain ⟨rfl, rfl⟩ := Prod.mk.inj same
    obtain ⟨queries, last, rfl⟩ := found
    exact ⟨⟨before, after, split, last.names, unknown⟩, queries, last, rfl⟩
  · rintro ⟨⟨before, after, split, -, unknown⟩, found⟩
    exact ⟨before, group, after, split, ⟨list, found, rfl⟩, unknown⟩

theorem resolve_assign_eq_none :
    ((ofDenied denied adminGroup).assign lists).resolve identity = none ↔
      ∀ group ∈ identity.groups, ¬ lists.Names group := by
  simp only [resolve, List.findSome?_eq_none_iff, Option.map_eq_none_iff, group?_assign_eq_none]

theorem isAdmin_assign :
    ((ofDenied denied adminGroup).assign lists).isAdmin identity = true ↔
      Administers adminGroup identity.groups := by
  rw [isAdmin, adminGroup_assign]
  cases adminGroup with
  | none => simp [ofDenied, not_administers_none]
  | some group => simp [ofDenied, administers_some, Identity.inGroup]

theorem denies_assign :
    ((ofDenied denied adminGroup).assign lists).denied.denies (normalForm query) = true ↔ Covers denied query := by
  rw [denied_assign]
  exact Denylist.denies_normalForm

theorem judged_evaluate :
    Judged denied adminGroup lists identity.groups query
      (((ofDenied denied adminGroup).assign lists).evaluate identity query) := by
  unfold evaluate
  split
  case isTrue admin => exact .adminGroup (isAdmin_assign.mp admin)
  case isFalse other =>
    have caller := mt isAdmin_assign.mpr other
    dsimp only
    split
    case isTrue denies => exact .globalDenylist caller (denies_assign.mp denies)
    case isFalse passes =>
      have unlisted := mt denies_assign.mpr passes
      split
      case h_1 found => exact .noMatchingGroup caller unlisted (resolve_assign_eq_none.mp found)
      case h_2 group list found =>
        obtain ⟨first, queries, last, rfl⟩ := resolve_assign.mp found
        split
        case isTrue denies =>
          exact .groupDenylist caller unlisted first last (Denylist.denies_normalForm.mp denies)
        case isFalse passes =>
          exact .group caller unlisted first last (mt Denylist.denies_normalForm.mpr passes)

theorem evaluate_of_judged {decision : Decision}
    (judged : Judged denied adminGroup lists identity.groups query decision) :
    ((ofDenied denied adminGroup).assign lists).evaluate identity query = decision := by
  unfold evaluate
  cases judged with
  | adminGroup admin => exact if_pos (isAdmin_assign.mpr admin)
  | globalDenylist caller listed =>
    rw [if_neg (mt isAdmin_assign.mp caller)]
    exact if_pos (denies_assign.mpr listed)
  | noMatchingGroup caller unlisted unknown =>
    rw [if_neg (mt isAdmin_assign.mp caller), resolve_assign_eq_none.mpr unknown]
    exact if_neg (mt denies_assign.mp unlisted)
  | groupDenylist caller unlisted first last listed =>
    rw [if_neg (mt isAdmin_assign.mp caller), resolve_assign.mpr ⟨first, _, last, rfl⟩]
    refine (if_neg (mt denies_assign.mp unlisted)).trans ?_
    exact if_pos (Denylist.denies_normalForm.mpr listed)
  | group caller unlisted first last unlistedForGroup =>
    rw [if_neg (mt isAdmin_assign.mp caller), resolve_assign.mpr ⟨first, _, last, rfl⟩]
    refine (if_neg (mt denies_assign.mp unlisted)).trans ?_
    exact if_neg (mt Denylist.denies_normalForm.mp unlistedForGroup)

theorem evaluate_assign {decision : Decision} :
    ((ofDenied denied adminGroup).assign lists).evaluate identity query = decision ↔
      Judged denied adminGroup lists identity.groups query decision := by
  constructor
  · rintro rfl
    exact judged_evaluate
  · exact evaluate_of_judged

/--
A policy decides what its lists mean. The administrators' group goes first, then the list for everybody, then the
list that was assigned last to the first group of the caller that any was assigned to. Nothing else about the caller
counts.
-/
theorem evaluate_eq_iff_judged (denied : List String) (adminGroup : Option String) (lists : Assignments)
    (identity : Identity) (query : String) :
    let policy := (ofDenied denied adminGroup).assign lists
    (∀ decision, policy.evaluate identity query = decision ↔
      Judged denied adminGroup lists identity.groups query decision) ∧
    ∀ other : Identity,
      policy.evaluate { other with groups := identity.groups } query = policy.evaluate identity query := by
  intro policy
  refine ⟨fun decision => evaluate_assign, fun other => ?_⟩
  have judged : Judged denied adminGroup lists identity.groups query (policy.evaluate identity query) :=
    judged_evaluate
  exact evaluate_of_judged judged

-- the first group of the caller that is known counts, with the list that it was given last
example :
    ((ofDenied ["a"] none).assign [("g", ["b"]), ("h", []), ("g", ["c"])]).evaluate
      { groups := ["x", "g", "h"] } "B" = .allow (.group "g") := by
  decide

end Access
end QueryGate.Policy
