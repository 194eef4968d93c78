import QueryGate.Policy.Access
import QueryGate.Proofs.Policy.Decisions

/-! A group is configured in a section, by its full name or by the parts of it. Of several sections
that spell the same name the last one counts alone: an entry of an earlier one is enforced exactly
when the last one has it as well, or the list for everybody. -/

namespace QueryGate.Policy

namespace Settings

def assignments (settings : Settings) : Assignments :=
  settings.groups.map fun group => (group.fullName, group.deniedQueries)

/-- No later section spells the name of this one. -/
def Governs (settings : Settings) (group : GroupSettings) : Prop :=
  ∃ earlier later, settings.groups = earlier ++ group :: later ∧ ∀ other ∈ later, other.fullName ≠ group.fullName

/-- The first group, in the caller's order, that any section spells. -/
def First (settings : Settings) (groups : List String) (name : String) : Prop :=
  ∃ before after, groups = before ++ name :: after ∧
    ∀ other ∈ before, ∀ group ∈ settings.groups, group.fullName ≠ other

variable {settings : Settings} {group : GroupSettings} {name : String} {groups queries : List String}

theorem names_assignments :
    settings.assignments.Names name ↔ ∃ group ∈ settings.groups, group.fullName = name := by
  constructor
  · rintro ⟨queries, member⟩
    obtain ⟨group, configured, same⟩ := List.mem_map.mp member
    exact ⟨group, configured, congrArg Prod.fst same⟩
  · rintro ⟨group, configured, rfl⟩
    exact ⟨group.deniedQueries, List.mem_map_of_mem configured⟩

theorem First.assigned (first : settings.First groups group.fullName) (configured : group ∈ settings.groups) :
    settings.assignments.First groups group.fullName := by
  obtain ⟨before, after, split, unknown⟩ := first
  refine ⟨before, after, split, names_assignments.mpr ⟨group, configured, rfl⟩, fun other member named => ?_⟩
  obtain ⟨sibling, listed, same⟩ := names_assignments.mp named
  exact unknown other member sibling listed same

theorem last_assignments :
    settings.assignments.Last name queries ↔
      ∃ group, settings.Governs group ∧ group.fullName = name ∧ group.deniedQueries = queries := by
  constructor
  · rintro ⟨earlier, later, same, none⟩
    obtain ⟨before, rest, split, rfl, mapped⟩ := List.map_eq_append_iff.mp same
    obtain ⟨group, after, rfl, pair, rfl⟩ := List.map_eq_cons_iff.mp mapped
    obtain ⟨rfl, rfl⟩ := Prod.mk.inj pair
    exact ⟨group, ⟨before, after, split, fun other member => none _ (List.mem_map_of_mem member)⟩, rfl, rfl⟩
  · rintro ⟨group, ⟨before, after, split, none⟩, rfl, rfl⟩
    have same := congrArg (List.map fun group => (group.fullName, group.deniedQueries)) split
    rw [List.map_append, List.map_cons] at same
    refine ⟨_, _, same, fun other member => ?_⟩
    obtain ⟨sibling, later, rfl⟩ := List.mem_map.mp member
    exact none sibling later

end Settings

namespace Access

theorem ofSettings_eq (settings : Settings) :
    ofSettings settings = (ofDenied settings.deniedQueries settings.adminGroup).assign settings.assignments := by
  rw [assign, Settings.assignments, List.foldl_map]
  rfl

variable {settings : Settings} {group : GroupSettings} {identity : Identity} {entry query : String}

theorem evaluate_ofSettings {decision : Decision} :
    (ofSettings settings).evaluate identity query = decision ↔
      Judged settings.deniedQueries settings.adminGroup settings.assignments identity.groups query decision := by
  rw [ofSettings_eq]
  exact evaluate_assign

/-- What is decided about the members of a group. -/
theorem evaluate_member {name : String} {queries : List String}
    (caller : ¬ Administers settings.adminGroup identity.groups)
    (first : settings.assignments.First identity.groups name) (last : settings.assignments.Last name queries) :
    let decision := (ofSettings settings).evaluate identity query
    (Covers settings.deniedQueries query ∨ Covers queries query → decision.isAllow = false) ∧
      (¬ Covers settings.deniedQueries query → ¬ Covers queries query → decision = .allow (.group name)) := by
  intro decision
  constructor
  · intro covered
    by_cases listed : Covers settings.deniedQueries query
    · have denied : decision = _ := evaluate_ofSettings.mpr (.globalDenylist caller listed)
      rw [denied]
      rfl
    · have listedForGroup := covered.resolve_left listed
      have denied : decision = _ := evaluate_ofSettings.mpr (.groupDenylist caller listed first last listedForGroup)
      rw [denied]
      rfl
  · intro unlisted unlistedForGroup
    exact evaluate_ofSettings.mpr (.group caller unlisted first last unlistedForGroup)

/--
An entry of a group's section is enforced for the members of the group, unless a later section spells the same name
and neither the last such section nor the list for everybody has the entry. Then the query is allowed.
-/
theorem entry_enforced_iff (configured : group ∈ settings.groups) (listed : entry ∈ group.deniedQueries)
    (same : normalForm query = normalForm entry) (caller : ¬ Administers settings.adminGroup identity.groups)
    (first : settings.First identity.groups group.fullName) :
    let decision := (ofSettings settings).evaluate identity query
    let kept := settings.Governs group ∨ Covers settings.deniedQueries query ∨
      ∃ last, settings.Governs last ∧ last.fullName = group.fullName ∧ Covers last.deniedQueries query
    (decision.isAllow = false ↔ kept) ∧ (decision = .allow (.group group.fullName) ↔ ¬ kept) := by
  intro decision kept
  have assigned := first.assigned configured
  have denies : kept → decision.isAllow = false := by
    rintro (governs | everybody | ⟨last, governs, spelled, covered⟩)
    · have last := Settings.last_assignments.mpr ⟨group, governs, rfl, rfl⟩
      exact (evaluate_member caller assigned last).1 (.inr ⟨entry, listed, same.symm⟩)
    · obtain ⟨queries, last⟩ := assigned.names.exists_last
      exact (evaluate_member caller assigned last).1 (.inl everybody)
    · have last := Settings.last_assignments.mpr ⟨last, governs, spelled, rfl⟩
      exact (evaluate_member caller assigned last).1 (.inr covered)
  have allows : ¬ kept → decision = .allow (.group group.fullName) := by
    intro lost
    obtain ⟨-, others⟩ := not_or.mp lost
    obtain ⟨unlisted, uncovered⟩ := not_or.mp others
    obtain ⟨queries, last⟩ := assigned.names.exists_last
    refine (evaluate_member caller assigned last).2 unlisted fun covered => uncovered ?_
    obtain ⟨governing, governs, spelled, rfl⟩ := Settings.last_assignments.mp last
    exact ⟨governing, governs, spelled, covered⟩
  refine ⟨⟨fun denied => ?_, denies⟩, ⟨fun allowed enforced => ?_, allows⟩⟩
  · refine Classical.byContradiction fun lost => ?_
    rw [allows lost] at denied
    cases denied
  · have denied := denies enforced
    rw [allowed] at denied
    cases denied

/-- Two sections spell one name, and the later one repeats the entry in another spelling. -/
theorem repeated_entry_is_enforced :
    let earlier : GroupSettings := { dn := some "CN=Ops,OU=Plant,DC=org", deniedQueries := ["DROP DATABASE plant"] }
    let later : GroupSettings :=
      { cn := "Ops", ou := "Plant", dc := "DC=org", deniedQueries := ["SHOW USERS", "drop database PLANT"] }
    let settings : Settings := { adminGroup := some "CN=Admins", groups := [earlier, later] }
    let identity : Identity := { groups := ["CN=Staff", "CN=Ops,OU=Plant,DC=org"] }
    later.fullName = earlier.fullName ∧
      ((ofSettings settings).evaluate identity "Drop Database plant").isAllow = false := by
  intro earlier later settings identity
  have spelled : later.fullName = earlier.fullName := by decide
  have caller : ¬ Administers settings.adminGroup identity.groups := by decide
  have first : settings.First identity.groups earlier.fullName := ⟨["CN=Staff"], [], rfl, by decide⟩
  have repeated : Covers later.deniedQueries "Drop Database plant" := ⟨"drop database PLANT", by decide, by decide⟩
  have last : settings.Governs later := ⟨[earlier], [], rfl, fun _ member => absurd member List.not_mem_nil⟩
  have configured : earlier ∈ settings.groups := List.mem_cons_self
  have listed : "DROP DATABASE plant" ∈ earlier.deniedQueries := List.mem_cons_self
  have same : normalForm "Drop Database plant" = normalForm "DROP DATABASE plant" := by decide
  have enforced := entry_enforced_iff configured listed same caller first
  exact ⟨spelled, enforced.1.mpr (.inr (.inr ⟨later, last, spelled, repeated⟩))⟩

/-- A later section that spells the name by its parts has another list, and the entry of the earlier one is lost. -/
theorem later_section_drops_entry :
    let earlier : GroupSettings := { dn := some "CN=Ops,OU=Plant,DC=org", deniedQueries := ["DROP DATABASE plant"] }
    let later : GroupSettings := { cn := "Ops", ou := "Plant", dc := "DC=org", deniedQueries := ["SHOW USERS"] }
    let settings : Settings := { adminGroup := some "CN=Admins", groups := [earlier, later] }
    let identity : Identity := { groups := ["CN=Ops,OU=Plant,DC=org"] }
    earlier ∈ settings.groups ∧ "DROP DATABASE plant" ∈ earlier.deniedQueries ∧
      ¬ Administers settings.adminGroup identity.groups ∧ settings.First identity.groups earlier.fullName ∧
      (ofSettings settings).evaluate identity "DROP DATABASE plant" = .allow (.group "CN=Ops,OU=Plant,DC=org") := by
  intro earlier later settings identity
  exact ⟨by decide, by decide, by decide, ⟨[], [], rfl, by decide⟩, by decide⟩

end Access
end QueryGate.Policy
