import QueryGate.Directory.Memory
import QueryGate.Proofs.Program.Trace

/-! The subtrees of a directory are nested, so what is found only once under a base is also all that
is found under its own name. A connection changes nothing but the number of connections. -/

namespace QueryGate.Directory

open Program (Exchange Gives)

/-! ### Subtrees -/

theorem isUnder_iff {base dn : String} :
    isUnder base dn = true ↔
      base = "" ∨ Text.sameLetters dn base = true ∨
        (',' :: base.toList.map Char.toLower) <:+ dn.toList.map Char.toLower := by
  simp [isUnder, Text.foldLetters, Text.sameLetters_iff, or_assoc]

theorem isUnder_refl (dn : String) : isUnder dn dn = true :=
  isUnder_iff.mpr (.inr (.inl (Text.sameLetters_refl dn)))

/-- Subtrees are nested, whatever the case of the letters. The empty name stands for no entry. -/
theorem isUnder_trans {base middle dn : String} (named : middle ≠ "")
    (upper : isUnder base middle = true) (lower : isUnder middle dn = true) : isUnder base dn = true := by
  rw [isUnder_iff] at upper lower ⊢
  rw [Text.sameLetters_iff] at *
  rcases upper with whole | same | below
  · exact .inl whole
  · rw [← same]
    exact .inr (lower.resolve_left named)
  · rcases lower.resolve_left named with same | under
    · rw [same]
      exact .inr (.inr below)
    · exact .inr (.inr ((below.trans (List.suffix_cons ..)).trans under))

namespace Memory

variable {memory : Memory} {base dn password filter : String} {entry : Entry}

theorem accepts_iff :
    memory.accepts dn password = true ↔
      ∃ member ∈ memory.members, Text.sameLetters member.entry.dn dn = true ∧
        member.password = some password := by
  simp [accepts]

theorem bind_eq_bound (given : password ≠ "") :
    memory.bind dn password = .bound ↔ memory.accepts dn password = true := by
  unfold bind
  split <;> simp_all

theorem search_eq_ok {entries : List Entry} :
    memory.search base filter = .ok entries ↔
      filter ∉ memory.stalledFilters ∧ filter ∉ memory.failingFilters ∧
        memory.entriesMatching base filter = entries := by
  unfold search
  split
  · simp_all
  · split <;> simp_all

theorem mem_entriesMatching :
    entry ∈ memory.entriesMatching base filter ↔
      (∃ member ∈ memory.members, member.entry = entry) ∧ isUnder base entry.dn = true ∧
        Filter.matchesText entry filter.toList = true := by
  simp [entriesMatching]

theorem entriesMatching_of_all_match
    (matched : ∀ member ∈ memory.members, Filter.matchesText member.entry filter.toList = true) :
    memory.entriesMatching base filter =
      (memory.members.map (·.entry)).filter fun entry => isUnder base entry.dn := by
  refine List.filter_congr fun entry listed => ?_
  obtain ⟨member, present, rfl⟩ := List.mem_map.mp listed
  rw [matched member present, Bool.and_true]

theorem search_of_all_match {entries : List Entry} (answered : filter ∉ memory.stalledFilters)
    (succeeds : filter ∉ memory.failingFilters)
    (matched : ∀ member ∈ memory.members, Filter.matchesText member.entry filter.toList = true)
    (listed : (memory.members.map (·.entry)).filter (fun entry => isUnder base entry.dn) = entries) :
    memory.search base filter = .ok entries := by
  rw [search_eq_ok, entriesMatching_of_all_match matched]
  exact ⟨answered, succeeds, listed⟩

theorem entriesMatching_below (named : entry.dn ≠ "") (below : isUnder base entry.dn = true) :
    memory.entriesMatching entry.dn filter =
      (memory.entriesMatching base filter).filter fun other => isUnder entry.dn other.dn := by
  unfold entriesMatching
  rw [List.filter_filter]
  refine List.filter_congr fun other _ => ?_
  by_cases inner : isUnder entry.dn other.dn = true
  · simp [inner, isUnder_trans named below inner]
  · simp [inner]

/-- The only match under a base is the only one under its own name, though others may lie there. -/
theorem entriesMatching_own_name (named : entry.dn ≠ "")
    (only : memory.entriesMatching base filter = [entry]) :
    memory.entriesMatching entry.dn filter = [entry] := by
  have found : entry ∈ memory.entriesMatching base filter := by simp [only]
  obtain ⟨_, below, _⟩ := mem_entriesMatching.mp found
  rw [entriesMatching_below named below, only]
  simp [isUnder_refl]

/-! ### Connections -/

def opened (memory : Memory) : Memory :=
  { memory with connects := memory.connects + 1 }

@[simp] theorem opened_bind : memory.opened.bind dn password = memory.bind dn password := rfl

@[simp] theorem opened_search : memory.opened.search base filter = memory.search base filter := rfl

variable {source : Source} {attributes : List String} {rest : List (Exchange Request Request.Answer)}
  {final : Memory}

@[simp] theorem gives_connect :
    Gives answer memory (⟨.connect source, .ok ()⟩ :: rest) final ↔
      memory.refuses = false ∧ Gives answer memory.opened rest final := by
  simp only [Gives, answer]
  by_cases full : memory.refuses = true
  · simp [full]
  · simp [full, opened]

@[simp] theorem gives_connect_refused {fault : Fault} :
    Gives answer memory [⟨.connect source, .error fault⟩] final ↔
      memory.refuses = true ∧ fault = .directoryUnavailable "connection refused" ∧ final = memory := by
  simp only [Gives, answer]
  by_cases full : memory.refuses = true
  · simp [full, eq_comm]
  · simp [full]

@[simp] theorem gives_bind {outcome : Except Fault BindOutcome} :
    Gives answer memory (⟨.bind dn password, outcome⟩ :: rest) final ↔
      .ok (memory.bind dn password) = outcome ∧ Gives answer memory rest final :=
  Iff.rfl

@[simp] theorem gives_search {outcome : Except Fault (List Entry)} :
    Gives answer memory (⟨.search base filter attributes, outcome⟩ :: rest) final ↔
      memory.search base filter = outcome ∧ Gives answer memory rest final :=
  Iff.rfl

@[simp] theorem gives_unbind :
    Gives answer memory [⟨.unbind, ()⟩] final ↔ final = memory := by
  simp [Gives, answer]

end Memory
end QueryGate.Directory
