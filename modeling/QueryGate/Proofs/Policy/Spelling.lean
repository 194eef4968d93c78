import Mathlib.Logic.Relation
import QueryGate.Proofs.Policy.Decisions
import QueryGate.Proofs.Text.Lowercase

/-! White space and the case of letters make no difference to any policy. Normal forms are put
together character by character and are their own normal forms, so an entry can be stored in either
form. -/

namespace QueryGate.Policy

open Text

/-- A white space character comes in or goes, or an ASCII letter changes its case. -/
inductive Edit : List Char → List Char → Prop where
  | insert (before after : List Char) {blank : Char} (space : isBlank blank = true) :
      Edit (before ++ after) (before ++ blank :: after)
  | remove (before after : List Char) {blank : Char} (space : isBlank blank = true) :
      Edit (before ++ blank :: after) (before ++ after)
  | recase (before after : List Char) {c d : Char} (letter : c.toLower = d.toLower) :
      Edit (before ++ c :: after) (before ++ d :: after)

/-- Any number of edits, one after the other. -/
def Respelled (query variant : String) : Prop :=
  Relation.ReflTransGen Edit query.toList variant.toList

theorem normalChars_cons (c : Char) (cs : List Char) : normalChars (c :: cs) = normalChars [c] ++ normalChars cs :=
  normalChars_append [c] cs

theorem normalChars_blank {c : Char} (space : isBlank c = true) : normalChars [c] = [] := by
  simp [normalChars, space]

theorem normalChars_toLower (c : Char) : normalChars [c.toLower] = normalChars [c] := by
  cases space : isBlank c with
  | true => rw [normalChars_blank space, normalChars_blank (isBlank_toLower c ▸ space)]
  | false => simp [normalChars, isBlank_toLower, lowercase_toLower, space]

theorem Edit.normalChars_eq {cs ds : List Char} (edit : Edit cs ds) : normalChars ds = normalChars cs := by
  cases edit with
  | insert before after space =>
    rw [normalChars_append, normalChars_cons, normalChars_blank space, normalChars_append]
    rfl
  | remove before after space =>
    rw [normalChars_append, normalChars_append, normalChars_cons, normalChars_blank space]
    rfl
  | @recase before after c d letter =>
    have same : normalChars [d] = normalChars [c] := by
      rw [← normalChars_toLower, ← letter, normalChars_toLower]
    rw [normalChars_append, normalChars_cons d, same, ← normalChars_cons, ← normalChars_append]

theorem normalChars_edited {cs ds : List Char} (edits : Relation.ReflTransGen Edit cs ds) :
    normalChars ds = normalChars cs := by
  induction edits with
  | refl => rfl
  | tail _ edit ih => exact edit.normalChars_eq.trans ih

theorem Respelled.normalForm_eq {query variant : String} (respelled : Respelled query variant) :
    normalForm variant = normalForm query := by
  rw [normalForm, normalChars_edited respelled, normalForm]

theorem settled_of_mem_normalChars {cs : List Char} {d : Char} (member : d ∈ normalChars cs) : IsSettled d := by
  obtain ⟨c, kept, image⟩ := List.mem_flatMap.mp member
  have visible : isBlank c = false := by simpa using (List.mem_filter.mp kept).2
  exact isSettled_of_mem_lowercase visible image

theorem normalChars_of_settled {cs : List Char} (settled : ∀ c ∈ cs, IsSettled c) : normalChars cs = cs := by
  induction cs with
  | nil => rfl
  | cons c cs ih =>
    obtain ⟨visible, own⟩ := settled c List.mem_cons_self
    have single : normalChars [c] = [c] := by simp [normalChars, visible, own]
    rw [normalChars_cons, single, ih fun d member => settled d (List.mem_cons_of_mem c member)]
    rfl

theorem normalForm_normalForm (query : String) : normalForm (normalForm query) = normalForm query := by
  have own : normalChars (normalChars query.toList) = normalChars query.toList :=
    normalChars_of_settled fun _ => settled_of_mem_normalChars
  rw [normalForm, normalForm, String.toList_ofList, own]

theorem Denylist.ofQueries_normalForm (before after : List String) (entry : String) :
    ofQueries (before ++ normalForm entry :: after) = ofQueries (before ++ entry :: after) := by
  simp [ofQueries, normalForm_normalForm]

namespace Access

theorem evaluate_congr (policy : Access) (identity : Identity) {query variant : String}
    (same : normalForm variant = normalForm query) :
    policy.evaluate identity variant = policy.evaluate identity query := by
  simp only [evaluate, same]

/--
No spelling evades a denylist. A policy decides the same about every spelling of a query, so that a spelling of an
entry is denied wherever the entry counts. Normal forms are formed part by part and are their own normal forms, so a
list denies the same queries with an entry stored in normal form.
-/
theorem evaluate_respelled {query variant : String} (respelled : Respelled query variant) :
    (∀ (policy : Access) (identity : Identity),
      policy.evaluate identity variant = policy.evaluate identity query) ∧
    (∀ denied adminGroup lists (identity : Identity), ¬ Administers adminGroup identity.groups →
      let decision := ((ofDenied denied adminGroup).assign lists).evaluate identity variant
      (query ∈ denied → decision = .deny .globalDenylist) ∧
      ∀ group queries, lists.First identity.groups group → lists.Last group queries → query ∈ queries →
        decision = .deny .globalDenylist ∨ decision = .deny (.groupDenylist group)) ∧
    (∀ p q, normalForm (p ++ q) = normalForm p ++ normalForm q) ∧
    (∀ q, normalForm (normalForm q) = normalForm q) ∧
    ∀ before after entry, Denylist.ofQueries (before ++ normalForm entry :: after) =
      .ofQueries (before ++ entry :: after) := by
  have same : normalForm query = normalForm variant := respelled.normalForm_eq.symm
  refine ⟨fun policy identity => evaluate_congr policy identity same.symm, ?_, normalForm_append,
    normalForm_normalForm, Denylist.ofQueries_normalForm⟩
  intro denied adminGroup lists identity caller decision
  constructor
  · intro listed
    exact evaluate_assign.mpr (.globalDenylist caller ⟨query, listed, same⟩)
  · intro group queries first last listed
    by_cases everybody : Covers denied variant
    · exact .inl (evaluate_assign.mpr (.globalDenylist caller everybody))
    · exact .inr (evaluate_assign.mpr (.groupDenylist caller everybody first last ⟨query, listed, same⟩))

/-- A letter in the other case and an ideographic space do not get a query through. -/
theorem wide_spelling_is_denied :
    let policy := (ofDenied ["q"] none).assign [("CN=Ops", ["ls"])]
    let identity : Identity := { groups := ["CN=Staff", "CN=Ops"] }
    Respelled "ls" "L\u3000s" ∧ policy.evaluate identity "L\u3000s" = policy.evaluate identity "ls" ∧
      (policy.evaluate identity "L\u3000s").isAllow = false := by
  intro policy identity
  have respelled : Respelled "ls" "L\u3000s" := by
    have recased : Edit "ls".toList "Ls".toList := .recase [] ['s'] (by decide)
    have spaced : Edit "Ls".toList "L\u3000s".toList := .insert ['L'] ['s'] (by decide)
    exact .tail (.tail .refl recased) spaced
  have caller : ¬ Administers none identity.groups := by
    rintro ⟨group, absent, -⟩
    cases absent
  have first : Assignments.First [("CN=Ops", ["ls"])] identity.groups "CN=Ops" := by
    refine ⟨["CN=Staff"], [], rfl, ⟨["ls"], by decide⟩, fun other before named => ?_⟩
    obtain ⟨queries, member⟩ := named
    rw [List.mem_singleton.mp before] at member
    revert member
    simp
  have last : Assignments.Last [("CN=Ops", ["ls"])] "CN=Ops" ["ls"] :=
    ⟨[], [], rfl, fun _ member => absurd member List.not_mem_nil⟩
  obtain ⟨decides, denies, -⟩ := evaluate_respelled respelled
  obtain ⟨-, group⟩ := denies ["q"] none [("CN=Ops", ["ls"])] identity caller
  refine ⟨respelled, decides policy identity, ?_⟩
  rcases group "CN=Ops" ["ls"] first last List.mem_cons_self with everybody | own
  · exact congrArg Decision.isAllow everybody
  · exact congrArg Decision.isAllow own

end Access
end QueryGate.Policy
