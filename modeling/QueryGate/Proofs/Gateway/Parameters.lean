import QueryGate.Gateway.Handlers

/-! The known fields of a request can be read exactly when none of them is there twice. Each is then
found with the one value it was given. -/

namespace QueryGate.Gateway

/-- All values of a field, in order. -/
def fieldValues (pairs : List (String × String)) (name : String) : List String :=
  (pairs.filter (·.1 = name)).map (·.2)

def takeField (names : List String) (given : List (String × String)) (pair : String × String) :
    Except String (List (String × String)) :=
  if !names.contains pair.1 then .ok given
  else if (given.lookup pair.1).isSome then .error pair.1
  else .ok (given ++ [pair])

variable {names : List String} {pairs given : List (String × String)} {name value : String}

theorem knownFields_eq_foldlM : knownFields names pairs = pairs.foldlM (takeField names) [] := rfl

theorem fieldValues_append (first second : List (String × String)) (name : String) :
    fieldValues (first ++ second) name = fieldValues first name ++ fieldValues second name := by
  simp [fieldValues]

theorem fieldValues_cons (pair : String × String) (pairs : List (String × String)) (name : String) :
    fieldValues (pair :: pairs) name =
      if pair.1 = name then pair.2 :: fieldValues pairs name else fieldValues pairs name := by
  by_cases same : pair.1 = name <;> simp [fieldValues, same]

theorem lookup_eq_head? (pairs : List (String × String)) (name : String) :
    pairs.lookup name = (fieldValues pairs name).head? := by
  induction pairs with
  | nil => rfl
  | cons pair rest ih =>
    rw [fieldValues_cons, List.lookup_cons]
    by_cases same : pair.1 = name
    · have found : (name == pair.1) = true := beq_iff_eq.mpr same.symm
      rw [found, if_pos same]
      rfl
    · have other : (name == pair.1) = false := beq_false_of_ne (Ne.symm same)
      rw [other, if_neg same]
      exact ih

theorem fieldValues_known (known : name ∈ names) :
    fieldValues (pairs.filter fun pair => names.contains pair.1) name = fieldValues pairs name := by
  unfold fieldValues
  rw [List.filter_filter]
  refine congrArg _ (List.filter_congr fun pair _ => ?_)
  by_cases same : pair.1 = name
  · simp [same, known]
  · simp [same]

/-- Fields are taken in as long as no known one comes again. -/
theorem foldlM_takeField (once : ∀ name ∈ names, (fieldValues given name).length ≤ 1)
    (all : List (String × String)) :
    pairs.foldlM (takeField names) given = .ok all ↔
      all = given ++ pairs.filter (fun pair => names.contains pair.1) ∧
        ∀ name ∈ names, (fieldValues (given ++ pairs) name).length ≤ 1 := by
  induction pairs generalizing given with
  | nil =>
    simp only [List.foldlM_nil, List.filter_nil, List.append_nil]
    constructor
    · rintro ⟨⟩
      exact ⟨rfl, once⟩
    · rintro ⟨rfl, _⟩
      rfl
  | cons pair rest ih =>
    rw [List.foldlM_cons]
    unfold takeField
    by_cases known : pair.1 ∈ names
    · by_cases again : (given.lookup pair.1).isSome = true
      · rw [if_neg (by simpa using known), if_pos again]
        refine ⟨nofun, ?_⟩
        rintro ⟨_, bounded⟩
        rw [lookup_eq_head?, List.isSome_head?] at again
        have before : 0 < (fieldValues given pair.1).length := List.length_pos_iff.mpr (by simpa using again)
        have twice := bounded _ known
        rw [fieldValues_append, fieldValues_cons, if_pos rfl, List.length_append, List.length_cons] at twice
        omega
      · rw [if_neg (by simpa using known), if_neg again]
        have first : fieldValues given pair.1 = [] := by
          rw [lookup_eq_head?] at again
          simpa using again
        have onceMore : ∀ name ∈ names, (fieldValues (given ++ [pair]) name).length ≤ 1 := by
          intro name mem
          rw [fieldValues_append, fieldValues_cons]
          by_cases same : pair.1 = name
          · rw [← same, first]
            simp [fieldValues]
          · rw [if_neg same]
            simpa [fieldValues] using once name mem
        refine (ih onceMore).trans ?_
        simp [known]
    · rw [if_pos (by simpa using known)]
      refine (ih once).trans ?_
      have skipped : ∀ name ∈ names, fieldValues (given ++ pair :: rest) name =
          fieldValues (given ++ rest) name := by
        intro name mem
        have other : pair.1 ≠ name := fun same => known (same ▸ mem)
        rw [fieldValues_append, fieldValues_cons, if_neg other, fieldValues_append]
      rw [List.filter_cons_of_neg (by simpa using known)]
      grind

theorem knownFields_eq_ok :
    knownFields names pairs = .ok given ↔
      given = pairs.filter (fun pair => names.contains pair.1) ∧
        ∀ name ∈ names, (fieldValues pairs name).length ≤ 1 := by
  rw [knownFields_eq_foldlM, foldlM_takeField (by simp [fieldValues])]
  simp

theorem nonEmpty?_eq_some (read : knownFields names pairs = .ok given) (known : name ∈ names) :
    nonEmpty? given name = some value ↔ fieldValues pairs name = [value] ∧ value ≠ "" := by
  obtain ⟨rfl, once⟩ := knownFields_eq_ok.mp read
  unfold nonEmpty?
  rw [lookup_eq_head?, fieldValues_known known]
  have single := once name known
  cases values : fieldValues pairs name with
  | nil => simp
  | cons first others =>
    obtain rfl : others = [] := by simpa [values] using single
    simp only [List.head?_cons, Option.filter_some, List.cons.injEq, and_true]
    by_cases empty : first = "" <;> grind

end QueryGate.Gateway
