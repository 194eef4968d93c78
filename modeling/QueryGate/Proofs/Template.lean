import QueryGate.Directory.Source

/-! Two holes never overlap, so a template falls apart at any of its holes. With a single hole there
is one way to take it apart, and filling puts the value between the two parts. -/

namespace QueryGate.Template

variable {value before after template : List Char}

/-- No hole begins before another one and ends within it. -/
theorem no_hole_across {c : Char} {rest : List Char} (plain : ∀ others, c = '%' → rest = 's' :: others → False) :
    ∀ others, c = '%' → rest ++ '%' :: 's' :: after = 's' :: others → False := by
  intro others percent same
  cases rest with
  | nil =>
    have first := (List.cons.inj same).1
    revert first
    decide
  | cons d rest => exact plain rest percent (congrArg (· :: rest) (List.cons.inj same).1)

theorem fillIn_append_hole (value before after : List Char) :
    fillIn value (before ++ '%' :: 's' :: after) = fillIn value before ++ value ++ fillIn value after := by
  fun_induction fillIn value before with
  | case1 rest ih =>
    show value ++ fillIn value (rest ++ '%' :: 's' :: after) = _
    rw [ih, List.append_assoc, List.append_assoc, List.append_assoc]
  | case2 c rest plain ih =>
    rw [List.cons_append, fillIn.eq_2 _ _ _ (no_hole_across plain), ih]
    rfl
  | case3 => rfl

theorem holesIn_append_hole (before after : List Char) :
    holesIn (before ++ '%' :: 's' :: after) = holesIn before + 1 + holesIn after := by
  fun_induction holesIn before with
  | case1 rest ih =>
    show holesIn (rest ++ '%' :: 's' :: after) + 1 = _
    omega
  | case2 c rest plain ih => rw [List.cons_append, holesIn.eq_2 _ _ (no_hole_across plain), ih]
  | case3 =>
    show holesIn after + 1 = _
    omega

theorem fillIn_of_no_hole (noHole : holesIn template = 0) : fillIn value template = template := by
  fun_induction holesIn template with
  | case1 rest ih => cases noHole
  | case2 c rest plain ih => rw [fillIn.eq_2 _ _ _ plain, ih noHole]
  | case3 => rfl

theorem exists_hole (hasHole : holesIn template ≠ 0) : ∃ before after, template = before ++ '%' :: 's' :: after := by
  fun_induction holesIn template with
  | case1 rest ih => exact ⟨[], rest, rfl⟩
  | case2 c rest plain ih =>
    obtain ⟨before, after, rfl⟩ := ih hasHole
    exact ⟨c :: before, after, rfl⟩
  | case3 => exact absurd rfl hasHole

/-- With a single hole, the value is put between what stands before it and what stands after it. -/
theorem fillIn_single (single : holesIn (before ++ '%' :: 's' :: after) = 1) :
    fillIn value (before ++ '%' :: 's' :: after) = before ++ value ++ after := by
  rw [holesIn_append_hole] at single
  rw [fillIn_append_hole, fillIn_of_no_hole (by omega), fillIn_of_no_hole (by omega)]

theorem nothing_between {middle last : List Char} (noHole : holesIn after = 0)
    (same : '%' :: 's' :: after = middle ++ '%' :: 's' :: last) : middle = [] := by
  cases middle with
  | nil => rfl
  | cons c middle =>
    have rest := (List.cons.inj same).2
    cases middle with
    | nil => exact absurd (List.cons.inj rest).1 (by decide)
    | cons d middle =>
      have tail : after = middle ++ '%' :: 's' :: last := (List.cons.inj rest).2
      rw [tail, holesIn_append_hole] at noHole
      omega

theorem split_unique {first last : List Char} (single : holesIn (before ++ '%' :: 's' :: after) = 1)
    (same : before ++ '%' :: 's' :: after = first ++ '%' :: 's' :: last) : before = first ∧ after = last := by
  have other : holesIn (first ++ '%' :: 's' :: last) = 1 := same ▸ single
  rw [holesIn_append_hole] at single other
  have front : before = first := by
    obtain ⟨middle, rfl, rest⟩ | ⟨middle, rfl, rest⟩ := List.append_eq_append_iff.mp same
    · rw [nothing_between (by omega) rest, List.append_nil]
    · rw [nothing_between (by omega) rest, List.append_nil]
  subst front
  exact ⟨rfl, (List.cons.inj (List.cons.inj (List.append_cancel_left same)).2).2⟩

/-- What stands before and after the only hole of a template. -/
structure Splits (template before after : String) : Prop where
  single : holes template = 1
  whole : template = before ++ "%s" ++ after

theorem Splits.toList_eq {template before after : String} (splits : Splits template before after) :
    template.toList = before.toList ++ '%' :: 's' :: after.toList := by
  rw [splits.whole, String.toList_append, String.toList_append, List.append_assoc]
  rfl

theorem Splits.fill_eq {template before after : String} (splits : Splits template before after) (value : String) :
    fill template value = before ++ value ++ after := by
  have single := splits.single
  rw [holes, splits.toList_eq] at single
  rw [fill, splits.toList_eq, fillIn_single single, String.ofList_append, String.ofList_append]
  simp only [String.ofList_toList]

theorem Splits.unique {template before after first last : String} (splits : Splits template before after)
    (other : Splits template first last) : before = first ∧ after = last := by
  have single := splits.single
  rw [holes, splits.toList_eq] at single
  obtain ⟨front, back⟩ := split_unique single (splits.toList_eq.symm.trans other.toList_eq)
  exact ⟨String.toList_inj.mp front, String.toList_inj.mp back⟩

theorem exists_splits {template : String} (single : holes template = 1) :
    ∃ before after, Splits template before after := by
  have hasHole : holesIn template.toList ≠ 0 := by
    rw [← holes, single]
    exact Nat.one_ne_zero
  obtain ⟨before, after, same⟩ := exists_hole hasHole
  refine ⟨String.ofList before, String.ofList after, single, String.toList_inj.mp ?_⟩
  simp [same]

theorem fill_of_no_hole {template value : String} (noHole : holes template = 0) : fill template value = template := by
  rw [fill, fillIn_of_no_hole noHole, String.ofList_toList]

end QueryGate.Template
