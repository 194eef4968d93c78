import QueryGate.Directory.Filter.Basic
import QueryGate.Text.Characters

/-! Matching against the text of a filter, taken apart from the outside. Text that is no filter
matches something or nothing by the same rules. -/

namespace QueryGate.Directory.Filter

/-- The text without its outermost parentheses, unchanged if it has only one of them. -/
def unwrapped : List Char → List Char
  | '(' :: rest => if rest.getLast? = some ')' then rest.dropLast else '(' :: rest
  | text => text

/--
The parenthesised terms of a list of filters. `depth` counts the open parentheses and `term` holds
what was read since the outermost one opened. A closing parenthesis too many ends a term again.
-/
def splitTerms : (depth : Nat) → (term : List Char) → List Char → List (List Char)
  | _, _, [] => []
  | depth, term, c :: rest =>
    if c = '(' then splitTerms (depth + 1) (if depth = 0 then ['('] else term ++ ['(']) rest
    else if c = ')' then
      if depth ≤ 1 then (term ++ [')']) :: splitTerms 0 (term ++ [')']) rest
      else splitTerms (depth - 1) (term ++ [')']) rest
    else splitTerms depth (term ++ [c]) rest

def terms (text : List Char) : List (List Char) :=
  splitTerms 0 [] text

theorem length_unwrapped_le (text : List Char) : (unwrapped text).length ≤ text.length := by
  unfold unwrapped
  split
  · split
    · simp only [List.length_dropLast, List.length_cons]; omega
    · exact Nat.le_refl _
  · exact Nat.le_refl _

theorem length_le_of_mem_splitTerms {depth : Nat} {term text t : List Char}
    (h : t ∈ splitTerms depth term text) : t.length ≤ term.length + text.length := by
  fun_induction splitTerms depth term text with
  | case1 => simp at h
  | case2 depth term rest ih =>
    have := ih h
    split at this <;> simp at this ⊢ <;> omega
  | case3 depth term rest _ small ih =>
    rcases List.mem_cons.1 h with rfl | h
    · simp
    · have := ih h
      simp at this ⊢; omega
  | case4 depth term rest _ large ih =>
    have := ih h
    simp at this ⊢; omega
  | case5 depth term c rest _ _ ih =>
    have := ih h
    simp at this ⊢; omega

theorem length_trimBlank_le (cs : List Char) : (Text.trimBlank cs).length ≤ cs.length := by
  have h (xs : List Char) : (xs.dropWhile Text.isBlank).length ≤ xs.length :=
    (List.dropWhile_sublist _).length_le
  have := h (cs.dropWhile Text.isBlank).reverse
  have := h cs
  simp only [Text.trimBlank, List.length_reverse] at *
  omega

def item? (text : List Char) : Option (String × List Char) :=
  match text.dropWhile (· ≠ '=') with
  | [] => none
  | _ :: value => some (String.ofList (text.takeWhile (· ≠ '=')), value)

/-- Whether an entry matches an item. Without an equals sign nothing matches. -/
def matchesItem (entry : Entry) (text : List Char) : Bool :=
  match item? text with
  | none => false
  | some (attr, ['*']) => (present attr).holds entry
  | some (attr, value) => (equal attr (String.ofList value)).holds entry

def matchesText (entry : Entry) (text : List Char) : Bool :=
  match _split : unwrapped (Text.trimBlank text) with
  | '&' :: rest => (terms rest).attach.all fun ⟨term, _⟩ => matchesText entry term
  | '|' :: rest => (terms rest).attach.any fun ⟨term, _⟩ => matchesText entry term
  | '!' :: rest => !matchesText entry rest
  | inner => matchesItem entry inner
termination_by text.length
decreasing_by
  all_goals
    have shorter := Nat.le_trans (length_unwrapped_le (Text.trimBlank text))
      (length_trimBlank_le text)
    rw [_split] at shorter
    simp only [List.length_cons] at shorter
  · have := length_le_of_mem_splitTerms ‹_ ∈ terms rest›
    simp only [List.length_nil] at this
    omega
  · have := length_le_of_mem_splitTerms ‹_ ∈ terms rest›
    simp only [List.length_nil] at this
    omega
  · omega

end QueryGate.Directory.Filter
