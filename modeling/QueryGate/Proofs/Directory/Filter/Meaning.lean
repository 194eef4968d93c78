import QueryGate.Directory.Filter.Matching
import QueryGate.Proofs.Directory.Filter.Texts

/-!
# What the text of a filter matches

The text of a well-formed filter matches an entry exactly when the filter holds of it, however deep it is nested. A
list of filters comes apart into the texts of its members, because each of them is balanced.
-/

namespace QueryGate.Directory.Filter

/-! ### Balanced texts -/

/-- A text in which each parenthesis has its counterpart. -/
inductive Balanced : List Char → Prop where
  | nil : Balanced []
  | plain {c : Char} {text : List Char} (opens : c ≠ '(') (closes : c ≠ ')') (rest : Balanced text) :
    Balanced (c :: text)
  | enclosed {inner text : List Char} (inside : Balanced inner) (rest : Balanced text) :
    Balanced ('(' :: (inner ++ ')' :: text))

theorem Balanced.append {first second : List Char} (left : Balanced first) (right : Balanced second) :
    Balanced (first ++ second) := by
  induction left with
  | nil => exact right
  | plain opens closes _ ih => exact .plain opens closes ih
  | @enclosed inner text inside _ _ ih =>
    have same : '(' :: (inner ++ ')' :: text) ++ second = '(' :: (inner ++ ')' :: (text ++ second)) := by simp
    rw [same]
    exact .enclosed inside ih

theorem balanced_of_plain {text : List Char} (plain : ∀ c ∈ text, c ≠ '(' ∧ c ≠ ')') : Balanced text := by
  induction text with
  | nil => exact .nil
  | cons c text ih =>
    obtain ⟨first, others⟩ := List.forall_mem_cons.mp plain
    exact .plain first.1 first.2 (ih others)

/-- What stands between the outermost parentheses. -/
def inner : Filter → List Char
  | all parts => '&' :: texts parts
  | any parts => '|' :: texts parts
  | not part => '!' :: text part
  | present attr => attr.toList ++ ['=', '*']
  | equal attr value => attr.toList ++ '=' :: value.toList

theorem text_eq_inner (filter : Filter) : filter.text = '(' :: (filter.inner ++ [')']) := by
  cases filter <;> simp [text, inner]

mutual

theorem balanced_inner : (filter : Filter) → filter.WellFormed → Balanced filter.inner
  | all parts, wellFormed => .plain (by decide) (by decide) (balanced_texts parts wellFormed)
  | any parts, wellFormed => .plain (by decide) (by decide) (balanced_texts parts wellFormed)
  | not part, wellFormed => by
    have inside := balanced_inner part wellFormed
    rw [inner, text_eq_inner]
    exact .plain (by decide) (by decide) (.enclosed inside .nil)
  | present attr, named => by
    refine (balanced_of_plain fun c member => (named.plain c member).2).append ?_
    exact .plain (by decide) (by decide) (.plain (by decide) (by decide) .nil)
  | equal attr value, ⟨named, valued⟩ => by
    refine (balanced_of_plain fun c member => (named.plain c member).2).append ?_
    exact .plain (by decide) (by decide) (balanced_of_plain valued.plain)

theorem balanced_texts : (parts : List Filter) → AreWellFormed parts → Balanced (texts parts)
  | [], _ => .nil
  | part :: parts, ⟨first, others⟩ => by
    have inside := balanced_inner part first
    rw [texts, text_eq_inner]
    exact (Balanced.enclosed inside .nil).append (balanced_texts parts others)

end

/-! ### Terms -/

variable {depth : Nat} {term rest : List Char}

theorem splitTerms_open_outer : splitTerms 0 term ('(' :: rest) = splitTerms 1 ['('] rest := rfl

theorem splitTerms_open : splitTerms (depth + 1) term ('(' :: rest) = splitTerms (depth + 2) (term ++ ['(']) rest :=
  rfl

theorem splitTerms_close_outer :
    splitTerms 1 term (')' :: rest) = (term ++ [')']) :: splitTerms 0 (term ++ [')']) rest := rfl

theorem splitTerms_close : splitTerms (depth + 2) term (')' :: rest) = splitTerms (depth + 1) (term ++ [')']) rest := by
  have inside : ¬ depth + 2 ≤ 1 := by omega
  rw [splitTerms, if_neg (by decide), if_pos rfl, if_neg inside]
  rfl

theorem splitTerms_plain {c : Char} (opens : c ≠ '(') (closes : c ≠ ')') :
    splitTerms depth term (c :: rest) = splitTerms depth (term ++ [c]) rest := by
  rw [splitTerms, if_neg opens, if_neg closes]

-- Within open parentheses a balanced text is read into the term, and as many are open after it as before.
theorem splitTerms_balanced {text : List Char} (balanced : Balanced text) (depth : Nat) (term rest : List Char) :
    splitTerms (depth + 1) term (text ++ rest) = splitTerms (depth + 1) (term ++ text) rest := by
  induction balanced generalizing depth term rest with
  | nil => rw [List.nil_append, List.append_nil]
  | @plain c text opens closes _ ih =>
    rw [List.cons_append, splitTerms_plain opens closes, ih, List.append_assoc, List.singleton_append]
  | @enclosed inner text _ _ inside behind =>
    have read : term ++ ['('] ++ inner ++ [')'] ++ text = term ++ '(' :: (inner ++ ')' :: text) := by simp
    rw [List.cons_append, List.append_assoc, List.cons_append, splitTerms_open, inside, splitTerms_close, behind, read]

theorem splitTerms_text {filter : Filter} (wellFormed : filter.WellFormed) (term rest : List Char) :
    splitTerms 0 term (filter.text ++ rest) = filter.text :: splitTerms 0 filter.text rest := by
  have whole : filter.text = ['('] ++ filter.inner ++ [')'] := text_eq_inner filter
  have begins : filter.text ++ rest = '(' :: (filter.inner ++ ')' :: rest) := by
    rw [text_eq_inner, List.cons_append, List.append_assoc, List.singleton_append]
  rw [begins, splitTerms_open_outer, splitTerms_balanced (balanced_inner filter wellFormed), splitTerms_close_outer,
    ← whole]

theorem splitTerms_texts {parts : List Filter} (wellFormed : AreWellFormed parts) (term : List Char) :
    splitTerms 0 term (texts parts) = parts.map text := by
  induction parts generalizing term with
  | nil => rfl
  | cons part parts ih => rw [texts, splitTerms_text wellFormed.1, ih wellFormed.2, List.map_cons]

/-! ### Taking a text apart -/

theorem unwrapped_enclosed (inside : List Char) : unwrapped ('(' :: (inside ++ [')'])) = inside := by
  have ends : (inside ++ [')']).getLast? = some ')' := List.getLast?_concat
  rw [unwrapped, if_pos ends, List.dropLast_concat]

theorem trimBlank_enclosed (inside : List Char) : Text.trimBlank ('(' :: (inside ++ [')'])) = '(' :: (inside ++ [')']) := by
  have opens : Text.isBlank '(' = false := by decide
  have closes : Text.isBlank ')' = false := by decide
  have reversed : ('(' :: (inside ++ [')'])).reverse = ')' :: (inside.reverse ++ ['(']) := by simp
  rw [Text.trimBlank, List.dropWhile_cons_of_neg (by simp [opens]), reversed, List.dropWhile_cons_of_neg (by simp [closes]),
    ← reversed, List.reverse_reverse]

theorem unwrapped_text (filter : Filter) : unwrapped (Text.trimBlank filter.text) = filter.inner := by
  rw [text_eq_inner, trimBlank_enclosed, unwrapped_enclosed]

variable {entry : Entry} {written : List Char}

theorem matchesText_all (inside : unwrapped (Text.trimBlank written) = '&' :: rest) :
    matchesText entry written = (terms rest).all (matchesText entry) := by
  rw [matchesText]
  split
  · next same =>
    obtain ⟨-, rfl⟩ := List.cons.inj (inside.symm.trans same)
    rw [List.all_subtype fun _ _ => rfl, List.unattach_attach]
  all_goals simp_all

theorem matchesText_any (inside : unwrapped (Text.trimBlank written) = '|' :: rest) :
    matchesText entry written = (terms rest).any (matchesText entry) := by
  rw [matchesText]
  split
  case h_2 same =>
    obtain ⟨-, rfl⟩ := List.cons.inj (inside.symm.trans same)
    rw [List.any_subtype fun _ _ => rfl, List.unattach_attach]
  all_goals simp_all

theorem matchesText_not (inside : unwrapped (Text.trimBlank written) = '!' :: rest) :
    matchesText entry written = !matchesText entry rest := by
  rw [matchesText]
  split
  case h_3 same =>
    obtain ⟨-, rfl⟩ := List.cons.inj (inside.symm.trans same)
    rfl
  all_goals simp_all

theorem matchesText_item {attr : String} {value : List Char} (named : IsAttribute attr)
    (inside : unwrapped (Text.trimBlank written) = attr.toList ++ '=' :: value) :
    matchesText entry written = matchesItem entry (attr.toList ++ '=' :: value) := by
  obtain ⟨c, others, begins, unmarked⟩ := named.head value
  rw [matchesText]
  split
  case h_4 => rw [inside]
  all_goals
    next same =>
    obtain ⟨rfl, -⟩ := List.cons.inj ((begins.symm.trans inside.symm).trans same)
    exact absurd (by decide) unmarked

theorem item?_eq {attr : String} (named : IsAttribute attr) (value : List Char) :
    item? (attr.toList ++ '=' :: value) = some (attr, value) := by
  have name : ∀ c ∈ attr.toList, decide (c ≠ '=') = true := fun c member => decide_eq_true (named.plain c member).1
  have cut : (attr.toList ++ '=' :: value).dropWhile (· ≠ '=') = '=' :: value := by
    rw [List.dropWhile_append_of_pos name, List.dropWhile_cons_of_neg (by simp)]
  have kept : (attr.toList ++ '=' :: value).takeWhile (· ≠ '=') = attr.toList := by
    rw [List.takeWhile_append_of_pos name, List.takeWhile_cons_of_neg (by simp), List.append_nil]
  rw [item?, cut, kept, String.ofList_toList]

theorem matchesItem_present {attr : String} (named : IsAttribute attr) :
    matchesItem entry (attr.toList ++ ['=', '*']) = (present attr).holds entry := by
  rw [matchesItem, item?_eq named]
  rfl

theorem matchesItem_equal {attr value : String} (named : IsAttribute attr) (valued : IsValue value) :
    matchesItem entry (attr.toList ++ '=' :: value.toList) = (equal attr value).holds entry := by
  have no_star : value.toList ≠ ['*'] := fun same => valued.no_star (String.toList_inj.mp same)
  rw [matchesItem, item?_eq named]
  split
  · next same => cases same
  · next same => simp_all
  · next same =>
    cases same
    rw [String.ofList_toList]

/-! ### Meaning -/

mutual

theorem matchesText_text (entry : Entry) :
    (filter : Filter) → filter.WellFormed → matchesText entry filter.text = filter.holds entry
  | all parts, wellFormed => by
    rw [matchesText_all (unwrapped_text (all parts)), terms, splitTerms_texts wellFormed, holds]
    exact all_matchesText entry parts wellFormed
  | any parts, wellFormed => by
    rw [matchesText_any (unwrapped_text (any parts)), terms, splitTerms_texts wellFormed, holds]
    exact any_matchesText entry parts wellFormed
  | not part, wellFormed => by
    rw [matchesText_not (unwrapped_text (not part)), matchesText_text entry part wellFormed, holds]
  | present attr, named => by
    rw [matchesText_item named (unwrapped_text (present attr)), matchesItem_present named]
  | equal attr value, ⟨named, valued⟩ => by
    rw [matchesText_item named (unwrapped_text (equal attr value)), matchesItem_equal named valued]

theorem all_matchesText (entry : Entry) : (parts : List Filter) → AreWellFormed parts →
    (parts.map text).all (matchesText entry) = allHold entry parts
  | [], _ => rfl
  | part :: parts, ⟨first, others⟩ => by
    rw [List.map_cons, List.all_cons, matchesText_text entry part first, all_matchesText entry parts others, allHold]

theorem any_matchesText (entry : Entry) : (parts : List Filter) → AreWellFormed parts →
    (parts.map text).any (matchesText entry) = anyHolds entry parts
  | [], _ => rfl
  | part :: parts, ⟨first, others⟩ => by
    rw [List.map_cons, List.any_cons, matchesText_text entry part first, any_matchesText entry parts others, anyHolds]

end

/-- The text of a well-formed filter matches exactly the entries of which the filter holds. On the way, a filter made
of others comes apart into just the texts of these, in order. -/
theorem text_means_filter (filter : Filter) (wellFormed : filter.WellFormed) :
    (∀ entry, matchesText entry filter.text = filter.holds entry) ∧
    ∀ parts, filter = all parts ∨ filter = any parts →
      ∃ mark rest, unwrapped (Text.trimBlank filter.text) = mark :: rest ∧ terms rest = parts.map text := by
  refine ⟨fun entry => matchesText_text entry filter wellFormed, ?_⟩
  rintro parts (rfl | rfl)
  · exact ⟨'&', _, unwrapped_text (all parts), splitTerms_texts wellFormed []⟩
  · exact ⟨'|', _, unwrapped_text (any parts), splitTerms_texts wellFormed []⟩

/-- An empty alternative, and a value with marks and an equals sign in it that is there in other letters. -/
theorem nested_text_means_filter :
    let filter := all [not (any []), any [present "mail", equal "cn" "ä=b & !c|d"]]
    let entry : Entry := { dn := "", attributes := [("CN", ["Ä", "ä=B & !C|D"])] }
    filter.WellFormed ∧ filter.text = "(&(!(|))(|(mail=*)(cn=ä=b & !c|d)))".toList ∧
      matchesText entry filter.text = true ∧
      ∃ mark rest, unwrapped (Text.trimBlank filter.text) = mark :: rest ∧
        terms rest = ["(!(|))".toList, "(|(mail=*)(cn=ä=b & !c|d))".toList] := by
  intro filter entry
  have mail : IsAttribute "mail" := by decide
  have name : IsAttribute "cn" := by decide
  have value : IsValue "ä=b & !c|d" := by decide
  have wellFormed : filter.WellFormed := ⟨trivial, ⟨mail, ⟨name, value⟩, trivial⟩, trivial⟩
  obtain ⟨matched, parts⟩ := text_means_filter filter wellFormed
  refine ⟨wellFormed, by decide, ?_, ?_⟩
  · rw [matched]
    decide
  · obtain ⟨mark, rest, inside, cut⟩ := parts _ (.inl rfl)
    refine ⟨mark, rest, inside, cut.trans ?_⟩
    decide

end QueryGate.Directory.Filter
