import QueryGate.Directory.Filter.Basic

/-!
# Filters and their texts

A text is that of at most one well-formed filter. A value within a filter can be replaced without any
change around it.
-/

namespace QueryGate.Directory.Filter

/-- The marks of filters that are made of others. -/
def marks : List Char :=
  ['&', '|', '!']

/-- An attribute that can be told apart from what follows it, and an item from a filter made of others. -/
structure IsAttribute (attr : String) : Prop where
  plain : ∀ c ∈ attr.toList, c ≠ '=' ∧ c ≠ '(' ∧ c ≠ ')'
  unmarked : ∀ c ∈ attr.toList.head?, c ∉ marks

/-- A value that can be told apart from what follows it, and its item from a test for presence. -/
structure IsValue (value : String) : Prop where
  plain : ∀ c ∈ value.toList, c ≠ '(' ∧ c ≠ ')'
  no_star : value ≠ "*"

instance (attr : String) : Decidable (IsAttribute attr) :=
  decidable_of_iff
    ((attr.toList.all fun c => c ≠ '=' ∧ c ≠ '(' ∧ c ≠ ')') = true ∧ (attr.toList.head?.all (· ∉ marks)) = true) <| by
    rw [List.all_eq_true, Option.all_eq_true]
    simp only [decide_eq_true_eq]
    exact ⟨fun ⟨plain, unmarked⟩ => ⟨plain, unmarked⟩, fun ⟨plain, unmarked⟩ => ⟨plain, unmarked⟩⟩

instance (value : String) : Decidable (IsValue value) :=
  decidable_of_iff ((value.toList.all fun c => c ≠ '(' ∧ c ≠ ')') = true ∧ value ≠ "*") <| by
    rw [List.all_eq_true]
    simp only [decide_eq_true_eq]
    exact ⟨fun ⟨plain, noStar⟩ => ⟨plain, noStar⟩, fun ⟨plain, noStar⟩ => ⟨plain, noStar⟩⟩

mutual

def WellFormed : Filter → Prop
  | all parts => AreWellFormed parts
  | any parts => AreWellFormed parts
  | not part => WellFormed part
  | present attr => IsAttribute attr
  | equal attr value => IsAttribute attr ∧ IsValue value

def AreWellFormed : List Filter → Prop
  | [] => True
  | part :: rest => WellFormed part ∧ AreWellFormed rest

end

/-! ### Texts -/

theorem text_all_append (parts : List Filter) (rest : List Char) :
    (all parts).text ++ rest = '(' :: '&' :: (texts parts ++ ')' :: rest) := by
  simp [text]

theorem text_any_append (parts : List Filter) (rest : List Char) :
    (any parts).text ++ rest = '(' :: '|' :: (texts parts ++ ')' :: rest) := by
  simp [text]

theorem text_not_append (part : Filter) (rest : List Char) :
    (not part).text ++ rest = '(' :: '!' :: (part.text ++ ')' :: rest) := by
  simp [text]

theorem text_present_append (attr : String) (rest : List Char) :
    (present attr).text ++ rest = '(' :: (attr.toList ++ '=' :: '*' :: ')' :: rest) := by
  simp [text]

theorem text_equal_append (attr value : String) (rest : List Char) :
    (equal attr value).text ++ rest = '(' :: (attr.toList ++ '=' :: (value.toList ++ ')' :: rest)) := by
  simp [text]

theorem texts_cons_append (part : Filter) (parts : List Filter) (rest : List Char) :
    texts (part :: parts) ++ rest = part.text ++ (texts parts ++ rest) := by
  rw [texts, List.append_assoc]

theorem texts_append (first second : List Filter) : texts (first ++ second) = texts first ++ texts second := by
  induction first with
  | nil => rfl
  | cons part first ih => rw [List.cons_append, texts, ih, texts, List.append_assoc]

/-! ### Unique reading -/

theorem append_cons_inj {c : Char} {first second rest others : List Char} (left : ∀ d ∈ first, d ≠ c)
    (right : ∀ d ∈ second, d ≠ c) (same : first ++ c :: rest = second ++ c :: others) :
    first = second ∧ rest = others := by
  induction first generalizing second with
  | nil =>
    cases second with
    | nil => exact ⟨rfl, (List.cons.inj same).2⟩
    | cons d second => exact absurd (List.cons.inj same).1.symm (right d List.mem_cons_self)
  | cons d first ih =>
    cases second with
    | nil => exact absurd (List.cons.inj same).1 (left d List.mem_cons_self)
    | cons e second =>
      obtain ⟨rfl, tails⟩ := List.cons.inj same
      obtain ⟨rfl, rests⟩ := ih (fun c member => left c (List.mem_cons_of_mem _ member))
        (fun c member => right c (List.mem_cons_of_mem _ member)) tails
      exact ⟨rfl, rests⟩

/-- What stands behind the opening parenthesis of a filter that is made of others. -/
def mark? : Filter → Option Char
  | all _ => some '&'
  | any _ => some '|'
  | not _ => some '!'
  | present _ | equal .. => none

theorem IsAttribute.head {attr : String} (named : IsAttribute attr) (behind : List Char) :
    ∃ c others, attr.toList ++ '=' :: behind = c :: others ∧ c ∉ marks := by
  cases written : attr.toList with
  | nil => exact ⟨'=', behind, rfl, by decide⟩
  | cons c cs => exact ⟨c, _, rfl, named.unmarked c (by rw [written]; rfl)⟩

/-- The character behind the opening parenthesis tells whether the filter is made of others, and how. -/
theorem mark?_eq {filter : Filter} (wellFormed : filter.WellFormed) (rest : List Char) :
    ∃ c behind, filter.text ++ rest = '(' :: c :: behind ∧ filter.mark? = if c ∈ marks then some c else none := by
  cases filter with
  | all parts => exact ⟨'&', _, rfl, rfl⟩
  | any parts => exact ⟨'|', _, rfl, rfl⟩
  | not part => exact ⟨'!', _, rfl, rfl⟩
  | present attr =>
    obtain ⟨c, others, same, unmarked⟩ := IsAttribute.head wellFormed ('*' :: ')' :: rest)
    rw [text_present_append, same]
    exact ⟨c, others, rfl, (if_neg unmarked).symm⟩
  | equal attr value =>
    obtain ⟨c, others, same, unmarked⟩ := wellFormed.1.head (value.toList ++ ')' :: rest)
    rw [text_equal_append, same]
    exact ⟨c, others, rfl, (if_neg unmarked).symm⟩

theorem mark?_congr {first second : Filter} {rest others : List Char} (left : first.WellFormed)
    (right : second.WellFormed) (same : first.text ++ rest = second.text ++ others) : first.mark? = second.mark? := by
  obtain ⟨c, behind, written, marked⟩ := mark?_eq left rest
  obtain ⟨d, _, writtenToo, markedToo⟩ := mark?_eq right others
  rw [written, writtenToo] at same
  obtain rfl : c = d := (List.cons.inj (List.cons.inj same).2).1
  rw [marked, markedToo]

/-- A presence test ends in a star, which is no value. -/
theorem star_ne_value {value : String} (valued : IsValue value) {rest others : List Char} :
    '*' :: ')' :: rest ≠ value.toList ++ ')' :: others := by
  intro same
  have star : ['*'] ++ ')' :: rest = value.toList ++ ')' :: others := same
  obtain ⟨only, _⟩ := append_cons_inj (List.forall_mem_singleton.mpr (by decide))
    (fun c member => (valued.plain c member).2) star
  exact valued.no_star (String.toList_inj.mp only.symm)

theorem item_inj {attr other : String} {rest others : List Char} (left : IsAttribute attr)
    (right : IsAttribute other) (same : attr.toList ++ '=' :: rest = other.toList ++ '=' :: others) :
    attr = other ∧ rest = others := by
  obtain ⟨names, rests⟩ := append_cons_inj (fun c member => (left.plain c member).1)
    (fun c member => (right.plain c member).1) same
  exact ⟨String.toList_inj.mp names, rests⟩

mutual

-- The parts of a filter stand one behind the other, so the induction is on both filters with any text behind
-- them. The marks tell the constructors apart.
theorem text_append_inj : (first second : Filter) → {rest others : List Char} → first.WellFormed →
    second.WellFormed → first.text ++ rest = second.text ++ others → first = second ∧ rest = others
  | all parts, second, rest, others, left, right, same => by
    have marked := mark?_congr left right same
    cases second with
    | all parts' =>
      rw [text_all_append, text_all_append] at same
      have inner := (List.cons.inj (List.cons.inj same).2).2
      obtain ⟨rfl, rests⟩ := texts_append_inj parts parts' left right inner
      exact ⟨rfl, rests⟩
    | _ => cases marked
  | any parts, second, rest, others, left, right, same => by
    have marked := mark?_congr left right same
    cases second with
    | any parts' =>
      rw [text_any_append, text_any_append] at same
      have inner := (List.cons.inj (List.cons.inj same).2).2
      obtain ⟨rfl, rests⟩ := texts_append_inj parts parts' left right inner
      exact ⟨rfl, rests⟩
    | _ => cases marked
  | not part, second, rest, others, left, right, same => by
    have marked := mark?_congr left right same
    cases second with
    | not part' =>
      rw [text_not_append, text_not_append] at same
      have inner := (List.cons.inj (List.cons.inj same).2).2
      obtain ⟨rfl, rests⟩ := text_append_inj part part' left right inner
      exact ⟨rfl, (List.cons.inj rests).2⟩
    | _ => cases marked
  | present attr, second, rest, others, left, right, same => by
    have marked := mark?_congr left right same
    rw [text_present_append] at same
    cases second with
    | present other =>
      rw [text_present_append] at same
      obtain ⟨rfl, rests⟩ := item_inj left right (List.cons.inj same).2
      exact ⟨rfl, (List.cons.inj (List.cons.inj rests).2).2⟩
    | equal other value =>
      rw [text_equal_append] at same
      obtain ⟨_, rests⟩ := item_inj left right.1 (List.cons.inj same).2
      exact absurd rests (star_ne_value right.2)
    | _ => cases marked
  | equal attr value, second, rest, others, left, right, same => by
    have marked := mark?_congr left right same
    rw [text_equal_append] at same
    cases second with
    | present other =>
      rw [text_present_append] at same
      obtain ⟨_, rests⟩ := item_inj left.1 right (List.cons.inj same).2
      exact absurd rests.symm (star_ne_value left.2)
    | equal other value' =>
      rw [text_equal_append] at same
      obtain ⟨rfl, rests⟩ := item_inj left.1 right.1 (List.cons.inj same).2
      obtain ⟨values, behind⟩ := append_cons_inj (fun c member => (left.2.plain c member).2)
        (fun c member => (right.2.plain c member).2) rests
      exact ⟨congrArg (equal attr) (String.toList_inj.mp values), behind⟩
    | _ => cases marked

theorem texts_append_inj : (first second : List Filter) → {rest others : List Char} → AreWellFormed first →
    AreWellFormed second → texts first ++ ')' :: rest = texts second ++ ')' :: others →
    first = second ∧ rest = others
  | [], [], rest, others, _, _, same => ⟨rfl, (List.cons.inj same).2⟩
  | [], part :: parts, rest, others, _, right, same => by
    obtain ⟨_, _, written, _⟩ := mark?_eq right.1 (texts parts ++ ')' :: others)
    rw [texts_cons_append, written] at same
    exact absurd (List.cons.inj same).1 (by decide)
  | part :: parts, [], rest, others, left, _, same => by
    obtain ⟨_, _, written, _⟩ := mark?_eq left.1 (texts parts ++ ')' :: rest)
    rw [texts_cons_append, written] at same
    exact absurd (List.cons.inj same).1 (by decide)
  | part :: parts, part' :: parts', rest, others, left, right, same => by
    rw [texts_cons_append, texts_cons_append] at same
    obtain ⟨rfl, tails⟩ := text_append_inj part part' left.1 right.1 same
    obtain ⟨rfl, rests⟩ := texts_append_inj parts parts' left.2 right.2 tails
    exact ⟨rfl, rests⟩

end

/-- A text is that of at most one well-formed filter. -/
theorem text_inj {first second : Filter} (left : first.WellFormed) (right : second.WellFormed)
    (same : first.text = second.text) : first = second := by
  have cancelled : first.text ++ [] = second.text ++ [] := by rw [same]
  exact (text_append_inj first second left right cancelled).1

/-! ### Values in their context -/

/-- A filter with a place left open. -/
inductive Context where
  | here
  | all (before : List Filter) (inner : Context) (after : List Filter)
  | any (before : List Filter) (inner : Context) (after : List Filter)
  | not (inner : Context)

def Context.plug : Context → Filter → Filter
  | here, filter => filter
  | all before inner after, filter => .all (before ++ inner.plug filter :: after)
  | any before inner after, filter => .any (before ++ inner.plug filter :: after)
  | not inner, filter => .not (inner.plug filter)

theorem areWellFormed_append (first second : List Filter) :
    AreWellFormed (first ++ second) ↔ AreWellFormed first ∧ AreWellFormed second := by
  induction first with
  | nil => exact ⟨fun second => ⟨trivial, second⟩, And.right⟩
  | cons part first ih =>
    show part.WellFormed ∧ AreWellFormed (first ++ second) ↔ (part.WellFormed ∧ AreWellFormed first) ∧ _
    rw [ih, and_assoc]

/-- The text of a filter stands within the text around it as it is. -/
theorem Context.text_plug (context : Context) :
    ∃ before after, ∀ filter, (context.plug filter).text = before ++ filter.text ++ after := by
  have among (first last : List Filter) (inner : Context) {c : Char} {before after : List Char}
      (inside : ∀ filter, (inner.plug filter).text = before ++ filter.text ++ after) (filter : Filter) :
      '(' :: c :: (texts (first ++ inner.plug filter :: last) ++ [')']) =
        '(' :: c :: (texts first ++ before) ++ filter.text ++ (after ++ texts last ++ [')']) := by
    rw [texts_append, texts, inside]
    simp only [List.cons_append, List.append_assoc]
  induction context with
  | here => exact ⟨[], [], fun filter => (List.append_nil _).symm⟩
  | all first inner last ih =>
    obtain ⟨before, after, inside⟩ := ih
    exact ⟨_, _, among first last inner inside⟩
  | any first inner last ih =>
    obtain ⟨before, after, inside⟩ := ih
    exact ⟨_, _, among first last inner inside⟩
  | not inner ih =>
    obtain ⟨before, after, inside⟩ := ih
    refine ⟨'(' :: '!' :: before, after ++ [')'], fun filter => ?_⟩
    show '(' :: '!' :: ((inner.plug filter).text ++ [')']) = _
    rw [inside]
    simp only [List.cons_append, List.append_assoc]

/-- A part may be replaced by any other well-formed one. -/
theorem Context.wellFormed_plug {context : Context} {part : Filter} (whole : (context.plug part).WellFormed) :
    part.WellFormed ∧ ∀ other : Filter, other.WellFormed → (context.plug other).WellFormed := by
  induction context with
  | here => exact ⟨whole, fun _ given => given⟩
  | all first inner last ih | any first inner last ih =>
    obtain ⟨before, inside, after⟩ := (areWellFormed_append _ _).mp whole
    obtain ⟨wellFormed, replaced⟩ := ih inside
    exact ⟨wellFormed, fun other given => (areWellFormed_append _ _).mpr ⟨before, replaced other given, after⟩⟩
  | not inner ih => exact ih whole

end QueryGate.Directory.Filter
