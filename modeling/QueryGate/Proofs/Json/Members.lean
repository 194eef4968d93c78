import QueryGate.Proofs.Json.Numbers

/-! The parts of an array or an object stand between commas. When each part is read back, whatever
comes after it, the whole is. -/

namespace QueryGate.Json

open Reader
open Text.Utf8 (encode encode_append)

variable {σ : Type} {bytes rest : Bytes} {value : Output}

theorem intercalate_cons (first : List Char) (others : List (List Char)) :
    [','].intercalate (first :: others) = first ++ others.flatMap (',' :: ·) := by
  induction others generalizing first with
  | nil => rw [List.intercalate_singleton, List.flatMap_nil, List.append_nil]
  | cons second others ih => rw [List.intercalate_cons_cons, ih, List.flatMap_cons, List.append_assoc]; rfl

theorem endsNumber_cons {b : UInt8} (noDigit : isDigit b = false) (noPoint : b ≠ byte '.')
    (noExponent : (b = byte 'e' || b = byte 'E') = false) : EndsNumber (b :: rest) :=
  ⟨noDigit, fun same => noPoint (Option.some.inj same), noExponent⟩

theorem endsNumber_comma : EndsNumber (byte ',' :: rest) :=
  endsNumber_cons (by decide) (by decide) (by decide)

theorem endsNumber_brace : EndsNumber (byte '\x7d' :: rest) :=
  endsNumber_cons (by decide) (by decide) (by decide)

theorem reads_moreItems_end (first : Bool) :
    Reads (moreItems first) (byte ']' :: rest) false (byte ']' :: rest) :=
  .bind (reads_peekPast (by decide)) (.ite_pos rfl (.pure _))

theorem reads_moreItems_first {b : UInt8} (visible : isBlank b = false) (notEnd : b ≠ byte ']') :
    Reads (moreItems true) (b :: rest) true (b :: rest) :=
  .bind (reads_peekPast visible) (.ite_neg notEnd (.ite_pos rfl (.pure _)))

theorem reads_moreItems_next {b : UInt8} (visible : isBlank b = false) (notEnd : b ≠ byte ']') :
    Reads (moreItems false) (byte ',' :: b :: rest) true (b :: rest) := by
  refine .bind (reads_peekPast (by decide)) (.ite_neg (by decide) (.ite_neg Bool.false_ne_true ?_))
  exact .ite_pos rfl (.bind (reads_drop _) (.bind (reads_peekPast visible) (.ite_neg notEnd (.pure _))))

theorem reads_endArray : Reads endArray (byte ']' :: rest) () rest :=
  .bind (reads_peekPast (by decide)) (.ite_pos rfl (reads_drop _))

theorem reads_moreMembers_end (first : Bool) :
    Reads (moreMembers first) (byte '\x7d' :: rest) false (byte '\x7d' :: rest) :=
  .bind (reads_peekPast (by decide)) (.ite_pos rfl (.pure _))

theorem reads_moreMembers_first :
    Reads (moreMembers true) (byte '"' :: rest) true (byte '"' :: rest) :=
  .bind (reads_peekPast (by decide)) (.ite_neg (by decide) (.ite_pos rfl (.ite_pos rfl (.pure _))))

theorem reads_moreMembers_next :
    Reads (moreMembers false) (byte ',' :: byte '"' :: rest) true (byte '"' :: rest) := by
  refine .bind (reads_peekPast (by decide)) (.ite_neg (by decide) (.ite_neg Bool.false_ne_true ?_))
  exact .ite_pos rfl (.bind (reads_drop _) (.bind (reads_peekPast (by decide)) (.ite_pos rfl (.pure _))))

theorem reads_endObject : Reads endObject (byte '\x7d' :: rest) () rest :=
  .bind (reads_peekPast (by decide)) (.ite_pos rfl (reads_drop _))

theorem reads_colon : Reads colon (byte ':' :: rest) () rest :=
  .bind (reads_peekPast (by decide)) (.ite_pos rfl (reads_drop _))

def memberText : String × Output → List Char
  | (name, value) => quoted name ++ ':' :: value.text

/-- A reader of members takes these one after the other, behind their names, and ends in a state. -/
inductive Takes (member : σ → String → Reader σ) : σ → List (String × Output) → σ → Prop where
  | done (state : σ) : Takes member state [] state
  | next {state middle final : σ} {name : String} {value : Output} {others : List (String × Output)}
      (reads : ∀ rest, EndsNumber rest →
        Reads (member state name) (byte ':' :: (encode value.text ++ rest)) middle rest)
      (tail : Takes member middle others final) : Takes member state ((name, value) :: others) final

variable {member : σ → String → Reader σ} {state middle final : σ} {name : String}

theorem encode_memberText (name : String) (value : Output) :
    encode (memberText (name, value)) ++ rest =
      byte '"' :: (encode (name.toList.flatMap escaped) ++ byte '"' :: byte ':' :: (encode value.text ++ rest)) := by
  rw [memberText, encode_append, List.append_assoc, encode_quoted, encode_cons_ascii (by decide)]
  rfl

/-- One round of the loop over the members, from the quote of a name on. -/
theorem reads_memberStep {first : Bool} {after : Bytes}
    (more : Reads (moreMembers first) bytes true
      (byte '"' :: (encode (name.toList.flatMap escaped) ++ byte '"' :: after)))
    (reads : Reads (member state name) after middle rest) :
    Reads (memberStep member (first, state)) bytes (.inl (false, middle)) rest :=
  .bind more (.ite_pos rfl (.bind (reads_drop _) (.bind (reads_text name) (.bind reads (.pure _)))))

/-- The members behind the first one, each with the comma before it. -/
def laterMembers (others : List (String × Output)) : List Char :=
  others.flatMap fun pair => ',' :: memberText pair

theorem endsNumber_laterMembers (others : List (String × Output)) :
    EndsNumber (encode (laterMembers others) ++ byte '\x7d' :: rest) := by
  cases others with
  | nil => exact endsNumber_brace
  | cons pair others =>
    rw [laterMembers, List.flatMap_cons, List.cons_append, encode_cons_ascii (by decide)]
    exact endsNumber_comma

theorem loops_laterMembers {others : List (String × Output)} (takes : Takes member state others final) :
    Loops (memberStep member) (false, state) (encode (laterMembers others) ++ byte '\x7d' :: rest) final
      (byte '\x7d' :: rest) := by
  induction takes with
  | done state =>
    exact .last (.bind (reads_moreMembers_end false) (.ite_neg Bool.false_ne_true (.pure _)))
  | @next state middle final name value others reads _ ih =>
    have whole : encode (laterMembers ((name, value) :: others)) ++ byte '\x7d' :: rest =
        byte ',' :: (encode (memberText (name, value)) ++
          (encode (laterMembers others) ++ byte '\x7d' :: rest)) := by
      rw [laterMembers, List.flatMap_cons, encode_append, List.append_assoc, encode_cons_ascii (by decide)]
      rfl
    rw [whole, encode_memberText]
    -- a comma or the closing brace follows the value, and neither goes on with a number
    refine .more (reads_memberStep reads_moreMembers_next (reads _ (endsNumber_laterMembers others))) ?_ ih
    simp only [List.length_cons, List.length_append]
    omega

theorem reads_members {pairs : List (String × Output)} (takes : Takes member state pairs final) :
    Reads (members member state) (encode ([','].intercalate (pairs.map memberText)) ++ byte '\x7d' :: rest)
      final (byte '\x7d' :: rest) := by
  refine Loops.reads ?_
  cases takes with
  | done => exact .last (.bind (reads_moreMembers_end true) (.ite_neg Bool.false_ne_true (.pure _)))
  | @next _ middle _ name value others reads tail =>
    have whole : encode ([','].intercalate (((name, value) :: others).map memberText)) ++ byte '\x7d' :: rest =
        encode (memberText (name, value)) ++ (encode (laterMembers others) ++ byte '\x7d' :: rest) := by
      rw [List.map_cons, intercalate_cons, encode_append, List.append_assoc, laterMembers, List.flatMap_map]
    rw [whole, encode_memberText]
    refine .more (reads_memberStep reads_moreMembers_first (reads _ (endsNumber_laterMembers others))) ?_
      (loops_laterMembers tail)
    simp only [List.length_cons, List.length_append]
    omega

end QueryGate.Json
