import QueryGate.Json.Value
import QueryGate.Proofs.Json.Members

/-!
# Reading back values

Lists of strings and objects of strings are read back as what they were, and every value that is written
can be passed over.
-/

namespace QueryGate.Json

open Reader
open Text.Utf8 (encode encode_append)

variable {rest : Bytes}

/-- The items behind the first one, each with the comma before it. -/
def laterItems (others : List String) : List Char :=
  others.flatMap fun s => ',' :: quoted s

theorem encode_laterItems (s : String) (others : List String) :
    encode (laterItems (s :: others)) ++ rest =
      byte ',' :: (encode (quoted s) ++ (encode (laterItems others) ++ rest)) := by
  rw [laterItems, List.flatMap_cons, encode_append, List.append_assoc, encode_cons_ascii (by decide)]
  rfl

theorem encode_items (s : String) (others : List String) :
    encode ([','].intercalate ((s :: others).map quoted)) ++ rest =
      encode (quoted s) ++ (encode (laterItems others) ++ rest) := by
  rw [List.map_cons, intercalate_cons, encode_append, List.append_assoc, laterItems, List.flatMap_map]

theorem encode_strings (strings : List String) : encode (Output.strings strings).text ++ rest =
    byte '[' :: (encode ([','].intercalate (strings.map quoted)) ++ byte ']' :: rest) := by
  rw [Output.text, encode_cons_ascii (by decide), encode_append, List.cons_append, List.append_assoc]
  rfl

/-! ### Lists of strings -/

section Items

variable {item : List String → Reader (List String)}

theorem loops_laterItems (reads : ∀ taken s rest, Reads (item taken) (encode (quoted s) ++ rest) (s :: taken) rest)
    (others taken : List String) :
    Loops (itemStep item) (false, taken) (encode (laterItems others) ++ byte ']' :: rest)
      (others.reverse ++ taken) (byte ']' :: rest) := by
  induction others generalizing taken with
  | nil => exact .last (.bind (reads_moreItems_end false) (.ite_neg Bool.false_ne_true (.pure _)))
  | cons s others ih =>
    have step : Reads (itemStep item (false, taken)) (encode (laterItems (s :: others)) ++ byte ']' :: rest)
        (.inl (false, s :: taken)) (encode (laterItems others) ++ byte ']' :: rest) := by
      have one := reads taken s (encode (laterItems others) ++ byte ']' :: rest)
      rw [encode_laterItems]
      rw [encode_quoted] at one ⊢
      exact .bind (reads_moreItems_next (by decide) (by decide)) (.ite_pos rfl (.bind one (.pure _)))
    rw [List.reverse_cons, List.append_assoc]
    refine .more step ?_ (ih (s :: taken))
    rw [encode_laterItems]
    simp only [List.length_cons, List.length_append]
    omega

theorem reads_items (reads : ∀ taken s rest, Reads (item taken) (encode (quoted s) ++ rest) (s :: taken) rest)
    (strings : List String) :
    Reads (items item []) (encode ([','].intercalate (strings.map quoted)) ++ byte ']' :: rest)
      strings.reverse (byte ']' :: rest) := by
  refine Loops.reads ?_
  cases strings with
  | nil => exact .last (.bind (reads_moreItems_end true) (.ite_neg Bool.false_ne_true (.pure _)))
  | cons s others =>
    have one := reads [] s (encode (laterItems others) ++ byte ']' :: rest)
    rw [encode_items, List.reverse_cons]
    refine .more (.bind ?_ (.ite_pos rfl (.bind one (.pure _)))) ?_ (loops_laterItems reads others [s])
    · rw [encode_quoted]
      exact reads_moreItems_first (by decide) (by decide)
    · rw [encode_quoted]
      simp only [List.length_cons, List.length_append]
      omega

end Items

/-! ### Objects of strings -/

theorem reads_valueOf_string (part : Option (Reader Value)) (s : String) :
    Reads (valueOf part) (encode (quoted s) ++ rest) (.string s) rest := by
  rw [encode_quoted]
  refine .bind (reads_peekPast (by decide)) (.ite_pos rfl ?_)
  exact .bind (reads_drop _) (.bind (reads_text s) (.pure _))

theorem reads_value_string (depth : Nat) (s : String) :
    Reads (value depth) (encode (quoted s) ++ rest) (.string s) rest := by
  cases depth with
  | zero => exact reads_valueOf_string none s
  | succ depth => exact reads_valueOf_string _ s

/-- Members that are strings, as they are written and as they are read. -/
def stringMembers (pairs : List (String × String)) : List (String × Output) :=
  pairs.map fun (name, s) => (name, .string s)

def stringValues (pairs : List (String × String)) : List (String × Value) :=
  pairs.map fun (name, s) => (name, .string s)

theorem encode_objectText (pairs : List (String × Output)) (rest : Bytes) :
    encode (objectText pairs) ++ rest =
      byte '\x7b' :: (encode ([','].intercalate (pairs.map memberText)) ++ byte '\x7d' :: rest) := by
  have same : objectText pairs = '\x7b' :: ([','].intercalate (pairs.map memberText) ++ ['\x7d']) := rfl
  rw [same, encode_cons_ascii (by decide), encode_append, encode_cons_ascii (by decide),
    List.cons_append, List.append_assoc]
  rfl

theorem reads_value_object (depth : Nat) (pairs : List (String × String)) :
    Reads (value (depth + 1)) (encode (objectText (stringMembers pairs)) ++ rest)
      (.object (stringValues pairs)) rest := by
  -- the members are taken last first, and turned round at the end
  let member (taken : List (String × Value)) (name : String) : Reader (List (String × Value)) := do
    colon
    return (name, ← value depth) :: taken
  have takes (taken : List (String × Value)) :
      Takes member taken (stringMembers pairs) ((stringValues pairs).reverse ++ taken) := by
    induction pairs generalizing taken with
    | nil => exact .done taken
    | cons pair pairs ih =>
      have one (rest : Bytes) : Reads (member taken pair.1)
          (byte ':' :: (encode (Output.string pair.2).text ++ rest)) ((pair.1, .string pair.2) :: taken) rest :=
        .bind reads_colon (.bind (reads_value_string depth pair.2) (.pure _))
      have others := ih ((pair.1, .string pair.2) :: taken)
      have same : (stringValues (pair :: pairs)).reverse ++ taken =
          (stringValues pairs).reverse ++ (pair.1, .string pair.2) :: taken := by
        show (_ :: stringValues pairs).reverse ++ taken = _
        rw [List.reverse_cons, List.append_assoc]
        rfl
      rw [same]
      exact .next (fun rest _ => one rest) others
  rw [encode_objectText]
  refine .bind (reads_peekPast (by decide)) ?_
  refine .ite_neg (by decide) (.ite_neg (by decide) (.ite_neg (by decide) (.ite_neg (by decide) ?_)))
  refine .ite_neg (by decide) (.ite_pos (.inr rfl) (.bind (reads_drop _) (.ite_neg (by decide) ?_)))
  refine .bind ((reads_members (takes [])).followedBy reads_endObject) ?_
  rw [List.append_nil, List.reverse_reverse]
  exact .pure _

theorem reads_endOfText : Reads endOfText [] () [] := rfl

theorem parse_stringMembers (pairs : List (String × String)) :
    parse (encode (objectText (stringMembers pairs))) = .ok (.object (stringValues pairs)) := by
  have whole : Reads (value (maxDepth + 1)) _ _ [] := reads_value_object maxDepth pairs
  rw [List.append_nil] at whole
  have ends : Reads (do endOfText; return Value.object (stringValues pairs)) [] (.object (stringValues pairs)) [] :=
    .bind reads_endOfText (.pure _)
  exact (Reads.bind whole ends).runOn_eq

/-! ### Passing over values -/

/-- Wherever it stands, a value that is written like this can be passed over. -/
def IsSkipped (text : List Char) : Prop :=
  ∀ rest, EndsNumber rest → Reads skipValue (encode text ++ rest) () rest

theorem reads_closeFrames_end : Reads (closeFrames []) rest (.inr ()) rest :=
  (Loops.last (.pure _)).reads

theorem reads_skipStep_string {frames : List Frame} {next : List Frame ⊕ Unit} {final : Bytes} (s : String)
    (closes : Reads (closeFrames frames) rest next final) :
    Reads (skipStep frames) (encode (quoted s) ++ rest) next final := by
  rw [encode_quoted]
  refine .bind (reads_peekPast (by decide)) (.ite_neg (by decide) (.ite_neg (by decide) ?_))
  exact .ite_pos rfl (.bind (reads_drop _) (.bind (reads_skipText _) closes))

theorem isSkipped_string (s : String) : IsSkipped (Output.string s).text :=
  fun _ _ => (Loops.last (reads_skipStep_string s reads_closeFrames_end)).reads

theorem isSkipped_boolean (b : Bool) : IsSkipped (Output.boolean b).text := by
  intro rest _
  refine (Loops.last ?_).reads
  cases b with
  | true =>
    refine .bind (reads_peekPast (b := byte 't') (by decide)) ?_
    refine .ite_neg (by decide) (.ite_neg (by decide) (.ite_neg (by decide) (.ite_neg (by decide) ?_)))
    refine .ite_pos rfl (.bind (reads_drop _) ?_)
    exact .bind (reads_restOfWord "rue") reads_closeFrames_end
  | false =>
    refine .bind (reads_peekPast (b := byte 'f') (by decide)) ?_
    refine .ite_neg (by decide) (.ite_neg (by decide) (.ite_neg (by decide) (.ite_neg (by decide) ?_)))
    refine .ite_neg (by decide) (.ite_pos rfl (.bind (reads_drop _) ?_))
    exact .bind (reads_restOfWord "alse") reads_closeFrames_end

theorem isSkipped_natural (n : Nat) : IsSkipped (Output.integer n).text := by
  intro rest ends
  rw [text_natural]
  obtain ⟨b, digit, seen⟩ := reads_peekPast_toDigits n rest
  have step : Reads (skipStep []) (encode (Nat.toDigits 10 n) ++ rest) (.inr ()) rest := by
    refine .bind seen ?_
    refine .ite_neg (ne_of_isDigit digit (by decide)) (.ite_neg (ne_of_isDigit digit (by decide)) ?_)
    refine .ite_neg (ne_of_isDigit digit (by decide)) (.ite_neg (ne_of_isDigit digit (by decide)) ?_)
    refine .ite_neg (ne_of_isDigit digit (by decide)) (.ite_neg (ne_of_isDigit digit (by decide)) ?_)
    exact .bind (reads_skipNumber ends n) reads_closeFrames_end
  exact (Loops.last step).reads

theorem reads_closeFrames_comma :
    Reads (closeFrames [.array]) (byte ',' :: rest) (.inl [.array]) rest := by
  have closes : Reads (closeStep [.array]) (byte ',' :: rest) (.inr (.inl [.array])) rest :=
    .bind (reads_peekPast (by decide)) (.ite_pos rfl (.bind (reads_drop _) (.ite_neg (by decide) (.pure _))))
  exact (Loops.last closes).reads

theorem reads_closeFrames_bracket : Reads (closeFrames [.array]) (byte ']' :: rest) (.inr ()) rest := by
  have closes : Reads (closeStep [.array]) (byte ']' :: rest) (.inl []) rest :=
    .bind (reads_peekPast (by decide)) (.ite_neg (by decide) (.ite_pos rfl (.bind (reads_drop _) (.pure _))))
  exact (Loops.more closes (Nat.lt_succ_self _) (.last (.pure _))).reads

theorem loops_skipStep_items (s : String) (others : List String) :
    Loops skipStep [.array] (encode (quoted s) ++ (encode (laterItems others) ++ byte ']' :: rest)) () rest := by
  induction others generalizing s with
  | nil => exact .last (reads_skipStep_string s reads_closeFrames_bracket)
  | cons t others ih =>
    rw [encode_laterItems]
    refine .more (reads_skipStep_string s reads_closeFrames_comma) ?_ (ih t)
    simp only [List.length_cons, List.length_append]
    omega

theorem isSkipped_strings (strings : List String) : IsSkipped (Output.strings strings).text := by
  intro rest _
  rw [encode_strings]
  cases strings with
  | nil =>
    have step : Reads (skipStep []) (byte '[' :: byte ']' :: rest) (.inr ()) rest := by
      refine .bind (reads_peekPast (by decide)) (.ite_pos rfl (.bind (reads_drop _) ?_))
      refine .bind (reads_peekPast (by decide)) (.ite_pos rfl (.bind (reads_drop _) ?_))
      exact reads_closeFrames_end
    exact (Loops.last step).reads
  | cons s others =>
    have step {after : Bytes} : Reads (skipStep []) (byte '[' :: (encode (quoted s) ++ after)) (.inl [.array])
        (encode (quoted s) ++ after) := by
      refine .bind (reads_peekPast (by decide)) (.ite_pos rfl (.bind (reads_drop _) ?_))
      rw [encode_quoted]
      exact .bind (reads_peekPast (by decide)) (.ite_neg (by decide) (.pure _))
    rw [encode_items]
    exact (Loops.more step (Nat.lt_succ_self _) (loops_skipStep_items s others)).reads

end QueryGate.Json
