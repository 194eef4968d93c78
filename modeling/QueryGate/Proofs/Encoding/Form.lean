import QueryGate.Encoding.Form
import QueryGate.Proofs.Text.Utf8

/-!
# Reading back forms

Pairs of any texts are read back as they were written, in their order. What is written for a text has none of the
characters in it that separate pairs, names and values, or that mean something in a URL.
-/

namespace QueryGate.Encoding.Form

open Text (hexDigit hexValue?)

/-! ### Characters in writing -/

/-- The characters of written names and values. -/
def IsWritten (c : Char) : Prop :=
  c.isAlphanum = true ∨ c ∈ ['*', '-', '.', '_', '+', '%']

/-- What separates pairs, names and values, and the parts of a URL. -/
def separators : List Char :=
  ['&', '=', '?', '#', '/', ':']

instance (c : Char) : Decidable (IsWritten c) :=
  inferInstanceAs (Decidable (c.isAlphanum = true ∨ c ∈ ['*', '-', '.', '_', '+', '%']))

theorem of_separator {c : Char} (separates : c ∈ separators) : ¬ IsWritten c ∧ c.toNat < 0x80 := by
  simp only [separators, List.mem_cons, List.not_mem_nil, or_false] at separates
  rcases separates with rfl | rfl | rfl | rfl | rfl | rfl
  all_goals decide

theorem IsWritten.ne {c d : Char} (written : IsWritten c) (separates : d ∈ separators) : c ≠ d := by
  rintro rfl
  exact (of_separator separates).1 written

theorem toNat_lt_of_isAlphanum {c : Char} (letter : c.isAlphanum = true) : c.toNat < 0x80 := by
  have below {d : Char} (bounded : c.val ≤ d.val) (ascii : d.toNat < 0x80) : c.toNat < 0x80 :=
    Nat.lt_of_le_of_lt (UInt32.le_iff_toNat_le.mp bounded) ascii
  rcases Bool.or_eq_true_iff.mp letter with letter | digit
  · rcases Bool.or_eq_true_iff.mp letter with upper | lower
    · exact below (d := 'Z') (of_decide_eq_true upper).2 (by decide)
    · exact below (d := 'z') (of_decide_eq_true (Bool.and_eq_true_iff.mp lower).2) (by decide)
  · exact below (d := '9') (of_decide_eq_true (Bool.and_eq_true_iff.mp digit).2) (by decide)

theorem IsWritten.ascii {c : Char} (written : IsWritten c) : c.toNat < 0x80 := by
  rcases written with letter | mark
  · exact toNat_lt_of_isAlphanum letter
  · simp only [List.mem_cons, List.not_mem_nil, or_false] at mark
    rcases mark with rfl | rfl | rfl | rfl | rfl | rfl
    all_goals decide

theorem isWritten_hexDigit : ∀ n < 16, IsWritten (hexDigit n).toUpper := by
  decide

theorem isPlain_iff {b : UInt8} : isPlain b = true ↔
    b.toNat < 0x80 ∧ ((Char.ofNat b.toNat).isAlphanum = true ∨ Char.ofNat b.toNat ∈ ['*', '-', '.', '_']) := by
  simp [isPlain, UInt8.lt_iff_toNat_lt, or_assoc]

theorem isWritten_of_mem_encodeByte {b : UInt8} {c : Char} (member : c ∈ encodeByte b) : IsWritten c := by
  unfold encodeByte at member
  split at member
  case isTrue plain =>
    rw [List.mem_singleton.mp member]
    rcases (isPlain_iff.mp plain).2 with letter | mark
    · exact .inl letter
    · exact .inr (List.mem_append_left _ mark)
  split at member
  · rw [List.mem_singleton.mp member]
    exact .inr (by decide)
  · have := b.toNat_lt
    simp only [List.mem_cons, List.not_mem_nil, or_false] at member
    rcases member with rfl | rfl | rfl
    · exact .inr (by decide)
    · exact isWritten_hexDigit _ (by omega)
    · exact isWritten_hexDigit _ (by omega)

theorem isWritten_of_mem_encodeText {s : String} {c : Char} (member : c ∈ encodeText s) : IsWritten c := by
  obtain ⟨b, -, within⟩ := List.mem_flatMap.mp member
  exact isWritten_of_mem_encodeByte within

/-! ### Texts -/

variable {b : UInt8} {rest : Bytes}

theorem decodeBytes_plain (other : b ≠ 0x25) :
    decodeBytes (b :: rest) = (if b = 0x2B then 0x20 else b) :: decodeBytes rest := by
  rw [decodeBytes]
  intro high low others same
  exact absurd same other

theorem char_byte {c : Char} (ascii : c.toNat < 0x80) : Char.ofNat (UInt8.ofNat c.toNat).toNat = c := by
  rw [Text.Utf8.toNat_byte (Nat.lt_trans ascii (by decide)), Char.ofNat_toNat]

theorem hexByte?_digits (b : UInt8) :
    hexByte? (UInt8.ofNat (hexDigit (b.toNat / 16)).toUpper.toNat) (UInt8.ofNat (hexDigit (b.toNat % 16)).toUpper.toNat) =
      some b := by
  have := b.toNat_lt
  have high : b.toNat / 16 < 16 := by omega
  have low : b.toNat % 16 < 16 := by omega
  have whole : b.toNat / 16 * 16 + b.toNat % 16 = b.toNat := by omega
  rw [hexByte?, char_byte (isWritten_hexDigit _ high).ascii, char_byte (isWritten_hexDigit _ low).ascii,
    Text.hexValue?_toUpper_hexDigit _ high, Text.hexValue?_toUpper_hexDigit _ low]
  show some (UInt8.ofNat (b.toNat / 16 * 16 + b.toNat % 16)) = some b
  rw [whole, UInt8.ofNat_toNat]

theorem encode_encodeByte (b : UInt8) :
    Text.Utf8.encode (encodeByte b) = (encodeByte b).map fun c => UInt8.ofNat c.toNat :=
  Text.Utf8.encode_ascii fun _ member => (isWritten_of_mem_encodeByte member).ascii

/-- Each byte is read back by itself, whatever stands behind it. -/
theorem decodeBytes_encodeByte (b : UInt8) (rest : Bytes) :
    decodeBytes (Text.Utf8.encode (encodeByte b) ++ rest) = b :: decodeBytes rest := by
  rw [encode_encodeByte, encodeByte]
  split
  case isTrue plain =>
    have small : ∀ n < 0x80, (Char.ofNat n).toNat = n := by decide
    have ascii : (Char.ofNat b.toNat).toNat = b.toNat := small _ (isPlain_iff.mp plain).1
    have percent : b ≠ 0x25 := by
      rintro rfl
      exact absurd plain (by decide)
    have plus : b ≠ 0x2B := by
      rintro rfl
      exact absurd plain (by decide)
    rw [List.map_singleton, ascii, UInt8.ofNat_toNat, List.singleton_append, decodeBytes_plain percent, if_neg plus]
  split
  case isTrue blank =>
    rw [blank]
    exact decodeBytes_plain (by decide)
  case isFalse =>
    show decodeBytes (0x25 :: _ :: _ :: rest) = _
    rw [decodeBytes, hexByte?_digits]

theorem decodeBytes_encodeText (s : String) : decodeBytes (Text.Utf8.encode (encodeText s)) = utf8 s := by
  unfold encodeText
  induction utf8 s with
  | nil => rfl
  | cons b bytes ih => rw [List.flatMap_cons, Text.Utf8.encode_append, decodeBytes_encodeByte, ih]

theorem decodeText_encodeText (s : String) : decodeText (Text.Utf8.encode (encodeText s)) = s := by
  rw [decodeText, decodeBytes_encodeText, ofUtf8Lossy_utf8]

/-! ### Pairs -/

theorem byte_not_mem_encodeText {d : Char} (separates : d ∈ separators) (s : String) :
    UInt8.ofNat d.toNat ∉ Text.Utf8.encode (encodeText s) := by
  rw [Text.Utf8.encode_ascii fun _ member => (isWritten_of_mem_encodeText member).ascii]
  intro member
  obtain ⟨c, listed, same⟩ := List.mem_map.mp member
  have written := isWritten_of_mem_encodeText listed
  refine written.ne separates ?_
  rw [← char_byte written.ascii, same, char_byte (of_separator separates).2]

theorem encode_encodePair (pair : String × String) : Text.Utf8.encode (encodePair pair) =
    Text.Utf8.encode (encodeText pair.1) ++ 0x3D :: Text.Utf8.encode (encodeText pair.2) :=
  Text.Utf8.encode_append _ _

theorem all_ne_of_not_mem {α : Type} [DecidableEq α] {separator : α} {part : List α} (none : separator ∉ part) :
    ∀ item ∈ part, decide (item ≠ separator) = true := by
  intro item member
  refine decide_eq_true ?_
  rintro rfl
  exact none member

theorem decodePair_encodePair (pair : String × String) :
    decodePair (Text.Utf8.encode (encodePair pair)) = pair := by
  have name := all_ne_of_not_mem (byte_not_mem_encodeText (d := '=') (by decide) pair.1)
  have equals : UInt8.ofNat '='.toNat = 0x3D := rfl
  rw [equals] at name
  rw [decodePair, encode_encodePair, List.takeWhile_append_of_pos name, List.dropWhile_append_of_pos name,
    List.takeWhile_cons_of_neg (by decide), List.dropWhile_cons_of_neg (by decide), List.append_nil, List.drop_one,
    List.tail_cons, decodeText_encodeText, decodeText_encodeText]

theorem separator_not_mem_encodePair (pair : String × String) : 0x26 ∉ Text.Utf8.encode (encodePair pair) := by
  have noAmpersand := byte_not_mem_encodeText (d := '&') (by decide)
  rw [encode_encodePair, List.mem_append, List.mem_cons]
  rintro (name | same | value)
  · exact noAmpersand pair.1 name
  · exact absurd same (by decide)
  · exact noAmpersand pair.2 value

theorem splitAt_of_not_mem {separator : UInt8} {part : Bytes} (none : separator ∉ part) :
    splitAt separator part = [part] := by
  induction part with
  | nil => rfl
  | cons b part ih =>
    obtain ⟨first, others⟩ := List.ne_and_not_mem_of_not_mem_cons none
    rw [splitAt, if_neg (Ne.symm first), ih others]

theorem splitAt_append {separator : UInt8} {part : Bytes} (none : separator ∉ part) (rest : Bytes) :
    splitAt separator (part ++ separator :: rest) = part :: splitAt separator rest := by
  induction part with
  | nil => rw [List.nil_append, splitAt, if_pos rfl]
  | cons b part ih =>
    obtain ⟨first, others⟩ := List.ne_and_not_mem_of_not_mem_cons none
    rw [List.cons_append, splitAt, if_neg (Ne.symm first), ih others]

theorem encode_singleton (pair : String × String) : encode [pair] = encodePair pair :=
  List.intercalate_singleton

theorem encode_cons_cons (pair other : String × String) (pairs : List (String × String)) :
    encode (pair :: other :: pairs) = encodePair pair ++ '&' :: encode (other :: pairs) := by
  rw [encode, List.map_cons, List.map_cons, List.intercalate_cons_cons, List.append_assoc]
  rfl

theorem splitAt_encode (pair : String × String) (pairs : List (String × String)) :
    splitAt 0x26 (Text.Utf8.encode (encode (pair :: pairs))) =
      (pair :: pairs).map fun pair => Text.Utf8.encode (encodePair pair) := by
  induction pairs generalizing pair with
  | nil =>
    rw [encode_singleton]
    exact splitAt_of_not_mem (separator_not_mem_encodePair pair)
  | cons other pairs ih =>
    have first : Text.Utf8.encode (encode (pair :: other :: pairs)) =
        Text.Utf8.encode (encodePair pair) ++ 0x26 :: Text.Utf8.encode (encode (other :: pairs)) := by
      rw [encode_cons_cons, Text.Utf8.encode_append]
      rfl
    rw [first, splitAt_append (separator_not_mem_encodePair pair), ih]
    rfl

/-- Whatever texts were written, they are read back, pair by pair. -/
theorem decode_encode (pairs : List (String × String)) : decode (Text.Utf8.encode (encode pairs)) = pairs := by
  cases pairs with
  | nil => rfl
  | cons pair pairs =>
    have filled : ∀ part ∈ (pair :: pairs).map (fun pair => Text.Utf8.encode (encodePair pair)), (!part.isEmpty) = true := by
      intro part member
      obtain ⟨pair, -, rfl⟩ := List.mem_map.mp member
      simp [encode_encodePair]
    rw [decode, splitAt_encode, List.filter_eq_self.mpr filled, List.map_map]
    exact (List.map_congr_left fun pair _ => decodePair_encodePair pair).trans (List.map_id _)

theorem mem_encodePair {pair : String × String} {c : Char} (member : c ∈ encodePair pair) :
    IsWritten c ∨ c = '=' := by
  rcases List.mem_append.mp member with name | others
  · exact .inl (isWritten_of_mem_encodeText name)
  rcases List.mem_cons.mp others with rfl | value
  · exact .inr rfl
  · exact .inl (isWritten_of_mem_encodeText value)

theorem mem_encode {pairs : List (String × String)} {c : Char} (member : c ∈ encode pairs) :
    IsWritten c ∨ c = '=' ∨ c = '&' := by
  match pairs with
  | [] => cases member
  | [pair] =>
    rw [encode_singleton] at member
    exact (mem_encodePair member).imp_right .inl
  | pair :: other :: pairs =>
    rw [encode_cons_cons] at member
    rcases List.mem_append.mp member with first | others
    · exact (mem_encodePair first).imp_right .inl
    rcases List.mem_cons.mp others with rfl | others
    · exact .inr (.inr rfl)
    · exact mem_encode others

end QueryGate.Encoding.Form
