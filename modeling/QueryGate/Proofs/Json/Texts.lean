import QueryGate.Json.Text
import QueryGate.Json.Writer
import QueryGate.Proofs.Json.Reading
import QueryGate.Proofs.Text.Utf8

/-!
# Reading back strings

A character stands in a string as its own bytes, or as an escape by a letter or by its number. A
reader that knows these three ways knows every string that is written.
-/

namespace QueryGate.Json

open Reader
open Text.Utf8 (encode encode_append encode_cons high_of_mem_utf8EncodeChar)

theorem utf8EncodeChar_ascii {c : Char} (ascii : c.toNat < 0x80) : String.utf8EncodeChar c = [byte c] :=
  if_pos (Nat.le_of_lt_succ ascii)

theorem encode_cons_ascii {c : Char} (ascii : c.toNat < 0x80) (cs : List Char) :
    encode (c :: cs) = byte c :: encode cs := by
  rw [encode_cons, utf8EncodeChar_ascii ascii]
  rfl

theorem byte_toNat {c : Char} (ascii : c.toNat < 0x80) : (byte c).toNat = c.toNat :=
  Text.Utf8.toNat_byte (Nat.lt_trans ascii (by decide))

theorem byte_ofNat {b : UInt8} (ascii : b.toNat < 0x80) : byte (Char.ofNat b.toNat) = b := by
  have small : ∀ n < 0x80, byte (Char.ofNat n) = UInt8.ofNat n := by decide
  rw [small _ ascii, UInt8.ofNat_toNat]

theorem byte_inj {c d : Char} (first : c.toNat < 0x80) (second : d.toNat < 0x80) : byte c = byte d ↔ c = d := by
  constructor
  · intro same
    have numbers := congrArg UInt8.toNat same
    rw [byte_toNat first, byte_toNat second] at numbers
    exact Char.toNat_inj.mp numbers
  · rintro rfl
    rfl

/-! ### Characters in writing -/

/-- A byte that stands for itself within a string. -/
structure IsPlain (b : UInt8) : Prop where
  no_quote : b ≠ byte '"'
  no_escape : b ≠ byte '\\'
  no_control : ¬ b < 0x20

/-- How the bytes of a character may stand in a string. -/
inductive Written (c : Char) : Bytes → Prop where
  | plain (each : ∀ b ∈ String.utf8EncodeChar c, IsPlain b) : Written c (String.utf8EncodeChar c)
  | lettered {letter : Char} (listed : (letter, c) ∈ shortEscapes) : Written c [byte '\\', byte letter]
  | numbered (small : c.toNat < 0x20) :
      Written c [byte '\\', byte 'u', byte '0', byte '0', byte (Text.hexDigit (c.toNat / 16)),
        byte (Text.hexDigit (c.toNat % 16))]

theorem isPlain_iff {b : UInt8} : IsPlain b ↔ b.toNat ≠ 0x22 ∧ b.toNat ≠ 0x5C ∧ 0x20 ≤ b.toNat := by
  have quote : b = byte '"' ↔ b.toNat = 0x22 := UInt8.toNat_inj.symm
  have backslash : b = byte '\\' ↔ b.toNat = 0x5C := UInt8.toNat_inj.symm
  have control : b < 0x20 ↔ b.toNat < 0x20 := UInt8.lt_iff_toNat_lt
  constructor
  · rintro ⟨noQuote, noEscape, noControl⟩
    exact ⟨mt quote.mpr noQuote, mt backslash.mpr noEscape, Nat.le_of_not_lt (mt control.mpr noControl)⟩
  · rintro ⟨noQuote, noEscape, noControl⟩
    exact ⟨mt quote.mp noQuote, mt backslash.mp noEscape, mt control.mp (Nat.not_lt.mpr noControl)⟩

theorem written_plain {c : Char} (noQuote : c ≠ '"') (noEscape : c ≠ '\\') (noControl : ¬ c.toNat < 0x20) :
    Written c (String.utf8EncodeChar c) := by
  refine .plain fun b member => isPlain_iff.mpr ?_
  by_cases ascii : c.toNat < 0x80
  · rw [utf8EncodeChar_ascii ascii] at member
    rw [List.mem_singleton.mp member, byte_toNat ascii]
    have quote : c.toNat ≠ 0x22 := mt (Char.toNat_inj (d := '"')).mp noQuote
    have backslash : c.toNat ≠ 0x5C := mt (Char.toNat_inj (d := '\\')).mp noEscape
    exact ⟨quote, backslash, Nat.le_of_not_lt noControl⟩
  · have high := high_of_mem_utf8EncodeChar (Nat.le_of_not_lt ascii) member
    omega

theorem written_lettered {c letter : Char} (listed : (letter, c) ∈ shortEscapes) (ascii : letter.toNat < 0x80) :
    Written c (encode ['\\', letter]) := by
  rw [encode_cons_ascii (by decide), encode_cons_ascii ascii]
  exact .lettered listed

theorem written_escaped (c : Char) : Written c (encode (escaped c)) := by
  unfold escaped
  -- seven characters have a letter, then come the other control characters and what stands for itself
  split
  · subst_vars
    exact written_lettered (by decide) (by decide)
  split
  · subst_vars
    exact written_lettered (by decide) (by decide)
  split
  · subst_vars
    exact written_lettered (by decide) (by decide)
  split
  · subst_vars
    exact written_lettered (by decide) (by decide)
  split
  · subst_vars
    exact written_lettered (by decide) (by decide)
  split
  · obtain rfl : c = Char.ofNat 8 := Char.toNat_inj.mp ‹_›
    exact written_lettered (by decide) (by decide)
  split
  · obtain rfl : c = Char.ofNat 12 := Char.toNat_inj.mp ‹_›
    exact written_lettered (by decide) (by decide)
  split
  · rename_i small
    have digit : ∀ n < 16, (Text.hexDigit n).toNat < 0x80 := by decide
    rw [encode_cons_ascii (by decide), encode_cons_ascii (by decide), encode_cons_ascii (by decide),
      encode_cons_ascii (by decide), encode_cons_ascii (digit _ (by omega)),
      encode_cons_ascii (digit _ (by omega))]
    exact .numbered small
  · have single : encode [c] = String.utf8EncodeChar c := by
      rw [encode_cons]
      exact List.append_nil _
    rw [single]
    exact written_plain ‹_› ‹_› ‹_›

/-! ### Reading characters -/

variable {rest : Bytes} {c : Char}

theorem reads_hexNumber (small : c.toNat < 0x20) :
    Reads hexNumber (byte '0' :: byte '0' :: byte (Text.hexDigit (c.toNat / 16)) ::
      byte (Text.hexDigit (c.toNat % 16)) :: rest) c.toNat rest := by
  have digit : ∀ n < 16, Text.hexValue? (Char.ofNat (byte (Text.hexDigit n)).toNat) = some n := by decide
  have number : [byte '0', byte '0', byte (Text.hexDigit (c.toNat / 16)),
      byte (Text.hexDigit (c.toNat % 16))].foldlM
        (fun n b => (Text.hexValue? (Char.ofNat b.toNat)).map (n * 16 + ·)) 0 = some c.toNat := by
    have zero : Text.hexValue? (Char.ofNat (byte '0').toNat) = some 0 := by decide
    have whole : c.toNat / 16 * 16 + c.toNat % 16 = c.toNat := by omega
    simp [zero, digit (c.toNat / 16) (by omega), digit (c.toNat % 16) (by omega), whole]
  refine .bind reads_get (.bind (reads_modify _) (.ite_neg (Nat.lt_irrefl 4) ?_))
  rw [List.take_succ_cons, List.take_succ_cons, List.take_succ_cons, List.take_succ_cons, List.take_zero, number]
  exact .pure _

theorem reads_numberedChar (small : c.toNat < 0x20) :
    Reads numberedChar (byte '0' :: byte '0' :: byte (Text.hexDigit (c.toNat / 16)) ::
      byte (Text.hexDigit (c.toNat % 16)) :: rest) c rest := by
  have noTrail : ¬ isTrail c.toNat = true := by simp [isTrail]; omega
  have noLead : ¬ isLead c.toNat = true := by simp [isLead]; omega
  refine .bind (reads_hexNumber small) (.ite_neg noTrail (.ite_neg noLead ?_))
  rw [Char.ofNat_toNat]
  exact .pure c

theorem letter_of_mem_shortEscapes : ∀ pair ∈ shortEscapes, byte pair.1 ≠ byte 'u' ∧
    shortEscapes.find? (fun other => byte other.1 = byte pair.1) = some pair := by
  decide

theorem reads_escapedChar {letter : Char} (listed : (letter, c) ∈ shortEscapes) :
    Reads escapedChar (byte letter :: rest) c rest := by
  obtain ⟨notNumber, found⟩ := letter_of_mem_shortEscapes _ listed
  refine .bind (reads_next _) (.ite_neg notNumber ?_)
  split
  case h_1 hit =>
    cases found.symm.trans hit
    exact .pure c
  case h_2 missed => cases found.symm.trans missed

theorem reads_textStep_plain {taken : Bytes} {b : UInt8} (plain : IsPlain b) :
    Reads (textStep taken) (b :: rest) (.inl (b :: taken)) rest :=
  .bind (reads_next b) (.ite_neg plain.no_quote (.ite_neg plain.no_escape (.ite_neg plain.no_control (.pure _))))

theorem reads_textStep_escape {taken escape : Bytes} (reads : Reads escapedChar escape c rest) :
    Reads (textStep taken) (byte '\\' :: escape) (.inl ((String.utf8EncodeChar c).reverse ++ taken)) rest :=
  .bind (reads_next _) (.ite_neg (by decide) (.ite_pos rfl (.bind reads (.pure _))))

/-- Whatever the way in which a character is written, the loop goes over it. -/
theorem loops_textStep_written {written taken result final : Bytes} (way : Written c written)
    (others : Loops textStep ((String.utf8EncodeChar c).reverse ++ taken) rest result final) :
    Loops textStep taken (written ++ rest) result final := by
  cases way with
  | plain each =>
    -- a character past ASCII takes a round for each of its bytes
    generalize String.utf8EncodeChar c = bytes at each others
    induction bytes generalizing taken with
    | nil => exact others
    | cons b bytes ih =>
      refine .more (reads_textStep_plain (each b List.mem_cons_self)) (Nat.lt_succ_self _) ?_
      refine ih (fun b member => each b (List.mem_cons_of_mem _ member)) ?_
      rw [List.reverse_cons, List.append_assoc] at others
      exact others
  | lettered listed =>
    refine .more (reads_textStep_escape (reads_escapedChar listed)) ?_ others
    show rest.length < rest.length + 2
    omega
  | numbered small =>
    have reads : Reads escapedChar (byte 'u' :: byte '0' :: byte '0' :: _) c rest :=
      .bind (reads_next _) (.ite_pos rfl (reads_numberedChar small))
    refine .more (reads_textStep_escape reads) ?_ others
    show rest.length < rest.length + 6
    omega

theorem loops_textStep (cs : List Char) (taken : Bytes) :
    Loops textStep taken (encode (cs.flatMap escaped) ++ byte '"' :: rest)
      (taken.reverse ++ encode cs) rest := by
  induction cs generalizing taken with
  | nil =>
    have ends : Reads (textStep taken) (byte '"' :: rest) (.inr taken.reverse) rest :=
      .bind (reads_next _) (.ite_pos rfl (.pure _))
    refine .last ?_
    simpa [encode] using ends
  | cons c cs ih =>
    rw [List.flatMap_cons, encode_append, List.append_assoc, encode_cons]
    refine loops_textStep_written (written_escaped c) ?_
    have all := ih ((String.utf8EncodeChar c).reverse ++ taken)
    rw [List.reverse_append, List.reverse_reverse, List.append_assoc] at all
    exact all

/-- A string is read back whatever characters it has. -/
theorem reads_text (s : String) :
    Reads text (encode (s.toList.flatMap escaped) ++ byte '"' :: rest) s rest := by
  refine .bind (loops_textStep s.toList []).reads ?_
  have read : ofUtf8? (([] : Bytes).reverse ++ encode s.toList) = some s := ofUtf8?_utf8 s
  rw [read]
  exact .pure s

theorem encode_quoted (s : String) :
    encode (quoted s) ++ rest = byte '"' :: (encode (s.toList.flatMap escaped) ++ byte '"' :: rest) := by
  rw [quoted, encode_cons_ascii (by decide), encode_append, encode_cons_ascii (by decide),
    List.cons_append, List.append_assoc]
  rfl

/-! ### Passing over strings -/

theorem loops_skipTextStep_written {written : Bytes} (way : Written c written) {final : Bytes}
    (others : Loops skipTextStep () rest () final) : Loops skipTextStep () (written ++ rest) () final := by
  cases way with
  | plain each =>
    generalize String.utf8EncodeChar c = bytes at each
    induction bytes with
    | nil => exact others
    | cons b bytes ih =>
      have plain := each b List.mem_cons_self
      refine .more ?_ (Nat.lt_succ_self _) (ih fun b member => each b (List.mem_cons_of_mem _ member))
      exact .bind (reads_next b)
        (.ite_neg plain.no_quote (.ite_neg plain.no_escape (.ite_neg plain.no_control (.pure _))))
  | @lettered letter listed =>
    obtain ⟨notNumber, found⟩ := letter_of_mem_shortEscapes _ listed
    have known : ¬ (shortEscapes.find? fun other => byte other.1 = byte letter).isNone = true := by
      rw [found]
      exact Bool.false_ne_true
    have reads : Reads (skipTextStep ()) (byte '\\' :: byte letter :: rest) (.inl ()) rest := by
      refine .bind (reads_next _) (.ite_neg (by decide) (.ite_pos rfl (.bind (reads_next _) ?_)))
      exact .ite_neg notNumber (.ite_neg known (.pure _))
    refine .more reads ?_ others
    show rest.length < rest.length + 2
    omega
  | numbered small =>
    have reads : Reads (skipTextStep ()) (byte '\\' :: byte 'u' :: byte '0' :: byte '0' ::
        byte (Text.hexDigit (c.toNat / 16)) :: byte (Text.hexDigit (c.toNat % 16)) :: rest) (.inl ()) rest := by
      refine .bind (reads_next _) (.ite_neg (by decide) (.ite_pos rfl (.bind (reads_next _) ?_)))
      exact .ite_pos rfl (.bind (.bind (reads_hexNumber small) (.pure _)) (.pure _))
    refine .more reads ?_ others
    show rest.length < rest.length + 6
    omega

theorem reads_skipText (cs : List Char) :
    Reads skipText (encode (cs.flatMap escaped) ++ byte '"' :: rest) () rest := by
  refine Loops.reads ?_
  induction cs with
  | nil => exact .last (.bind (reads_next _) (.ite_pos rfl (.pure _)))
  | cons c cs ih =>
    rw [List.flatMap_cons, encode_append, List.append_assoc]
    exact loops_skipTextStep_written (written_escaped c) ih

end QueryGate.Json
