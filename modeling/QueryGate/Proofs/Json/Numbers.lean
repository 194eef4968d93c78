import QueryGate.Json.Skip
import QueryGate.Json.Writer
import QueryGate.Proofs.Json.Texts

/-!
# Reading back numbers

Natural numbers are written in decimal digits without leading zeros. They are read back exactly as long
as they fit 64 bits, and passed over whatever their size.
-/

namespace QueryGate.Json

open Reader
open Text.Utf8 (encode)

/-- What follows a number does not go on with it. -/
structure EndsNumber (rest : Bytes) : Prop where
  no_digit : rest.head?.any isDigit = false
  no_point : rest.head? ≠ some (byte '.')
  no_exponent : rest.head?.any (fun b => b = byte 'e' || b = byte 'E') = false

/-! ### Digits -/

/-- The bytes of a run of digits. -/
def digitBytes (digits : List Char) : Bytes :=
  digits.map byte

theorem isDigit_byte {c : Char} (digit : c.isDigit = true) : c.toNat < 0x80 ∧ isDigit (byte c) = true ∧
    digitValue (byte c) = c.toNat - '0'.toNat := by
  obtain ⟨lower, upper⟩ : 48 ≤ c.toNat ∧ c.toNat ≤ 57 := by
    simpa [Char.isDigit, UInt32.le_iff_toNat_le] using digit
  have ascii : c.toNat < 0x80 := by omega
  refine ⟨ascii, ?_, ?_⟩
  · simp only [isDigit, Bool.and_eq_true, decide_eq_true_eq, UInt8.le_iff_toNat_le, byte_toNat ascii]
    exact ⟨lower, upper⟩
  · rw [digitValue, byte_toNat ascii]
    rfl

theorem encode_digits {digits : List Char} (each : ∀ c ∈ digits, c.isDigit = true) :
    encode digits = digitBytes digits := by
  induction digits with
  | nil => rfl
  | cons c cs ih =>
    obtain ⟨ascii, _, _⟩ := isDigit_byte (each c List.mem_cons_self)
    rw [encode_cons_ascii ascii, ih fun c member => each c (List.mem_cons_of_mem _ member)]
    rfl

theorem le_ofDigitChars (digits : List Char) (n : Nat) : n ≤ Nat.ofDigitChars 10 digits n := by
  induction digits generalizing n with
  | nil => exact Nat.le_refl _
  | cons c cs ih =>
    rw [Nat.ofDigitChars_cons]
    have := ih (10 * n + (c.toNat - '0'.toNat))
    omega

theorem head_toDigits {n : Nat} (positive : 0 < n) : ∃ c cs, Nat.toDigits 10 n = c :: cs ∧ c ≠ '0' := by
  induction n using Nat.strongRecOn with
  | ind n ih =>
    by_cases small : n < 10
    · have nonzero : ∀ d < 10, 0 < d → Nat.digitChar d ≠ '0' := by decide
      exact ⟨_, [], Nat.toDigits_of_lt_base small, nonzero n small positive⟩
    · obtain ⟨c, cs, same, nonzero⟩ := ih (n / 10) (by omega) (by omega)
      rw [Nat.toDigits_of_base_le (by decide) (Nat.le_of_not_lt small), same]
      exact ⟨c, _, rfl, nonzero⟩

variable {rest : Bytes}

theorem extend_digits {digits : List Char} (each : ∀ c ∈ digits, c.isDigit = true) {n : Nat}
    (fits : Nat.ofDigitChars 10 digits n < Nat.pow 2 64) (ends : rest.head?.any isDigit = false) :
    extend n (digitBytes digits ++ rest) = (Nat.ofDigitChars 10 digits n, digits.length, rest) := by
  induction digits generalizing n with
  | nil =>
    cases rest with
    | nil => rfl
    | cons b rest =>
      have noDigit : isDigit b = false := ends
      show extend n (b :: rest) = _
      rw [extend, noDigit, if_neg (by simp)]
      rfl
  | cons c cs ih =>
    obtain ⟨_, digit, value⟩ := isDigit_byte (each c List.mem_cons_self)
    rw [Nat.ofDigitChars_cons] at fits
    have bound := le_ofDigitChars cs (10 * n + (c.toNat - '0'.toNat))
    have next : n * 10 + digitValue (byte c) = 10 * n + (c.toNat - '0'.toNat) := by
      rw [value]
      omega
    show extend n (byte c :: (digitBytes cs ++ rest)) = _
    rw [extend, next, if_pos ⟨digit, Nat.lt_of_le_of_lt bound fits⟩,
      ih (fun c member => each c (List.mem_cons_of_mem _ member)) fits, Nat.ofDigitChars_cons]
    rfl

/-! ### Numbers -/

theorem reads_nextIsDigit (ends : EndsNumber rest) : Reads nextIsDigit rest false rest := by
  refine .bind reads_peek ?_
  rw [ends.no_digit]
  exact .pure _

theorem reads_nextIsExponent (ends : EndsNumber rest) : Reads nextIsExponent rest false rest := by
  refine .bind reads_peek ?_
  rw [ends.no_exponent]
  exact .pure _

theorem reads_afterInteger (ends : EndsNumber rest) (n : Nat) :
    Reads (afterInteger n false) rest (.integer n) rest :=
  .bind reads_peek (.ite_neg ends.no_point (.bind (reads_nextIsExponent ends)
    (.ite_neg Bool.false_ne_true (.ite_pos rfl (.pure _)))))

theorem toDigits_cases (n : Nat) :
    Nat.toDigits 10 n = ['0'] ∧ n = 0 ∨
    ∃ c cs, Nat.toDigits 10 n = c :: cs ∧ c ≠ '0' ∧ (∀ d ∈ c :: cs, d.isDigit = true) ∧
      Nat.ofDigitChars 10 cs (c.toNat - '0'.toNat) = n := by
  rcases Nat.eq_zero_or_pos n with rfl | positive
  · exact .inl ⟨Nat.toDigits_zero 10, rfl⟩
  · obtain ⟨c, cs, same, nonzero⟩ := head_toDigits positive
    refine .inr ⟨c, cs, same, nonzero, ?_, ?_⟩
    · intro d member
      rw [← same] at member
      exact Nat.isDigit_of_mem_toDigits (by decide) (by decide) member
    · have whole : Nat.ofDigitChars 10 (Nat.toDigits 10 n) 0 = n := Nat.ofDigitChars_ten_toDigits
      rw [same, Nat.ofDigitChars_cons, Nat.mul_zero, Nat.zero_add] at whole
      exact whole

theorem text_natural (n : Nat) : (Output.integer n).text = Nat.toDigits 10 n :=
  Nat.toList_repr

theorem encode_toDigits (n : Nat) :
    ∃ b bytes, encode (Nat.toDigits 10 n) = b :: bytes ∧ isDigit b = true := by
  obtain ⟨c, cs, same⟩ := List.exists_cons_of_ne_nil (Nat.toDigits_ne_nil (n := n) (b := 10))
  have each : ∀ d ∈ c :: cs, d.isDigit = true := by
    intro d member
    rw [← same] at member
    exact Nat.isDigit_of_mem_toDigits (by decide) (by decide) member
  obtain ⟨ascii, digit, _⟩ := isDigit_byte (each c List.mem_cons_self)
  rw [same, encode_cons_ascii ascii]
  exact ⟨_, _, rfl, digit⟩

theorem ne_of_isDigit {b other : UInt8} (digit : isDigit b = true) (noDigit : isDigit other = false) :
    b ≠ other := by
  rintro rfl
  rw [digit] at noDigit
  cases noDigit

theorem isBlank_of_isDigit {b : UInt8} (digit : isDigit b = true) : isBlank b = false := by
  have blank (other : UInt8) (noDigit : isDigit other = false) : decide (b = other) = false :=
    decide_eq_false (ne_of_isDigit digit noDigit)
  rw [isBlank, blank _ (by decide), blank _ (by decide), blank _ (by decide), blank _ (by decide)]
  rfl

theorem reads_peekPast_toDigits (n : Nat) (rest : Bytes) : ∃ b, isDigit b = true ∧
    Reads peekPast (encode (Nat.toDigits 10 n) ++ rest) (some b) (encode (Nat.toDigits 10 n) ++ rest) := by
  obtain ⟨b, bytes, same, digit⟩ := encode_toDigits n
  rw [same]
  exact ⟨b, digit, reads_peekPast (isBlank_of_isDigit digit)⟩

theorem reads_number (ends : EndsNumber rest) {n : Nat} (fits : n < Nat.pow 2 64) :
    Reads (number false) (encode (Nat.toDigits 10 n) ++ rest) (.integer n) rest := by
  rcases toDigits_cases n with ⟨same, rfl⟩ | ⟨c, cs, same, nonzero, each, value⟩
  · rw [same, encode_cons_ascii (by decide)]
    refine .bind (reads_next _) (.ite_pos rfl ?_)
    exact .bind (reads_nextIsDigit ends) (.ite_neg Bool.false_ne_true (reads_afterInteger ends 0))
  · obtain ⟨ascii, digit, start⟩ := isDigit_byte (each c List.mem_cons_self)
    have others : ∀ d ∈ cs, d.isDigit = true := fun d member => each d (List.mem_cons_of_mem _ member)
    rw [same, encode_cons_ascii ascii, encode_digits others, List.cons_append]
    refine .bind (reads_next _) (.ite_neg (mt (byte_inj ascii (by decide)).mp nonzero) ?_)
    refine .ite_pos digit (.bind reads_get ?_)
    rw [start, extend_digits others (by rwa [value]) ends.no_digit, value]
    refine .bind (reads_set rest) (.bind (reads_nextIsDigit ends) ?_)
    exact .ite_neg Bool.false_ne_true (reads_afterInteger ends n)

theorem head?_toDigits_ne_minus (n : Nat) : (encode (Nat.toDigits 10 n) ++ rest).head? ≠ some (byte '-') := by
  obtain ⟨b, bytes, same, digit⟩ := encode_toDigits n
  rw [same]
  exact fun minus => ne_of_isDigit digit (by decide) (Option.some.inj minus)

theorem reads_signedNumber (ends : EndsNumber rest) {n : Nat} (fits : n < Nat.pow 2 64) :
    Reads signedNumber (encode (Nat.toDigits 10 n) ++ rest) (.integer n) rest :=
  .bind reads_peek (.ite_neg (head?_toDigits_ne_minus n) (reads_number ends fits))

/-! ### Passing over numbers -/

theorem takeWhile_digits {digits : List Char} (each : ∀ c ∈ digits, c.isDigit = true)
    (ends : rest.head?.any isDigit = false) :
    (digitBytes digits ++ rest).takeWhile isDigit = digitBytes digits := by
  have all : ∀ b ∈ digitBytes digits, isDigit b = true := by
    intro b member
    obtain ⟨c, listed, rfl⟩ := List.mem_map.mp member
    exact (isDigit_byte (each c listed)).2.1
  rw [List.takeWhile_append_of_pos all]
  cases rest with
  | nil => simp
  | cons b rest =>
    have noDigit : isDigit b = false := ends
    simp [noDigit]

theorem reads_skipSomeDigits {digits : List Char} (given : digits ≠ []) (each : ∀ c ∈ digits, c.isDigit = true)
    (ends : rest.head?.any isDigit = false) :
    Reads skipSomeDigits (digitBytes digits ++ rest) () rest := by
  have skips : Reads skipDigits (digitBytes digits ++ rest) (digitBytes digits).length rest := by
    refine .bind reads_get (.bind (reads_modify _) ?_)
    rw [takeWhile_digits each ends, List.drop_left]
    exact .pure _
  refine .bind skips (.ite_neg ?_ (.pure _))
  rw [digitBytes, List.length_map]
  exact fun none => given (List.length_eq_zero_iff.mp none)

theorem reads_skipNumber (ends : EndsNumber rest) (n : Nat) :
    Reads skipNumber (encode (Nat.toDigits 10 n) ++ rest) () rest := by
  have fraction : Reads skipFraction rest () rest := .bind reads_peek (.ite_neg ends.no_point (.pure _))
  have exponent : Reads skipExponent rest () rest :=
    .bind (reads_nextIsExponent ends) (.ite_neg Bool.false_ne_true (.pure _))
  refine .bind reads_peek (.ite_neg (head?_toDigits_ne_minus n) (.bind reads_peek ?_))
  rcases toDigits_cases n with ⟨same, rfl⟩ | ⟨c, cs, same, nonzero, each, value⟩
  · rw [same, encode_cons_ascii (by decide)]
    refine .ite_pos rfl (.bind (reads_drop _) (.bind (reads_nextIsDigit ends) ?_))
    exact .ite_neg Bool.false_ne_true (.bind fraction exponent)
  · obtain ⟨ascii, digit, start⟩ := isDigit_byte (each c List.mem_cons_self)
    rw [same, encode_digits each]
    refine .ite_neg ?_ (.bind (reads_skipSomeDigits (List.cons_ne_nil _ _) each ends.no_digit) ?_)
    · exact fun zero => mt (byte_inj ascii (by decide)).mp nonzero (Option.some.inj zero)
    · exact .bind fraction exponent

end QueryGate.Json
