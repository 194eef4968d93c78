import Mathlib.Data.Option.Basic
import QueryGate.Encoding.Base64

/-! Every byte string is read back from its digits, also when its last group is shorter, and from no
other text. No digit of the alphabet for URLs is a point. -/

namespace QueryGate.Encoding.Base64

/-- An alphabet of which every digit stands for its own number. -/
def Alphabet.IsExact (alphabet : Alphabet) : Prop :=
  ∀ n < 64, alphabet.value? (alphabet.digit n) = some n

theorem Alphabet.url_isExact : Alphabet.url.IsExact := by
  unfold IsExact
  decide

theorem Alphabet.url_digit_ne_point : ∀ n < 64, Alphabet.url.digit n ≠ '.' := by
  decide

variable {alphabet : Alphabet}

theorem decode?_encode (exact_ : alphabet.IsExact) (bytes : Bytes) :
    decode? alphabet (encode alphabet bytes) = some bytes := by
  have same (a : UInt8) {n : Nat} (value : n = a.toNat) : UInt8.ofNat n = a := by
    rw [value, UInt8.ofNat_toNat]
  fun_induction encode alphabet bytes with
  | case1 => rfl
  | case2 a =>
    have := a.toNat_lt
    rw [decode?, exact_ _ (by omega), exact_ _ (by omega)]
    have whole : UInt8.ofNat (a.toNat / 4 * 4 + a.toNat % 4 * 16 / 16) = a := same a (by omega)
    -- the reader refuses a last digit whose spare bits are not zero
    have spare : (guard (a.toNat % 4 * 16 % 16 = 0) : Option Unit) = some () :=
      (Option.guard_eq_some' ()).mpr (by omega)
    rw [Option.bind_eq_bind, Option.bind_some, Option.bind_eq_bind, Option.bind_some, spare, whole]
    rfl
  | case3 a b =>
    have := a.toNat_lt
    have := b.toNat_lt
    rw [decode?, exact_ _ (by omega), exact_ _ (by omega), exact_ _ (by omega)]
    have first : UInt8.ofNat (a.toNat / 4 * 4 + (a.toNat % 4 * 16 + b.toNat / 16) / 16) = a :=
      same a (by omega)
    have second : UInt8.ofNat ((a.toNat % 4 * 16 + b.toNat / 16) % 16 * 16 + b.toNat % 16 * 4 / 4) = b :=
      same b (by omega)
    have spare : (guard (b.toNat % 16 * 4 % 4 = 0) : Option Unit) = some () :=
      (Option.guard_eq_some' ()).mpr (by omega)
    rw [Option.bind_eq_bind, Option.bind_some, Option.bind_eq_bind, Option.bind_some, Option.bind_some, spare,
      first, second]
    rfl
  | case4 a b c rest ih =>
    have := a.toNat_lt
    have := b.toNat_lt
    have := c.toNat_lt
    rw [decode?, exact_ _ (by omega), exact_ _ (by omega), exact_ _ (by omega), exact_ _ (by omega), ih]
    have first : UInt8.ofNat (a.toNat / 4 * 4 + (a.toNat % 4 * 16 + b.toNat / 16) / 16) = a :=
      same a (by omega)
    have second : UInt8.ofNat ((a.toNat % 4 * 16 + b.toNat / 16) % 16 * 16 +
        (b.toNat % 16 * 4 + c.toNat / 64) / 4) = b :=
      same b (by omega)
    have third : UInt8.ofNat ((b.toNat % 16 * 4 + c.toNat / 64) % 4 * 64 + c.toNat % 64) = c :=
      same c (by omega)
    simp only [Option.bind_eq_bind, Option.bind_some, first, second, third]
    rfl

theorem mem_encode {bytes : Bytes} {d : Char} (member : d ∈ encode alphabet bytes) :
    ∃ n < 64, d = alphabet.digit n := by
  fun_induction encode alphabet bytes with
  | case1 => cases member
  | case2 a =>
    have := a.toNat_lt
    rcases List.mem_cons.mp member with rfl | member
    · exact ⟨_, by omega, rfl⟩
    · rw [List.mem_singleton.mp member]
      exact ⟨_, by omega, rfl⟩
  | case3 a b =>
    have := a.toNat_lt
    have := b.toNat_lt
    simp only [List.mem_cons, List.not_mem_nil, or_false] at member
    rcases member with rfl | rfl | rfl
    all_goals exact ⟨_, by omega, rfl⟩
  | case4 a b c rest ih =>
    have := a.toNat_lt
    have := b.toNat_lt
    have := c.toNat_lt
    simp only [List.mem_cons] at member
    rcases member with rfl | rfl | rfl | rfl | member
    · exact ⟨_, by omega, rfl⟩
    · exact ⟨_, by omega, rfl⟩
    · exact ⟨_, by omega, rfl⟩
    · exact ⟨_, by omega, rfl⟩
    · exact ih member

theorem point_not_mem_encode (bytes : Bytes) : '.' ∉ encode .url bytes := by
  intro member
  obtain ⟨n, small, same⟩ := mem_encode member
  exact Alphabet.url_digit_ne_point n small same.symm

/-! ### One text for each byte string -/

theorem Alphabet.digit_of_value? {c : Char} {n : Nat} (value : alphabet.value? c = some n) :
    n < 64 ∧ alphabet.digit n = c := by
  have same {first offset : Nat} (sum : first + offset = c.toNat) : Char.ofNat (first + offset) = c := by
    rw [sum, Char.ofNat_toNat]
  unfold value? at value
  split at value
  case isTrue range =>
    obtain ⟨lower, upper⟩ : 65 ≤ c.toNat ∧ c.toNat ≤ 90 := range
    obtain rfl := Option.some.inj value
    show c.toNat - 65 < 64 ∧ _
    rw [digit, if_pos (by show c.toNat - 65 < 26; omega)]
    exact ⟨by omega, same (by show 65 + (c.toNat - 65) = _; omega)⟩
  split at value
  case isTrue range =>
    obtain ⟨lower, upper⟩ : 97 ≤ c.toNat ∧ c.toNat ≤ 122 := range
    obtain rfl := Option.some.inj value
    show c.toNat - 97 + 26 < 64 ∧ _
    rw [digit, if_neg (by omega), if_pos (by show c.toNat - 97 + 26 < 52; omega)]
    exact ⟨by omega, same (by show 97 + (c.toNat - 97 + 26 - 26) = _; omega)⟩
  split at value
  case isTrue range =>
    obtain ⟨lower, upper⟩ : 48 ≤ c.toNat ∧ c.toNat ≤ 57 := range
    obtain rfl := Option.some.inj value
    show c.toNat - 48 + 52 < 64 ∧ _
    rw [digit, if_neg (by omega), if_neg (by omega), if_pos (by show c.toNat - 48 + 52 < 62; omega)]
    exact ⟨by omega, same (by show 48 + (c.toNat - 48 + 52 - 52) = _; omega)⟩
  split at value
  case isTrue found =>
    obtain rfl := Option.some.inj value
    exact ⟨by decide, found.symm⟩
  split at value
  case isTrue found =>
    obtain rfl := Option.some.inj value
    exact ⟨by decide, found.symm⟩
  case isFalse => cases value

theorem Alphabet.of_value?_bind {α : Type} {c : Char} {f : Nat → Option α} {a : α}
    (read : (alphabet.value? c >>= f) = some a) : ∃ n < 64, c = alphabet.digit n ∧ f n = some a := by
  obtain ⟨n, value, read⟩ := Option.bind_eq_some_iff.mp read
  obtain ⟨small, same⟩ := digit_of_value? value
  exact ⟨n, small, same.symm, read⟩

/-- Bytes are read from their own digits only: spare bits that are not zero, padding and digits of other alphabets are
refused. -/
theorem eq_encode_of_decode? {text : List Char} {bytes : Bytes} (read : decode? alphabet text = some bytes) :
    text = encode alphabet bytes := by
  have byte {n : Nat} (small : n < 256) : (UInt8.ofNat n).toNat = n := UInt8.toNat_ofNat_of_lt' small
  fun_induction decode? alphabet text generalizing bytes with
  | case1 =>
    cases read
    rfl
  | case2 => cases read
  | case3 =>
    obtain ⟨w, hw, isW, read⟩ := Alphabet.of_value?_bind read
    obtain ⟨x, hx, isX, read⟩ := Alphabet.of_value?_bind read
    obtain ⟨_, spare, read⟩ := Option.bind_eq_some_iff.mp read
    obtain rfl := Option.some.inj read
    have clear : x % 16 = 0 := (Option.guard_eq_some' ()).mp spare
    have first : (w * 4 + x / 16) / 4 = w := by omega
    have second : (w * 4 + x / 16) % 4 * 16 = x := by omega
    rw [encode, byte (by omega), first, second, isW, isX]
  | case4 =>
    obtain ⟨w, hw, isW, read⟩ := Alphabet.of_value?_bind read
    obtain ⟨x, hx, isX, read⟩ := Alphabet.of_value?_bind read
    obtain ⟨y, hy, isY, read⟩ := Alphabet.of_value?_bind read
    obtain ⟨_, spare, read⟩ := Option.bind_eq_some_iff.mp read
    obtain rfl := Option.some.inj read
    have clear : y % 4 = 0 := (Option.guard_eq_some' ()).mp spare
    have first : (w * 4 + x / 16) / 4 = w := by omega
    have second : (w * 4 + x / 16) % 4 * 16 + (x % 16 * 16 + y / 4) / 16 = x := by omega
    have third : (x % 16 * 16 + y / 4) % 16 * 4 = y := by omega
    rw [encode, byte (by omega), byte (by omega), first, second, third, isW, isX, isY]
  | case5 _ _ _ _ _ ih =>
    obtain ⟨w, hw, isW, read⟩ := Alphabet.of_value?_bind read
    obtain ⟨x, hx, isX, read⟩ := Alphabet.of_value?_bind read
    obtain ⟨y, hy, isY, read⟩ := Alphabet.of_value?_bind read
    obtain ⟨z, hz, isZ, read⟩ := Alphabet.of_value?_bind read
    obtain ⟨others, behind, read⟩ := Option.bind_eq_some_iff.mp read
    obtain rfl := Option.some.inj read
    have first : (w * 4 + x / 16) / 4 = w := by omega
    have second : (w * 4 + x / 16) % 4 * 16 + (x % 16 * 16 + y / 4) / 16 = x := by omega
    have third : (x % 16 * 16 + y / 4) % 16 * 4 + (y % 4 * 64 + z) / 64 = y := by omega
    have fourth : (y % 4 * 64 + z) % 64 = z := by omega
    rw [encode, byte (by omega), byte (by omega), byte (by omega), first, second, third, fourth, ← ih behind, isW, isX,
      isY, isZ]

end QueryGate.Encoding.Base64
