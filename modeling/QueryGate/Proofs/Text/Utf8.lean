import QueryGate.Text.Utf8

/-! The machine that reads UTF-8 takes the bytes of a character in one go and is idle again after
them, so a text that was written is read as just that text. -/

namespace QueryGate.Text.Utf8

theorem toNat_byte {n : Nat} (byte : n < 0x100) : (UInt8.ofNat n).toNat = n :=
  UInt8.toNat_ofNat_of_lt' byte

/-- The bits of a continuation byte. -/
def low6 (v : Nat) : UInt8 :=
  UInt8.ofNat (v % 64 + 0x80)

variable {v low high due : Nat} {rest : Bytes}

theorem pieces_ascii (ascii : v < 0x80) :
    pieces .idle (UInt8.ofNat v :: rest) = some (Char.ofNat v) :: pieces .idle rest := by
  have begins : start v = (.idle, some (some (Char.ofNat v))) := if_pos ascii
  rw [pieces, toNat_byte (by omega), begins]

theorem pieces_lead {n : Nat} {next : State} (byte : n < 0x100) (leads : start n = (next, none)) :
    pieces .idle (UInt8.ofNat n :: rest) = pieces next rest := by
  rw [pieces, toNat_byte byte, leads]

/-- A continuation byte adds its six bits. -/
theorem pieces_within (lower : low ≤ v % 64 + 0x80) (upper : v % 64 + 0x80 ≤ high) :
    pieces (.within due low high (v / 64)) (low6 v :: rest) =
      if due = 1 then some (Char.ofNat v) :: pieces .idle rest
      else pieces (.within (due - 1) 0x80 0xBF v) rest := by
  have sum : v / 64 * 64 + (v % 64 + 0x80 - 0x80) = v := by omega
  rw [low6, pieces, toNat_byte (by omega), if_pos ⟨lower, upper⟩, sum]

theorem pieces_last (lower : low ≤ v % 64 + 0x80) (upper : v % 64 + 0x80 ≤ high) :
    pieces (.within 1 low high (v / 64)) (low6 v :: rest) = some (Char.ofNat v) :: pieces .idle rest := by
  rw [pieces_within lower upper, if_pos rfl]

theorem pieces_inner (lower : low ≤ v % 64 + 0x80) (upper : v % 64 + 0x80 ≤ high) (more : due ≠ 1) :
    pieces (.within due low high (v / 64)) (low6 v :: rest) = pieces (.within (due - 1) 0x80 0xBF v) rest := by
  rw [pieces_within lower upper, if_neg more]

theorem pieces_two (atLeast : 0x80 ≤ v) (atMost : v ≤ 0x7FF) :
    pieces .idle (UInt8.ofNat (v / 64 % 0x20 + 0xC0) :: low6 v :: rest) =
      some (Char.ofNat v) :: pieces .idle rest := by
  have leads : start (v / 64 % 0x20 + 0xC0) = (.within 1 0x80 0xBF (v / 64), none) := by
    grind [start]
  rw [pieces_lead (by omega) leads, pieces_last (by omega) (by omega)]

/-- Three bytes. The second one is bounded after the first bytes `E0` and `ED`, which would else begin
overlong forms and surrogates. -/
theorem pieces_three (atLeast : 0x800 ≤ v) (atMost : v ≤ 0xFFFF) (scalar : v < 0xD800 ∨ 0xDFFF < v) :
    pieces .idle (UInt8.ofNat (v / 4096 % 0x10 + 0xE0) :: low6 (v / 64) :: low6 v :: rest) =
      some (Char.ofNat v) :: pieces .idle rest := by
  have leads : ∃ low high, start (v / 4096 % 0x10 + 0xE0) = (.within 2 low high (v / 64 / 64), none) ∧
      low ≤ v / 64 % 64 + 0x80 ∧ v / 64 % 64 + 0x80 ≤ high := by
    rcases Nat.lt_trichotomy (v / 4096) 13 with below | surrogate | above
    · by_cases overlong : v / 4096 = 0
      · exact ⟨0xA0, 0xBF, by grind [start], by omega, by omega⟩
      · exact ⟨0x80, 0xBF, by grind [start], by omega, by omega⟩
    · exact ⟨0x80, 0x9F, by grind [start], by omega, by omega⟩
    · exact ⟨0x80, 0xBF, by grind [start], by omega, by omega⟩
  obtain ⟨low, high, leads, lower, upper⟩ := leads
  rw [pieces_lead (by omega) leads, pieces_inner lower upper (by decide), pieces_last (by omega) (by omega)]

theorem pieces_four (atLeast : 0x10000 ≤ v) (atMost : v < 0x110000) :
    pieces .idle (UInt8.ofNat (v / 262144 % 0x08 + 0xF0) :: low6 (v / 4096) :: low6 (v / 64) :: low6 v ::
      rest) = some (Char.ofNat v) :: pieces .idle rest := by
  have leads : ∃ low high, start (v / 262144 % 0x08 + 0xF0) = (.within 3 low high (v / 4096 / 64), none) ∧
      low ≤ v / 4096 % 64 + 0x80 ∧ v / 4096 % 64 + 0x80 ≤ high := by
    rcases Nat.eq_zero_or_pos (v / 262144) with overlong | positive
    · exact ⟨0x90, 0xBF, by grind [start], by omega, by omega⟩
    · by_cases last : v / 262144 = 4
      · exact ⟨0x80, 0x8F, by grind [start], by omega, by omega⟩
      · exact ⟨0x80, 0xBF, by grind [start], by omega, by omega⟩
  obtain ⟨low, high, leads, lower, upper⟩ := leads
  have upper3 : v / 4096 = v / 64 / 64 := by omega
  rw [pieces_lead (by omega) leads, pieces_inner lower upper (by decide), upper3,
    pieces_inner (by omega) (by omega) (by decide), pieces_last (by omega) (by omega)]

/-- The bytes of one character are one piece, and nothing is left open after them. -/
theorem pieces_encodeChar (c : Char) (rest : Bytes) :
    pieces .idle (String.utf8EncodeChar c ++ rest) = some c :: pieces .idle rest := by
  have scalar : c.val.toNat < 0xD800 ∨ 0xDFFF < c.val.toNat ∧ c.val.toNat < 0x110000 := c.valid
  have same : Char.ofNat c.val.toNat = c := Char.ofNat_toNat c
  -- the cases are those of the number of bytes
  unfold String.utf8EncodeChar
  generalize c.val.toNat = v at scalar same ⊢
  rw [← same]
  dsimp only
  split
  · exact pieces_ascii (by omega)
  · split
    · exact pieces_two (by omega) (by omega)
    · split
      · exact pieces_three (by omega) (by omega) (by omega)
      · exact pieces_four (by omega) (by omega)

/-- The bytes of a character past ASCII are all past ASCII. -/
theorem high_of_mem_utf8EncodeChar {c : Char} (high : 0x80 ≤ c.toNat) {b : UInt8}
    (member : b ∈ String.utf8EncodeChar c) : 0x80 ≤ b.toNat := by
  have inRange : c.toNat < 0x110000 := by
    rcases c.valid with below | ⟨_, below⟩
    · exact Nat.lt_trans below (by decide)
    · exact below
  have lead {n : Nat} (low : 0x80 ≤ n) (byte : n < 0x100) : 0x80 ≤ (UInt8.ofNat n).toNat := by
    rwa [toNat_byte byte]
  unfold String.utf8EncodeChar at member
  have same : c.val.toNat = c.toNat := rfl
  rw [same] at member
  generalize c.toNat = v at *
  dsimp only at member
  split at member
  · omega
  · split at member
    · simp only [List.mem_cons, List.not_mem_nil, or_false] at member
      rcases member with rfl | rfl
      all_goals exact lead (by omega) (by omega)
    · split at member
      · simp only [List.mem_cons, List.not_mem_nil, or_false] at member
        rcases member with rfl | rfl | rfl
        all_goals exact lead (by omega) (by omega)
      · simp only [List.mem_cons, List.not_mem_nil, or_false] at member
        rcases member with rfl | rfl | rfl | rfl
        all_goals exact lead (by omega) (by omega)

theorem encode_append (first second : List Char) : encode (first ++ second) = encode first ++ encode second :=
  List.flatMap_append

theorem encode_cons (c : Char) (cs : List Char) : encode (c :: cs) = String.utf8EncodeChar c ++ encode cs :=
  List.flatMap_cons

theorem pieces_encode (cs : List Char) (rest : Bytes) :
    pieces .idle (encode cs ++ rest) = cs.map some ++ pieces .idle rest := by
  induction cs with
  | nil => rfl
  | cons c cs ih => rw [encode_cons, List.append_assoc, pieces_encodeChar, ih, List.map_cons, List.cons_append]

theorem allChars_map_some (cs : List Char) : allChars (cs.map some) = some cs := by
  induction cs with
  | nil => rfl
  | cons c cs ih => rw [List.map_cons, allChars, ih, Option.map_some]

theorem pieces_whole (cs : List Char) : pieces .idle (encode cs) = cs.map some := by
  have whole := pieces_encode cs []
  rwa [List.append_nil, pieces, List.append_nil] at whole

theorem decode?_encode (cs : List Char) : decode? (encode cs) = some cs := by
  rw [decode?, pieces_whole, allChars_map_some]

theorem decodeLossy_encode (cs : List Char) : decodeLossy (encode cs) = cs := by
  rw [decodeLossy, pieces_whole, List.map_map]
  exact List.map_id cs

theorem encode_ascii {cs : List Char} (ascii : ∀ c ∈ cs, c.toNat < 0x80) :
    encode cs = cs.map fun c => UInt8.ofNat c.toNat := by
  induction cs with
  | nil => rfl
  | cons c cs ih =>
    obtain ⟨first, others⟩ := List.forall_mem_cons.mp ascii
    have one : String.utf8EncodeChar c = [UInt8.ofNat c.toNat] := if_pos (Nat.le_of_lt_succ first)
    rw [encode_cons, one, ih others, List.map_cons, List.singleton_append]

theorem pieces_of_ascii {bytes : Bytes} (ascii : ∀ b ∈ bytes, b.toNat < 0x80) :
    pieces .idle bytes = bytes.map fun b => some (Char.ofNat b.toNat) := by
  induction bytes with
  | nil => rfl
  | cons b bytes ih =>
    obtain ⟨first, others⟩ := List.forall_mem_cons.mp ascii
    have one := @pieces_ascii b.toNat bytes first
    rw [UInt8.ofNat_toNat] at one
    rw [one, ih others, List.map_cons]

end QueryGate.Text.Utf8

namespace QueryGate

theorem ofUtf8?_utf8 (s : String) : ofUtf8? (utf8 s) = some s := by
  rw [ofUtf8?, utf8, Text.Utf8.decode?_encode, Option.map_some, String.ofList_toList]

theorem ofUtf8Lossy_utf8 (s : String) : ofUtf8Lossy (utf8 s) = s := by
  rw [ofUtf8Lossy, utf8, Text.Utf8.decodeLossy_encode, String.ofList_toList]

theorem ofUtf8?_ascii {bytes : Bytes} (ascii : ∀ b ∈ bytes, b.toNat < 0x80) :
    ofUtf8? bytes = some (String.ofList (bytes.map fun b => Char.ofNat b.toNat)) := by
  have chars := Text.Utf8.allChars_map_some (bytes.map fun b => Char.ofNat b.toNat)
  rw [List.map_map] at chars
  rw [ofUtf8?, Text.Utf8.decode?, Text.Utf8.pieces_of_ascii ascii]
  exact congrArg (Option.map String.ofList) chars

end QueryGate
