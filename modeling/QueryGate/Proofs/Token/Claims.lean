import QueryGate.Token.Claims
import QueryGate.Proofs.Json.Values

/-! Both readings of the claims of an issued token succeed: the first gives back the claims, the
second the same expiry and no audience. -/

namespace QueryGate.Token.Claims

open Json Json.Reader
open Text.Utf8 (encode)

variable {σ α : Type} {rest bytes : Bytes}

theorem wholeObject_eq {member : σ → String → Reader σ} {start final : σ} {pairs : List (String × Output)}
    (takes : Takes member start pairs final) :
    wholeObject member start (encode (objectText pairs)) = .ok final := by
  have closes : Reads (do endObject; endOfText; return final) [byte '\x7d'] final [] :=
    .bind reads_endObject (.bind reads_endOfText (.pure _))
  have opens := encode_objectText pairs []
  rw [List.append_nil] at opens
  have whole : Reads (do
      unless (← peekPast) = some (byte '\x7b') do throw "expected an object"
      drop
      let state ← members member start
      endObject
      endOfText
      return state) (encode (objectText pairs)) final [] := by
    rw [opens]
    refine .bind (reads_peekPast (by decide)) (.ite_pos rfl (.bind (reads_drop _) ?_))
    exact .bind (reads_members takes) closes
  exact whole.runOn_eq

theorem reads_readString (s : String) : Reads readString (encode (quoted s) ++ rest) s rest := by
  rw [encode_quoted]
  refine .bind (reads_peekPast (by decide)) (.ite_pos rfl (.bind (reads_drop _) ?_))
  exact reads_text s

theorem reads_readBoolean (b : Bool) :
    Reads readBoolean (encode (Output.boolean b).text ++ rest) b rest := by
  cases b with
  | true =>
    refine .bind (reads_peekPast (b := byte 't') (by decide)) (.ite_pos rfl (.bind (reads_drop _) ?_))
    exact .bind (reads_restOfWord "rue") (.pure _)
  | false =>
    refine .bind (reads_peekPast (b := byte 'f') (by decide)) (.ite_neg (by decide) ?_)
    exact .ite_pos rfl (.bind (reads_drop _) (.bind (reads_restOfWord "alse") (.pure _)))

theorem reads_readStrings (strings : List String) :
    Reads readStrings (encode (Output.strings strings).text ++ rest) strings rest := by
  have each (taken : List String) (s : String) (rest : Bytes) :
      Reads (do return (← readString) :: taken) (encode (quoted s) ++ rest) (s :: taken) rest :=
    .bind (reads_readString s) (.pure _)
  have closes : Reads (do endArray; return strings.reverse.reverse) (byte ']' :: rest) strings rest := by
    refine .bind reads_endArray ?_
    rw [List.reverse_reverse]
    exact .pure _
  rw [encode_strings]
  refine .bind (reads_peekPast (by decide)) (.ite_pos rfl (.bind (reads_drop _) ?_))
  exact .bind (reads_items each strings) closes

theorem reads_readInteger (ends : EndsNumber rest) {n : Nat} (fits : n < Nat.pow 2 63) :
    Reads readInteger (encode (Output.integer n).text ++ rest) n rest := by
  rw [text_natural]
  obtain ⟨b, digit, seen⟩ := reads_peekPast_toDigits n rest
  have number := reads_signedNumber ends (n := n) (Nat.lt_trans fits (by decide))
  refine .bind seen (.ite_pos ?_ (.bind number (.ite_pos ?_ (.pure _))))
  · rw [Option.any_some, digit, Bool.or_true]
  · exact_mod_cast fits

theorem Draft.reads_fresh {reader : Reader α} {a : α} (reads : Reads reader bytes a rest) :
    Reads (fresh none reader) (byte ':' :: bytes) (some a) rest := by
  show Reads (do colon; return some (← reader)) (byte ':' :: bytes) (some a) rest
  exact .bind reads_colon (.bind reads (.pure _))

/-- The members that stand for the claims, with times from 1970 on. -/
def members (identity : Identity) (issuedAt expiry : Nat) : List (String × Output) :=
  [("email", .string identity.mail), ("name", .string identity.name),
    ("username", .string identity.username), ("surname", .string identity.surname),
    ("isAdmin", .boolean identity.isAdmin), ("groups", .strings identity.groups),
    ("iat", .integer issuedAt), ("exp", .integer expiry)]

theorem text_eq (identity : Identity) (issuedAt expiry : Nat) :
    text ⟨identity, issuedAt, expiry⟩ = objectText (members identity issuedAt expiry) := rfl

variable {issuedAt expiry : Nat}

theorem takes_claims (identity : Identity) (issued : issuedAt < Nat.pow 2 63) (expires : expiry < Nat.pow 2 63) :
    Takes Draft.member {} (members identity issuedAt expiry)
      { email := some identity.mail, name := some identity.name, username := some identity.username,
        surname := some identity.surname, isAdmin := some identity.isAdmin, groups := some identity.groups,
        issuedAt := some issuedAt, expiry := some expiry } := by
  -- each name is compared with the known ones in turn, so the later claims pass the earlier names
  refine .next (fun _ _ => .bind (Draft.reads_fresh (reads_readString identity.mail)) (.pure _)) ?_
  refine .next (fun _ _ => .bind (Draft.reads_fresh (reads_readString identity.name)) (.pure _)) ?_
  refine .next (fun _ _ => .bind (Draft.reads_fresh (reads_readString identity.username)) (.pure _)) ?_
  refine .next (fun _ _ => .bind (Draft.reads_fresh (reads_readString identity.surname)) (.pure _)) ?_
  refine .next (fun _ _ => .bind (Draft.reads_fresh (reads_readBoolean identity.isAdmin)) (.pure _)) ?_
  refine .next (fun _ _ => .bind (Draft.reads_fresh (reads_readStrings identity.groups)) (.pure _)) ?_
  refine .next (fun _ ends => .bind (Draft.reads_fresh (reads_readInteger ends issued)) (.pure _)) ?_
  refine .next (fun _ ends => .bind (Draft.reads_fresh (reads_readInteger ends expires)) (.pure _)) ?_
  exact .done _

theorem parse_text (identity : Identity) (issued : issuedAt < Nat.pow 2 63) (expires : expiry < Nat.pow 2 63) :
    parse (encode (text ⟨identity, issuedAt, expiry⟩)) = .ok ⟨identity, issuedAt, expiry⟩ := by
  have whole := wholeObject_eq (takes_claims identity issued expires)
  rw [text_eq, parse, whole]
  rfl

theorem Limits.reads_readTime (ends : EndsNumber rest) {n : Nat} (fits : n < Nat.pow 2 63) :
    Reads readTime (encode (Output.integer n).text ++ rest) n rest := by
  rw [text_natural]
  obtain ⟨b, digit, seen⟩ := reads_peekPast_toDigits n rest
  have number := reads_signedNumber ends (n := n) (Nat.lt_trans fits (by decide))
  refine .bind seen (.ite_pos (.inr digit) (.bind number (.ite_pos (Int.natCast_nonneg n) ?_)))
  rw [Int.toNat_natCast]
  exact .pure _

theorem takes_limits (identity : Identity) (expires : expiry < Nat.pow 2 63) :
    Takes Limits.Draft.member {} (members identity issuedAt expiry) { expiry := some (some expiry) } := by
  have other (draft : Limits.Draft) {text : List Char} (skipped : IsSkipped text) (rest : Bytes)
      (ends : EndsNumber rest) :
      Reads (do colon; skipValue; return draft) (byte ':' :: (encode text ++ rest)) draft rest :=
    .bind reads_colon (.bind (skipped rest ends) (.pure _))
  refine .next (other _ (isSkipped_string identity.mail)) ?_
  refine .next (other _ (isSkipped_string identity.name)) ?_
  refine .next (other _ (isSkipped_string identity.username)) ?_
  refine .next (other _ (isSkipped_string identity.surname)) ?_
  refine .next (other _ (isSkipped_boolean identity.isAdmin)) ?_
  refine .next (other _ (isSkipped_strings identity.groups)) ?_
  refine .next (other _ (isSkipped_natural issuedAt)) ?_
  refine .next (fun _ ends => .bind (Draft.reads_fresh (Limits.reads_readTime ends expires).attempt) (.pure _)) ?_
  exact .done _

/-- The second reading finds the same expiry, and nobody whom the token is meant for. -/
theorem parse_text_limits (identity : Identity) (expires : expiry < Nat.pow 2 63) :
    Limits.parse (encode (text ⟨identity, issuedAt, expiry⟩)) =
      .ok { expiry := some expiry, hasAudience := false } := by
  have whole : wholeObject Limits.Draft.member {} (encode (objectText (members identity issuedAt expiry))) = _ :=
    wholeObject_eq (takes_limits identity expires)
  rw [text_eq, Limits.parse, whole]
  rfl

end QueryGate.Token.Claims
