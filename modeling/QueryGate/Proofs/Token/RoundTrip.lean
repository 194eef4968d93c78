import QueryGate.Proofs.Encoding.Base64
import QueryGate.Proofs.Json.Values
import QueryGate.Proofs.Program.Trace
import QueryGate.Proofs.Token.Claims
import QueryGate.Token.Header
import QueryGate.Token.Signer

/-!
# Checking what was issued

An issued token comes apart into the parts that it was put together from, and each part is read back.
So it is accepted up to its expiry and gives back the identity, whatever characters that has.
-/

/-! ### Headers -/

namespace QueryGate.Token.Header

open Json
open Text.Utf8 (encode)

def members (name : String) : List (String × Value) :=
  [("typ", .string "JWT"), ("alg", .string name)]

/-- No member is checked by its value but the name of the algorithm. -/
theorem algorithm?_members (algorithm : Algorithm) :
    algorithm? (.object (members algorithm.name)) = .ok algorithm := by
  show ((Algorithm.ofName? algorithm.name).elim (throw "unknown variant") pure : Except String Algorithm) = _
  rw [Algorithm.ofName?_name]
  rfl

theorem parse_text (algorithm : Algorithm) : parse (encode (text algorithm)) = .ok algorithm := by
  have whole := parse_stringMembers [("typ", "JWT"), ("alg", algorithm.name)]
  have same : text algorithm = objectText (stringMembers [("typ", "JWT"), ("alg", algorithm.name)]) := rfl
  rw [parse, same, whole]
  exact algorithm?_members algorithm

end QueryGate.Token.Header

namespace QueryGate.Token

open Encoding
open Text.Utf8 (encode)

namespace Algorithm

/-- Whatever is signed with the signing key, under a salt of the right size, is accepted under the
verifying key. -/
def KeysAgree (algorithm : Algorithm) (keys : Keys) : Prop :=
  ∀ salt message signature, salt.length = algorithm.saltSize →
    algorithm.sign? keys.signing salt message = some signature →
    ∃ verifier, algorithm.verifier keys.verifying = .ok verifier ∧
      verifier.accepts message signature = true

theorem keysAgree_hmac (hash : Crypto.Hash) (secret : Bytes) : (hmac hash).KeysAgree ⟨secret, secret⟩ := by
  intro salt message signature _ signed
  obtain rfl := Option.some.inj signed
  exact ⟨_, rfl, beq_self_eq_true _⟩

end Algorithm

namespace Signer

/-! ### Parts of a token -/

theorem splitAtLastPoint?_append (before : List Char) {after : List Char} (last : '.' ∉ after) :
    splitAtLastPoint? (before ++ '.' :: after) = some (before, after) := by
  have reversed : (before ++ '.' :: after).reverse = after.reverse ++ '.' :: before.reverse := by
    rw [List.reverse_append, List.reverse_cons, List.append_assoc]
    rfl
  have each : ∀ c ∈ after.reverse, decide (c ≠ '.') = true := by
    intro c member
    refine decide_eq_true fun same => last ?_
    rw [← same]
    exact List.mem_reverse.mp member
  have taken : (after.reverse ++ '.' :: before.reverse).takeWhile (· ≠ '.') = after.reverse := by
    rw [List.takeWhile_append_of_pos each]
    show after.reverse ++ [] = _
    exact List.append_nil _
  rw [splitAtLastPoint?, reversed, taken, List.drop_left]
  simp only [List.reverse_reverse]

theorem decodeSegment_segment (bytes : Bytes) : decodeSegment (segment bytes) = .ok bytes := by
  rw [decodeSegment, segment, Base64.decode?_encode Base64.Alphabet.url_isExact]
  rfl

def joined (header payload signature : Bytes) : List Char :=
  (segment header ++ '.' :: segment payload) ++ '.' :: segment signature

theorem ofText?_joined (header payload signature : Bytes) :
    Parts.ofText? (joined header payload signature) =
      some ⟨segment header, segment payload, segment signature⟩ := by
  have outer : splitAtLastPoint? (joined header payload signature) =
      some (segment header ++ '.' :: segment payload, segment signature) :=
    splitAtLastPoint?_append _ (Base64.point_not_mem_encode signature)
  have inner : splitAtLastPoint? (segment header ++ '.' :: segment payload) =
      some (segment header, segment payload) :=
    splitAtLastPoint?_append _ (Base64.point_not_mem_encode payload)
  simp only [Parts.ofText?, outer, inner, Option.bind_eq_bind, Option.bind_some]
  rfl

/-! ### Issuing and checking -/

variable {signer : Signer} {salt : Bytes} {issuedAt now : Int} {identity : Identity} {token : String}

/-- What is signed for an identity. -/
def messageFor (signer : Signer) (issuedAt : Int) (identity : Identity) : Bytes :=
  encode (signedPart signer.algorithm (signer.claims issuedAt identity))

theorem issue_eq (dated : issuedAt + secondsPerMinute * signer.ttlMinutes ≤ lastSecond) :
    signer.issue salt issuedAt identity =
      match signer.algorithm.sign? signer.keys.signing salt (signer.messageFor issuedAt identity) with
      | none => .error (.fault (.internal "Unable to sign the token: invalid key"))
      | some signature => .ok (String.ofList (joined (encode (Header.text signer.algorithm))
          (encode (signer.claims issuedAt identity).text) signature)) := by
  have notLater : ¬ lastSecond < (signer.claims issuedAt identity).expiry := Int.not_lt.mpr dated
  rw [issue]
  exact if_neg notLater

/-- The limits of a token that says when it expires and names no audience. -/
theorem checkLimits_eq (expiry : Nat) :
    checkLimits now { expiry := some expiry, hasAudience := false } =
      if now ≤ expiry then .ok () else .error .expired := by
  by_cases inTime : now ≤ expiry
  · have notLater : ¬ (expiry : Int) < now := Int.not_lt.mpr inTime
    rw [if_pos inTime]
    show (if (expiry : Int) < now then _ else _) = _
    rw [if_neg notLater]
    rfl
  · rw [if_neg inTime]
    exact if_pos (Int.not_le.mp inTime)

theorem verifyClaims_joined (identity : Identity) {seconds expiry : Nat} (issued : seconds < Nat.pow 2 63)
    (expires : expiry < Nat.pow 2 63) {signature : Bytes} {verifier : Algorithm.Verifier}
    (ready : signer.algorithm.verifier signer.keys.verifying = .ok verifier)
    (accepted : verifier.accepts (encode (signedPart signer.algorithm ⟨identity, seconds, expiry⟩)) signature = true) :
    signer.verifyClaims now (String.ofList (joined (encode (Header.text signer.algorithm))
        (encode (Claims.text ⟨identity, seconds, expiry⟩)) signature)) =
      if now ≤ expiry then .ok ⟨identity, seconds, expiry⟩ else .error .expired := by
  have first := Claims.parse_text identity issued expires
  have second : Claims.Limits.parse (encode (Claims.text ⟨identity, seconds, expiry⟩)) = _ :=
    Claims.parse_text_limits identity expires
  rw [verifyClaims, String.toList_ofList, ofText?_joined]
  simp only [Option.elim_some, Result.ok_bind, decodeSegment_segment, Header.parse_text, ready, first, second,
    checkLimits_eq, readJson, ne_eq, not_true_eq_false, if_false]
  refine (if_pos accepted).trans ?_
  by_cases inTime : now ≤ expiry
  · rw [if_pos inTime, if_pos inTime]
    rfl
  · rw [if_neg inTime, if_neg inTime]
    rfl

/-- A token is accepted up to the second of its expiry and gives back the identity. -/
theorem verify_of_issue (agree : signer.algorithm.KeysAgree signer.keys) (positive : 0 ≤ signer.ttlMinutes)
    (salted : salt.length = signer.algorithm.saltSize) (since1970 : 0 ≤ issuedAt)
    (dated : issuedAt + secondsPerMinute * signer.ttlMinutes ≤ lastSecond)
    (issued : signer.issue salt issuedAt identity = .ok token) :
    signer.verify now token =
      if now ≤ issuedAt + secondsPerMinute * signer.ttlMinutes then .ok identity
      else .error Rejection.expired.fault := by
  have later : 0 ≤ secondsPerMinute * signer.ttlMinutes := Int.mul_nonneg (by decide) positive
  have bound : lastSecond < (Nat.pow 2 63 : Nat) := by decide
  -- only times from 1970 on are read back: they are written without a sign
  obtain ⟨seconds, rfl⟩ := Int.eq_ofNat_of_zero_le since1970
  obtain ⟨expiry, expires⟩ := Int.eq_ofNat_of_zero_le (Int.add_nonneg since1970 later)
  have claimed : signer.claims seconds identity = ⟨identity, seconds, expiry⟩ := by
    rw [claims, expires]
  rw [issue_eq dated] at issued
  cases signed : signer.algorithm.sign? signer.keys.signing salt (signer.messageFor seconds identity) with
  | none =>
    rw [signed] at issued
    cases issued
  | some signature =>
    obtain ⟨verifier, ready, accepted⟩ := agree salt _ signature salted signed
    rw [signed] at issued
    obtain rfl := Except.ok.inj issued
    rw [messageFor, claimed] at accepted
    rw [verify, claimed, verifyClaims_joined identity (by omega) (by omega) ready accepted, expires]
    by_cases inTime : now ≤ expiry
    · rw [if_pos inTime, if_pos inTime]
    · rw [if_neg inTime, if_neg inTime]

/-! ### Signers that were created -/

variable {method : String} {signingKey verifyingKey : Bytes} {ttlMinutes : Int}

theorem create_eq_ok (created : create method signingKey verifyingKey ttlMinutes = .ok signer) :
    Algorithm.ofName? method = some signer.algorithm ∧ 0 < ttlMinutes ∧ signer.ttlMinutes = ttlMinutes ∧
      loadKeys? signer.algorithm signingKey verifyingKey = some signer.keys := by
  rw [create] at created
  split at created
  case h_1 => cases created
  case h_2 algorithm known =>
    split at created
    case isTrue => cases created
    case isFalse positive =>
      split at created
      case h_1 => cases created
      case h_2 keys loaded =>
        split at created
        case isTrue => cases created
        case isFalse =>
          obtain rfl := Except.ok.inj created
          exact ⟨known, Int.not_le.mp positive, rfl, loaded⟩

theorem keysAgree_of_shared (created : create method signingKey verifyingKey ttlMinutes = .ok signer)
    (shared : signer.algorithm.isShared = true) (same : signingKey = verifyingKey) :
    signer.algorithm.KeysAgree signer.keys := by
  obtain ⟨_, _, _, loaded⟩ := create_eq_ok created
  cases named : signer.algorithm with
  | hmac hash =>
    rw [named] at loaded
    rw [← Option.some.inj loaded, same]
    exact Algorithm.keysAgree_hmac hash verifyingKey
  | rsa | rsaSalted | ecdsa | edDsa =>
    rw [named] at shared
    cases shared

theorem issue_ok_iff (dated : issuedAt + secondsPerMinute * signer.ttlMinutes ≤ lastSecond) :
    (∃ token, signer.issue salt issuedAt identity = .ok token) ↔
      (signer.algorithm.sign? signer.keys.signing salt (signer.messageFor issuedAt identity)).isSome = true := by
  rw [issue_eq dated]
  cases signer.algorithm.sign? signer.keys.signing salt (signer.messageFor issuedAt identity) with
  | none =>
    constructor
    · rintro ⟨token, same⟩
      cases same
    · intro signs
      cases signs
  | some signature => exact iff_of_true ⟨_, rfl⟩ rfl

theorem issue_ne_crash (dated : issuedAt + secondsPerMinute * signer.ttlMinutes ≤ lastSecond) :
    signer.issue salt issuedAt identity ≠ .error .crash := by
  rw [issue_eq dated]
  cases signer.algorithm.sign? signer.keys.signing salt (signer.messageFor issuedAt identity) with
  | none =>
    intro same
    cases same
  | some signature =>
    intro same
    cases same

/-- Checking undoes issuing until the token expires. A signer whose two keys belong together issues a token
whenever its own key signs, which a shared secret always does. From then on and up to the last second, the
token gives back exactly the identity that it was issued for; after that second it is rejected. -/
theorem verify_undoes_issue (created : create method signingKey verifyingKey ttlMinutes = .ok signer)
    (agree : if signer.algorithm.isShared then signingKey = verifyingKey
      else signer.algorithm.KeysAgree signer.keys)
    (identity : Identity) (salted : salt.length = signer.algorithm.saltSize) (since1970 : 0 ≤ issuedAt)
    (dated : issuedAt + secondsPerMinute * ttlMinutes ≤ lastSecond) :
    ((∃ token, signer.issue salt issuedAt identity = .ok token) ↔
      (signer.algorithm.sign? signer.keys.signing salt (signer.messageFor issuedAt identity)).isSome = true) ∧
    (signer.algorithm.isShared = true → ∃ token, signer.issue salt issuedAt identity = .ok token) ∧
    signer.issue salt issuedAt identity ≠ .error .crash ∧
    ∀ token, signer.issue salt issuedAt identity = .ok token → ∀ now,
      (now ≤ issuedAt + secondsPerMinute * ttlMinutes → signer.verify now token = .ok identity) ∧
      (issuedAt + secondsPerMinute * ttlMinutes < now →
        signer.verify now token = .error (.invalidCredential "ExpiredSignature")) := by
  obtain ⟨_, positive, lasting, _⟩ := create_eq_ok created
  have belong : signer.algorithm.KeysAgree signer.keys := by
    by_cases shared : signer.algorithm.isShared = true
    · rw [if_pos shared] at agree
      exact keysAgree_of_shared created shared agree
    · rwa [if_neg shared] at agree
  rw [← lasting] at positive dated ⊢
  refine ⟨issue_ok_iff dated, ?_, issue_ne_crash dated, ?_⟩
  · intro shared
    refine (issue_ok_iff dated).mpr ?_
    cases named : signer.algorithm with
    | hmac hash => rfl
    | rsa | rsaSalted | ecdsa | edDsa =>
      rw [named] at shared
      cases shared
  · intro token issued now
    rw [verify_of_issue belong (Int.le_of_lt positive) salted since1970 dated issued]
    exact ⟨fun inTime => if_pos inTime, fun late => if_neg (Int.not_le.mpr late)⟩

/-- A shared secret, an hour, and a name with a quote, a backslash and a control character in it. -/
theorem verify_undoes_issue_quoted_name :
    ∃ signer identity token, create "HS256" (utf8 "secret") (utf8 "secret") 60 = .ok signer ∧
      identity.name = "\"\\\n\x01" ∧ signer.issue [] 1000 identity = .ok token ∧
      signer.verify 4600 token = .ok identity ∧
      signer.verify 4601 token = .error (.invalidCredential "ExpiredSignature") := by
  let signer : Signer := ⟨.hmac .sha256, ⟨utf8 "secret", utf8 "secret"⟩, 60⟩
  let identity : Identity := { name := "\"\\\n\x01", groups := ["", "Gruppe Ä"] }
  have created : create "HS256" (utf8 "secret") (utf8 "secret") 60 = .ok signer := rfl
  have noSalt : ([] : Bytes).length = signer.algorithm.saltSize := rfl
  have dated : 1000 + secondsPerMinute * 60 ≤ lastSecond := by decide
  obtain ⟨_, shared, _, checks⟩ := verify_undoes_issue created rfl identity noSalt (by decide) dated
  obtain ⟨token, issued⟩ := shared rfl
  have expiry : 1000 + secondsPerMinute * 60 = 4600 := rfl
  refine ⟨signer, identity, token, created, rfl, issued, ?_, ?_⟩
  · exact (checks token issued 4600).1 (Int.le_of_eq expiry.symm)
  · exact (checks token issued 4601).2 (by decide)

end Signer
end QueryGate.Token
