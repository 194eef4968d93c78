import QueryGate.Proofs.Token.SecondReading
import QueryGate.Proofs.Token.Transport

/-!
# What is accepted

A token that is accepted is genuine: each of its parts says what it must. Nothing but the expiry depends on the time.
-/

namespace QueryGate.Token

open Encoding Json
open Text.Utf8 (encode)

/-! ### Headers -/

namespace Header

/-- A header is an object of which one member names the algorithm. -/
def Names (bytes : Bytes) (name : String) : Prop :=
  ∃ members value, Json.parse bytes = .ok (.object members) ∧
    members.filter (·.1 == "alg") = [("alg", value)] ∧ value.name? = some name

theorem filter_of_lookup {α : Type} {name : String} {value : α} {members : List (String × α)}
    (single : members.countP (·.1 == name) ≤ 1) (found : members.lookup name = some value) :
    members.filter (·.1 == name) = [(name, value)] := by
  obtain ⟨before, after, rfl, _⟩ := List.lookup_eq_some_iff.mp found
  rw [List.countP_append, List.countP_cons_of_pos (by simp)] at single
  rw [List.filter_append, List.filter_cons_of_pos (by simp),
    List.filter_eq_nil_iff.mpr (List.countP_eq_zero.mp (by omega)),
    List.filter_eq_nil_iff.mpr (List.countP_eq_zero.mp (by omega))]
  rfl

theorem name_of_ofName? {name : String} {algorithm : Algorithm} (known : Algorithm.ofName? name = some algorithm) :
    algorithm.name = name := by
  unfold Algorithm.ofName? at known
  have same := List.find?_some known
  exact beq_iff_eq.mp same

theorem names_of_parse {bytes : Bytes} {algorithm : Algorithm} (parsed : parse bytes = .ok algorithm) :
    Names bytes algorithm.name := by
  obtain ⟨value, read, known⟩ := Result.bind_ok_iff.mp parsed
  cases value with
  | object members =>
    unfold algorithm? at known
    dsimp only at known
    split at known
    case isFalse => cases known
    case isTrue single =>
      split at known
      case isFalse => cases known
      case isTrue =>
        split at known
        case h_1 => cases known
        case h_2 name found =>
          obtain ⟨value, listed, named⟩ := Option.bind_eq_some_iff.mp found
          have once : members.countP (·.1 == "alg") ≤ 1 := by
            simpa using List.all_eq_true.mp single "alg" List.mem_cons_self
          cases offered : Algorithm.ofName? name with
          | none =>
            rw [offered] at known
            cases known
          | some other =>
            rw [offered] at known
            cases known
            rw [name_of_ofName? offered]
            exact ⟨members, value, read, filter_of_lookup once listed, named⟩
  | null | boolean | number | string | array => cases known

end Header

namespace Signer

variable {signer : Signer} {now : Int} {token : String} {parts : Parts} {claims : Claims}

/-! ### Parts -/

theorem of_splitAtLastPoint? {text before after : List Char} (split : splitAtLastPoint? text = some (before, after)) :
    text = before ++ '.' :: after ∧ '.' ∉ after := by
  have rejoined : text.reverse.takeWhile (· ≠ '.') ++ text.reverse.dropWhile (· ≠ '.') = text.reverse :=
    List.takeWhile_append_dropWhile
  have dropped : text.reverse.drop (text.reverse.takeWhile (· ≠ '.')).length = text.reverse.dropWhile (· ≠ '.') := by
    conv => lhs; arg 2; rw [← rejoined]
    exact List.drop_left
  unfold splitAtLastPoint? at split
  dsimp only at split
  rw [dropped] at split
  cases behind : text.reverse.dropWhile (· ≠ '.') with
  | nil =>
    rw [behind] at split
    cases split
  | cons point others =>
    rw [behind] at split rejoined
    cases split
    have isPoint : point = '.' := by
      have first : (text.reverse.dropWhile (· ≠ '.')).head? = some point := by rw [behind, List.head?_cons]
      simpa using head_dropWhile first
    constructor
    · have whole := congrArg List.reverse rejoined
      rw [List.reverse_reverse, List.reverse_append, List.reverse_cons, isPoint, List.append_assoc] at whole
      exact whole.symm
    · intro member
      have noPoint := List.mem_takeWhile_imp (List.mem_reverse.mp member)
      simp at noPoint

/-- The parts are the token, cut at its last two points. -/
structure Parts.Cut (parts : Parts) (token : String) : Prop where
  whole : token.toList = parts.header ++ '.' :: parts.payload ++ '.' :: parts.signature
  payload : '.' ∉ parts.payload
  signature : '.' ∉ parts.signature

theorem cut_of_ofText? (split : Parts.ofText? token.toList = some parts) : parts.Cut token := by
  obtain ⟨⟨signed, signature⟩, outer, split⟩ := Option.bind_eq_some_iff.mp split
  obtain ⟨⟨header, payload⟩, inner, split⟩ := Option.bind_eq_some_iff.mp split
  cases split
  obtain ⟨whole, noSecond⟩ := of_splitAtLastPoint? outer
  obtain ⟨rfl, noFirst⟩ := of_splitAtLastPoint? inner
  exact ⟨whole, noFirst, noSecond⟩

/-! ### All checks -/

theorem checkLimits_eq_ok {limits : Claims.Limits} : checkLimits now limits = .ok () ↔
    ∃ expiry : Nat, limits.expiry = some expiry ∧ now ≤ expiry ∧ limits.hasAudience = false := by
  unfold checkLimits
  cases limits.expiry with
  | none => simp
  | some expiry =>
    by_cases late : (expiry : Int) < now
    · simp [late]
    · cases limits.hasAudience <;> simp [late, Int.not_lt.mp late]

theorem decodeSegment_eq_ok {text : List Char} {bytes : Bytes} :
    decodeSegment text = .ok bytes ↔ Base64.decode? .url text = some bytes := by
  unfold decodeSegment
  cases Base64.decode? .url text <;> simp

theorem readJson_eq_ok {α : Type} {given : Except String α} {a : α} : readJson given = .ok a ↔ given = .ok a := by
  cases given <;> simp [readJson]

/-- What the parts of a token say to a signer that goes through them, with the claims that it takes and their limits. -/
structure Checks (signer : Signer) (parts : Parts) (claims : Claims) (limits : Claims.Limits) : Prop where
  header : ∃ bytes, Base64.decode? .url parts.header = some bytes ∧ Header.parse bytes = .ok signer.algorithm
  signature : ∃ verifier bytes, signer.algorithm.verifier signer.keys.verifying = .ok verifier ∧
    Base64.decode? .url parts.signature = some bytes ∧ verifier.accepts (encode parts.signed) bytes = true
  payload : ∃ bytes, Base64.decode? .url parts.payload = some bytes ∧ Claims.parse bytes = .ok claims ∧
    Claims.Limits.parse bytes = .ok limits

theorem verifyClaims_eq_ok : signer.verifyClaims now token = .ok claims ↔
    ∃ parts limits, Parts.ofText? token.toList = some parts ∧ signer.Checks parts claims limits ∧
      checkLimits now limits = .ok () := by
  constructor
  · intro verified
    obtain ⟨parts, split, verified⟩ := Result.bind_ok_iff.mp verified
    have cut : Parts.ofText? token.toList = some parts := by
      cases found : Parts.ofText? token.toList with
      | none =>
        rw [found] at split
        cases split
      | some other =>
        rw [found] at split
        cases split
        rfl
    obtain ⟨header, decoded, verified⟩ := Result.bind_ok_iff.mp verified
    obtain ⟨algorithm, named, verified⟩ := Result.bind_ok_iff.mp verified
    split at verified
    case isTrue => cases verified
    case isFalse same =>
    obtain rfl : algorithm = signer.algorithm := Classical.not_not.mp same
    obtain ⟨verifier, ready, verified⟩ := Result.bind_ok_iff.mp verified
    obtain ⟨signature, signed, verified⟩ := Result.bind_ok_iff.mp verified
    split at verified
    case isFalse => cases verified
    case isTrue accepts =>
    obtain ⟨payload, claimed, verified⟩ := Result.bind_ok_iff.mp verified
    obtain ⟨taken, parsed, verified⟩ := Result.bind_ok_iff.mp verified
    obtain ⟨limits, limited, verified⟩ := Result.bind_ok_iff.mp verified
    obtain ⟨_, inTime, verified⟩ := Result.bind_ok_iff.mp verified
    cases verified
    exact ⟨parts, limits, cut,
      { header := ⟨header, decodeSegment_eq_ok.mp decoded, readJson_eq_ok.mp named⟩
        signature := ⟨verifier, signature, ready, decodeSegment_eq_ok.mp signed, accepts⟩
        payload := ⟨payload, decodeSegment_eq_ok.mp claimed, readJson_eq_ok.mp parsed, readJson_eq_ok.mp limited⟩ },
      inTime⟩
  · rintro ⟨parts, limits, cut, checks, inTime⟩
    obtain ⟨header, decoded, named⟩ := checks.header
    obtain ⟨verifier, signature, ready, signed, accepts⟩ := checks.signature
    obtain ⟨payload, claimed, parsed, limited⟩ := checks.payload
    rw [← decodeSegment_eq_ok] at decoded signed claimed
    rw [← readJson_eq_ok] at named parsed limited
    rw [verifyClaims, cut]
    simp only [Option.elim_some, Result.ok_bind, decoded, named, ready, signed, claimed, parsed, limited, inTime, ne_eq,
      not_true_eq_false, if_false]
    exact if_pos accepts

theorem verify_eq_ok {identity : Identity} : signer.verify now token = .ok identity ↔
    ∃ claims, signer.verifyClaims now token = .ok claims ∧ claims.identity = identity := by
  unfold verify
  cases signer.verifyClaims now token with
  | ok claims => simp
  | error rejection => simp

/-- A token that was accepted would have been accepted before. -/
theorem verify_earlier {identity : Identity} {earlier : Int} (accepted : signer.verify now token = .ok identity)
    (before : earlier ≤ now) : signer.verify earlier token = .ok identity := by
  obtain ⟨claims, verified, same⟩ := verify_eq_ok.mp accepted
  obtain ⟨parts, limits, cut, checks, inTime⟩ := verifyClaims_eq_ok.mp verified
  obtain ⟨expiry, expires, notLater, free⟩ := checkLimits_eq_ok.mp inTime
  have inTime : checkLimits earlier limits = .ok () :=
    checkLimits_eq_ok.mpr ⟨expiry, expires, Int.le_trans before notLater, free⟩
  exact verify_eq_ok.mpr ⟨claims, verifyClaims_eq_ok.mpr ⟨parts, limits, cut, checks, inTime⟩, same⟩

/-! ### What the parts say -/

/-- The parts of a token say, for this signer, that it stands for this identity at this time. -/
structure Genuine (signer : Signer) (now : Int) (parts : Parts) (identity : Identity) : Prop where
  /-- The header names the algorithm of the signer. -/
  header : ∃ bytes, Base64.decode? .url parts.header = some bytes ∧ Header.Names bytes signer.algorithm.name
  /-- The signature is one of the header and the payload. -/
  signature : ∃ verifier bytes, signer.algorithm.verifier signer.keys.verifying = .ok verifier ∧
    Base64.decode? .url parts.signature = some bytes ∧ verifier.accepts (encode parts.signed) bytes = true
  /-- The payload says who it is, and has not expired. -/
  payload : ∃ bytes members expiry, Base64.decode? .url parts.payload = some bytes ∧
    Claims.membersOf bytes = .ok members ∧ Claims.Says members identity expiry ∧ now ≤ expiry

theorem genuine_of_verify {identity : Identity} (accepted : signer.verify now token = .ok identity) :
    ∃ parts : Parts, parts.Cut token ∧ signer.Genuine now parts identity := by
  obtain ⟨claims, verified, rfl⟩ := verify_eq_ok.mp accepted
  obtain ⟨parts, limits, cut, checks, inTime⟩ := verifyClaims_eq_ok.mp verified
  obtain ⟨header, decoded, named⟩ := checks.header
  obtain ⟨payload, claimed, parsed, limited⟩ := checks.payload
  obtain ⟨members, whole, told⟩ := Claims.membersOf_of_parse parsed
  obtain ⟨expiry, expires, notLater, _⟩ := checkLimits_eq_ok.mp inTime
  -- both readings speak of the same expiry
  have same : claims.expiry = expiry := by
    have listed : _ ∈ members.filter (·.1 == "exp") :=
      List.mem_filter.mpr ⟨Claims.Limits.expiry_mem whole limited expires, beq_self_eq_true _⟩
    rw [told.expiry] at listed
    have only := List.mem_singleton.mp listed
    simp only [Prod.mk.injEq, Option.some.injEq, Value.number.injEq, Number.integer.injEq, true_and] at only
    exact only.symm
  refine ⟨parts, cut_of_ofText? cut, ⟨header, decoded, Header.names_of_parse named⟩, checks.signature, ?_⟩
  exact ⟨payload, members, claims.expiry, claimed, whole, told, by rw [same]; exact notLater⟩

theorem invalidCredential_of_verify {fault : Fault} (rejected : signer.verify now token = .error fault) :
    ∃ reason, fault = .invalidCredential reason := by
  unfold verify at rejected
  cases checked : signer.verifyClaims now token with
  | ok claims =>
    rw [checked] at rejected
    cases rejected
  | error rejection =>
    rw [checked] at rejected
    cases rejected
    exact ⟨_, rfl⟩

/-- Whatever keys it was issued with, a token of another algorithm is rejected for that. -/
theorem verify_of_other_algorithm {other : Signer} {salt : Bytes} {issuedAt : Int} {identity : Identity}
    (different : other.algorithm ≠ signer.algorithm) (issued : other.issue salt issuedAt identity = .ok token)
    (now : Int) : signer.verify now token = .error Rejection.wrongAlgorithm.fault := by
  rw [issue_eq (dated_of_issue issued)] at issued
  split at issued
  · cases issued
  · next signature signed =>
    obtain rfl := Except.ok.inj issued
    have rejected : signer.verifyClaims now (String.ofList (joined (encode (Header.text other.algorithm))
        (encode (other.claims issuedAt identity).text) signature)) = .error .wrongAlgorithm := by
      rw [verifyClaims, String.toList_ofList, ofText?_joined]
      simp only [Option.elim_some, Result.ok_bind, decodeSegment_segment, Header.parse_text, readJson]
      exact if_pos different
    rw [verify, rejected]

/-- Nothing is accepted that should not be. Of a token that is accepted, cut at its last two points, the header names
the algorithm of the signer, the signature is one of the header and the payload under its key, and the payload says
who somebody is and that the token has not expired; and it would have been accepted at any time before. Whatever is
rejected is an invalid credential, and so is what was issued under another algorithm, be it with the same keys. -/
theorem verify_accepts_only_genuine (signer : Signer) (token : String) :
    (∀ now identity, signer.verify now token = .ok identity →
      (∃ parts : Parts, parts.Cut token ∧ signer.Genuine now parts identity) ∧
      ∀ earlier ≤ now, signer.verify earlier token = .ok identity) ∧
    (∀ now fault, signer.verify now token = .error fault → ∃ reason, fault = .invalidCredential reason) ∧
    ∀ (other : Signer) salt issuedAt identity, other.algorithm ≠ signer.algorithm →
      other.issue salt issuedAt identity = .ok token →
      ∀ now, signer.verify now token = .error (.invalidCredential "InvalidAlgorithm") := by
  refine ⟨fun now identity accepted => ⟨genuine_of_verify accepted, ?_⟩, ?_, ?_⟩
  · exact fun earlier before => verify_earlier accepted before
  · exact fun now fault rejected => invalidCredential_of_verify rejected
  · exact fun other salt issuedAt identity different issued now => verify_of_other_algorithm different issued now

/-- A signer with a shared secret, whose tokens last for an hour. -/
def sharing (hash : Crypto.Hash) : Signer :=
  ⟨.hmac hash, ⟨utf8 "secret", utf8 "secret"⟩, 60⟩

def quotedName : Identity :=
  { name := "\"\\\n\x01", groups := ["", "Gruppe Ä"] }

theorem verify_accepts_only_genuine_shared_secret :
    ∃ token, (sharing .sha256).verify 4600 token = .ok quotedName ∧
      (∃ parts : Parts, parts.Cut token ∧ (sharing .sha256).Genuine 4600 parts quotedName) ∧
      (sharing .sha256).verify 1000 token = .ok quotedName ∧
      (sharing .sha512).verify 1000 token = .error (.invalidCredential "InvalidAlgorithm") := by
  have dated : (1000 : Int) + secondsPerMinute * (sharing .sha256).ttlMinutes ≤ lastSecond := by decide
  obtain ⟨token, issued⟩ := (@issue_ok_iff _ [] _ quotedName dated).mpr rfl
  have accepted : (sharing .sha256).verify 4600 token = .ok quotedName := by
    rw [verify_of_issue (Algorithm.keysAgree_hmac _ _) (by decide) rfl (by decide) dated issued]
    exact if_pos (by decide)
  obtain ⟨genuine, earlier⟩ := (verify_accepts_only_genuine (sharing .sha256) token).1 4600 quotedName accepted
  obtain ⟨_, _, others⟩ := verify_accepts_only_genuine (sharing .sha512) token
  exact ⟨token, accepted, genuine, earlier 1000 (by decide), others (sharing .sha256) _ _ _ (by decide) issued 1000⟩

end Signer
end QueryGate.Token
