import QueryGate.Proofs.Token.Verification

/-! A shared secret leaves no choice in a signature: what is signed has one tag, and a tag has one
text in base64. So nothing but its own text can stand in place of the signature of a token. -/

namespace QueryGate.Token.Signer

open Encoding Crypto
open Text.Utf8 (encode)

variable {signer : Signer} {hash : Hash} {salt : Bytes} {issuedAt now : Int} {identity : Identity} {token : String}

theorem point_not_mem_of_decode? {text : List Char} {bytes : Bytes} (read : Base64.decode? .url text = some bytes) :
    '.' ∉ text := by
  rw [Base64.eq_encode_of_decode? read]
  exact Base64.point_not_mem_encode bytes

theorem point_not_mem_segment (bytes : Bytes) : '.' ∉ segment bytes :=
  Base64.point_not_mem_encode bytes

theorem toList_pointed (message signature : String) :
    (message ++ "." ++ signature).toList = message.toList ++ '.' :: signature.toList := by
  rw [String.toList_append, String.toList_append, List.append_assoc]
  rfl

theorem pointed_of_issue (issued : signer.issue salt issuedAt identity = .ok token) :
    ∃ message signature : String, '.' ∉ signature.toList ∧ token = message ++ "." ++ signature := by
  obtain ⟨header, payload, signature, rfl⟩ := joined_of_issue issued
  refine ⟨String.ofList (segment header ++ '.' :: segment payload), String.ofList (segment signature), ?_, ?_⟩
  · rw [String.toList_ofList]
    exact point_not_mem_segment signature
  · rw [← String.toList_inj, toList_pointed, String.toList_ofList, String.toList_ofList, String.toList_ofList]
    rfl

/-- A token that is accepted has two points and no more. -/
theorem count_point_of_verify (accepted : signer.verify now token = .ok identity) : token.toList.count '.' = 2 := by
  obtain ⟨parts, cut, genuine⟩ := genuine_of_verify accepted
  obtain ⟨_, decoded, _⟩ := genuine.header
  have header : parts.header.count '.' = 0 := List.count_eq_zero.mpr (point_not_mem_of_decode? decoded)
  have payload : parts.payload.count '.' = 0 := List.count_eq_zero.mpr cut.payload
  have signature : parts.signature.count '.' = 0 := List.count_eq_zero.mpr cut.signature
  simp [cut.whole, header, payload, signature]

theorem count_point_signedPart (algorithm : Algorithm) (claims : Claims) :
    (signedPart algorithm claims).count '.' = 1 := by
  have none (bytes : Bytes) : (segment bytes).count '.' = 0 := List.count_eq_zero.mpr (point_not_mem_segment bytes)
  simp [signedPart, none]

/-- What is accepted behind a point is the text of the tag of what stands before it. -/
theorem signature_of_verify (keyed : signer.algorithm = .hmac hash) {message signature : String}
    (last : '.' ∉ signature.toList) (accepted : signer.verify now (message ++ "." ++ signature) = .ok identity) :
    signature.toList = segment (Hmac.tag hash signer.keys.verifying (encode message.toList)) := by
  obtain ⟨parts, cut, genuine⟩ := genuine_of_verify accepted
  obtain ⟨verifier, bytes, ready, decoded, accepts⟩ := genuine.signature
  have whole : message.toList ++ '.' :: signature.toList = parts.signed ++ '.' :: parts.signature :=
    (toList_pointed message signature).symm.trans cut.whole
  have same := congrArg splitAtLastPoint? whole
  rw [splitAtLastPoint?_append _ last, splitAtLastPoint?_append _ cut.signature] at same
  obtain ⟨signed, written⟩ := Prod.mk.inj (Option.some.inj same)
  rw [keyed] at ready
  obtain rfl := Except.ok.inj ready
  obtain rfl : _ = bytes := beq_iff_eq.mp accepts
  rw [written, signed]
  exact Base64.eq_encode_of_decode? decoded

theorem issued_of_hmac (keyed : signer.algorithm = .hmac hash)
    (issued : signer.issue salt issuedAt identity = .ok token) :
    let signed := signedPart signer.algorithm (signer.claims issuedAt identity)
    token = String.ofList signed ++ "." ++
      String.ofList (segment (Hmac.tag hash signer.keys.signing (encode signed))) := by
  intro signed
  have signs : signer.algorithm.sign? signer.keys.signing salt (encode signed) =
      some (Hmac.tag hash signer.keys.signing (encode signed)) := by
    rw [keyed]
    rfl
  rw [issue_eq (dated_of_issue issued), messageFor, signs] at issued
  rw [← Except.ok.inj issued, ← String.toList_inj, toList_pointed, String.toList_ofList, String.toList_ofList,
    String.toList_ofList]
  rfl

/-- Only one text is accepted behind what was signed, the one that was issued. -/
theorem signature_of_issue (keyed : signer.algorithm = .hmac hash) (shared : signer.keys.signing = signer.keys.verifying)
    {message signature other : String} (last : '.' ∉ signature.toList)
    (issued : signer.issue salt issuedAt identity = .ok (message ++ "." ++ signature)) {somebody : Identity}
    (accepted : signer.verify now (message ++ "." ++ other) = .ok somebody) : other = signature := by
  -- the token is cut at its last point
  have whole := congrArg splitAtLastPoint? (congrArg String.toList (issued_of_hmac keyed issued))
  rw [toList_pointed, toList_pointed, String.toList_ofList, String.toList_ofList, splitAtLastPoint?_append _ last,
    splitAtLastPoint?_append _ (point_not_mem_segment _)] at whole
  obtain ⟨signed, tag⟩ := Prod.mk.inj (Option.some.inj whole)
  -- a point in the other text would be a third one
  have noPoint : '.' ∉ other.toList := by
    have two := count_point_of_verify accepted
    rw [toList_pointed, List.count_append, signed, count_point_signedPart, List.count_cons_self] at two
    exact List.count_eq_zero.mp (by omega)
  have same := signature_of_verify keyed noPoint accepted
  rw [signed, ← shared, ← tag] at same
  exact String.toList_inj.mp same

variable {method : String} {secret : Bytes} {ttlMinutes : Int}

/-- A token under a shared secret has one signature, letter by letter. With any other text behind its last point it is
rejected at any time, with its own it is accepted up to its expiry. -/
theorem shared_signature_text_unique (created : create method secret secret ttlMinutes = .ok signer)
    (shared : signer.algorithm.isShared = true) {message signature : String} (last : '.' ∉ signature.toList)
    (issued : signer.issue salt issuedAt identity = .ok (message ++ "." ++ signature)) :
    (∀ other, other ≠ signature → ∀ now, ∃ reason,
      signer.verify now (message ++ "." ++ other) = .error (.invalidCredential reason)) ∧
    (0 ≤ issuedAt → ∀ now ≤ issuedAt + 60 * ttlMinutes,
      signer.verify now (message ++ "." ++ signature) = .ok identity) := by
  obtain ⟨known, positive, lasting, loaded⟩ := create_eq_ok created
  rw [loadKeys?_of_shared shared] at loaded
  obtain ⟨hash, keyed⟩ : ∃ hash, signer.algorithm = .hmac hash := by
    cases named : signer.algorithm with
    | hmac hash => exact ⟨hash, rfl⟩
    | rsa | rsaSalted | ecdsa | edDsa =>
      rw [named] at shared
      cases shared
  have same : signer.keys.signing = signer.keys.verifying := by rw [← Option.some.inj loaded]
  constructor
  · intro other different now
    cases verified : signer.verify now (message ++ "." ++ other) with
    | ok somebody => exact absurd (signature_of_issue keyed same last issued verified) different
    | error fault =>
      obtain ⟨reason, rfl⟩ := invalidCredential_of_verify verified
      exact ⟨reason, rfl⟩
  · intro since1970 now inTime
    have unsalted : signer.issue [] issuedAt identity = signer.issue salt issuedAt identity := by
      rw [issue, issue, keyed]
      rfl
    have noSalt : ([] : Bytes).length = signer.algorithm.saltSize := by rw [keyed]; rfl
    rw [← unsalted] at issued
    rw [← lasting] at positive inTime
    rw [verify_of_issue (keysAgree_of_shared created shared rfl) (Int.le_of_lt positive) noSalt since1970
      (dated_of_issue issued) issued]
    exact if_pos inTime

/-- Padding is no part of a signature, nor is anything behind another point. -/
theorem padded_signature_text_rejected :
    ∃ signer message signature, create "HS384" (utf8 "secret") (utf8 "secret") 60 = .ok signer ∧
      signer.algorithm.isShared = true ∧ '.' ∉ signature.toList ∧
      signer.issue [] 1000 quotedName = .ok (message ++ "." ++ signature) ∧
      signer.verify 4600 (message ++ "." ++ signature) = .ok quotedName ∧
      (∃ reason, signer.verify 4600 (message ++ "." ++ (signature ++ "=")) = .error (.invalidCredential reason)) ∧
      ∃ reason, signer.verify 4600 (message ++ "." ++ (signature ++ "." ++ signature)) =
        .error (.invalidCredential reason) := by
  have created : create "HS384" (utf8 "secret") (utf8 "secret") 60 = .ok (sharing .sha384) := rfl
  have dated : (1000 : Int) + secondsPerMinute * (sharing .sha384).ttlMinutes ≤ lastSecond := by decide
  obtain ⟨token, issued⟩ := (@issue_ok_iff _ [] _ quotedName dated).mpr rfl
  obtain ⟨message, signature, last, rfl⟩ := pointed_of_issue issued
  obtain ⟨rejected, accepted⟩ := shared_signature_text_unique created rfl last issued
  have padded : signature ++ "=" ≠ signature := by simp
  have pointed : signature ++ "." ++ signature ≠ signature := by
    intro same
    have lengths := congrArg String.length same
    rw [String.length_append, String.length_append] at lengths
    have point : ".".length = 1 := rfl
    omega
  exact ⟨_, message, signature, created, rfl, last, issued, accepted (by decide) 4600 (by decide),
    rejected _ padded 4600, rejected _ pointed 4600⟩

end QueryGate.Token.Signer
