import QueryGate.Http.Message
import QueryGate.Proofs.Config.Validation
import QueryGate.Proofs.Text.Utf8
import QueryGate.Proofs.Token.RoundTrip

/-! An issued token is printable text, so that it comes through a header as it was issued. The keys
of a signer that was made from settings belong together if they are one shared secret. -/

namespace QueryGate

def IsPrintable (c : Char) : Prop :=
  0x20 ≤ c.val.toNat ∧ c.val.toNat < 0x7F

namespace Text.Utf8

theorem mem_encodeChar_ascii {c : Char} {b : UInt8} (ascii : c.val.toNat ≤ 0x7F)
    (member : b ∈ String.utf8EncodeChar c) : b.toNat = c.val.toNat := by
  unfold String.utf8EncodeChar at member
  simp only [if_pos ascii, List.mem_singleton] at member
  rw [member, UInt8.toNat_ofNat_of_lt']
  exact Nat.lt_of_le_of_lt ascii (by decide)

theorem encode_printable {cs : List Char} (printable : ∀ c ∈ cs, IsPrintable c) :
    ∀ b ∈ encode cs, 0x20 ≤ b ∧ b < 0x7F := by
  intro b member
  obtain ⟨c, listed, within⟩ := List.mem_flatMap.mp member
  obtain ⟨lower, upper⟩ := printable c listed
  have same : b.toNat = c.val.toNat := mem_encodeChar_ascii (Nat.le_of_lt upper) within
  rw [UInt8.le_iff_toNat_le, UInt8.lt_iff_toNat_lt, same]
  exact ⟨lower, upper⟩

end Text.Utf8

theorem Http.printable?_utf8 {text : String} (printable : ∀ c ∈ text.toList, IsPrintable c) :
    Http.printable? (utf8 text) = some text := by
  have all : ((utf8 text).all fun b => (0x20 ≤ b && b < 0x7F) || b = 0x09) = true := by
    refine List.all_eq_true.mpr fun b member => ?_
    obtain ⟨lower, upper⟩ := Text.Utf8.encode_printable printable b member
    simp [lower, upper]
  rw [printable?, if_pos all, ofUtf8?_utf8]

namespace Token

open Encoding

theorem segment_printable (bytes : Bytes) : ∀ c ∈ Signer.segment bytes, IsPrintable c := by
  have digits : ∀ n < 64, 0x20 ≤ (Base64.Alphabet.url.digit n).val.toNat ∧
      (Base64.Alphabet.url.digit n).val.toNat < 0x7F := by
    decide
  intro c member
  obtain ⟨n, small, rfl⟩ := Base64.mem_encode member
  exact digits n small

namespace Signer

variable {signer : Signer} {salt : Bytes} {issuedAt now : Int} {identity : Identity} {token : String}

theorem dated_of_issue (issued : signer.issue salt issuedAt identity = .ok token) :
    issuedAt + secondsPerMinute * signer.ttlMinutes ≤ lastSecond := by
  refine Int.not_lt.mp fun late => ?_
  rw [issue] at issued
  cases (if_pos late).symm.trans issued

theorem joined_of_issue (issued : signer.issue salt issuedAt identity = .ok token) :
    ∃ header payload signature, token = String.ofList (joined header payload signature) := by
  rw [issue_eq (dated_of_issue issued)] at issued
  split at issued
  · cases issued
  · exact ⟨_, _, _, (Except.ok.inj issued).symm⟩

theorem printable_of_issue (issued : signer.issue salt issuedAt identity = .ok token) :
    token ≠ "" ∧ ∀ c ∈ token.toList, IsPrintable c := by
  obtain ⟨header, payload, signature, rfl⟩ := joined_of_issue issued
  have point : IsPrintable '.' := by
    unfold IsPrintable
    decide
  rw [String.toList_ofList, joined]
  constructor
  · intro empty
    have none := congrArg String.toList empty
    simp at none
  · intro c member
    rcases List.mem_append.mp member with signed | last
    · rcases List.mem_append.mp signed with first | second
      · exact segment_printable _ c first
      · rcases List.mem_cons.mp second with rfl | within
        · exact point
        · exact segment_printable _ c within
    · rcases List.mem_cons.mp last with rfl | within
      · exact point
      · exact segment_printable _ c within

/-! ### Signers from settings -/

variable {files : Files.Tree} {settings : Settings}

theorem ofSettings_eq_ok (made : ofSettings files settings = .ok signer) :
    ∃ signing verifying, keyMaterial files settings = .ok (signing, verifying) ∧
      create settings.method signing verifying settings.ttlMinutes = .ok signer := by
  unfold ofSettings at made
  split at made
  · cases made
  · exact ⟨_, _, ‹_›, made⟩

theorem isHmac_of_shared {algorithm : Algorithm} (named : Algorithm.ofName? settings.method = some algorithm)
    (shared : algorithm.isShared = true) : settings.isHmac = true := by
  unfold Algorithm.ofName? at named
  have found := List.find?_some named
  have method : settings.method = algorithm.name := (beq_iff_eq.mp found).symm
  unfold Settings.isHmac
  rw [method]
  cases algorithm with
  | hmac hash => cases hash <;> decide
  | rsa | rsaSalted | ecdsa | edDsa => cases shared

/-- A method with a shared secret needs no key files. -/
theorem keyMaterial_of_shared (files : Files.Tree) {algorithm : Algorithm} (valid : settings.validate = .ok ())
    (named : Algorithm.ofName? settings.method = some algorithm) (shared : algorithm.isShared = true) :
    keyMaterial files settings = .ok (utf8 (settings.secret.getD ""), utf8 (settings.secret.getD "")) := by
  refine Result.bind_ok_iff.mpr ⟨(), valid, ?_⟩
  rw [if_pos (isHmac_of_shared named shared)]
  rfl

theorem loadKeys?_of_shared {algorithm : Algorithm} (shared : algorithm.isShared = true) (signing verifying : Bytes) :
    loadKeys? algorithm signing verifying = some ⟨signing, verifying⟩ := by
  cases algorithm with
  | hmac hash => rfl
  | rsa | rsaSalted | ecdsa | edDsa => cases shared

theorem ofSettings_of_shared (files : Files.Tree) {algorithm : Algorithm} (valid : settings.validate = .ok ())
    (named : Algorithm.ofName? settings.method = some algorithm) (shared : algorithm.isShared = true)
    (fits : settings.ttlMinutes * millisecondsPerMinute ≤ maxMilliseconds) :
    ofSettings files settings = .ok
      { algorithm
        keys := ⟨utf8 (settings.secret.getD ""), utf8 (settings.secret.getD "")⟩
        ttlMinutes := settings.ttlMinutes } := by
  have positive : 0 < settings.ttlMinutes := Settings.positive_of_valid valid
  rw [ofSettings, keyMaterial_of_shared files valid named shared]
  simp only [create, named, loadKeys?_of_shared shared]
  rw [if_neg (Int.not_le.mpr positive), if_neg (Int.not_lt.mpr fits)]

theorem keysAgree_of_settings (made : ofSettings files settings = .ok signer)
    (agree : signer.algorithm.isShared = false → signer.algorithm.KeysAgree signer.keys) :
    signer.algorithm.KeysAgree signer.keys := by
  cases shared : signer.algorithm.isShared with
  | false => exact agree shared
  | true =>
    obtain ⟨signing, verifying, material, created⟩ := ofSettings_eq_ok made
    have hmac := isHmac_of_shared (create_eq_ok created).1 shared
    unfold keyMaterial at material
    obtain ⟨_, _, keys⟩ := Result.bind_ok_iff.mp material
    rw [if_pos hmac] at keys
    cases keys
    exact keysAgree_of_shared created shared rfl

/-- What was issued is accepted up to its expiry, and stands for the identity that it was issued for. -/
theorem verify_of_settings (made : ofSettings files settings = .ok signer)
    (agree : signer.algorithm.isShared = false → signer.algorithm.KeysAgree signer.keys)
    (salted : salt.length = signer.algorithm.saltSize) (since1970 : 0 ≤ issuedAt)
    (issued : signer.issue salt issuedAt identity = .ok token) (now : Int) :
    signer.verify now token =
      if now ≤ issuedAt + secondsPerMinute * settings.ttlMinutes then .ok identity
      else .error (.invalidCredential "ExpiredSignature") := by
  obtain ⟨signing, verifying, _, created⟩ := ofSettings_eq_ok made
  obtain ⟨_, positive, lasting, _⟩ := create_eq_ok created
  rw [← lasting] at positive ⊢
  exact verify_of_issue (keysAgree_of_settings made agree) (Int.le_of_lt positive) salted since1970
    (dated_of_issue issued) issued

end Signer
end Token
end QueryGate
