import QueryGate.CommandLine.Run
import QueryGate.Proofs.Gateway.Reloading

/-! A configuration is checked without the client for the database. So the check tells what would
become of starting a gateway with it, except that the database may be given a user agent that cannot
be sent. -/

namespace QueryGate

namespace Gateway.Database

/-- Text that can be sent in a header: of the control characters it has tabs only. -/
def IsSendable (text : String) : Prop :=
  ∀ c ∈ text.toList, c = '\t' ∨ 0x20 ≤ c.toNat ∧ c.toNat ≠ 0x7F

instance (text : String) : Decidable (IsSendable text) :=
  List.decidableBAll _ text.toList

theorem byte_sendable_iff (b : UInt8) : ((0x20 ≤ b && b ≠ 0x7F) || b = 0x09) = true ↔
    b.toNat = 0x09 ∨ 0x20 ≤ b.toNat ∧ b.toNat ≠ 0x7F := by
  simp only [Bool.or_eq_true, Bool.and_eq_true, decide_eq_true_eq, UInt8.le_iff_toNat_le, ne_eq, ← UInt8.toNat_inj]
  exact Or.comm

/-- Only characters of one byte can be control characters. -/
theorem all_utf8EncodeChar (c : Char) :
    (∀ b ∈ String.utf8EncodeChar c, ((0x20 ≤ b && b ≠ 0x7F) || b = 0x09) = true) ↔
      c = '\t' ∨ 0x20 ≤ c.toNat ∧ c.toNat ≠ 0x7F := by
  have tab : c = '\t' ↔ c.toNat = 0x09 := Char.toNat_inj.symm
  by_cases ascii : c.toNat < 0x80
  · have one : String.utf8EncodeChar c = [UInt8.ofNat c.toNat] := if_pos (Nat.le_of_lt_succ ascii)
    rw [one, List.forall_mem_singleton, byte_sendable_iff, Text.Utf8.toNat_byte (Nat.lt_trans ascii (by decide)), tab]
  · have high : 0x80 ≤ c.toNat := Nat.le_of_not_lt ascii
    refine iff_of_true (fun b member => ?_) (.inr ⟨by omega, by omega⟩)
    have past := Text.Utf8.high_of_mem_utf8EncodeChar high member
    exact (byte_sendable_iff b).mpr (.inr ⟨by omega, by omega⟩)

theorem isHeaderValue_iff {text : String} : isHeaderValue text = true ↔ IsSendable text := by
  rw [isHeaderValue, utf8, Text.Utf8.encode, List.all_flatMap, List.all_eq_true]
  refine forall₂_congr fun c _ => ?_
  rw [List.all_eq_true]
  exact all_utf8EncodeChar c

theorem client_of_sendable {settings : Config.Database} (sendable : IsSendable settings.userAgent) :
    client settings = .ok settings :=
  if_pos (isHeaderValue_iff.mpr sendable)

theorem client_of_not_sendable {settings : Config.Database} (unsendable : ¬ IsSendable settings.userAgent) :
    client settings = .error (.databaseClient "invalid user agent") :=
  if_neg (mt isHeaderValue_iff.mp unsendable)

end Gateway.Database

namespace CommandLine

open Gateway (start)
open Gateway.Database (IsSendable client_of_sendable client_of_not_sendable)

def clientFailure : Failure :=
  .fault (Config.Problem.databaseClient "invalid user agent").fault

/-- A check says of a configuration what starting with it comes to. -/
structure Foretells (files : Files.Tree) (config : Config) : Prop where
  in_order : checkConfig files config = { output := report config } ↔ ∃ gateway, start files config = .ok gateway
  same_failure : ∀ failure other, check files config = .error failure → start files config = .error other →
    failure = other

variable {files : Files.Tree} {config : Config}

theorem Outcome.ofFailure_ne_output (failure : Failure) (output : String) :
    Outcome.ofFailure failure ≠ { output } := by
  intro same
  have codes := congrArg Outcome.code same
  cases failure <;> cases codes

theorem checkConfig_in_order_iff :
    checkConfig files config = { output := report config } ↔ check files config = .ok () := by
  unfold checkConfig
  cases check files config with
  | error failure => exact iff_of_false (Outcome.ofFailure_ne_output failure _) nofun
  | ok => exact iff_of_true rfl rfl

theorem checkConfig_of_error {failure : Failure} (failed : check files config = .error failure) :
    checkConfig files config = .ofFailure failure := by
  rw [checkConfig, failed]

theorem start_of_check_error {failure : Failure} (failed : check files config = .error failure) :
    start files config = .error failure := by
  rcases Result.bind_error_iff.mp failed with invalid | ⟨_, valid, failed⟩
  · exact Result.bind_error_iff.mpr (.inl invalid)
  · rcases Result.bind_error_iff.mp failed with unsigned | ⟨signer, -, passed⟩
    · exact Result.bind_error_iff.mpr (.inr ⟨_, valid, Result.bind_error_iff.mpr (.inl unsigned)⟩)
    · cases passed

theorem check_eq_ok : check files config = .ok () ↔
    config.validate = .ok () ∧ ∃ signer, Token.Signer.ofSettings files config.token = .ok signer := by
  unfold check
  simp only [Result.bind_ok_iff, Gateway.orProblem_eq_ok]
  constructor
  · rintro ⟨_, valid, signer, signs, -⟩
    exact ⟨valid, signer, signs⟩
  · rintro ⟨valid, signer, signs⟩
    exact ⟨(), valid, signer, signs, rfl⟩

/-- Whatever starts has been found in order, and its user agent can be sent. -/
theorem starts_iff : (∃ gateway, start files config = .ok gateway) ↔
    check files config = .ok () ∧ IsSendable config.database.userAgent := by
  rw [check_eq_ok]
  constructor
  · rintro ⟨gateway, started⟩
    obtain ⟨valid, signs, sends, -⟩ := Gateway.start_eq_ok.mp started
    refine ⟨⟨valid, _, signs⟩, Classical.byContradiction fun unsendable => ?_⟩
    cases (client_of_not_sendable unsendable).symm.trans sends
  · rintro ⟨⟨valid, signer, signs⟩, sendable⟩
    exact ⟨⟨⟨signer, config.database⟩, _⟩, Gateway.start_eq_ok.mpr ⟨valid, signs, client_of_sendable sendable, rfl⟩⟩

theorem start_of_unsendable (passed : check files config = .ok ()) (unsendable : ¬ IsSendable config.database.userAgent) :
    start files config = .error clientFailure := by
  obtain ⟨valid, signer, signs⟩ := check_eq_ok.mp passed
  rw [start, valid, signs, client_of_not_sendable unsendable]
  rfl

theorem foretells_iff :
    Foretells files config ↔ (check files config = .ok () → IsSendable config.database.userAgent) := by
  constructor
  · rintro ⟨in_order, -⟩ passed
    exact (starts_iff.mp (in_order.mp (checkConfig_in_order_iff.mpr passed))).2
  · intro sendable
    refine ⟨?_, fun failure other failed stopped => ?_⟩
    · rw [checkConfig_in_order_iff, starts_iff]
      exact ⟨fun passed => ⟨passed, sendable passed⟩, And.left⟩
    · exact Except.error.inj ((start_of_check_error failed).symm.trans stopped)

/-- A check foretells what starting comes to, unless the configuration is in order but for its user agent. What a check
finds wrong keeps the gateway from starting, with the same failure. What it finds in order starts if the user agent
can be sent, and fails on the client for the database if not. -/
theorem check_foretells_start (files : Files.Tree) (config : Config) :
    (∀ failure, check files config = .error failure →
      checkConfig files config = .ofFailure failure ∧ start files config = .error failure) ∧
    (checkConfig files config = { output := report config } →
      if IsSendable config.database.userAgent then ∃ gateway, start files config = .ok gateway
      else start files config = .error clientFailure) ∧
    (Foretells files config ↔
      (checkConfig files config = { output := report config } → IsSendable config.database.userAgent)) := by
  refine ⟨fun failure failed => ⟨checkConfig_of_error failed, start_of_check_error failed⟩, ?_, ?_⟩
  · intro in_order
    have passed := checkConfig_in_order_iff.mp in_order
    split
    · next sendable => exact starts_iff.mpr ⟨passed, sendable⟩
    · next unsendable => exact start_of_unsendable passed unsendable
  · rw [foretells_iff, checkConfig_in_order_iff]

/-- A user agent of two lines passes the check, and the gateway does not start with it. -/
theorem check_overlooks_user_agent :
    let config : Config :=
      { directory := { userBase := "dc=org" }, token := { method := "HS256", secret := some "secret" }
        database := { userAgent := "a\nb" } }
    checkConfig [] config = { output := report config } ∧ start [] config = .error clientFailure ∧
      ¬ Foretells [] config := by
  intro config
  have valid : config.validate = .ok () := by
    simp only [config]
    rfl
  have named : Token.Algorithm.ofName? config.token.method = some (.hmac .sha256) := by decide
  obtain ⟨_, _, token⟩ := Result.bind_ok_iff.mp valid
  have signs := Token.Signer.ofSettings_of_shared [] token named rfl (by decide)
  have passed : check [] config = .ok () := check_eq_ok.mpr ⟨valid, _, signs⟩
  have unsendable : ¬ IsSendable config.database.userAgent := by decide
  refine ⟨checkConfig_in_order_iff.mpr passed, start_of_unsendable passed unsendable, ?_⟩
  rw [foretells_iff]
  exact fun sendable => unsendable (sendable passed)

end CommandLine
end QueryGate
