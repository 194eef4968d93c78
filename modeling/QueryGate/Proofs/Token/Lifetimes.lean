import QueryGate.Proofs.Token.Transport

/-!
# Lifetimes

How long a token may last. A lifetime that is accepted may still be too long for a signer to be made with it, or for
a token to be issued at some time: both end in a crash. Up to a fixed length neither does, before the year 10000.
-/

namespace QueryGate.Token.Signer

open Text.Utf8 (encode)

/-- The longest lifetime that a signer is made with, in minutes. -/
def longestLifetime : Int := maxMilliseconds / millisecondsPerMinute

/-- The last second of the year 9999. -/
def endOf9999 : Int := 253402300799

/-- The longest lifetime of which no token crashes before the year 10000, in minutes. -/
def longestSafeLifetime : Int := (lastSecond - endOf9999) / secondsPerMinute

def Loads (files : Files.Tree) (settings : Settings) : Prop :=
  ∃ signing verifying algorithm keys, keyMaterial files settings = .ok (signing, verifying) ∧
    Algorithm.ofName? settings.method = some algorithm ∧ loadKeys? algorithm signing verifying = some keys

/-- Neither making the signer nor issuing a token crashes, for anybody and at any time from 1970 to 9999. -/
def NeverCrashes (files : Files.Tree) (settings : Settings) : Prop :=
  ofSettings files settings ≠ .error .crash ∧
    ∀ signer, ofSettings files settings = .ok signer → ∀ salt now identity, 0 ≤ now → now ≤ endOf9999 →
      signer.issue salt now identity ≠ .error .crash

def Carries (token : String) (claims : Claims) : Prop :=
  ∃ parts payload, Parts.ofText? token.toList = some parts ∧ decodeSegment parts.payload = .ok payload ∧
    Claims.parse payload = .ok claims

variable {method : String} {signingKey verifyingKey : Bytes} {ttlMinutes : Int} {algorithm : Algorithm} {keys : Keys}

theorem create_of_loaded (positive : 0 < ttlMinutes) (known : Algorithm.ofName? method = some algorithm)
    (loaded : loadKeys? algorithm signingKey verifyingKey = some keys) :
    create method signingKey verifyingKey ttlMinutes =
      if longestLifetime < ttlMinutes then .error .crash else .ok { algorithm, keys, ttlMinutes } := by
  have bound : maxMilliseconds < ttlMinutes * millisecondsPerMinute ↔ longestLifetime < ttlMinutes := by
    unfold longestLifetime maxMilliseconds millisecondsPerMinute
    omega
  simp only [create, known, loaded, if_neg (Int.not_le.mpr positive), bound]

theorem create_of_not_loaded (positive : 0 < ttlMinutes)
    (missing : ∀ algorithm keys, Algorithm.ofName? method = some algorithm →
      loadKeys? algorithm signingKey verifyingKey ≠ some keys) :
    ∃ problem : Config.Problem, create method signingKey verifyingKey ttlMinutes = .error (.fault problem.fault) := by
  cases known : Algorithm.ofName? method with
  | none =>
    refine ⟨.unknownMethod method, ?_⟩
    simp only [create, known]
  | some algorithm =>
    cases loaded : loadKeys? algorithm signingKey verifyingKey with
    | none =>
      refine ⟨.badKeyMaterial algorithm.name "InvalidKeyFormat", ?_⟩
      simp only [create, known, loaded, if_neg (Int.not_le.mpr positive)]
    | some keys => exact absurd loaded (missing algorithm keys known)

variable {files : Files.Tree} {settings : Settings}

theorem ofSettings_of_loads (valid : settings.validate = .ok ()) (loads : Loads files settings) :
    ∃ signer, signer.ttlMinutes = settings.ttlMinutes ∧ ofSettings files settings =
      if longestLifetime < settings.ttlMinutes then .error .crash else .ok signer := by
  obtain ⟨signing, verifying, algorithm, keys, material, known, loaded⟩ := loads
  refine ⟨{ algorithm, keys, ttlMinutes := settings.ttlMinutes }, rfl, ?_⟩
  rw [ofSettings, material]
  exact create_of_loaded (Settings.positive_of_valid valid) known loaded

theorem ofSettings_of_not_loads (valid : settings.validate = .ok ()) (missing : ¬ Loads files settings) :
    ∃ problem : Config.Problem, ofSettings files settings = .error (.fault problem.fault) := by
  cases material : keyMaterial files settings with
  | error problem =>
    refine ⟨problem, ?_⟩
    rw [ofSettings, material]
  | ok both =>
    obtain ⟨signing, verifying⟩ := both
    rw [ofSettings, material]
    refine create_of_not_loaded (Settings.positive_of_valid valid) fun algorithm keys known loaded => missing ?_
    exact ⟨signing, verifying, algorithm, keys, material, known, loaded⟩

theorem loads_of_shared (files : Files.Tree) (valid : settings.validate = .ok ())
    (named : Algorithm.ofName? settings.method = some algorithm) (shared : algorithm.isShared = true) :
    Loads files settings :=
  ⟨_, _, algorithm, _, keyMaterial_of_shared files valid named shared, named, loadKeys?_of_shared shared _ _⟩

variable {signer : Signer} {salt : Bytes} {now : Int} {identity : Identity} {token : String}

theorem issue_eq_crash_iff :
    signer.issue salt now identity = .error .crash ↔ lastSecond < now + secondsPerMinute * signer.ttlMinutes := by
  constructor
  · intro crashed
    refine Int.not_le.mp fun dated => ?_
    exact issue_ne_crash dated crashed
  · intro late
    rw [issue]
    exact if_pos late

theorem carries_of_issue (since1970 : 0 ≤ now) (positive : 0 < signer.ttlMinutes)
    (issued : signer.issue salt now identity = .ok token) :
    Carries token ⟨identity, now, now + secondsPerMinute * signer.ttlMinutes⟩ := by
  have dated := dated_of_issue issued
  have later : 0 ≤ secondsPerMinute * signer.ttlMinutes := Int.mul_nonneg (by decide) (Int.le_of_lt positive)
  have bound : lastSecond < (Nat.pow 2 63 : Nat) := by decide
  -- the claims are written and read as numbers without a sign
  obtain ⟨seconds, rfl⟩ := Int.eq_ofNat_of_zero_le since1970
  obtain ⟨expiry, expires⟩ := Int.eq_ofNat_of_zero_le (Int.add_nonneg since1970 later)
  rw [issue_eq dated] at issued
  split at issued
  · cases issued
  · next signature _ =>
    obtain rfl := Except.ok.inj issued
    have split := ofText?_joined (encode (Header.text signer.algorithm))
      (encode (signer.claims seconds identity).text) signature
    refine ⟨_, _, (congrArg Parts.ofText? String.toList_ofList).trans split, decodeSegment_segment _, ?_⟩
    rw [claims, expires]
    exact Claims.parse_text identity (by omega) (by omega)

theorem ofSettings_eq_crash_iff (valid : settings.validate = .ok ()) :
    ofSettings files settings = .error .crash ↔ Loads files settings ∧ longestLifetime < settings.ttlMinutes := by
  by_cases loads : Loads files settings
  · obtain ⟨signer, -, made⟩ := ofSettings_of_loads valid loads
    rw [made]
    by_cases long : longestLifetime < settings.ttlMinutes
    · rw [if_pos long]
      exact iff_of_true rfl ⟨loads, long⟩
    · rw [if_neg long]
      exact iff_of_false (fun crashed => nomatch crashed) fun both => long both.2
  · obtain ⟨problem, made⟩ := ofSettings_of_not_loads valid loads
    rw [made]
    exact iff_of_false (fun crashed => nomatch crashed) fun both => loads both.1

theorem ofSettings_eq_error (valid : settings.validate = .ok ()) {failure : Failure}
    (failed : ofSettings files settings = .error failure) :
    failure = .crash ∨ ∃ reason, failure = .fault (.config reason) := by
  by_cases loads : Loads files settings
  · obtain ⟨signer, -, made⟩ := ofSettings_of_loads valid loads
    rw [made] at failed
    split at failed
    · exact .inl (Except.error.inj failed).symm
    · cases failed
  · obtain ⟨problem, made⟩ := ofSettings_of_not_loads valid loads
    rw [made] at failed
    exact .inr ⟨problem.message, (Except.error.inj failed).symm⟩

theorem ttlMinutes_of_ofSettings (made : ofSettings files settings = .ok signer) :
    signer.ttlMinutes = settings.ttlMinutes := by
  obtain ⟨signing, verifying, -, created⟩ := ofSettings_eq_ok made
  exact (create_eq_ok created).2.2.1

theorem neverCrashes_iff (valid : settings.validate = .ok ()) :
    NeverCrashes files settings ↔ (Loads files settings → settings.ttlMinutes ≤ longestSafeLifetime) := by
  have shorter : longestSafeLifetime ≤ longestLifetime := by decide
  have fits : endOf9999 + secondsPerMinute * longestSafeLifetime ≤ lastSecond := by decide
  have tight : lastSecond < endOf9999 + secondsPerMinute * (longestSafeLifetime + 1) := by decide
  constructor
  · rintro ⟨makes, issues⟩ loads
    refine Int.not_lt.mp fun long => ?_
    obtain ⟨signer, lasting, made⟩ := ofSettings_of_loads valid loads
    have short : ¬ longestLifetime < settings.ttlMinutes := by
      intro longer
      exact makes ((ofSettings_eq_crash_iff valid).mpr ⟨loads, longer⟩)
    rw [if_neg short] at made
    -- in the last second of 9999, the token would expire after the last date
    refine issues signer made [] endOf9999 {} (by decide) (Int.le_refl _) (issue_eq_crash_iff.mpr ?_)
    rw [lasting]
    unfold secondsPerMinute at tight ⊢
    omega
  · intro safe
    refine ⟨fun crashed => ?_, fun signer made salt now identity _ before crashed => ?_⟩
    · obtain ⟨loads, long⟩ := (ofSettings_eq_crash_iff valid).mp crashed
      have short := safe loads
      omega
    · have late := issue_eq_crash_iff.mp crashed
      have loads : Loads files settings := by
        refine Classical.byContradiction fun missing => ?_
        obtain ⟨problem, failed⟩ := ofSettings_of_not_loads valid missing
        cases made.symm.trans failed
      have short := safe loads
      rw [ttlMinutes_of_ofSettings made] at late
      unfold secondsPerMinute at late fits
      omega

/--
An accepted lifetime crashes exactly when it is too long. A signer is made from accepted settings, or a fault in the
configuration is reported, unless the lifetime does not fit. A token is issued for that many minutes, to the second,
unless it would expire after the last date there is. Up to the year 9999 there is no crash at all exactly when there
are no keys or the lifetime is a safe one.
-/
theorem lifetime_crashes_iff (files : Files.Tree) (settings : Settings) (valid : settings.validate = .ok ()) :
    let ttl := settings.ttlMinutes
    (∀ failure, ofSettings files settings = .error failure →
      failure = .crash ∨ ∃ reason, failure = .fault (.config reason)) ∧
    (ofSettings files settings = .error .crash ↔ Loads files settings ∧ longestLifetime < ttl) ∧
    (∀ signer, ofSettings files settings = .ok signer → ∀ salt now identity, 0 ≤ now →
      (signer.issue salt now identity = .error .crash ↔ lastSecond < now + 60 * ttl) ∧
      ∀ token, signer.issue salt now identity = .ok token → Carries token ⟨identity, now, now + 60 * ttl⟩) ∧
    (NeverCrashes files settings ↔ (Loads files settings → ttl ≤ longestSafeLifetime)) := by
  intro ttl
  refine ⟨fun failure => ofSettings_eq_error valid, ofSettings_eq_crash_iff valid, ?_, neverCrashes_iff valid⟩
  intro signer made salt now identity since1970
  have lasting : signer.ttlMinutes = ttl := ttlMinutes_of_ofSettings made
  have positive : 0 < signer.ttlMinutes := by
    rw [lasting]
    exact Settings.positive_of_valid valid
  rw [← lasting]
  exact ⟨issue_eq_crash_iff, fun token => carries_of_issue since1970 positive⟩

/-- A shared secret and the default lifetime of an hour. -/
theorem hour_never_crashes :
    let settings : Settings := { method := "HS256", secret := some "secret" }
    settings.validate = .ok () ∧ NeverCrashes [] settings := by
  intro settings
  have valid : settings.validate = .ok () := Settings.valid_of_secret (by decide) (by decide) rfl (by decide)
  obtain ⟨-, -, -, safe⟩ := lifetime_crashes_iff [] settings valid
  exact ⟨valid, safe.mpr fun _ => by decide⟩

/-- With the longest lifetime that a signer is made with, it crashes when a token is issued; with one minute more,
the signer is not made. -/
theorem longest_lifetime_crashes :
    let settings : Settings := { method := "HS256", secret := some "secret", ttlMinutes := 153722867280912 }
    let longer : Settings := { settings with ttlMinutes := 153722867280913 }
    settings.validate = .ok () ∧ longer.validate = .ok () ∧ ofSettings [] longer = .error .crash ∧
      ∃ signer, ofSettings [] settings = .ok signer ∧ signer.issue [] 1700000000 {} = .error .crash := by
  intro settings longer
  have valid : settings.validate = .ok () := Settings.valid_of_secret (by decide) (by decide) rfl (by decide)
  have longerValid : longer.validate = .ok () := Settings.valid_of_secret (by decide) (by decide) rfl (by decide)
  have known : Algorithm.ofName? "HS256" = some (.hmac .sha256) := by decide
  have crashes : ofSettings [] longer = .error .crash :=
    (ofSettings_eq_crash_iff longerValid).mpr ⟨loads_of_shared [] longerValid known rfl, by decide⟩
  obtain ⟨signer, lasting, made⟩ := ofSettings_of_loads valid (loads_of_shared [] valid known rfl)
  rw [if_neg (by decide)] at made
  refine ⟨valid, longerValid, crashes, signer, made, issue_eq_crash_iff.mpr ?_⟩
  rw [lasting]
  decide

end QueryGate.Token.Signer
