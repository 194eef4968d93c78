import QueryGate.Config.Validation
import QueryGate.Proofs.Program.Trace

/-! What the checks of a source and of the token settings guarantee to those who use them. -/

namespace QueryGate

open Config (Problem demand)

theorem Config.demand_eq_ok {condition : Bool} {problem : Problem} {u : Unit} :
    demand condition problem = .ok u ↔ condition = true := by
  unfold demand
  cases condition <;> simp

namespace Directory.Source

/-- A source that is accepted. -/
structure Valid (source : Source) : Prop where
  host : source.host ≠ ""
  one_tls : ¬ (source.useTls = true ∧ source.startTls = true)
  filter_hole : Template.holes source.userFilter = 1
  strategy : if source.useDirectBind then Template.holes source.userDn = 1 else source.userBase ≠ ""
  admin_holes : ∀ template, source.adminFilter = some template → Template.holes template ≤ 1
  timeout : source.timeoutSeconds ≠ 0

theorem validate_eq_ok_iff {source : Source} : source.validate = .ok () ↔ source.Valid := by
  have tls : (!(source.useTls && source.startTls)) = true ↔ ¬ (source.useTls = true ∧ source.startTls = true) := by
    rw [Bool.not_eq_true', ← Bool.not_eq_true, Bool.and_eq_true]
  have admin : source.adminFilter.all (Template.holes · ≤ 1) = true ↔
      ∀ template, source.adminFilter = some template → Template.holes template ≤ 1 := by
    rw [Option.all_eq_true]
    simp only [decide_eq_true_eq]
  unfold validate checkTemplate
  cases direct : source.useDirectBind with
  | true =>
    simp only [if_true, Result.bind_ok_iff, Config.demand_eq_ok, exists_const, decide_eq_true_eq, beq_iff_eq, tls, admin]
    constructor
    · rintro ⟨host, oneTls, filter, name, admin, timeout⟩
      exact ⟨host, oneTls, filter, (if_pos direct).mpr name, admin, timeout⟩
    · rintro ⟨host, oneTls, filter, name, admin, timeout⟩
      exact ⟨host, oneTls, filter, (if_pos direct).mp name, admin, timeout⟩
  | false =>
    simp only [Bool.false_eq_true, if_false, Result.bind_ok_iff, Config.demand_eq_ok, exists_const, decide_eq_true_eq, beq_iff_eq,
      tls, admin]
    have absent : ¬ source.useDirectBind = true := by
      rw [direct]
      exact Bool.false_ne_true
    constructor
    · rintro ⟨host, oneTls, filter, base, admin, timeout⟩
      exact ⟨host, oneTls, filter, (if_neg absent).mpr base, admin, timeout⟩
    · rintro ⟨host, oneTls, filter, base, admin, timeout⟩
      exact ⟨host, oneTls, filter, (if_neg absent).mp base, admin, timeout⟩

theorem Valid.name_hole {source : Source} (valid : source.Valid) (direct : source.useDirectBind = true) :
    Template.holes source.userDn = 1 := by
  have strategy := valid.strategy
  rwa [if_pos direct] at strategy

end Directory.Source

theorem Token.Settings.positive_of_valid {settings : Token.Settings} (valid : settings.validate = .ok ()) :
    0 < settings.ttlMinutes := by
  obtain ⟨_, positive, _⟩ := Result.bind_ok_iff.mp valid
  exact of_decide_eq_true (Config.demand_eq_ok.mp positive)

theorem Token.Settings.valid_of_secret {settings : Token.Settings} (positive : 0 < settings.ttlMinutes)
    (hmac : settings.isHmac = true) {secret : String} (given : settings.secret = some secret) (some : secret ≠ "") :
    settings.validate = .ok () := by
  refine Result.bind_ok_iff.mpr ⟨(), Config.demand_eq_ok.mpr (decide_eq_true positive), ?_⟩
  rw [if_pos hmac, given]
  exact Config.demand_eq_ok.mpr (decide_eq_true some)

end QueryGate
