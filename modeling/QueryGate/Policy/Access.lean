import QueryGate.Basic
import QueryGate.Text.Characters
import QueryGate.Text.Lowercase

/-! Access policies: a global denylist, and that of the caller's first group that has one. -/

namespace QueryGate.Policy

def normalChars (cs : List Char) : List Char :=
  (cs.filter (!Text.isBlank ·)).flatMap Text.lowercase

def normalForm (query : String) : String :=
  String.ofList (normalChars query.toList)

theorem normalChars_append (xs ys : List Char) :
    normalChars (xs ++ ys) = normalChars xs ++ normalChars ys := by
  simp [normalChars]

theorem normalForm_append (p q : String) : normalForm (p ++ q) = normalForm p ++ normalForm q := by
  simp [normalForm, normalChars_append]

structure Denylist where
  entries : List String := []
  deriving DecidableEq, Repr

namespace Denylist

def ofQueries (queries : List String) : Denylist :=
  ⟨queries.map normalForm⟩

def denies (list : Denylist) (normalized : String) : Bool :=
  list.entries.contains normalized

theorem denies_ofQueries {queries : List String} {normalized : String} :
    (ofQueries queries).denies normalized = true ↔
      ∃ query ∈ queries, normalForm query = normalized := by
  simp [denies, ofQueries]

end Denylist

inductive AllowReason where
  | adminGroup
  | group (name : String)
  deriving DecidableEq, Repr

inductive DenyReason where
  | globalDenylist
  | groupDenylist (name : String)
  | noMatchingGroup
  deriving DecidableEq, Repr

def DenyReason.message : DenyReason → String
  | globalDenylist => "query is in the global denylist"
  | groupDenylist name => "query is denied for group " ++ name
  | noMatchingGroup => "no policy is configured for the caller's groups"

inductive Decision where
  | allow (reason : AllowReason)
  | deny (reason : DenyReason)
  deriving DecidableEq, Repr

def Decision.isAllow : Decision → Bool
  | allow _ => true
  | deny _ => false

/-- One immutable policy. Of two denylists for one group the later one counts. -/
structure Access where
  denied : Denylist := {}
  groups : List (String × Denylist) := []
  adminGroup : Option String := none
  deriving DecidableEq, Repr

namespace Access

def ofDenied (queries : List String) (adminGroup : Option String) : Access where
  denied := .ofQueries queries
  adminGroup := adminGroup.filter (· ≠ "")

def withGroup (policy : Access) (name : String) (list : Denylist) : Access :=
  { policy with groups := (name, list) :: policy.groups }

def group? (policy : Access) (name : String) : Option Denylist :=
  policy.groups.lookup name

@[simp] theorem group?_withGroup (policy : Access) (name other : String) (list : Denylist) :
    (policy.withGroup name list).group? other =
      if other = name then some list else policy.group? other := by
  by_cases h : other = name
  · simp [group?, withGroup, h]
  · simp [group?, withGroup, List.lookup_cons, beq_false_of_ne h, h]

def resolve (policy : Access) (identity : Identity) : Option (String × Denylist) :=
  identity.groups.findSome? fun name => (policy.group? name).map (name, ·)

def isAdmin (policy : Access) (identity : Identity) : Bool :=
  policy.adminGroup.any identity.inGroup

def evaluate (policy : Access) (identity : Identity) (query : String) : Decision :=
  if policy.isAdmin identity then .allow .adminGroup
  else
    let normalized := normalForm query
    if policy.denied.denies normalized then .deny .globalDenylist
    else
      match policy.resolve identity with
      | none => .deny .noMatchingGroup
      | some (name, list) =>
        if list.denies normalized then .deny (.groupDenylist name) else .allow (.group name)

def authorize (policy : Access) (identity : Identity) (query : String) : Except Fault Unit :=
  match policy.evaluate identity query with
  | .allow _ => .ok ()
  | .deny reason => .error (.policyDenied reason.message)

end Access

structure GroupSettings where
  /-- The full name, which counts more than the parts. -/
  dn : Option String := none
  cn : String := ""
  ou : String := ""
  dc : String := ""
  deniedQueries : List String := []
  deriving DecidableEq, Repr

namespace GroupSettings

def fullName (group : GroupSettings) : String :=
  group.dn.getD ("CN=" ++ group.cn ++ ",OU=" ++ group.ou ++ "," ++ group.dc)

end GroupSettings

structure Settings where
  deniedQueries : List String := []
  adminGroup : Option String := none
  groups : List GroupSettings := []
  deriving DecidableEq, Repr

def Access.ofSettings (settings : Settings) : Access :=
  settings.groups.foldl
    (fun policy group => policy.withGroup group.fullName (.ofQueries group.deniedQueries))
    (.ofDenied settings.deniedQueries settings.adminGroup)

end QueryGate.Policy
