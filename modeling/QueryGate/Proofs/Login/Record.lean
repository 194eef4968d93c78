import QueryGate.Login.Authenticator
import QueryGate.Proofs.Program.Trace

/-! What stands in the record of a login that succeeds: which requests the directory was asked, in
which order, and how it answered each of them. -/

namespace QueryGate.Login

open Directory (BindOutcome Entry Request Source)

abbrev Record := List (Program.Exchange Request Request.Answer)

/-- What a login has to look like before any directory is asked. -/
structure Admissible (source : Source) (login password : String) (direct : Bool) : Prop where
  login_given : login ≠ ""
  password_given : password ≠ ""
  plain : ∀ c ∈ login.toList, c ∉ if direct then nameSpecials else filterSpecials
  template : direct = true → Template.holes source.userDn = 1

def serviceBind (source : Source) : Record :=
  match source.serviceCredentials with
  | none => []
  | some (dn, password) => [⟨.bind dn password, .ok .bound⟩]

/-- How the name to bind with is established: by the template, or as that of the only entry found. -/
inductive Named (source : Source) (login : String) : Bool → Record → String → Prop where
  | template : Named source login true [] (Template.fill source.userDn login)
  | search {found : Entry} (named : found.dn ≠ "") :
      Named source login false
        (serviceBind source ++
          [⟨.search source.userBase (Template.fill source.userFilter login) [], .ok [found]⟩])
        found.dn

/-- The administrator check, which may fail without harm. -/
inductive AdminChecked (source : Source) (dn login : String) : Record → Bool → Prop where
  | noFilter (absent : source.adminFilter.getD "" = "") : AdminChecked source dn login [] false
  | asked {template : String} {answer : Except Fault (List Entry)} {isAdmin : Bool}
      (given : source.adminFilter = some template) (nonempty : template ≠ "")
      (matched : isAdmin = true ↔ ∃ entry others, answer = .ok (entry :: others)) :
      AdminChecked source dn login
        [⟨.search dn (Template.fill template login) [source.attributes.name], answer⟩] isAdmin

/-- The bind as the user and the reading of the user's entry, in either order. -/
inductive Checked (source : Source) (login password dn : String) : Bool → Record → Entry → Bool → Prop where
  | bindFirst {entry : Entry} {others : List Entry} {admin : Record} {isAdmin : Bool}
      (administrator : AdminChecked source dn login admin isAdmin) :
      Checked source login password dn true
        (⟨.bind dn password, .ok .bound⟩ ::
          ⟨.search dn (Template.fill source.userFilter login) source.attributes.toList,
            .ok (entry :: others)⟩ :: admin)
        entry isAdmin
  | bindLast {entry : Entry} {others : List Entry} {admin : Record} {isAdmin : Bool}
      (administrator : AdminChecked source dn login admin isAdmin) :
      Checked source login password dn false
        (⟨.search dn (Template.fill source.userFilter login) source.attributes.toList,
            .ok (entry :: others)⟩ :: (admin ++ [⟨.bind dn password, .ok .bound⟩]))
        entry isAdmin

/-- The whole first connection, over which the user is verified. -/
inductive Verified (source : Source) (login password : String) (direct : Bool) :
    Record → Entry → Bool → Prop where
  | intro {naming checking : Record} {dn : String} {entry : Entry} {isAdmin : Bool}
      (named : Named source login direct naming dn)
      (checked : Checked source login password dn (direct || !source.attributesInBind)
        checking entry isAdmin) :
      Verified source login password direct
        (⟨.connect source, .ok ()⟩ :: (naming ++ checking ++ [⟨.unbind, ()⟩])) entry isAdmin

/-- The group lookup over the second connection. Whatever goes wrong, it yields no groups. -/
inductive GroupsLookedUp (source : Source) (filter : String) : Record → List String → Prop where
  | noBase (absent : source.userBase = "") : GroupsLookedUp source filter [] []
  | unreachable {fault : Fault} (base : source.userBase ≠ "") :
      GroupsLookedUp source filter [⟨.connect source, .error fault⟩] []
  | refused {dn password : String} {answer : Except Fault BindOutcome} (base : source.userBase ≠ "")
      (service : source.serviceCredentials = some (dn, password)) (unbound : answer ≠ .ok .bound) :
      GroupsLookedUp source filter
        [⟨.connect source, .ok ()⟩, ⟨.bind dn password, answer⟩, ⟨.unbind, ()⟩] []
  | failed {fault : Fault} (base : source.userBase ≠ "") :
      GroupsLookedUp source filter
        (⟨.connect source, .ok ()⟩ :: (serviceBind source ++
          [⟨.search source.userBase filter [source.groupAttribute], .error fault⟩, ⟨.unbind, ()⟩])) []
  | nobody (base : source.userBase ≠ "") :
      GroupsLookedUp source filter
        (⟨.connect source, .ok ()⟩ :: (serviceBind source ++
          [⟨.search source.userBase filter [source.groupAttribute], .ok []⟩, ⟨.unbind, ()⟩])) []
  | found {entry : Entry} {others : List Entry} (base : source.userBase ≠ "") :
      GroupsLookedUp source filter
        (⟨.connect source, .ok ()⟩ :: (serviceBind source ++
          [⟨.search source.userBase filter [source.groupAttribute], .ok (entry :: others)⟩,
            ⟨.unbind, ()⟩]))
        (entry.values source.groupAttribute)

/-- The whole login: the user is verified, the groups are looked up, and the identity is made of the
first entry of the attribute search. -/
inductive Accepted (source : Source) (login password : String) (direct : Bool) :
    Record → Identity → Prop where
  | intro {session lookup : Record} {entry : Entry} {isAdmin : Bool} {groups : List String}
      (verified : Verified source login password direct session entry isAdmin)
      (looked : GroupsLookedUp source (Template.fill source.userFilter login) lookup groups) :
      Accepted source login password direct (session ++ lookup)
        { username :=
            if entry.firstValue source.attributes.username = "" then login
            else entry.firstValue source.attributes.username
          name := entry.firstValue source.attributes.name
          surname := entry.firstValue source.attributes.surname
          mail := entry.firstValue source.attributes.mail
          isAdmin
          groups }

theorem Accepted.ne_nil {source : Source} {login password : String} {direct : Bool} {record : Record}
    {identity : Identity} (accepted : Accepted source login password direct record identity) :
    record ≠ [] := by
  obtain ⟨⟨_, _⟩, _⟩ := accepted
  exact List.cons_ne_nil _ _

end QueryGate.Login
