import QueryGate.Proofs.Login.Outcome
import QueryGate.Proofs.Login.Sessions

/-! What a login asks beside the directory: its source's flag at first and, when it found the
directory out of reach, the flag once more, which it then clears. -/

namespace QueryGate.Login

open Directory (Source)
open Program (Follows follows_ask follows_ask_done follows_bind follows_done follows_request)

def ofDirectory (exchange : Exchange) : Program.Exchange Effect Effect.Answer :=
  ⟨.directory exchange.1, exchange.2⟩

theorem follows_ofTalk {α : Type} {talk : Talk α} {t : List (Program.Exchange Effect Effect.Answer)} {a : α} :
    Follows (Steps.ofTalk talk) t a ↔ ∃ record : Record, t = record.map ofDirectory ∧ Follows talk record a :=
  Program.follows_via fun _ _ _ => follows_request

theorem directoryExchanges_ofDirectory (record : Record) :
    Authenticator.directoryExchanges (record.map ofDirectory) = record := by
  induction record with
  | nil => rfl
  | cons exchange record ih =>
    rw [List.map_cons, ofDirectory, Authenticator.directoryExchanges, ih]

variable {source : Source} {name password : String} {direct : Bool}
  {t : List (Program.Exchange Effect Effect.Answer)} {result : Except Fault Identity}

theorem follows_attempt (tried : Follows (attempt source name password direct) t result) :
    ∃ (available : Bool) (record : Record), t = ⟨.isAvailable, available⟩ :: record.map ofDirectory ∧
      (record = [] ∨ Scheduled source name password direct record result.isOk) := by
  rw [Authenticator.attempt_eq, follows_ask] at tried
  obtain ⟨available, rest, rfl, going⟩ := tried
  refine ⟨available, ?_⟩
  split at going
  · split at going
    · obtain ⟨rfl, rfl⟩ := follows_done.mp going
      exact ⟨[], rfl, .inl rfl⟩
    · rename_i input passed
      obtain ⟨_, rfl⟩ := screen_eq_ok.mp passed
      obtain ⟨record, rfl, talked⟩ := follows_ofTalk.mp going
      exact ⟨record, rfl, .inr (scheduled_of_follows talked)⟩
  · obtain ⟨rfl, rfl⟩ := follows_done.mp going
    exact ⟨[], rfl, .inl rfl⟩

/-- What a login asks after its attempt. -/
inductive Settled : List (Program.Exchange Effect Effect.Answer) → Except Fault Identity → Prop where
  | reached {result : Except Fault Identity} : Settled [] result
  | already {reason : String} : Settled [⟨.isAvailable, false⟩] (.error (.directoryUnavailable reason))
  | disabled {reason : String} :
      Settled [⟨.isAvailable, true⟩, ⟨.disable, ()⟩] (.error (.directoryUnavailable reason))

theorem Settled.silent (settled : Settled t result) : Authenticator.directoryExchanges t = [] := by
  cases settled <;> rfl

theorem follows_settle {final : Except Fault Identity} (settled : Follows (Authenticator.settle result) t final) :
    final = result ∧ Settled t result := by
  unfold Authenticator.settle at settled
  split at settled
  · rename_i unreachable
    obtain ⟨reason, rfl⟩ : ∃ reason, result = .error (.directoryUnavailable reason) := by
      unfold Authenticator.isUnreachable at unreachable
      split at unreachable
      · exact ⟨_, rfl⟩
      · cases unreachable
    obtain ⟨_, available, after, rfl, asked, rest⟩ := follows_bind.mp settled
    obtain rfl := follows_request.mp asked
    cases available with
    | false =>
      obtain ⟨rfl, rfl⟩ := follows_done.mp rest
      exact ⟨rfl, .already⟩
    | true =>
      obtain ⟨_, _, _, rfl, cleared, ended⟩ := follows_bind.mp rest
      obtain rfl := follows_request.mp cleared
      obtain ⟨rfl, rfl⟩ := follows_done.mp ended
      exact ⟨rfl, .disabled⟩
  · obtain ⟨rfl, rfl⟩ := follows_done.mp settled
    exact ⟨rfl, .reached⟩

/-- A login looks at the flag, talks to the directory if it is to, and settles the flag. -/
theorem follows_login (tried : Follows (login source name password) t result) :
    ∃ (available : Bool) (record : Record) (after : List (Program.Exchange Effect Effect.Answer)),
      t = ⟨.isAvailable, available⟩ :: (record.map ofDirectory ++ after) ∧
        (record = [] ∨ Scheduled source name password source.useDirectBind record result.isOk) ∧
        Settled after result := by
  rw [login, Authenticator.authenticate_steps, follows_bind] at tried
  obtain ⟨_, attempted, after, rfl, first, last⟩ := tried
  obtain ⟨rfl, settled⟩ := follows_settle last
  obtain ⟨available, record, rfl, scheduled⟩ := follows_attempt first
  exact ⟨available, record, after, rfl, scheduled, settled⟩

theorem disables_last (tried : Follows (login source name password) t result) (disabled : ⟨.disable, ()⟩ ∈ t) :
    ∃ reason before, result = .error (.directoryUnavailable reason) ∧ t = before ++ [⟨.disable, ()⟩] ∧
      ⟨.disable, ()⟩ ∉ before := by
  obtain ⟨available, record, after, rfl, _, settled⟩ := follows_login tried
  -- the conversation with the directory clears nothing by itself
  have talks : (⟨.disable, ()⟩ : Program.Exchange Effect Effect.Answer) ∉ record.map ofDirectory := by
    intro member
    obtain ⟨exchange, _, same⟩ := List.mem_map.mp member
    cases same
  cases settled with
  | reached => simp [talks] at disabled
  | already => simp [talks] at disabled
  | @disabled reason =>
    refine ⟨reason, ⟨.isAvailable, available⟩ :: (record.map ofDirectory ++ [⟨.isAvailable, true⟩]), rfl, ?_, ?_⟩
    · simp
    · simp [talks]

end QueryGate.Login
