import QueryGate.Proofs.Directory.Replies
import QueryGate.Proofs.Login.Unreachable

/-! A login over the directory client finds the directory out of reach only if some transfer over
the network got no answer. No result code, no entry and no filter takes a source out of service. -/

namespace QueryGate.Login

open Directory (Answerer Source)
open Directory.Client (IsReplied Mends Network Reply SameTransfers Transfer answerer answerer_recording carry
  carry_replied recording recording_alike)
open Program (AnswerAlike Follows run_alike)

namespace Authenticator

variable {σ τ : Type}

def transfers (network : Network σ) (login password : String) (direct : Bool) (authenticator : Authenticator)
    (state : σ) : List (Program.Exchange Transfer Transfer.Answer) :=
  (authenticator.authenticate (answerer (recording network)) login password direct (state, [])).directory.2

attribute [ext] Outcome

/-- At directories that answer alike, logins go alike. -/
theorem authenticate_alike {related : σ → τ → Prop} {directory : Answerer σ} {other : Answerer τ}
    (alike : AnswerAlike (fun _ => True) related directory other) {s : σ} {t : τ} (start : related s t)
    (authenticator : Authenticator) (login password : String) (direct : Bool) :
    let first := authenticator.authenticate directory login password direct s
    let second := authenticator.authenticate other login password direct t
    second.result = first.result ∧ second.authenticator = first.authenticator ∧
      second.exchanges = first.exchanges ∧ related first.directory second.directory := by
  have effects : AnswerAlike (fun _ => True)
      (fun (x : Authenticator × σ) (y : Authenticator × τ) => y.1 = x.1 ∧ related x.2 y.2)
      (answer directory) (answer other) := by
    rintro effect _ ⟨_, s⟩ ⟨_, t⟩ ⟨rfl, still⟩
    cases effect with
    | isAvailable => exact ⟨rfl, rfl, still⟩
    | disable => exact ⟨rfl, rfl, still⟩
    | directory request =>
      obtain ⟨same, kept⟩ := alike request trivial s t still
      exact ⟨same, rfl, kept⟩
  obtain ⟨result, exchanges, flag, final⟩ := run_alike effects
    (Program.only_any (Login.authenticate authenticator.source login password direct))
    (s := (authenticator, s)) (t := (authenticator, t)) ⟨rfl, start⟩
  exact ⟨result, flag, congrArg directoryExchanges exchanges, final⟩

theorem authenticate_recording (network : Network σ) (authenticator : Authenticator) (state : σ)
    (login password : String) (direct : Bool) :
    let outcome := authenticator.authenticate (answerer network) login password direct state
    let recorded := authenticator.authenticate (answerer (recording network)) login password direct (state, [])
    recorded.result = outcome.result ∧ recorded.authenticator = outcome.authenticator ∧
      recorded.exchanges = outcome.exchanges ∧ recorded.directory.1 = outcome.directory :=
  authenticate_alike (recording_alike network) rfl authenticator login password direct

theorem exchanges_transferred (network : Network σ) (authenticator : Authenticator) (state : σ)
    (login password : String) (direct : Bool) :
    ∀ exchange ∈ (authenticator.authenticate (answerer network) login password direct state).exchanges,
      ∃ part, Follows (carry exchange.1) part exchange.2 ∧
        ∀ x ∈ part, x ∈ authenticator.transfers network login password direct state := by
  obtain ⟨_, _, recorded, _⟩ := authenticate_recording network authenticator state login password direct
  rw [← recorded]
  obtain ⟨_, silent⟩ | ⟨_, _, talked⟩ := turned_away_or_conversed (answerer (recording network)) authenticator
    (state, []) login password direct
  · rw [silent]
    exact List.forall_mem_nil _
  · obtain ⟨noted, same, each⟩ := answerer_recording (Program.run_eq_iff.mp talked).2
    intro exchange member
    obtain ⟨part, follows, within⟩ := each exchange member
    refine ⟨part, follows, fun x inside => ?_⟩
    have listed : authenticator.transfers network login password direct state = noted := same
    rw [listed]
    exact within x inside

/-- Where every transfer got an answer, the login does not end with the directory out of reach, and leaves the flag
as it was. And it makes no difference, neither to the login nor to the transfers, whether the base of a search is
missing or has no entries that match. -/
theorem answering_directory_stays_available (network : Network σ) (authenticator : Authenticator) (state : σ)
    (login password : String) (direct : Bool) :
    let outcome := authenticator.authenticate (answerer network) login password direct state
    let transfers := authenticator.transfers network login password direct state
    ((∀ exchange ∈ transfers, IsReplied exchange) → outcome.authenticator = authenticator ∧
      (authenticator.available = true → ∀ reason, outcome.result ≠ .error (.directoryUnavailable reason))) ∧
    ∀ other, Mends network other →
      authenticator.authenticate (answerer other) login password direct state = outcome ∧
      (authenticator.transfers other login password direct state).map (·.1) = transfers.map (·.1) := by
  intro outcome transfers
  constructor
  · intro replied
    have reached (on : authenticator.available = true) (reason : String) :
        outcome.result ≠ .error (.directoryUnavailable reason) := by
      intro lost
      obtain ⟨exchange, member, ⟨told, unreachable⟩, _⟩ :=
        (authenticate_unreachable (answerer network) state login password direct on).1.mp ⟨reason, lost⟩
      obtain ⟨part, follows, within⟩ := exchanges_transferred network authenticator state login password direct
        exchange (List.takeWhile_subset _ member)
      exact carry_replied follows (fun x inside => replied x (within x inside)) told unreachable
    refine ⟨?_, reached⟩
    cases on : authenticator.available with
    | false => exact congrArg Outcome.authenticator (authenticate_disabled on)
    | true => exact authenticate_keeps (reached on)
  · intro other mends
    obtain ⟨result, flag, exchanges, final⟩ := authenticate_recording network authenticator state login password direct
    obtain ⟨result', flag', exchanges', final'⟩ := authenticate_recording other authenticator state login password direct
    have start : SameTransfers (state, []) (state, []) := ⟨rfl, rfl⟩
    obtain ⟨sameResult, sameFlag, sameExchanges, sameState, sameTransfers⟩ :=
      authenticate_alike mends.answerer_alike start authenticator login password direct
    refine ⟨?_, sameTransfers⟩
    rw [result, result'] at sameResult
    rw [flag, flag'] at sameFlag
    rw [exchanges, exchanges'] at sameExchanges
    rw [final, final'] at sameState
    exact Outcome.ext sameResult sameFlag sameState sameExchanges

/-- A server that answers every search with the reply. -/
def searchedWith (reply : Reply) : Network Unit
  | .open _, _ => (.ok (), ())
  | .send (.search ..), _ => (.ok reply, ())
  | .send _, _ => (.ok {}, ())
  | .close, _ => ((), ())

def searcher : Authenticator := { source := { userBase := "dc=org" } }

def missingBase : Network Unit := searchedWith { code := 32 }

theorem mends_missingBase : Mends missingBase (searchedWith {}) := by
  rintro (_ | ⟨_ | _ | ⟨base, filter, attributes⟩⟩ | _) ⟨⟩
  case send.search => exact ⟨.emptied base filter attributes { code := 32 } "" rfl, rfl⟩
  all_goals exact ⟨.same _ _, rfl⟩

/-- Where the search base is missing, the user is not found, as where it is empty, and the source stays in service. -/
theorem missing_base_stays_available :
    (searcher.authenticate (answerer missingBase) "tesla" "volt" false ()).result = .error .identityNotFound ∧
    (searcher.authenticate (answerer missingBase) "tesla" "volt" false ()).authenticator = searcher ∧
    searcher.authenticate (answerer (searchedWith {})) "tesla" "volt" false () =
      searcher.authenticate (answerer missingBase) "tesla" "volt" false () := by
  obtain ⟨stays, mended⟩ := answering_directory_stays_available missingBase searcher () "tesla" "volt" false
  have noted : searcher.transfers missingBase "tesla" "volt" false () =
      [⟨.open searcher.source, .ok ()⟩, ⟨.send (.search "dc=org" "(uid=tesla)" []), .ok { code := 32 }⟩,
        ⟨.close, ()⟩] := rfl
  have replied : ∀ exchange ∈ searcher.transfers missingBase "tesla" "volt" false (), IsReplied exchange := by
    rw [noted]
    simp [IsReplied]
  exact ⟨rfl, (stays replied).1, (mended _ mends_missingBase).1⟩

end Authenticator
end QueryGate.Login
