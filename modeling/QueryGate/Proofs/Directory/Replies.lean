import QueryGate.Proofs.Login.Faults
import QueryGate.Proofs.Program.Only

/-!
# Replies to the directory client

What the client makes of a server that replies. Whatever the codes of its binds and searches, a server that lets
the client connect and replies to each message is not out of reach. And a search base that the server does not have
is to the client as one under which nothing matches.
-/

namespace QueryGate.Directory.Client

open Program (AnswerAlike Exchange Follows Gives Only follows_bind follows_done only_request run_alike)

variable {σ : Type} {network other : Network σ} {request : Request} {part : List (Exchange Transfer Transfer.Answer)}

/-! ### The transfers over a network -/

/-- The network, noting each transfer over it with its answer. -/
def recording (network : Network σ) : Network (σ × List (Exchange Transfer Transfer.Answer)) :=
  fun transfer (state, noted) =>
    let (given, state) := network transfer state
    (given, state, noted ++ [⟨transfer, given⟩])

theorem gives_recording {s final : σ} {noted whole : List (Exchange Transfer Transfer.Answer)}
    (gives : Gives (recording network) (s, noted) part (final, whole)) : whole = noted ++ part := by
  induction part generalizing s noted with
  | nil =>
    obtain rfl : whole = noted := congrArg Prod.snd gives
    exact (List.append_nil whole).symm
  | cons exchange part ih =>
    obtain ⟨transfer, given⟩ := exchange
    obtain ⟨rfl, later⟩ := gives
    rw [ih later, List.append_assoc]
    rfl

/-- Each request of a conversation is carried out by transfers that are then noted. -/
theorem answerer_recording {record : List (Exchange Request Request.Answer)} {s final : σ}
    {noted whole : List (Exchange Transfer Transfer.Answer)}
    (gives : Gives (answerer (recording network)) (s, noted) record (final, whole)) :
    ∃ transfers, whole = noted ++ transfers ∧
      ∀ exchange ∈ record, ∃ part, Follows (carry exchange.1) part exchange.2 ∧ ∀ x ∈ part, x ∈ transfers := by
  induction record generalizing s noted with
  | nil =>
    obtain rfl : whole = noted := congrArg Prod.snd gives
    exact ⟨[], (List.append_nil whole).symm, List.forall_mem_nil _⟩
  | cons exchange record ih =>
    obtain ⟨request, given⟩ := exchange
    obtain ⟨rfl, later⟩ := gives
    cases carried : (carry request).run (recording network) (s, noted) with
    | mk result part after =>
      obtain ⟨middle, sofar⟩ := after
      obtain ⟨follows, gave⟩ := Program.run_eq_iff.mp carried
      have extended : sofar = noted ++ part := gives_recording gave
      have answered : answerer (recording network) request (s, noted) = (result, middle, sofar) := by
        simp only [answerer, carried]
      rw [answered, extended] at later
      obtain ⟨transfers, same, each⟩ := ih later
      refine ⟨part ++ transfers, same.trans (List.append_assoc _ _ _), List.forall_mem_cons.mpr ⟨?_, ?_⟩⟩
      · rw [answered]
        exact ⟨part, follows, fun x member => List.mem_append_left _ member⟩
      · intro exchange member
        obtain ⟨own, talked, within⟩ := each exchange member
        exact ⟨own, talked, fun x member => List.mem_append_right _ (within x member)⟩

theorem recording_alike (network : Network σ) :
    AnswerAlike (fun _ => True) (fun s t => t.1 = s) (answerer network) (answerer (recording network)) := by
  have transfers : AnswerAlike (fun _ => True) (fun s t => t.1 = s) network (recording network) := by
    rintro transfer _ s ⟨_, noted⟩ rfl
    exact ⟨rfl, rfl⟩
  intro request _ s t same
  obtain ⟨result, _, final⟩ := run_alike transfers (Program.only_any (carry request)) same
  exact ⟨result, final⟩

/-! ### Servers that reply -/

/-- A connection comes about, secured if that is wanted, and a message gets a reply, of whatever code. -/
def IsReplied : Exchange Transfer Transfer.Answer → Prop
  | ⟨.open _, answer⟩ => answer = .ok ()
  | ⟨.send .startTls, answer⟩ => ∃ reply, answer = .ok reply ∧ reply.code = 0
  | ⟨.send _, answer⟩ => ∃ reply, answer = .ok reply
  | ⟨.close, _⟩ => True

theorem follows_send {message : Message} {r : Except Fault Reply} :
    Follows (send message) part r ↔
      ∃ answer, part = [⟨.send message, answer⟩] ∧ r = answer.mapError Fault.directoryUnavailable := by
  have form : send message = .ask (.send message) fun answer =>
      .done ((answer : Except String Reply).mapError Fault.directoryUnavailable) := by
    refine congrArg (Program.ask (Transfer.send message)) (funext fun answer => ?_)
    cases answer <;> rfl
  rw [form]
  exact Program.follows_ask_done

theorem connect_replied {source : Source} {r : Except Fault Unit} (follows : Follows (connect source) part r)
    (replied : ∀ x ∈ part, IsReplied x) : r = .ok () := by
  obtain ⟨_, opened, _, rfl, asked, secured⟩ := follows_bind.mp follows
  obtain rfl := Program.follows_request.mp asked
  obtain ⟨first, later⟩ := List.forall_mem_cons.mp replied
  obtain rfl : opened = .ok () := first
  simp only at secured
  split at secured
  · obtain ⟨_, answer, _, rfl, asked, ended⟩ := follows_bind.mp secured
    obtain rfl := Program.follows_request.mp asked
    obtain ⟨reply, rfl, success⟩ := (List.forall_mem_cons.mp later).1
    simp only [success] at ended
    exact (follows_done.mp ended).2
  · exact (follows_done.mp secured).2

/-- A request carried out over replies alone does not find the directory out of reach. -/
theorem carry_replied {given : request.Answer} (follows : Follows (carry request) part given)
    (replied : ∀ x ∈ part, IsReplied x) (reason : String) :
    request.fault? given ≠ some (.directoryUnavailable reason) := by
  cases request with
  | connect source =>
    obtain rfl : given = .ok () := connect_replied follows replied
    simp [Request.fault?]
  | bind dn password =>
    obtain ⟨_, _, _, rfl, sent, ended⟩ := follows_bind.mp follows
    obtain ⟨_, rfl, rfl⟩ := follows_send.mp sent
    obtain ⟨reply, rfl⟩ := (List.forall_mem_cons.mp replied).1
    obtain ⟨_, rfl⟩ := follows_done.mp ended
    simp [Request.fault?]
  | search base filter attributes =>
    change Follows (search base filter attributes) part given at follows
    unfold search at follows
    split at follows
    · obtain ⟨_, _, _, rfl, sent, ended⟩ := follows_bind.mp follows
      obtain ⟨_, rfl, rfl⟩ := follows_send.mp sent
      obtain ⟨reply, rfl⟩ := (List.forall_mem_cons.mp replied).1
      obtain ⟨_, rfl⟩ := follows_done.mp ended
      unfold Reply.entriesUnder
      split
      · simp [Request.fault?]
      · split <;> simp [Request.fault?]
    · obtain ⟨_, rfl⟩ := follows_done.mp follows
      simp [Request.fault?]
  | unbind => simp [Request.fault?]

/-! ### Missing search bases -/

/-- The answers are the same, or a reply that the base of a search is missing has become one without entries. -/
inductive Mended : (transfer : Transfer) → transfer.Answer → transfer.Answer → Prop where
  | same (transfer : Transfer) (answer : transfer.Answer) : Mended transfer answer answer
  | emptied (base filter : String) (attributes : List String) (reply : Reply) (text : String)
      (missing : reply.code = noSuchObject) :
      Mended (.send (.search base filter attributes)) (.ok reply) (.ok { code := 0, text, entries := [] })

/-- The other network is the same but for replies, any number of them, that the base of a search is missing. -/
def Mends (network other : Network σ) : Prop :=
  ∀ transfer state, Mended transfer (network transfer state).1 (other transfer state).1 ∧
    (other transfer state).2 = (network transfer state).2

def IsPlain : Transfer → Prop
  | .send (.search ..) => False
  | _ => True

theorem Mended.eq {transfer : Transfer} {first second : transfer.Answer} (mended : Mended transfer first second)
    (plain : IsPlain transfer) : second = first := by
  cases mended with
  | same => rfl
  | emptied => exact plain.elim

/-- Over both networks the same transfers have been made, from the same state on. -/
def SameTransfers (s t : σ × List (Exchange Transfer Transfer.Answer)) : Prop :=
  t.1 = s.1 ∧ t.2.map (·.1) = s.2.map (·.1)

theorem SameTransfers.noted {s t : σ × List (Exchange Transfer Transfer.Answer)} (same : SameTransfers s t)
    (mends : Mends network other) (transfer : Transfer) :
    SameTransfers (recording network transfer s).2 (recording other transfer t).2 := by
  obtain ⟨state, notedFirst⟩ := s
  obtain ⟨_, notedSecond⟩ := t
  obtain ⟨rfl, listed⟩ := same
  refine ⟨(mends transfer _).2, ?_⟩
  simp only [recording, List.map_append, listed, List.map_cons, List.map_nil]

theorem Mends.alike (mends : Mends network other) :
    AnswerAlike IsPlain SameTransfers (recording network) (recording other) := by
  intro transfer plain s t same
  refine ⟨?_, same.noted mends transfer⟩
  obtain ⟨state, _⟩ := s
  obtain ⟨_, _⟩ := t
  obtain ⟨rfl, _⟩ := same
  exact (mends transfer _).1.eq plain

theorem only_send {message : Message} (plain : IsPlain (.send message)) : Only IsPlain (send message) := by
  refine (only_request plain).bind fun answer => ?_
  cases answer <;> exact .done _

theorem only_connect (source : Source) : Only IsPlain (connect source) := by
  refine (only_request trivial).bind fun opened => ?_
  cases opened with
  | error reason => exact .done _
  | ok =>
    simp only
    split
    · refine (only_request trivial).bind fun answer => ?_
      cases answer with
      | error reason => exact .done _
      | ok reply =>
        simp only
        split <;> exact .done _
    · exact .done _

def searchOutcome (base : String) : Except String Reply → Except Fault (List Entry)
  | .ok reply => reply.entriesUnder base
  | .error reason => .error (.directoryUnavailable reason)

theorem searchOutcome_mended {base filter : String} {attributes : List String} {first second : Except String Reply}
    (mended : Mended (.send (.search base filter attributes)) first second) :
    searchOutcome base second = searchOutcome base first := by
  cases mended with
  | same => rfl
  | emptied _ _ _ reply text missing => simp [searchOutcome, Reply.entriesUnder, missing, noSuchObject]

theorem search_eq {base filter : String} (valid : Filter.Grammar.isFilter filter.toList = true)
    (attributes : List String) :
    search base filter attributes =
      .ask (.send (.search base filter attributes)) fun answer => .done (searchOutcome base answer) := by
  unfold search
  rw [if_pos valid]
  refine congrArg (Program.ask (Transfer.send (.search base filter attributes))) (funext fun answer => ?_)
  cases answer <;> rfl

/-- Over a mended network every request gets the answer that it got, by the same transfers. -/
theorem Mends.answerer_alike (mends : Mends network other) :
    AnswerAlike (fun _ => True) SameTransfers (answerer (recording network)) (answerer (recording other)) := by
  intro request _ s t same
  have alike (only : Only IsPlain (carry request)) :
      (answerer (recording other) request t).1 = (answerer (recording network) request s).1 ∧
        SameTransfers (answerer (recording network) request s).2 (answerer (recording other) request t).2 := by
    obtain ⟨result, _, final⟩ := run_alike mends.alike only same
    exact ⟨result, final⟩
  cases request with
  | connect source => exact alike (only_connect source)
  | bind dn password =>
    have sent : Only IsPlain (send (.bind dn password)) := only_send trivial
    refine alike (sent.bind fun answer => ?_)
    cases answer <;> exact .done _
  | unbind => exact alike (only_request trivial)
  | search base filter attributes =>
    by_cases valid : Filter.Grammar.isFilter filter.toList = true
    · have step := same.noted mends (.send (.search base filter attributes))
      obtain ⟨state, _⟩ := s
      obtain ⟨_, _⟩ := t
      obtain ⟨rfl, _⟩ := same
      simp only [answerer, carry, search_eq valid, Program.run]
      exact ⟨searchOutcome_mended (mends _ _).1, step⟩
    · refine alike ?_
      simp only [carry, search, if_neg valid]
      exact .done _

end QueryGate.Directory.Client
