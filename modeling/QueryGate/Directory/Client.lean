import QueryGate.Directory.Conversation
import QueryGate.Directory.Filter.Grammar
import QueryGate.Text.Utf8

/-! The directory client. A server that replies with a failure code is there; only a message without
a reply makes it unavailable. -/

namespace QueryGate.Directory.Client

structure RawEntry where
  dn : String
  attributes : List (String × List Bytes) := []
  deriving DecidableEq, Repr

structure Reply where
  code : Nat := 0
  text : String := ""
  entries : List RawEntry := []
  deriving DecidableEq, Repr

inductive Message where
  | startTls
  | bind (dn password : String)
  | search (base filter : String) (attributes : List String)
  deriving DecidableEq, Repr

inductive Transfer where
  | open (source : Source)
  | send (message : Message)
  | close
  deriving DecidableEq, Repr

abbrev Transfer.Answer : Transfer → Type
  | .open _ => Except String Unit
  | .send _ => Except String Reply
  | .close => Unit

abbrev Network (σ : Type) := (transfer : Transfer) → σ → transfer.Answer × σ

abbrev Transfers := Program Transfer Transfer.Answer

/-- The code of a server that does not have the base of a search. -/
def noSuchObject : Nat := 32

/-- The entry as it is used. An attribute with a value that is not text is left out. -/
def RawEntry.entry (raw : RawEntry) : Entry where
  dn := raw.dn
  attributes := raw.attributes.filterMap fun (name, values) =>
    (values.mapM ofUtf8?).map (name, ·)

def Reply.entriesUnder (reply : Reply) (base : String) : Except Fault (List Entry) :=
  if reply.code = 0 then .ok (reply.entries.map RawEntry.entry)
  else if reply.code = noSuchObject then .ok []
  else
    .error <| .directoryOperation <|
      "search under '" ++ base ++ "' failed with code " ++ toString reply.code ++ ": " ++ reply.text

def send (message : Message) : Transfers (Except Fault Reply) := do
  match ← (Program.request (Transfer.send message) : Transfers (Except String Reply)) with
  | .ok reply => return .ok reply
  | .error reason => return .error (.directoryUnavailable reason)

def connect (source : Source) : Transfers (Except Fault Unit) := do
  let unavailable (reason : String) : Fault :=
    .directoryUnavailable ("connect to " ++ source.url ++ ": " ++ reason)
  match ← (Program.request (Transfer.open source) : Transfers (Except String Unit)) with
  | .error reason => return .error (unavailable reason)
  | .ok () =>
    if source.startTls then
      match ← (Program.request (Transfer.send .startTls) : Transfers (Except String Reply)) with
      | .error reason => return .error (unavailable reason)
      | .ok reply =>
        if reply.code = 0 then return .ok ()
        else return .error (unavailable reply.text)
    else return .ok ()

def search (base filter : String) (attributes : List String) :
    Transfers (Except Fault (List Entry)) := do
  if Filter.Grammar.isFilter filter.toList then
    match ← send (.search base filter attributes) with
    | .ok reply => return reply.entriesUnder base
    | .error fault => return .error fault
  else return .error (.directoryOperation "invalid search filter")

def carry : (request : Request) → Transfers request.Answer
  | .connect source => connect source
  | .bind dn password => do
    match ← send (.bind dn password) with
    | .ok reply => return .ok (.ofCode reply.code)
    | .error fault => return .error fault
  | .search base filter attributes => search base filter attributes
  | .unbind => Program.request Transfer.close

def answerer {σ : Type} (network : Network σ) : Answerer σ := fun request state =>
  let run := (carry request).run network state
  (run.result, run.state)

def unreachable : Network Unit
  | .open _, _ => (.error "connection refused", ())
  | .send _, _ => (.error "not connected", ())
  | .close, _ => ((), ())

end QueryGate.Directory.Client
