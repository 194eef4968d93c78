import QueryGate.Arithmetic
import QueryGate.Basic
import QueryGate.CommandLine.Arguments
import QueryGate.CommandLine.EnvFile
import QueryGate.CommandLine.Help
import QueryGate.CommandLine.Run
import QueryGate.Config.Basic
import QueryGate.Config.Document
import QueryGate.Config.Environment
import QueryGate.Config.Problem
import QueryGate.Config.Validation
import QueryGate.Crypto.Ecdsa
import QueryGate.Crypto.Ed25519
import QueryGate.Crypto.Rsa
import QueryGate.Crypto.Sha2
import QueryGate.Crypto.Weierstrass
import QueryGate.Directory.Client
import QueryGate.Directory.Conversation
import QueryGate.Directory.Filter.Basic
import QueryGate.Directory.Filter.Grammar
import QueryGate.Directory.Filter.Matching
import QueryGate.Directory.Memory
import QueryGate.Directory.Script
import QueryGate.Directory.Source
import QueryGate.Encoding.Base64
import QueryGate.Encoding.Der
import QueryGate.Encoding.Form
import QueryGate.Encoding.Pem
import QueryGate.Files.Tree
import QueryGate.Gateway.Database
import QueryGate.Gateway.Effect
import QueryGate.Gateway.Handlers
import QueryGate.Gateway.State
import QueryGate.Http.Message
import QueryGate.Json.Number
import QueryGate.Json.Reader
import QueryGate.Json.Skip
import QueryGate.Json.Text
import QueryGate.Json.Value
import QueryGate.Json.Writer
import QueryGate.Login.Authenticator
import QueryGate.Login.Conversation
import QueryGate.Main
import QueryGate.Policy.Access
import QueryGate.Program
import QueryGate.Proofs.CommandLine.Check
import QueryGate.Proofs.Config.Validation
import QueryGate.Proofs.Directory.Filter.Meaning
import QueryGate.Proofs.Directory.Filter.Texts
import QueryGate.Proofs.Directory.Memory
import QueryGate.Proofs.Directory.Replies
import QueryGate.Proofs.Encoding.Base64
import QueryGate.Proofs.Encoding.Form
import QueryGate.Proofs.Gateway.Availability
import QueryGate.Proofs.Gateway.FailureResponses
import QueryGate.Proofs.Gateway.ForwardedRequest
import QueryGate.Proofs.Gateway.History
import QueryGate.Proofs.Gateway.Interleaving
import QueryGate.Proofs.Gateway.LoginFlights
import QueryGate.Proofs.Gateway.LoginTrace
import QueryGate.Proofs.Gateway.Parameters
import QueryGate.Proofs.Gateway.QueryGating
import QueryGate.Proofs.Gateway.QueryTrace
import QueryGate.Proofs.Gateway.Reloading
import QueryGate.Proofs.Gateway.Sessions
import QueryGate.Proofs.Gateway.Tearing
import QueryGate.Proofs.Json.Agreement
import QueryGate.Proofs.Json.Containment
import QueryGate.Proofs.Json.Drift
import QueryGate.Proofs.Json.Members
import QueryGate.Proofs.Json.Nesting
import QueryGate.Proofs.Json.Numbers
import QueryGate.Proofs.Json.Outcomes
import QueryGate.Proofs.Json.Passing
import QueryGate.Proofs.Json.Places
import QueryGate.Proofs.Json.Reading
import QueryGate.Proofs.Json.Skipping
import QueryGate.Proofs.Json.Texts
import QueryGate.Proofs.Json.Values
import QueryGate.Proofs.Login.Acceptance
import QueryGate.Proofs.Login.DirectGroups
import QueryGate.Proofs.Login.Faults
import QueryGate.Proofs.Login.Flights
import QueryGate.Proofs.Login.History
import QueryGate.Proofs.Login.InMemory
import QueryGate.Proofs.Login.Latch
import QueryGate.Proofs.Login.Outcome
import QueryGate.Proofs.Login.Parts
import QueryGate.Proofs.Login.Passwords
import QueryGate.Proofs.Login.Record
import QueryGate.Proofs.Login.Replies
import QueryGate.Proofs.Login.Schedule
import QueryGate.Proofs.Login.SearchedUser
import QueryGate.Proofs.Login.Sessions
import QueryGate.Proofs.Login.Substitution
import QueryGate.Proofs.Login.Traces
import QueryGate.Proofs.Login.Unreachable
import QueryGate.Proofs.Policy.Decisions
import QueryGate.Proofs.Policy.Sections
import QueryGate.Proofs.Policy.Spelling
import QueryGate.Proofs.Program.Only
import QueryGate.Proofs.Program.Progress
import QueryGate.Proofs.Program.Trace
import QueryGate.Proofs.Template
import QueryGate.Proofs.Text.Lowercase
import QueryGate.Proofs.Text.Utf8
import QueryGate.Proofs.Token.Claims
import QueryGate.Proofs.Token.Lifetimes
import QueryGate.Proofs.Token.Members
import QueryGate.Proofs.Token.RoundTrip
import QueryGate.Proofs.Token.SecondReading
import QueryGate.Proofs.Token.SignatureText
import QueryGate.Proofs.Token.Transport
import QueryGate.Proofs.Token.Verification
import QueryGate.Text.Characters
import QueryGate.Text.Lowercase
import QueryGate.Text.Utf8
import QueryGate.Token.Algorithm
import QueryGate.Token.Claims
import QueryGate.Token.Header
import QueryGate.Token.Key
import QueryGate.Token.Signature
import QueryGate.Token.Signer
import QueryGate.Toml.Document
import QueryGate.Toml.Quoted
import QueryGate.Toml.Reader
import QueryGate.Toml.Scalar
import QueryGate.Toml.Table
import QueryGate.Toml.Value
