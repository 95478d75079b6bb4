import Handoff.Executor.Command
import Handoff.Wire.Message
import Handoff.Wire.Printed
import Handoff.Text.Utf8
import Handoff.Text.Blank
import Handoff.Text.Decimal
import Handoff.Toml.Document
import Handoff.Settings.Document
import Handoff.Settings.Environment
import Handoff.Pipeline.Feeds
import Handoff.EnvironmentFile
import Handoff.CommandLine.Session
import Handoff.Folder
import Handoff.Main
import Handoff.Proofs.Ring.Occupancy
import Handoff.Proofs.Queue.Refusal
import Handoff.Proofs.Executor.Conservation
import Handoff.Proofs.Executor.Ceiling
import Handoff.Proofs.Executor.Tame
import Handoff.Proofs.Executor.Wakeups
import Handoff.Proofs.Executor.Departures
import Handoff.Proofs.Executor.Accounts
import Handoff.Proofs.Executor.Shutdown
import Handoff.Proofs.Executor.Pool
import Handoff.Proofs.Executor.Cancellation
import Handoff.Proofs.Executor.Errands
import Handoff.Proofs.Executor.Unseen
import Handoff.Proofs.Pipeline.Load
import Handoff.Proofs.Pipeline.Stream
import Handoff.Proofs.Json.Completeness
import Handoff.Proofs.Json.Plain
import Handoff.Proofs.Wire.Agreement
import Handoff.Proofs.Wire.RoundTrip
import Handoff.Proofs.Wire.Acceptance
import Handoff.Proofs.Executor.Figures
import Handoff.Proofs.Executor.Rest
import Handoff.Proofs.Settings.Given
import Handoff.Proofs.Settings.Loading
import Handoff.Proofs.Queue.Capacity
import Handoff.Proofs.Queue.Construction
import Handoff.Proofs.Executor.Precedence
import Handoff.Proofs.Executor.Deadlines
import Handoff.Proofs.Executor.Waiting
import Handoff.Proofs.Ring.Words
import Handoff.Proofs.Json.Truncation
import Handoff.Proofs.Wire.Truncation
import Handoff.Proofs.Toml.Strings
import Handoff.Proofs.Settings.Reloading
