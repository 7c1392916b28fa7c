import Cadence.Text.Blank
import Cadence.Text.Case
import Cadence.Text.Digit
import Cadence.Text.PrintableTable
import Cadence.Text.Utf8
import Cadence.Number.Decimal
import Cadence.Calendar.Weekday
import Cadence.Calendar.IsoTime
import Cadence.Calendar.Epoch
import Cadence.Document.Display
import Cadence.Document.Coerce
import Cadence.Yaml.Read
import Cadence.Yaml.Write
import Cadence.Clause.Spec
import Cadence.Clause.Arguments
import Cadence.Validation.Task
import Cadence.Task.Basic
import Cadence.Task.Due
import Cadence.Task.File
import Cadence.Task.Listing
import Cadence.Task.Record
import Cadence.Store.Basic
import Cadence.Settings.Basic
import Cadence.Log.Event
import Cadence.Log.Level
import Cadence.Program.BuildInfo
import Cadence.Program.Options
import Cadence.Timer.Basic
import Cadence.Timer.Facility
import Cadence.Timer.Sequence
import Cadence.Engine.Advance
import Cadence.Engine.Lifecycle
import Cadence.Engine.Service
import Cadence.Console.Confirmations
import Cadence.Console.Router
import Cadence.Console.Session
import Cadence.Shell.Outcome
import Cadence.Main
import Cadence.Engine.Operation
import Cadence.Proofs.Lines
import Cadence.Proofs.Plan
import Cadence.Proofs.Effects
import Cadence.Proofs.Coherence
import Cadence.Proofs.TimersFollowStore
import Cadence.Proofs.Firings
import Cadence.Proofs.Beating
import Cadence.Proofs.Sweeps
import Cadence.Proofs.WriteThrough
import Cadence.Proofs.Rounding
import Cadence.Proofs.Counts
import Cadence.Proofs.Records
import Cadence.Proofs.Files
import Cadence.Proofs.Loading
import Cadence.Proofs.Reloading
import Cadence.Proofs.Clauses
import Cadence.Proofs.Rendering
import Cadence.Proofs.Filed
import Cadence.Proofs.Restart
import Cadence.Proofs.Outcomes
import Cadence.Proofs.Holders
import Cadence.Proofs.Batches
import Cadence.Proofs.Appointments
import Cadence.Proofs.Sparing
import Cadence.Proofs.Turns
import Cadence.Proofs.Deliveries
import Cadence.Proofs.Handovers
import Cadence.Proofs.Tending
import Cadence.Proofs.Stopping
import Cadence.Proofs.Phases
import Cadence.Proofs.Orders
import Cadence.Proofs.Refusals
import Cadence.Proofs.Deletions
import Cadence.Proofs.Squeezing
import Cadence.Proofs.Creating
import Cadence.Proofs.Leftovers
import Cadence.Proofs.Retiring
import Cadence.Proofs.Replies
import Cadence.Proofs.Dividing
import Cadence.Proofs.Keeping
import Cadence.Proofs.Times
import Cadence.Proofs.Heartbeats
import Cadence.Proofs.Starting
import Cadence.Proofs.Minutes
import Cadence.Proofs.Commands
import Cadence.Proofs.Capitals
import Cadence.Proofs.Days
import Cadence.Proofs.IntegerTimes
import Cadence.Proofs.InsertionOrder
import Cadence.Proofs.Removing
import Cadence.Proofs.Shares
import Cadence.Proofs.Supplies
import Cadence.Proofs.BlankTexts
import Cadence.Proofs.Overlapping
import Cadence.Proofs.Pages
import Cadence.Proofs.Searching
import Cadence.Proofs.Rejoining
import Cadence.Proofs.Assignments
