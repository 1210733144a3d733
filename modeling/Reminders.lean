import Reminders.Assoc
import Reminders.Broker.Basic
import Reminders.Broker.Link
import Reminders.Calendar.Basic
import Reminders.Calendar.Housekeeping
import Reminders.Calendar.Listing
import Reminders.CommandLine.Execution
import Reminders.CommandLine.Grammar
import Reminders.CommandLine.Parser
import Reminders.CommandLine.Values
import Reminders.Commands.Calendar
import Reminders.Commands.Config
import Reminders.Commands.Daemon
import Reminders.Config.Check
import Reminders.Config.Loading
import Reminders.Config.Reading
import Reminders.Config.Secret
import Reminders.Config.Settings
import Reminders.Config.Writing
import Reminders.Daemon.Plan
import Reminders.Event.Basic
import Reminders.Event.Id
import Reminders.Event.Patch
import Reminders.Event.Search
import Reminders.Json.Quoted
import Reminders.Json.Token
import Reminders.Json.Value
import Reminders.Logging
import Reminders.Machine.Basic
import Reminders.Machine.Files
import Reminders.Machine.Path
import Reminders.Mail.Basic
import Reminders.Mail.Template
import Reminders.Main
import Reminders.Notification.Basic
import Reminders.Numeric.Binary
import Reminders.Numeric.Decimal
import Reminders.Pipeline.Crew
import Reminders.Pipeline.Directory
import Reminders.Pipeline.Error
import Reminders.Pipeline.Notifier
import Reminders.Pipeline.Sender
import Reminders.Pipeline.Worker
import Reminders.Proofs.Assoc
import Reminders.Proofs.Broker.Acceptance
import Reminders.Proofs.Broker.Acknowledgement
import Reminders.Proofs.Broker.Conservation
import Reminders.Proofs.Broker.Consistency
import Reminders.Proofs.Broker.Copies
import Reminders.Proofs.Broker.Deliveries
import Reminders.Proofs.Broker.FirstInFirstOut
import Reminders.Proofs.Broker.HeldBack
import Reminders.Proofs.Broker.Ledger
import Reminders.Proofs.Broker.Operations
import Reminders.Proofs.Broker.Redelivery
import Reminders.Proofs.Broker.SoleReader
import Reminders.Proofs.Broker.Tables
import Reminders.Proofs.Calendar.Apart
import Reminders.Proofs.Calendar.Cutoff
import Reminders.Proofs.Calendar.DistinctStarts
import Reminders.Proofs.Calendar.DoubleBooking
import Reminders.Proofs.Calendar.Failures
import Reminders.Proofs.Calendar.Operations
import Reminders.Proofs.Calendar.Validity
import Reminders.Proofs.Config.Ages
import Reminders.Proofs.Config.Checked
import Reminders.Proofs.Daemon.Periods
import Reminders.Proofs.Event.IdText
import Reminders.Proofs.Json.ObjectText
import Reminders.Proofs.Json.QuotedText
import Reminders.Proofs.Machine.Performing
import Reminders.Proofs.Mail.Rendering
import Reminders.Proofs.Mail.Templates
import Reminders.Proofs.Notification.Layout
import Reminders.Proofs.Notification.RoundTrip
import Reminders.Proofs.Pipeline.Batches
import Reminders.Proofs.Pipeline.ClaimOnce
import Reminders.Proofs.Pipeline.Claims
import Reminders.Proofs.Pipeline.Confirmation
import Reminders.Proofs.Pipeline.Counting
import Reminders.Proofs.Pipeline.Deeds
import Reminders.Proofs.Pipeline.Handling
import Reminders.Proofs.Pipeline.PassAccount
import Reminders.Proofs.Pipeline.Reclaim
import Reminders.Proofs.Pipeline.SenderAccount
import Reminders.Proofs.Pipeline.Statuses
import Reminders.Proofs.Pipeline.Steps
import Reminders.Proofs.Pipeline.Turns
import Reminders.Proofs.Queue.AllOrNothing
import Reminders.Proofs.Queue.Attachment
import Reminders.Proofs.Queue.Belongings
import Reminders.Proofs.Queue.Budget
import Reminders.Proofs.Queue.CloseNotices
import Reminders.Proofs.Queue.ConsumerSteps
import Reminders.Proofs.Queue.Custody
import Reminders.Proofs.Queue.Delivery
import Reminders.Proofs.Queue.Handle
import Reminders.Proofs.Queue.Publishing
import Reminders.Proofs.Schedule.Course
import Reminders.Proofs.Schedule.FailureLimit
import Reminders.Proofs.Schedule.Log
import Reminders.Proofs.Schedule.Pace
import Reminders.Proofs.Schedule.RunsWhenDue
import Reminders.Proofs.Store.Calls
import Reminders.Proofs.Store.Columns
import Reminders.Proofs.Store.Interchange
import Reminders.Proofs.Store.Laws
import Reminders.Proofs.Store.ReadBack
import Reminders.Proofs.Store.Rows
import Reminders.Proofs.Store.TableLaws
import Reminders.Proofs.Time.Arithmetic
import Reminders.Proofs.Time.Between
import Reminders.Proofs.Time.Intersection
import Reminders.Proofs.Time.MessageText
import Reminders.Proofs.Time.Words
import Reminders.Queue.Backoff
import Reminders.Queue.Connection
import Reminders.Queue.Consumer
import Reminders.Queue.Error
import Reminders.Queue.Producer
import Reminders.Queue.Reconnect
import Reminders.Queue.Retries
import Reminders.Queue.Topology
import Reminders.Rehearsal.Broker
import Reminders.Rehearsal.Pipeline
import Reminders.Rehearsal.Schedule
import Reminders.Rehearsal.Stage
import Reminders.Rehearsal.Store
import Reminders.Schedule.Record
import Reminders.Schedule.Scheduler
import Reminders.Schedule.Ticker
import Reminders.Store.Backend
import Reminders.Store.Basic
import Reminders.Store.Error
import Reminders.Store.Memory
import Reminders.Store.Table
import Reminders.Store.TableText
import Reminders.Text.Blank
import Reminders.Text.Bytes
import Reminders.Text.Hidden
import Reminders.Text.Quoted
import Reminders.Text.Repaired
import Reminders.Time.Civil
import Reminders.Time.Clock
import Reminders.Time.Delay
import Reminders.Time.Instant
import Reminders.Time.Range
import Reminders.Time.Rfc3339
import Reminders.Time.Span
import Reminders.Timeline
import Reminders.Toml.Document
import Reminders.Toml.Number
import Reminders.Toml.Printer
import Reminders.Toml.Text
import Reminders.Toml.Value
