import JobPipeline.Api.Cors
import JobPipeline.Api.Encoding
import JobPipeline.Api.Endpoint
import JobPipeline.Api.Error
import JobPipeline.Api.Figures
import JobPipeline.Api.MediaType
import JobPipeline.Api.Message
import JobPipeline.Api.Payload
import JobPipeline.Api.Route
import JobPipeline.Api.Submission
import JobPipeline.Api.View
import JobPipeline.Application
import JobPipeline.Config.App
import JobPipeline.Config.Coercion
import JobPipeline.Config.DotEnv
import JobPipeline.Config.Environment
import JobPipeline.Config.Error
import JobPipeline.Config.Jobs
import JobPipeline.Config.Loader
import JobPipeline.Config.Tree
import JobPipeline.Job.Basic
import JobPipeline.Job.Error
import JobPipeline.Job.Status
import JobPipeline.Job.Uuid
import JobPipeline.Json.Codec
import JobPipeline.Json.Printer
import JobPipeline.Json.Reader
import JobPipeline.Json.Value
import JobPipeline.Ledger.Basic
import JobPipeline.Log.Filter
import JobPipeline.Number.Binary64
import JobPipeline.Number.Layout
import JobPipeline.Number.Numeral
import JobPipeline.Number.Shortest
import JobPipeline.Pipeline
import JobPipeline.Proofs.Api.Answers
import JobPipeline.Proofs.Api.Payloads
import JobPipeline.Proofs.Api.Requests
import JobPipeline.Proofs.Api.Views
import JobPipeline.Proofs.Config.Leaves
import JobPipeline.Proofs.Config.Partial
import JobPipeline.Proofs.Config.Precedence
import JobPipeline.Proofs.Config.Texts
import JobPipeline.Proofs.Config.Tree
import JobPipeline.Proofs.Config.Validation
import JobPipeline.Proofs.Config.Variables
import JobPipeline.Proofs.Drain.Basic
import JobPipeline.Proofs.Drain.Rounds
import JobPipeline.Proofs.Drain.Toil
import JobPipeline.Proofs.Drain.Work
import JobPipeline.Proofs.Job.Attempts
import JobPipeline.Proofs.Job.Changes
import JobPipeline.Proofs.Json.Abridged
import JobPipeline.Proofs.Json.Canonical
import JobPipeline.Proofs.Json.Defaults
import JobPipeline.Proofs.Json.Fields
import JobPipeline.Proofs.Json.Reals
import JobPipeline.Proofs.Json.Records
import JobPipeline.Proofs.Json.RoundTrip
import JobPipeline.Proofs.Json.Scalars
import JobPipeline.Proofs.Json.Sequences
import JobPipeline.Proofs.Json.Skipping
import JobPipeline.Proofs.Ledger.Exporter
import JobPipeline.Proofs.Number.Binary64
import JobPipeline.Proofs.Number.Numeral
import JobPipeline.Proofs.Number.Rounding
import JobPipeline.Proofs.Number.Scaling
import JobPipeline.Proofs.Number.Shortest
import JobPipeline.Proofs.Queue.Counting
import JobPipeline.Proofs.Queue.Discipline
import JobPipeline.Proofs.Scene.Accounts
import JobPipeline.Proofs.Scene.Agreement
import JobPipeline.Proofs.Scene.Basic
import JobPipeline.Proofs.Scene.Conservation
import JobPipeline.Proofs.Scene.Custody
import JobPipeline.Proofs.Scene.Deeds
import JobPipeline.Proofs.Scene.Executions
import JobPipeline.Proofs.Scene.Exhaustion
import JobPipeline.Proofs.Scene.Fate
import JobPipeline.Proofs.Scene.InProgress
import JobPipeline.Proofs.Scene.Moves
import JobPipeline.Proofs.Scene.Retries
import JobPipeline.Proofs.Scene.Tasks
import JobPipeline.Proofs.Service.Building
import JobPipeline.Proofs.Service.Floor
import JobPipeline.Proofs.Service.Graceful
import JobPipeline.Proofs.Service.Guard
import JobPipeline.Proofs.Service.Life
import JobPipeline.Proofs.Service.Lifecycle
import JobPipeline.Proofs.Service.Overlap
import JobPipeline.Proofs.Service.Readiness
import JobPipeline.Proofs.Service.Restart
import JobPipeline.Proofs.Service.Stage
import JobPipeline.Proofs.Service.Tending
import JobPipeline.Proofs.Service.Tenure
import JobPipeline.Proofs.Store.Budget
import JobPipeline.Proofs.Store.History
import JobPipeline.Proofs.Store.Legality
import JobPipeline.Proofs.Store.Listing
import JobPipeline.Proofs.Store.Records
import JobPipeline.Proofs.Store.Recovery
import JobPipeline.Proofs.Sweeper.Effect
import JobPipeline.Proofs.Sweeper.Run
import JobPipeline.Proofs.Text.Percent
import JobPipeline.Proofs.Text.Utf8
import JobPipeline.Proofs.Time.Calendar
import JobPipeline.Proofs.Time.Rfc3339
import JobPipeline.Proofs.Toml.Quoted
import JobPipeline.Proofs.Worker.Cancellation
import JobPipeline.Proofs.Worker.Steadiness
import JobPipeline.Queue.Basic
import JobPipeline.Service.Basic
import JobPipeline.Service.Creation
import JobPipeline.Service.Shutdown
import JobPipeline.Store.Basic
import JobPipeline.Sweeper.Sweep
import JobPipeline.Sweeper.Task
import JobPipeline.Text.Alphanumeric
import JobPipeline.Text.Blank
import JobPipeline.Text.Lower
import JobPipeline.Text.Percent
import JobPipeline.Text.Utf8
import JobPipeline.Time.Calendar
import JobPipeline.Time.Instant
import JobPipeline.Time.Rfc3339
import JobPipeline.Timeline.Basic
import JobPipeline.Timeline.Session
import JobPipeline.Toml.Document
import JobPipeline.Toml.Reader
import JobPipeline.Toml.Scalar
import JobPipeline.Toml.Text
import JobPipeline.Worker.Command
import JobPipeline.Worker.Executor
import JobPipeline.Worker.Handling
import JobPipeline.Worker.Task
