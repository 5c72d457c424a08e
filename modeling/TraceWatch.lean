import TraceWatch.Number.Binary64
import TraceWatch.Number.Layout
import TraceWatch.Number.Shortest
import TraceWatch.Text.Base64
import TraceWatch.Text.Blank
import TraceWatch.Text.Hexadecimal
import TraceWatch.Text.Octets
import TraceWatch.Text.Parts
import TraceWatch.Text.Quoted
import TraceWatch.Json.Printer
import TraceWatch.Json.Reader
import TraceWatch.Json.Record
import TraceWatch.Json.Token
import TraceWatch.Json.Value
import TraceWatch.Time.Calendar
import TraceWatch.Time.Rfc3339
import TraceWatch.Time.Timestamp
import TraceWatch.Uuid
import TraceWatch.Evaluator
import TraceWatch.Failure
import TraceWatch.Window
import TraceWatch.Monitor.Basic
import TraceWatch.Monitor.Document
import TraceWatch.Monitor.Rules
import TraceWatch.Run.Basic
import TraceWatch.Run.Report
import TraceWatch.Job
import TraceWatch.Store.Basic
import TraceWatch.Store.Call
import TraceWatch.Service.Cycle
import TraceWatch.Service.Execution
import TraceWatch.Service.Health
import TraceWatch.Service.Loop
import TraceWatch.Service.Management
import TraceWatch.Service.Program
import TraceWatch.Service.Request
import TraceWatch.Simulation.Script
import TraceWatch.Simulation.World
import TraceWatch.Yaml.Fields
import TraceWatch.Yaml.Node
import TraceWatch.Yaml.Printer
import TraceWatch.Yaml.Scalar.Block
import TraceWatch.Yaml.Scalar.Plain
import TraceWatch.Yaml.Scalar.Quoted
import TraceWatch.Yaml.Text
import TraceWatch.Yaml.Token
import TraceWatch.Yaml.Word
import TraceWatch.Url.Basic
import TraceWatch.Url.Domain
import TraceWatch.Url.Host
import TraceWatch.Url.Parser
import TraceWatch.Url.Punycode
import TraceWatch.Url.Query
import TraceWatch.Url.Socket
import TraceWatch.Config.Basic
import TraceWatch.Config.DatabaseUrl
import TraceWatch.Config.Document
import TraceWatch.Config.Environment
import TraceWatch.Config.EnvironmentFile
import TraceWatch.Config.Files
import TraceWatch.Config.Folder
import TraceWatch.Config.Redaction
import TraceWatch.Config.Rules
import TraceWatch.Plane.Reply
import TraceWatch.Plane.Request
import TraceWatch.Command.Arguments
import TraceWatch.Command.Output
import TraceWatch.Command.Run
import TraceWatch.Main
import TraceWatch.Proofs.Text.Uuid
import TraceWatch.Proofs.Program.Laws
import TraceWatch.Proofs.Program.Layout
import TraceWatch.Proofs.Program.Plays
import TraceWatch.Proofs.Execution.Assignment
import TraceWatch.Proofs.Execution.Outcome
import TraceWatch.Proofs.Store.Frame
import TraceWatch.Proofs.System.Site
import TraceWatch.Proofs.System.Commons
import TraceWatch.Proofs.System.Replay
import TraceWatch.Proofs.System.Moves
import TraceWatch.Proofs.Protocol.Phase
import TraceWatch.Proofs.Protocol.Follows
import TraceWatch.Proofs.Protocol.Operations
import TraceWatch.Proofs.Protocol.Scene
import TraceWatch.Proofs.Protocol.Inversion
import TraceWatch.Proofs.Protocol.Identity
import TraceWatch.Proofs.Protocol.Reachable
import TraceWatch.Proofs.Store.Consistency
import TraceWatch.Proofs.Store.Schedule
import TraceWatch.Proofs.Monitors.Rules
import TraceWatch.Proofs.Monitors.Pattern
import TraceWatch.Proofs.Monitors.Origin
import TraceWatch.Proofs.Schedule.Window
import TraceWatch.Proofs.Schedule.Steady
import TraceWatch.Proofs.Schedule.Tiling
import TraceWatch.Proofs.Schedule.Coverage
import TraceWatch.Proofs.Schedule.Recall
import TraceWatch.Proofs.Schedule.Withdrawal
import TraceWatch.Proofs.Jobs.Custody
import TraceWatch.Proofs.Jobs.Names
import TraceWatch.Proofs.Jobs.Loss
import TraceWatch.Proofs.Monitors.WellFormed
import TraceWatch.Proofs.Monitors.Presence
import TraceWatch.Proofs.Monitors.Creation
import TraceWatch.Proofs.Schedule.Switch
import TraceWatch.Proofs.Schedule.Contest
import TraceWatch.Proofs.Monitors.Atomicity
import TraceWatch.Proofs.Schedule.Planning
import TraceWatch.Proofs.Runs.InFlight
import TraceWatch.Proofs.Runs.Settlement
import TraceWatch.Proofs.Schedule.Override
import TraceWatch.Proofs.Schedule.Seam
import TraceWatch.Proofs.Monitors.Definition
import TraceWatch.Proofs.Monitors.Revision
import TraceWatch.Proofs.System.Faults
import TraceWatch.Proofs.Lock.Discipline
import TraceWatch.Proofs.Lock.Order
import TraceWatch.Proofs.Lock.Turns
import TraceWatch.Proofs.Isolation.Share
import TraceWatch.Proofs.Isolation.Confined
import TraceWatch.Proofs.Isolation.Tenants
import TraceWatch.Proofs.Runs.Rerun
import TraceWatch.Proofs.Cycle.Triggers
import TraceWatch.Proofs.Cycle.Inquiries
import TraceWatch.Proofs.Cycle.Round
import TraceWatch.Proofs.Cycle.Treatment
import TraceWatch.Proofs.Schedule.Calendar
import TraceWatch.Proofs.Cycle.Alone
import TraceWatch.Proofs.Cycle.Repetition
import TraceWatch.Proofs.Runs.Reading
import TraceWatch.Proofs.Runs.WellFormed
import TraceWatch.Proofs.Cycle.Units
import TraceWatch.Proofs.Cycle.Interruption
import TraceWatch.Proofs.Jobs.Grounds
import TraceWatch.Proofs.Jobs.Address
import TraceWatch.Proofs.Jobs.Labels
import TraceWatch.Proofs.Jobs.Collision
import TraceWatch.Proofs.Loop.Heeding
import TraceWatch.Proofs.Loop.Background
import TraceWatch.Proofs.Loop.Endurance
import TraceWatch.Proofs.Loop.Upkeep
import TraceWatch.Proofs.Loop.Lifecycle
import TraceWatch.Proofs.Time.Calendar
import TraceWatch.Proofs.Time.Rfc3339
import TraceWatch.Proofs.Json.Lexing
import TraceWatch.Proofs.Json.Reading
import TraceWatch.Proofs.Jobs.Fidelity
import TraceWatch.Proofs.Schedule.Due
import TraceWatch.Proofs.Monitors.Requests
import TraceWatch.Proofs.Monitors.Identifiers
import TraceWatch.Proofs.Monitors.Admission
import TraceWatch.Proofs.System.Instant
import TraceWatch.Proofs.Runs.Conditions
import TraceWatch.Proofs.Monitors.Deletion
import TraceWatch.Proofs.Monitors.Views
import TraceWatch.Proofs.Loop.Overlap
import TraceWatch.Proofs.Text.Octets
import TraceWatch.Proofs.Text.Parts
import TraceWatch.Proofs.Url.Path
import TraceWatch.Proofs.Url.Extension
import TraceWatch.Proofs.Url.Slash
import TraceWatch.Proofs.Plane.Address
import TraceWatch.Proofs.Plane.Base
import TraceWatch.Proofs.Yaml.Spelling
import TraceWatch.Proofs.Config.Redaction
import TraceWatch.Proofs.Command.Verdict
import TraceWatch.Proofs.Runs.History
