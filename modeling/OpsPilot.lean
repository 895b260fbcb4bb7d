import OpsPilot.Control.Fence
import OpsPilot.Control.Invariant
import OpsPilot.Control.Machine
import OpsPilot.Control.Outcome
import OpsPilot.Domain.Control
import OpsPilot.Domain.Observation
import OpsPilot.Domain.Runs
import OpsPilot.Domain.Subjects
import OpsPilot.Foundations.Interleaving
import OpsPilot.Foundations.Json
import OpsPilot.Foundations.StateMachine
import OpsPilot.Foundations.Table
import OpsPilot.Foundations.Transaction
import OpsPilot.Foundations.Transition
import OpsPilot.Foundations.Traversal
import OpsPilot.Observation.Judge
import OpsPilot.Observation.Replay
import OpsPilot.Observation.Revocation
import OpsPilot.Observation.Sound
import OpsPilot.Observation.Store
import OpsPilot.Persistence.Alerts
import OpsPilot.Persistence.Base
import OpsPilot.Persistence.Events
import OpsPilot.Persistence.Budgets
import OpsPilot.Persistence.Controls
import OpsPilot.Persistence.Incidents
import OpsPilot.Persistence.Rebuild
import OpsPilot.Persistence.Runs
import OpsPilot.Persistence.Schema
import OpsPilot.Persistence.Steps
import OpsPilot.Persistence.View
import OpsPilot.System.Adoptions
import OpsPilot.System.Alerts
import OpsPilot.System.Budgets
import OpsPilot.System.Charges
import OpsPilot.System.Decisions
import OpsPilot.System.Frames
import OpsPilot.System.Inputs
import OpsPilot.System.LateResults
import OpsPilot.System.Leases
import OpsPilot.System.Lifecycles
import OpsPilot.System.Machine
import OpsPilot.System.Publication
import OpsPilot.System.Refusals
import OpsPilot.System.Replay
import OpsPilot.System.RunStates
import OpsPilot.System.Sessions
import OpsPilot.System.Simulation
import OpsPilot.Foundations.JsonText
import OpsPilot.Investigation.Reports
import OpsPilot.Foundations.Forest
import OpsPilot.Foundations.Ranking
import OpsPilot.Investigation.Policies
import OpsPilot.Investigation.Acceptance
import OpsPilot.Persistence.Outbox
import OpsPilot.System.Backlog
import OpsPilot.System.Intakes
import OpsPilot.System.Merges
import OpsPilot.System.Outbox
import OpsPilot.System.ReleaseRuns
import OpsPilot.System.Anomalies
import OpsPilot.System.Comparisons
import OpsPilot.System.Generation
import OpsPilot.System.Retention
import OpsPilot.System.Recovery
import OpsPilot.System.ToolResults
import OpsPilot.System.AutoObservation
import OpsPilot.Evaluation.Gate
import OpsPilot.Evaluation.Runs
import OpsPilot.Investigation.Projection
import OpsPilot.Investigation.Window
import OpsPilot.System.Correlation
import OpsPilot.Investigation.StepKeys
import OpsPilot.Investigation.Snapshot
import OpsPilot.Persistence.Delivery
import OpsPilot.Investigation.Transcript
import OpsPilot.Redaction.Noninterference
import OpsPilot.Observer.Health
import OpsPilot.Domain.ReleaseWindows
import OpsPilot.Foundations.Excerpt
import OpsPilot.Redaction.Bounded
import OpsPilot.Redaction.AlertContext
import OpsPilot.Foundations.Paging
import OpsPilot.System.DueClaims
import OpsPilot.Foundations.Patterns
import OpsPilot.Observer.SupportedProfiles
import OpsPilot.System.StaleScan
import OpsPilot.Knowledge.ModelOutput
import OpsPilot.System.EventStream
import OpsPilot.Control.Settlement
import OpsPilot.System.Settlement
import OpsPilot.System.Targets
import OpsPilot.Web.Actions
import OpsPilot.System.OfferedActions
import OpsPilot.Knowledge.FailureKeys
import OpsPilot.System.GenerationJobs
import OpsPilot.System.Attempts
import OpsPilot.System.FailureCount
import OpsPilot.System.BoundedAttempts
import OpsPilot.Foundations.Grouping
import OpsPilot.Knowledge.Hints
import OpsPilot.Evaluation.DatasetHash
import OpsPilot.Evaluation.ReportBlock
import OpsPilot.Foundations.Lines
import OpsPilot.Evaluation.Codec
import OpsPilot.Evaluation.EventStream
import OpsPilot.Evaluation.StreamCuts
import OpsPilot.Evaluation.StreamDocument
import OpsPilot.Evaluation.JudgeOnce
import OpsPilot.Investigation.Coverage
import OpsPilot.Investigation.Truncation
import OpsPilot.Investigation.LastRound
import OpsPilot.System.CollectedRuns
import OpsPilot.System.TruncatedRuns
import OpsPilot.Evaluation.Calibration
import OpsPilot.Observer.QueryTokens
import OpsPilot.Redaction.Shapes
import OpsPilot.System.Histories
