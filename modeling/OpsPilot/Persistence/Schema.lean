import OpsPilot.Domain.Control
import OpsPilot.Domain.Runs
import OpsPilot.Domain.Observation
import OpsPilot.Foundations.Json
import OpsPilot.Foundations.Table
import OpsPilot.Foundations.Transaction
import Mathlib.Algebra.Order.Ring.Rat
import Mathlib.Data.Int.ConditionallyCompleteOrder
import Mathlib.Data.List.Sort
import Mathlib.Data.Prod.Lex
import Mathlib.Logic.Relation
import Mathlib.Order.Lattice.Nat

/-!
# The tables of the store

The rows of the incident store and the database as a whole, `Store`. A row has the columns some
modelled operation reads or writes; a column keeps its name. Append-only tables whose key is a
fresh `uuid4` nobody looks up (`opspilot_controls`, `opspilot_suspension_audit`,
`opspilot_observation_endings`) are lists, newest first.
-/

namespace OpsPilot

/-- `opspilot_incidents`. -/
structure IncidentRow where
  intakeKey : String
  state : IncidentState
  lifecycle : IncidentLifecycle := .opened
  mode : IncidentMode := .automatic
  controlGeneration : ℕ := 0
  observationGeneration : ℕ := 0
  currentRunId : Option UUID
  conclusion : Option Json := none
  targetId : Option UUID
  priority : ℕ
  relatedIncidentId : Option UUID
  mergedIntoIncidentId : Option UUID := none
  deriving DecidableEq

/-- `opspilot_runs`. -/
structure RunRow where
  incidentId : UUID
  state : RunExecution
  epoch : ℕ := 0
  owner : Option UUID := none
  leaseUntil : Option Time := none
  controlGeneration : ℕ
  budgetLimit : ℕ
  budgetReserved : ℤ := 0
  budgetSpent : ℤ := 0
  budgetUnknown : ℤ := 0
  toolOperationsUsed : ℕ := 0
  toolSecondsUsed : ℚ := 0
  deadline : Time
  versions : Json
  inputWatermark : ℕ := 0
  input : Option Json
  deriving DecidableEq

/-- The `logical_key` of a step. A late result takes a key under the reserved prefix
`late_result:` that carries the kind, the identity and the lease epoch; no other key may start
with that prefix, so the reserved keys are values of their own. -/
inductive StepKey
  | text (key : String)
  | lateStep (key : String) (epoch : ℕ)
  | lateTool (stepId : UUID) (ordinal : ℕ) (epoch : ℕ)
  | latePublish (stepId : UUID) (epoch : ℕ)
  deriving DecidableEq, Repr

/-- `opspilot_steps.status`. -/
inductive StepStatus
  | responseCommitted | toolResultCommitted | lateResult
  deriving DecidableEq, Repr

/-- `opspilot_steps`; `toolResults` lists `(ordinal, result)`. -/
structure StepRow where
  runId : UUID
  sequence : ℕ
  logicalKey : StepKey
  status : StepStatus
  response : Json
  toolResults : List (ℕ × Json) := []
  controlGeneration : ℕ
  deriving DecidableEq

/-- The actions `control` takes. -/
inductive ControlAction
  | cancel | pause | resume | followUp | correct | takeover | close | reopen
  | rebindTarget | mergeInto
  deriving DecidableEq, Repr

/-- `opspilot_controls.action`. -/
inductive AuditAction
  | control (action : ControlAction)
  | newRun | registerRemediation | autoAuthorizeObservation
  deriving DecidableEq, Repr

/-- `opspilot_controls`: one row for each accepted decision. -/
structure ControlRow where
  incidentId : UUID
  action : AuditAction
  expectedGeneration : ℕ
  resultingGeneration : ℕ
  actor : String
  payload : Option Json
  deriving DecidableEq

/-- `opspilot_inputs.kind`. -/
inductive InputKind
  | event | followUp | correct
  deriving DecidableEq, Repr

/-- `opspilot_inputs`, keyed by `input_id`. -/
structure InputRow where
  incidentId : UUID
  sequence : ℕ
  kind : InputKind
  content : Json
  actor : String
  controlGeneration : ℕ
  deriving DecidableEq

/-- `opspilot_input_rounds`, keyed by `(run_id, logical_key)`. -/
structure RoundRow where
  controlGeneration : ℕ
  inputWatermark : ℕ
  committed : Bool := false
  deriving DecidableEq

/-- `opspilot_budget_reservations.state`. -/
inductive ReservationState
  | reserved | spent | unknown
  deriving DecidableEq, Repr

/-- `opspilot_budget_reservations`, keyed by `reservation_id`. -/
structure ReservationRow where
  runId : UUID
  amount : ℤ
  state : ReservationState := .reserved
  reservedSeconds : ℚ
  seconds : Option ℚ := none
  deriving DecidableEq

/-- `opspilot_tool_charges`, keyed by `dispatch_id`. -/
structure ToolChargeRow where
  runId : UUID
  epoch : ℕ
  operationId : String
  reserved : ℚ
  seconds : Option ℚ := none
  deriving DecidableEq

/-- `opspilot_targets`: the registered identity of a target. -/
structure TargetRow where
  resourceUid : String
  integrationId : Option String := none
  clusterUid : Option String := none
  «namespace» : Option String := none
  workload : Option String := none
  deriving DecidableEq

/-- `opspilot_suspension_audit`; no target for the global gate. -/
structure SuspensionAuditRow where
  targetId : Option UUID
  suspended : Bool
  generation : ℕ
  actor : String
  deriving DecidableEq

/-- `opspilot_health_profiles`: the canonical text of a profile revision, with its hash. -/
structure ProfileRow where
  contentSha256 : String
  content : String
  deriving DecidableEq

/-- `EndedReason`. -/
inductive EndedReason
  | recoveryConfirmed | deadlineExpired | maxSamplesExhausted | authorityRevoked
  | bindingStale | scopeSuspended
  deriving DecidableEq, Repr

/-- `Transition`: the incident trigger a session ending fires. -/
inductive Transition
  | recoveryConfirmed | observationEndedUnconfirmed
  deriving DecidableEq, Repr

/-- `AuthorizationSource`. -/
inductive AuthorizationSource
  | postRemediation | automatic
  deriving DecidableEq, Repr

/-- The identity fields of a `Target`. -/
structure TargetIdentity where
  integrationId : String
  clusterUid : String
  «namespace» : String
  resourceUid : String
  deriving DecidableEq

/-- `opspilot_observation_sessions`. -/
structure SessionRow where
  incidentId : UUID
  targetId : UUID
  target : TargetIdentity
  revision : Option String
  subjectControlGeneration : ℕ
  observationGeneration : ℕ
  authorizedBy : String
  authorizationSource : AuthorizationSource
  authorizedAt : Time
  state : ObservationSessionState := .authorized
  endedReason : Option EndedReason := none
  authorizedGlobalGeneration : ℕ
  authorizedTargetGeneration : ℕ
  healthProfileRevision : Option String
  deadlineAt : Time
  maxSamples : ℕ
  sampleIntervalSeconds : ℕ
  sustainedWindowSeconds : ℕ
  adoptedSequence : ℕ := 0
  adoptedWindowEnd : Option Time := none
  adoptedCount : ℕ := 0
  healthySince : Option Time := none
  issuedSequence : ℕ
  activeSampleJobId : Option UUID
  activeSampleSequence : Option ℕ
  activeSampleDueAt : Option Time
  activeSampleOwner : Option UUID := none
  activeSampleEpoch : ℕ := 0
  activeSampleLeaseUntil : Option Time := none
  deriving DecidableEq

/-- `HealthBasis`. -/
inductive HealthBasis
  | confirmed | notAdopted | noHealthProfile | outcomeNotHealthy | requiredSignalsMissing
  | windowBeforeAuthorization
  deriving DecidableEq, Repr

/-- `ReadingStatus`. -/
inductive ReadingStatus
  | ok | noData | stale | timeout | failed
  deriving DecidableEq, Repr

/-- `SignalReading`, and its row in `opspilot_observation_signal_readings`: an `ok` reading has a
value, any other has none. `raw` is the stored result and `rawSha256` its hash. -/
structure SignalReading where
  signalName : String
  status : ReadingStatus
  value : Option ℚ
  sampleCount : Option ℕ
  query : String
  windowStart : Time
  windowEnd : Time
  source : String
  rawSha256 : Option String
  raw : Option (List UInt8)
  deriving DecidableEq

/-- `opspilot_observation_samples`, with the readings of the sample. The disposition is
`adopted` exactly when `accepted`. -/
structure SampleRow where
  sessionId : UUID
  jobId : UUID
  sequence : ℕ
  epoch : ℕ
  window : QueryWindow
  outcome : SampleOutcome
  requiredSignalsPresent : Bool
  subjectControlGeneration : ℕ
  observationGeneration : ℕ
  healthProfileRevision : Option String
  accepted : Bool
  reason : SampleReason
  confirmsHealth : Bool
  healthBasis : HealthBasis
  subjectLifecycle : IncidentLifecycle
  incidentControlGeneration : ℕ
  incidentObservationGeneration : ℕ
  scopeSuspended : Bool
  globalGeneration : ℕ
  targetGeneration : ℕ
  withinDeadline : Bool
  leaseValid : Bool
  leaseStampsMatch : Bool
  readingsConsistent : Bool
  transition : Option Transition
  submittedAt : Time
  readings : List SignalReading
  deriving DecidableEq

/-- `opspilot_observation_endings`. -/
structure EndingRow where
  sessionId : UUID
  incidentId : UUID
  endedReason : EndedReason
  transition : Option Transition
  sampleId : Option UUID
  lifecycleBefore : IncidentLifecycle
  lifecycleAfter : IncidentLifecycle
  jobId : Option UUID
  jobSequence : Option ℕ
  recordedAt : Time
  deriving DecidableEq

/-- `SelfHealState`. -/
inductive SelfHealState
  | authorized | skipped | retrying | handedOff
  deriving DecidableEq, Repr

/-- `opspilot_self_heal_authorizations`, keyed by `(incident_id, control_generation)`. -/
structure SelfHealRow where
  state : SelfHealState
  reason : Option String
  attempts : ℕ := 0
  nextAttemptAt : Option Time := none
  sessionId : Option UUID
  deriving DecidableEq

/-- The database. -/
structure Store where
  incidents : Table UUID IncidentRow := ∅
  runs : Table UUID RunRow := ∅
  steps : Table UUID StepRow := ∅
  controls : List ControlRow := []
  inputs : Table UUID InputRow := ∅
  inputRounds : Table (UUID × String) RoundRow := ∅
  reservations : Table UUID ReservationRow := ∅
  toolCharges : Table UUID ToolChargeRow := ∅
  targets : Table UUID TargetRow := ∅
  scope : Gate := {}
  targetSuspensions : Table UUID Gate := ∅
  suspensionAudit : List SuspensionAuditRow := []
  profiles : Table String ProfileRow := ∅
  sessions : Table UUID SessionRow := ∅
  samples : Table UUID SampleRow := ∅
  endings : List EndingRow := []
  selfHeal : Table (UUID × ℕ) SelfHealRow := ∅
  handoffs : List UUID := []

end OpsPilot
