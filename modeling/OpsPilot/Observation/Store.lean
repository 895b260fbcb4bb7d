import OpsPilot.Observation.Judge
import OpsPilot.Persistence.Budgets

/-!
# Observation sessions

Authorization of an observation session (`authorizeSessionIn`), alone, by a registered remediation
(`registerRemediation`) or automatically after a publication (`authorizeAutomaticObservation`);
the sampling jobs (`claimDueSample`), the submission of a sample (`submitSample`) and the deadline
sweep (`sweepExpiredSession`).

* `Authorized` says what an authorization wrote, `submitSample_ok` what a submission judged and
  wrote.
* Every operation is a step of the control machine: an observation changes lifecycles only, a
  registered remediation is a decision.
-/

namespace OpsPilot

/-- What `authorize_session` is given; `sessionId` and `jobId` are the identities of the session
and of its first sampling job. -/
structure Authorization where
  incidentId : UUID
  revision : Option String
  actor : String
  deadlineAt : Time
  maxSamples : ℕ
  sampleIntervalSeconds : ℕ
  sustainedWindowSeconds : ℕ
  healthProfileRevision : Option String := none
  healthProfile : Option String := none
  source : AuthorizationSource := .postRemediation
  sessionId : UUID
  jobId : UUID
  firstSampleDueAt : Option Time := none

/-- The configured identity of a target. -/
structure RegistryIdentity where
  integrationId : String
  clusterUid : String
  «namespace» : String
  resourceUid : String
  workload : String
  deriving DecidableEq

/-- What `register_remediation` is given besides the authorization. -/
structure Remediation where
  authorization : Authorization
  expectedGeneration : ℕ
  identity : Option RegistryIdentity := none
  payload : Option Json := none

/-- `SelfHealGrant`, with the identity of the first sampling job. -/
structure SelfHealGrant where
  identity : Option RegistryIdentity
  deadlineSeconds : ℕ
  maxSamples : ℕ
  sampleIntervalSeconds : ℕ
  sustainedWindowSeconds : ℕ
  healthProfileRevision : Option String
  healthProfile : Option String
  sessionId : UUID
  jobId : UUID

/-- `SampleLease`: the credential of a claimed sampling job. -/
structure SampleLease where
  sessionId : UUID
  incidentId : UUID
  jobId : UUID
  sequence : ℕ
  owner : UUID
  epoch : ℕ
  leaseUntil : Time
  subjectControlGeneration : ℕ
  observationGeneration : ℕ
  healthProfileRevision : Option String
  deriving DecidableEq

/-- `SampleReceipt`. -/
structure SampleReceipt where
  accepted : Bool
  reason : SampleReason
  confirmsHealth : Bool
  healthBasis : HealthBasis
  sessionState : ObservationSessionState
  incidentLifecycle : IncidentLifecycle
  transition : Option Transition
  nextSampleDueAt : Option Time
  deriving DecidableEq

/-- `_profile_subject`: the namespace and the service a profile observes. -/
def profileSubject [Texts] (content : String) : Option (String × String) := do
  let subject ← (Texts.loads content).bind (·.field? "subject")
  let «namespace» ← (subject.field? "kubernetes_namespace").bind Json.text?
  let service ← (subject.field? "service").bind Json.text?
  if «namespace» = "" ∨ service = "" then none else some («namespace», service)

/-- The incident trigger of a session ending. -/
def Transition.trigger : Transition → IncidentTrigger
  | recoveryConfirmed => .recoveryConfirmed
  | observationEndedUnconfirmed => .observationEndedUnconfirmed

/-- `_transition`: a confirmation must be legal, an unconfirmed ending leaves a lifecycle that
cannot take it as it is. -/
def fireTransition (lifecycle : IncidentLifecycle) : Option Transition →
    Except Code IncidentLifecycle
  | none => .ok lifecycle
  | some .recoveryConfirmed =>
    require (incidentLifecycle.fire lifecycle .recoveryConfirmed) .illegalTransition
  | some .observationEndedUnconfirmed =>
    .ok ((incidentLifecycle.fire lifecycle .observationEndedUnconfirmed).getD lifecycle)

namespace Store

/-! ## Authorization -/

/-- `_store_profile`: keep the text behind a revision, once for each revision. -/
def storeProfile [Texts] (s : Store) (revision : String) (content : Option String) :
    Except Code Store := do
  let text ← require (content.filter (· ≠ "")) .invalidInput
  let digest := Texts.sha256 text
  refuse ((rpartition '@' revision.toList).all (·.1 = []) ∨ ¬ revisionNames revision digest)
    .healthProfileRevisionMismatch
  match s.profiles.get revision with
  | some existing =>
    refuse (existing.contentSha256 ≠ digest) .healthProfileRevisionMismatch
    pure s
  | none =>
    pure { s with profiles := s.profiles.insert revision { contentSha256 := digest, content := text } }

/-- The profile part of an authorization: the text is stored, and what it observes is read. -/
def bindProfile [Texts] (s : Store) (a : Authorization) :
    Except Code (Option (String × String) × Store) :=
  match a.healthProfileRevision with
  | some revision => do
    let stored ← s.storeProfile revision a.healthProfile
    let subject ← require (a.healthProfile.bind profileSubject) .healthProfileUnreadable
    pure (some subject, stored)
  | none => do
    refuse a.healthProfile.isSome .invalidInput
    pure (none, s)

/-- `_registered_target`: the identity the registry holds, which must be complete. -/
def registeredTarget (row : TargetRow) : Option TargetIdentity := do
  let integrationId ← row.integrationId
  let clusterUid ← row.clusterUid
  let «namespace» ← row.namespace
  some { integrationId, clusterUid, «namespace», resourceUid := row.resourceUid }

/-- `_complete_identity`: write the identity of a bare registry row once; a complete row must
agree with it. -/
def completeIdentity (s : Store) (targetId : UUID) (identity : Option RegistryIdentity) :
    Except Code Store := do
  refuse (identity.any fun i => i.integrationId = "" ∨ i.clusterUid = "" ∨ i.namespace = "" ∨
    i.resourceUid = "" ∨ i.workload = "") .invalidInput
  let row ← require (s.targets.get targetId) .inconsistentState
  refuse (identity.any fun i => i.resourceUid ≠ row.resourceUid) .targetMismatch
  if row.integrationId.isSome ∧ row.clusterUid.isSome ∧ row.namespace.isSome ∧
      row.workload.isSome then do
    refuse (identity.any fun i => row.integrationId ≠ some i.integrationId ∨
      row.clusterUid ≠ some i.clusterUid ∨ row.namespace ≠ some i.namespace ∨
      row.workload ≠ some i.workload) .targetMismatch
    pure s
  else do
    let i ← require identity .targetIdentityMissing
    pure { s with
      targets := s.targets.modify targetId fun row =>
        if row.integrationId = none ∧ row.clusterUid = none ∧ row.namespace = none ∧
            row.workload = none then { row with
          integrationId := some i.integrationId
          clusterUid := some i.clusterUid
          «namespace» := some i.namespace
          workload := some i.workload }
        else row }

/-- The session an authorization creates. -/
def Authorization.session (a : Authorization) (clk : Clock) (incident : IncidentRow)
    (targetId : UUID) (target : TargetIdentity) (scope : Scope) : SessionRow where
  incidentId := a.incidentId
  targetId := targetId
  target := target
  revision := a.revision
  subjectControlGeneration := incident.controlGeneration
  observationGeneration := incident.observationGeneration + 1
  authorizedBy := a.actor
  authorizationSource := a.source
  authorizedAt := clk.later
  authorizedGlobalGeneration := scope.global.generation
  authorizedTargetGeneration := scope.target.generation
  healthProfileRevision := a.healthProfileRevision
  deadlineAt := a.deadlineAt
  maxSamples := a.maxSamples
  sampleIntervalSeconds := a.sampleIntervalSeconds
  sustainedWindowSeconds := a.sustainedWindowSeconds
  issuedSequence := 1
  activeSampleJobId := some a.jobId
  activeSampleSequence := some 1
  activeSampleDueAt := some (a.firstSampleDueAt.getD (clk.now + seconds a.sampleIntervalSeconds))

/-- The incident an authorization leaves. -/
def observed (lifecycle : IncidentLifecycle) (row : IncidentRow) : IncidentRow :=
  { row with lifecycle, observationGeneration := row.observationGeneration + 1 }

/-- The lifecycle an authorization moves an incident to. -/
def startObservation (lifecycle : IncidentLifecycle) : Except Code IncidentLifecycle :=
  if lifecycle = .observingRecovery then pure .observingRecovery
  else require (incidentLifecycle.fire lifecycle .startRecoveryObservation) .illegalTransition

/-- `authorize_session_in`: create one authorized session and its first sampling job. -/
def authorizeSessionIn [Texts] (s : Store) (clk : Clock) (a : Authorization) :
    Except Code Store := do
  refuse (a.revision = none ∧ a.source ≠ .automatic ∨ a.revision = some "" ∨ a.actor = "" ∨
    a.maxSamples = 0 ∨ a.sampleIntervalSeconds = 0 ∨ a.sustainedWindowSeconds = 0 ∨
    a.healthProfileRevision = some "") .invalidInput
  let bound ← s.bindProfile a
  let s := bound.2
  let incident ← require (s.incidents.get a.incidentId) .unknownIdentity
  -- human control outranks a new observation authorization
  refuse (incident.state = .paused) .illegalTransition
  let targetId ← require incident.targetId .unknownTarget
  let row ← require (s.targets.get targetId) .inconsistentState
  let target ← require (registeredTarget row) .targetIdentityMissing
  refuse (bound.1.any fun subject => row.workload ≠ some subject.2 ∨ target.namespace ≠ subject.1)
    .healthProfileTargetMismatch
  refuse ((s.sessions.select fun _ e => e.targetId = targetId).any fun e => e.2.target ≠ target)
    .targetMismatch
  refuse (authorizedSessions s.sessions a.incidentId ≠ []) .observationAlreadyAuthorized
  let lifecycle ← startObservation incident.lifecycle
  refuse (a.deadlineAt ≤ clk.now) .invalidInput
  let scope ← s.lockScope (some a.incidentId)
  refuse (s.sessions.get a.sessionId).isSome .identityConflict
  pure { s with
    incidents := s.incidents.modify a.incidentId (observed lifecycle)
    sessions := s.sessions.insert a.sessionId
      (Authorization.session a clk incident targetId target scope) }

/-- `authorize_session`. -/
def authorizeSession [Texts] (s : Store) (clk : Clock) (a : Authorization) :
    Except Code (UUID × Store) := do
  let authorized ← s.authorizeSessionIn clk a
  pure (a.sessionId, authorized)

/-- The incident under the generation a registered remediation creates, its earlier
authorizations withdrawn. -/
def remediated (s : Store) (clk : Clock) (incidentId : UUID) (incident : IncidentRow)
    (generation : ℕ) : Store :=
  { s.revokeObservation clk incidentId incident.lifecycle with
    incidents := s.incidents.modify incidentId fun row =>
      { row with controlGeneration := generation } }

/-- The payload of the audit row of a registered remediation. -/
def Remediation.audit (r : Remediation) (revoked : List UUID) : Json :=
  let a := r.authorization
  let text := fun (o : Option String) => o.elim Json.null Json.str
  [("revision", text a.revision), ("session_id", .str (toString a.sessionId)),
    ("health_profile_revision", text a.healthProfileRevision),
    ("revoked_sessions", .arr (revoked.map fun id => .str (toString id)))].foldl
    (fun payload field => payload.setField field.1 field.2) (r.payload.getD (.obj []))

/-- `register_remediation`: the human action "handled outside the system". -/
def registerRemediation [Texts] (s : Store) (clk : Clock) (r : Remediation) :
    Except Code (ℕ × Store) := do
  let a := r.authorization
  refuse (r.payload.any fun p => !p.isObject) .invalidInput
  let scope ← s.lockScope (some a.incidentId)
  let incident ← require (s.incidents.get a.incidentId) .unknownIdentity
  refuse (incident.controlGeneration ≠ r.expectedGeneration) .controlConflict
  refuse (incident.lifecycle = .closed) .reopenRequired
  refuse (scope.suspended = true) .scopeSuspended
  let targetId ← require incident.targetId .unknownTarget
  let completed ← s.completeIdentity targetId r.identity
  let revoked := authorizedSessions s.sessions a.incidentId
  let authorized ← (completed.remediated clk a.incidentId incident
    (r.expectedGeneration + 1)).authorizeSessionIn clk { a with source := .postRemediation }
  pure (r.expectedGeneration + 1, { authorized with
    controls :=
      { incidentId := a.incidentId, action := .registerRemediation
        expectedGeneration := r.expectedGeneration
        resultingGeneration := r.expectedGeneration + 1
        actor := a.actor, payload := some (Remediation.audit r revoked) } ::
        authorized.controls })

/-- The current Run of an incident published at its generation (`published_here`). -/
def publishedHere (s : Store) (incidentId : UUID) (incident : IncidentRow) : Bool :=
  (incident.currentRunId.bind s.runs.get).any fun r => r.incidentId = incidentId ∧
    r.state = .completed ∧ r.controlGeneration = incident.controlGeneration

/-- `_auto_observation_refusal`. -/
def autoObservationRefusal (s : Store) (incidentId : UUID) (incident : IncidentRow)
    (scope : Scope) (controlGeneration : ℕ) : Option String :=
  ([(incident.controlGeneration ≠ controlGeneration, "CONTROL_GENERATION_CHANGED"),
    (incident.conclusion = none ∨ s.publishedHere incidentId incident = false,
      "NOT_PUBLISHED_AT_GENERATION"),
    (incident.mode ≠ .automatic, "HUMAN_OWNED"),
    (scope.suspended = true, "SCOPE_SUSPENDED"),
    (incident.state = .paused, "INCIDENT_PAUSED"),
    (incident.state = .cancelled, "INCIDENT_CANCELLED"),
    (incidentId ∈ s.handoffs, "HANDOFF_ONLY"),
    (authorizedSessions s.sessions incidentId ≠ [], "OBSERVATION_ALREADY_AUTHORIZED"),
    (incident.lifecycle ≠ .opened, "LIFECYCLE_NOT_OPEN"),
    (incident.targetId = none, "UNKNOWN_TARGET")] : List (Bool × String)).find? Prod.fst |>.map
    Prod.snd

/-- `_AUTO_OBSERVATION_NOT_APPLICABLE`: refusals of the primitive that settle the decision. -/
def notApplicable : Code → Option String
  | .illegalTransition => some "ILLEGAL_TRANSITION"
  | .invalidInput => some "INVALID_INPUT"
  | .unknownTarget => some "UNKNOWN_TARGET"
  | .targetIdentityMissing => some "TARGET_IDENTITY_MISSING"
  | .targetMismatch => some "TARGET_MISMATCH"
  | .healthProfileTargetMismatch => some "HEALTH_PROFILE_TARGET_MISMATCH"
  | .healthProfileRevisionMismatch => some "HEALTH_PROFILE_REVISION_MISMATCH"
  | .observationAlreadyAuthorized => some "OBSERVATION_ALREADY_AUTHORIZED"
  | _ => none

/-- The authorization an automatic grant asks for. -/
def SelfHealGrant.authorization (g : SelfHealGrant) (clk : Clock) (incidentId : UUID) :
    Authorization where
  incidentId := incidentId
  revision := none
  actor := "system"
  deadlineAt := clk.now + seconds g.deadlineSeconds
  maxSamples := g.maxSamples
  sampleIntervalSeconds := g.sampleIntervalSeconds
  sustainedWindowSeconds := g.sustainedWindowSeconds
  healthProfileRevision := g.healthProfileRevision
  healthProfile := g.healthProfile
  source := .automatic
  sessionId := g.sessionId
  jobId := g.jobId

/-- `_record_auto_observation`. -/
def recordAutoObservation (s : Store) (key : UUID × ℕ) (state : SelfHealState)
    (reason : Option String) (sessionId : Option UUID) : Store :=
  { s with
    selfHeal := match s.selfHeal.get key with
      | some _ => s.selfHeal.modify key fun row =>
          { row with state, reason, sessionId, nextAttemptAt := none }
      | none => s.selfHeal.insert key { state, reason, sessionId } }

/-- `_authorize_automatic_in`. The control generation does not move. -/
def authorizeAutomaticIn [Texts] (s : Store) (clk : Clock) (incidentId targetId : UUID)
    (controlGeneration : ℕ) (grant : SelfHealGrant) : Except Code Store := do
  let completed ← s.completeIdentity targetId grant.identity
  let authorized ← completed.authorizeSessionIn clk
    (SelfHealGrant.authorization grant clk incidentId)
  pure { authorized with
    controls :=
      { incidentId, action := .autoAuthorizeObservation
        expectedGeneration := controlGeneration, resultingGeneration := controlGeneration
        actor := "system"
        payload := some (.obj [("authorization_source", .str "automatic"),
          ("deadline_at", .num (clk.now + seconds grant.deadlineSeconds)),
          ("health_profile_revision", grant.healthProfileRevision.elim .null .str),
          ("revision", .null), ("session_id", .str (toString grant.sessionId)),
          ("trigger", .str "published")]) } :: authorized.controls }

/-- A recorded decision that is not to be decided again now. -/
def autoDecided (s : Store) (clk : Clock) (incidentId : UUID) (incident : IncidentRow)
    (controlGeneration : ℕ) : Bool :=
  (s.selfHeal.get (incidentId, controlGeneration)).any fun row =>
    row.state ≠ .retrying ∨ incident.controlGeneration = controlGeneration ∧
      ¬ row.nextAttemptAt.any (· ≤ clk.now)

/-- `authorize_automatic_observation`: decide one candidate; the state decided, or nothing. -/
def authorizeAutomaticObservation [Texts] (s : Store) (clk : Clock) (incidentId : UUID)
    (controlGeneration : ℕ) (grant : Option SelfHealGrant) (refusal : Option String) :
    Except Code (Option SelfHealState × Store) := do
  refuse (grant.isNone ∧ refusal = none ∨ refusal = some "") .invalidInput
  let scope ← s.lockScope (some incidentId)
  match s.incidents.get incidentId with
  | none => pure (none, s)
  | some incident =>
    if s.autoDecided clk incidentId incident controlGeneration then pure (none, s)
    else
      let skip := fun reason => (some SelfHealState.skipped,
        s.recordAutoObservation (incidentId, controlGeneration) .skipped (some reason) none)
      match (s.autoObservationRefusal incidentId incident scope controlGeneration).or refusal,
          grant, incident.targetId with
      | none, some grant, some targetId =>
        match s.authorizeAutomaticIn clk incidentId targetId controlGeneration grant with
        | .ok authorized => pure (some .authorized, authorized.recordAutoObservation
            (incidentId, controlGeneration) .authorized none (some grant.sessionId))
        | .error code => do
          let reason ← require (notApplicable code) code
          pure (skip reason)
      | some reason, _, _ => pure (skip reason)
      | none, _, _ => throw .invalidInput

/-- The row a further failure of an automatic decision leaves. -/
def SelfHealRow.failed (row : SelfHealRow) (reason : String) (now : Time) : SelfHealRow :=
  let attempts := row.attempts + 1
  { row with
    state := if 5 ≤ attempts then .handedOff else .retrying
    reason := some reason
    attempts
    nextAttemptAt := if 5 ≤ attempts then none
      else some (now + seconds (30 * 2 ^ (attempts - 1))) }

/-- `record_auto_observation_failure`. -/
def recordAutoObservationFailure (s : Store) (clk : Clock) (incidentId : UUID)
    (controlGeneration : ℕ) (reason : String) : Except Code (SelfHealState × Store) := do
  refuse (reason = "") .invalidInput
  let _ ← s.lockScope (some incidentId)
  let incident ← require (s.incidents.get incidentId) .unknownIdentity
  let key := (incidentId, controlGeneration)
  let row := (s.selfHeal.get key).getD
    { state := .retrying, reason := some reason, nextAttemptAt := some clk.later, sessionId := none }
  if row.state ≠ .retrying then pure (row.state, s)
  else if incident.controlGeneration ≠ controlGeneration then
    pure (.skipped, s.recordAutoObservation key .skipped (some "CONTROL_GENERATION_CHANGED") none)
  else if incident.conclusion = none ∨ s.publishedHere incidentId incident = false then
    pure (.skipped, s.recordAutoObservation key .skipped (some "NOT_PUBLISHED_AT_GENERATION") none)
  else
    let failed := SelfHealRow.failed row reason clk.later
    pure (failed.state, { s with selfHeal := s.selfHeal.insert key failed })

/-! ## Sampling -/

/-- `_scope_blocks`: suspended now, or moved since the authorization. -/
def scopeBlocks (scope : Scope) (row : SessionRow) : Bool :=
  scope.suspended ∨ scope.global.generation ≠ row.authorizedGlobalGeneration ∨
    scope.target.generation ≠ row.authorizedTargetGeneration

/-- The sampling job of a session is due and may be leased. -/
def sampleDue (s : Store) (row : SessionRow) (now : Time) : Bool :=
  row.state = .authorized ∧ row.activeSampleJobId.isSome ∧
    row.activeSampleDueAt.any (· ≤ now) ∧ row.activeSampleLeaseUntil.all (· ≤ now) ∧
    now < row.deadlineAt ∧ s.scope.suspended = false ∧
    ((s.targetSuspensions.get row.targetId).getD {}).suspended = false

/-- The lease of a claimed sampling job. -/
def SessionRow.lease (row : SessionRow) (sessionId owner jobId : UUID) (sequence : ℕ)
    (leaseUntil : Time) : SampleLease where
  sessionId := sessionId
  incidentId := row.incidentId
  jobId := jobId
  sequence := sequence
  owner := owner
  epoch := row.activeSampleEpoch + 1
  leaseUntil := leaseUntil
  subjectControlGeneration := row.subjectControlGeneration
  observationGeneration := row.observationGeneration
  healthProfileRevision := row.healthProfileRevision

/-- One transaction of `claim_due_samples`: lease the due job of a session, or end the session
if its scope moved since the authorization. -/
def claimDueSample (s : Store) (clk : Clock) (sessionId owner : UUID) (leaseSeconds : ℕ) :
    Except Code (Option SampleLease × Store) := do
  refuse (leaseSeconds = 0) .invalidInput
  match (s.sessions.get sessionId).filter (s.sampleDue · clk.now) with
  | none => pure (none, s)
  | some row =>
    let incident ← require (s.incidents.get row.incidentId) .inconsistentState
    let scope ← s.lockScope (some row.incidentId)
    if scopeBlocks scope row then
      pure (none, s.withSessionTables (endSession s.sessionTables clk.later sessionId
        row.incidentId .scopeSuspended none incident.lifecycle incident.lifecycle))
    else do
      let jobId ← require row.activeSampleJobId .inconsistentState
      let sequence ← require row.activeSampleSequence .inconsistentState
      let leaseUntil := clk.now + seconds leaseSeconds
      pure (some (SessionRow.lease row sessionId owner jobId sequence leaseUntil), { s with
        sessions := s.sessions.modify sessionId fun row => { row with
          activeSampleOwner := some owner
          activeSampleEpoch := row.activeSampleEpoch + 1
          activeSampleLeaseUntil := some leaseUntil } })

/-- The lease of a submission holds the session's job. -/
def sampleLeaseValid (row : SessionRow) (lease : SampleLease) (now : Time) : Bool :=
  row.activeSampleJobId = some lease.jobId ∧ row.activeSampleOwner = some lease.owner ∧
    row.activeSampleEpoch = lease.epoch ∧ leaseLive row.activeSampleLeaseUntil now

/-- The sample carries the stamps its lease was issued with; asked of a valid lease only. -/
def sampleStampsMatch (row : SessionRow) (lease : SampleLease) (sample : HealthSample)
    (now : Time) : Bool :=
  ¬ sampleLeaseValid row lease now ∨ row.activeSampleSequence = some sample.sequence ∧
    sample.subjectControlGeneration = lease.subjectControlGeneration ∧
    sample.observationGeneration = lease.observationGeneration ∧
    sample.healthProfileRevision = lease.healthProfileRevision

/-- The profile row of a session's revision, with the revision. -/
def profileOf (s : Store) (row : SessionRow) : Option (String × ProfileRow) :=
  row.healthProfileRevision.bind fun revision => (s.profiles.get revision).map (revision, ·)

/-- What the readings of a sample fail to support. -/
def sampleMismatches [Texts] (s : Store) (row : SessionRow) (sample : HealthSample)
    (readings : List SignalReading) : List String :=
  missingRequiredSignals (parseRequired (s.profileOf row)) sample.outcome
    sample.requiredSignalsPresent readings sample.window.start sample.window.end

/-- `WINDOW_FUTURE_SKEW_SECONDS`. -/
def windowFutureSkewSeconds : ℤ := 30

/-- The conditions a submission is judged under. -/
def submitConditions [Texts] (s : Store) (now : Time) (row : SessionRow) (incident : IncidentRow)
    (scope : Scope) (lease : SampleLease) (sample : HealthSample)
    (readings : List SignalReading) : Conditions where
  subjectState := incident.lifecycle
  controlGeneration := incident.controlGeneration
  observationGeneration := incident.observationGeneration
  withinDeadline := now < row.deadlineAt
  suspensionBlocks := scopeBlocks scope row
  leaseValid := sampleLeaseValid row lease now
  stampsMatch := sampleStampsMatch row lease sample now
  readingsConsistent := s.sampleMismatches row sample readings = []

/-- The sample row a verdict is stored as. -/
def sampleRow (lease : SampleLease) (sample : HealthSample) (readings : List SignalReading)
    (c : Conditions) (scope : Scope) (verdict : Verdict) (submittedAt : Time) : SampleRow where
  sessionId := lease.sessionId
  jobId := lease.jobId
  sequence := sample.sequence
  epoch := lease.epoch
  window := sample.window
  outcome := sample.outcome
  requiredSignalsPresent := sample.requiredSignalsPresent
  subjectControlGeneration := sample.subjectControlGeneration
  observationGeneration := sample.observationGeneration
  healthProfileRevision := sample.healthProfileRevision
  accepted := verdict.decision.accepted
  reason := verdict.decision.reason
  confirmsHealth := verdict.healthy
  healthBasis := verdict.healthBasis
  subjectLifecycle := c.subjectState
  incidentControlGeneration := c.controlGeneration
  incidentObservationGeneration := c.observationGeneration
  scopeSuspended := c.suspensionBlocks
  globalGeneration := scope.global.generation
  targetGeneration := scope.target.generation
  withinDeadline := c.withinDeadline
  leaseValid := c.leaseValid
  leaseStampsMatch := c.stampsMatch
  readingsConsistent := c.readingsConsistent
  transition := verdict.transition
  submittedAt := submittedAt
  readings := readings

/-- The session row after an adopted sample that did not end it: the watermarks, and the next
job. -/
def SessionRow.advanced (row : SessionRow) (fold : Fold) (dueAt : Time) (jobId : UUID) :
    SessionRow :=
  { row with
    adoptedSequence := fold.adoptedSequence
    adoptedWindowEnd := fold.adoptedWindowEnd
    adoptedCount := fold.adoptedCount
    healthySince := fold.healthySince
    issuedSequence := row.issuedSequence + 1
    activeSampleJobId := some jobId
    activeSampleSequence := some (row.issuedSequence + 1)
    activeSampleDueAt := some dueAt
    activeSampleOwner := none
    activeSampleEpoch := 0
    activeSampleLeaseUntil := none }

/-- The session row after a rejected sample of a valid lease: the same job, one interval on. -/
def SessionRow.postponed (row : SessionRow) (dueAt : Time) : SessionRow :=
  { row with
    activeSampleDueAt := some dueAt, activeSampleOwner := none, activeSampleLeaseUntil := none }

/-- The session tables after a submission. -/
def submitSessions (tables : SessionTables) (clk : Clock) (lease : SampleLease)
    (row : SessionRow) (c : Conditions) (verdict : Verdict) (after : IncidentLifecycle)
    (sampleId jobId : UUID) : SessionTables :=
  let dueAt := clk.now + seconds row.sampleIntervalSeconds
  match verdict.endedReason with
  | some reason =>
    endSession tables clk.later lease.sessionId lease.incidentId reason verdict.transition
      c.subjectState after (if verdict.decision.accepted then some sampleId else none)
      (some ⟨verdict.fold.adoptedSequence, verdict.fold.adoptedWindowEnd,
        verdict.fold.adoptedCount, verdict.fold.healthySince⟩)
  | none =>
    if verdict.decision.accepted then
      { tables with
        sessions := tables.sessions.modify lease.sessionId
          (SessionRow.advanced · verdict.fold dueAt jobId) }
    else if c.leaseValid then
      { tables with
        sessions := tables.sessions.modify lease.sessionId (SessionRow.postponed · dueAt) }
    else tables

/-- When the next sample is due after a submission. -/
def nextDueAt (clk : Clock) (row : SessionRow) (c : Conditions) (verdict : Verdict) :
    Option Time :=
  if verdict.endedReason = none ∧ (verdict.decision.accepted ∨ c.leaseValid) then
    some (clk.now + seconds row.sampleIntervalSeconds)
  else none

/-- `submit_sample`: adopt or file one sample. `sampleId` and `jobId` are the identities of the
sample row and of the next job. -/
def submitSample [Texts] (s : Store) (clk : Clock) (lease : SampleLease) (sample : HealthSample)
    (readings : List SignalReading) (sampleId jobId : UUID) :
    Except Code (SampleReceipt × Store) := do
  refuse (¬ (readings.map (·.signalName)).Nodup) .invalidInput
  refuse (sample.sessionId ≠ lease.sessionId) .invalidInput
  let incident ← require (s.incidents.get lease.incidentId) .unknownIdentity
  let row ← require (s.sessions.get lease.sessionId) .unknownIdentity
  refuse (row.incidentId ≠ lease.incidentId) .inconsistentState
  let scope ← s.lockScope (some lease.incidentId)
  -- no telemetry covers a window that has not happened yet
  refuse (clk.now + seconds windowFutureSkewSeconds < sample.window.end) .invalidInput
  let c := s.submitConditions clk.now row incident scope lease sample readings
  let verdict := judge lease.sessionId row.terms row.fold sample c
  let after ← fireTransition incident.lifecycle verdict.transition
  refuse (s.samples.get sampleId).isSome .identityConflict
  let receipt : SampleReceipt := {
    accepted := verdict.decision.accepted
    reason := verdict.decision.reason
    confirmsHealth := verdict.healthy
    healthBasis := verdict.healthBasis
    sessionState := verdict.fold.state
    incidentLifecycle := after
    transition := verdict.transition
    nextSampleDueAt := nextDueAt clk row c verdict }
  pure (receipt,
    { s.withSessionTables (submitSessions s.sessionTables clk lease row c verdict after sampleId
        jobId) with
      incidents := s.incidents.modify lease.incidentId fun row => { row with lifecycle := after }
      samples := s.samples.insert sampleId
        (sampleRow lease sample readings c scope verdict clk.later) })

/-- One transaction of `sweep_expired_sessions`: end an authorized session past its deadline;
whether it was ended. -/
def sweepExpiredSession (s : Store) (clk : Clock) (sessionId : UUID) :
    Except Code (Bool × Store) := do
  let row ← require (s.sessions.get sessionId) .unknownIdentity
  let incident ← require (s.incidents.get row.incidentId) .unknownIdentity
  if row.state ≠ .authorized ∨ clk.now < row.deadlineAt then pure (false, s)
  else do
    let after ← fireTransition incident.lifecycle (some .observationEndedUnconfirmed)
    pure (true,
      { s.withSessionTables (endSession s.sessionTables clk.later sessionId row.incidentId
          .deadlineExpired (some .observationEndedUnconfirmed) incident.lifecycle after) with
        incidents := s.incidents.modify row.incidentId fun row => { row with lifecycle := after } })

/-- `revoke_sessions`. -/
def revokeSessions (s : Store) (clk : Clock) (incidentId : UUID) :
    Except Code (List UUID × Store) := do
  let incident ← require (s.incidents.get incidentId) .unknownIdentity
  pure (authorizedSessions s.sessions incidentId,
    s.revokeObservation clk incidentId incident.lifecycle)

/-! ## What the operations do -/

variable {s s' : Store} {clk : Clock}

/-- Storing a profile keeps every revision stored before. -/
structure ProfilesKept (old new : Table String ProfileRow) : Prop where
  kept : ∀ revision row, old.get revision = some row → new.get revision = some row

theorem storeProfile_ok [Texts] {revision : String} {content : Option String}
    (h : s.storeProfile revision content = .ok s') :
    s' = { s with profiles := s'.profiles } ∧ ProfilesKept s.profiles s'.profiles ∧
      (s'.profiles.get revision).isSome := by
  simp only [storeProfile, require_bind_eq_ok, refuse_bind_eq_ok] at h
  obtain ⟨text, -, -, h⟩ := h
  split at h
  · next existing hget =>
    simp only [refuse_bind_eq_ok, pure_eq_ok] at h
    obtain ⟨-, rfl⟩ := h
    exact ⟨rfl, ⟨fun _ _ => id⟩, by simp [hget]⟩
  · next hnone =>
    rw [pure_eq_ok] at h
    subst h
    refine ⟨rfl, ⟨fun r row hr => ?_⟩, by simp⟩
    have hne : r ≠ revision := by
      rintro rfl
      rw [hnone] at hr
      cases hr
    rw [Table.get_insert_ne _ _ hne, hr]

variable {a : Authorization} {g controlGeneration leaseSeconds : ℕ}
  {incidentId sessionId owner sampleId jobId : UUID} {readings : List SignalReading}
  {receipt : SampleReceipt}

theorem bindProfile_ok [Texts] {subject : Option (String × String)}
    (h : s.bindProfile a = .ok (subject, s')) :
    s' = { s with profiles := s'.profiles } ∧ ProfilesKept s.profiles s'.profiles ∧
      ∀ revision ∈ a.healthProfileRevision, (s'.profiles.get revision).isSome := by
  unfold bindProfile at h
  split at h
  · next revision hrevision =>
    obtain ⟨t, ht, h⟩ := bind_eq_ok.1 h
    simp only [require_bind_eq_ok, pure_eq_ok, Prod.mk.injEq] at h
    obtain ⟨-, -, -, rfl⟩ := h
    obtain ⟨heq, hkept, hstored⟩ := storeProfile_ok ht
    refine ⟨heq, hkept, fun r hr => ?_⟩
    rw [hrevision, Option.mem_def, Option.some.injEq] at hr
    exact hr ▸ hstored
  · next hrevision =>
    simp only [refuse_bind_eq_ok, pure_eq_ok, Prod.mk.injEq] at h
    obtain ⟨-, -, rfl⟩ := h
    exact ⟨rfl, ⟨fun _ _ => id⟩, by simp [hrevision]⟩

/-- What an authorization found and wrote. -/
structure Authorized (s : Store) (clk : Clock) (a : Authorization) (incident : IncidentRow)
    (lifecycle : IncidentLifecycle) (session : SessionRow) (s' : Store) : Prop where
  found : s.incidents.get a.incidentId = some incident
  control : incident.state ≠ .paused
  observing : lifecycle = .observingRecovery
  active : activeIncidentLifecycle incident.lifecycle = true
  alone : authorizedSessions s.sessions a.incidentId = []
  fresh : s.sessions.get a.sessionId = none
  incidentId : session.incidentId = a.incidentId
  standing : session.fold = {}
  unended : session.endedReason = none
  owner : session.activeSampleOwner = none
  generation : session.subjectControlGeneration = incident.controlGeneration
  observation : session.observationGeneration = incident.observationGeneration + 1
  target : incident.targetId = some session.targetId
  budget : 0 < session.maxSamples
  profile : ∀ revision ∈ session.healthProfileRevision, (s'.profiles.get revision).isSome
  profiles : ProfilesKept s.profiles s'.profiles
  written : s' = { s with
    profiles := s'.profiles
    incidents := s.incidents.modify a.incidentId (observed lifecycle)
    sessions := s.sessions.insert a.sessionId session }

theorem startObservation_ok {before after : IncidentLifecycle}
    (h : startObservation before = .ok after) :
    after = .observingRecovery ∧ activeIncidentLifecycle before = true := by
  unfold startObservation at h
  split at h
  · next hobserving =>
    rw [pure_eq_ok] at h
    exact ⟨h.symm, by rw [hobserving]; rfl⟩
  · rw [require_eq_ok] at h
    cases before <;> first | exact ⟨(Option.some.inj h).symm, rfl⟩ | cases h

theorem authorizeSessionIn_ok [Texts] (h : s.authorizeSessionIn clk a = .ok s') :
    ∃ incident lifecycle session, Authorized s clk a incident lifecycle session s' := by
  simp only [authorizeSessionIn, refuse_bind_eq_ok, not_or] at h
  obtain ⟨⟨-, -, -, hmax, -⟩, h⟩ := h
  obtain ⟨⟨subject, t⟩, hbind, h⟩ := bind_eq_ok.1 h
  obtain ⟨ht, hkept, hprofile⟩ := bindProfile_ok hbind
  simp only [require_bind_eq_ok, refuse_bind_eq_ok, ne_eq, not_not] at h
  obtain ⟨incident, hinc, hstate, targetId, htarget, row, -, target, -, -, -, halone, h⟩ := h
  obtain ⟨lifecycle, hlife, h⟩ := bind_eq_ok.1 h
  simp only [refuse_bind_eq_ok] at h
  obtain ⟨-, h⟩ := h
  obtain ⟨scope, -, h⟩ := bind_eq_ok.1 h
  simp only [refuse_bind_eq_ok, pure_eq_ok, Option.not_isSome_iff_eq_none] at h
  obtain ⟨hfresh, rfl⟩ := h
  obtain ⟨hobserving, hactive⟩ := startObservation_ok hlife
  rw [ht] at hinc halone hfresh
  refine ⟨incident, lifecycle, Authorization.session a clk incident targetId target scope, {
    found := hinc, control := hstate, observing := hobserving, active := hactive
    alone := halone, fresh := hfresh, incidentId := rfl, standing := rfl, unended := rfl
    owner := rfl, generation := rfl, observation := rfl, target := htarget
    budget := Nat.pos_of_ne_zero hmax, profile := hprofile, profiles := hkept, written := ?_ }⟩
  rw [ht]

theorem completeIdentity_ok {targetId : UUID} {identity : Option RegistryIdentity}
    (h : s.completeIdentity targetId identity = .ok s') : Retargeted s s' := by
  simp only [completeIdentity, refuse_bind_eq_ok, require_bind_eq_ok] at h
  obtain ⟨-, row, -, -, h⟩ := h
  split at h
  · simp only [refuse_bind_eq_ok, pure_eq_ok] at h
    exact h.2 ▸ .refl s
  · simp only [require_bind_eq_ok, pure_eq_ok] at h
    obtain ⟨i, -, rfl⟩ := h
    refine ⟨rfl, fun id hid => ?_⟩
    dsimp only
    rw [Table.get_modify]
    split
    · rwa [Option.isSome_map]
    · exact hid

/-- A committed remediation was expected at the generation of its incident; it withdrew the
earlier authorizations under the next generation and authorized a new session there. -/
theorem registerRemediation_ok [Texts] {r : Remediation}
    (h : s.registerRemediation clk r = .ok (g, s')) :
    ∃ (t authorized : Store) (incident row : IncidentRow) (session : SessionRow)
      (audit : ControlRow),
      Retargeted s t ∧
      s.incidents.get r.authorization.incidentId = some incident ∧
      incident.controlGeneration = r.expectedGeneration ∧ g = r.expectedGeneration + 1 ∧
      audit.incidentId = r.authorization.incidentId ∧ audit.action = .registerRemediation ∧
      audit.expectedGeneration = r.expectedGeneration ∧ audit.resultingGeneration = g ∧
      Authorized (t.remediated clk r.authorization.incidentId incident g) clk
        { r.authorization with source := .postRemediation } row .observingRecovery session
        authorized ∧
      s' = { authorized with controls := audit :: authorized.controls } := by
  simp only [registerRemediation, refuse_bind_eq_ok] at h
  obtain ⟨-, h⟩ := h
  obtain ⟨scope, -, h⟩ := bind_eq_ok.1 h
  simp only [require_bind_eq_ok, refuse_bind_eq_ok, ne_eq, not_not] at h
  obtain ⟨incident, hinc, hgen, -, -, targetId, -, h⟩ := h
  obtain ⟨t, ht, h⟩ := bind_eq_ok.1 h
  obtain ⟨authorized, hauth, h⟩ := bind_eq_ok.1 h
  simp only [pure_eq_ok, Prod.mk.injEq] at h
  obtain ⟨rfl, rfl⟩ := h
  obtain ⟨row, lifecycle, session, hauthorized⟩ := authorizeSessionIn_ok hauth
  obtain rfl := hauthorized.observing
  exact ⟨t, authorized, incident, row, session, _, completeIdentity_ok ht, hinc, hgen, rfl, rfl,
    rfl, rfl, rfl, hauthorized, rfl⟩

/-- A committed automatic decision is recorded, and authorized a session or did nothing else. -/
theorem authorizeAutomaticObservation_ok [Texts] {grant : Option SelfHealGrant}
    {refusal : Option String} {state : Option SelfHealState}
    (h : s.authorizeAutomaticObservation clk incidentId controlGeneration grant refusal =
      .ok (state, s')) :
    (∃ selfHeal, s' = { s with selfHeal }) ∨
      ∃ (t authorized : Store) (a : Authorization) (incident : IncidentRow)
        (session : SessionRow) (audit : ControlRow) (selfHeal : Table (UUID × ℕ) SelfHealRow),
        Retargeted s t ∧ a.incidentId = incidentId ∧
        audit.action = .autoAuthorizeObservation ∧
        Authorized t clk a incident .observingRecovery session authorized ∧
        s' = { authorized with selfHeal, controls := audit :: authorized.controls } := by
  simp only [authorizeAutomaticObservation, refuse_bind_eq_ok] at h
  obtain ⟨-, h⟩ := h
  obtain ⟨scope, -, h⟩ := bind_eq_ok.1 h
  split at h
  · simp only [pure_eq_ok, Prod.mk.injEq] at h
    exact .inl ⟨s.selfHeal, h.2.symm⟩
  · next incident hinc =>
    split at h
    · simp only [pure_eq_ok, Prod.mk.injEq] at h
      exact .inl ⟨s.selfHeal, h.2.symm⟩
    · split at h
      · next grant targetId _ _ _ =>
        split at h
        · next authorized hauth =>
          simp only [pure_eq_ok, Prod.mk.injEq] at h
          obtain ⟨-, rfl⟩ := h
          obtain ⟨t, ht, hrest⟩ := bind_eq_ok.1 hauth
          obtain ⟨authorized', hin, hrow⟩ := bind_eq_ok.1 hrest
          rw [pure_eq_ok] at hrow
          subst hrow
          obtain ⟨row, lifecycle, session, hauthorized⟩ := authorizeSessionIn_ok hin
          obtain rfl := hauthorized.observing
          exact .inr ⟨t, authorized', _, row, session, _, _, completeIdentity_ok ht, rfl, rfl,
            hauthorized, rfl⟩
        · simp only [require_bind_eq_ok, pure_eq_ok, Prod.mk.injEq] at h
          obtain ⟨reason, -, -, rfl⟩ := h
          exact .inl ⟨_, rfl⟩
      · simp only [pure_eq_ok, Prod.mk.injEq] at h
        exact .inl ⟨_, h.2.symm⟩
      · simp only [throw_eq_ok] at h

theorem recordAutoObservationFailure_ok {reason : String} {state : SelfHealState}
    (h : s.recordAutoObservationFailure clk incidentId controlGeneration reason =
      .ok (state, s')) : ∃ selfHeal, s' = { s with selfHeal } := by
  simp only [recordAutoObservationFailure, refuse_bind_eq_ok] at h
  obtain ⟨-, h⟩ := h
  obtain ⟨-, -, h⟩ := bind_eq_ok.1 h
  simp only [require_bind_eq_ok] at h
  obtain ⟨incident, -, h⟩ := h
  split at h
  · simp only [pure_eq_ok, Prod.mk.injEq] at h
    exact ⟨_, h.2.symm⟩
  · split at h
    · simp only [pure_eq_ok, Prod.mk.injEq] at h
      exact ⟨_, h.2.symm⟩
    · split at h <;> simp only [pure_eq_ok, Prod.mk.injEq] at h <;> exact ⟨_, h.2.symm⟩

/-- How a claim of a sampling job ends: nothing due, the session ended with its scope, or a
lease. -/
inductive SampleClaimed (s : Store) (clk : Clock) (sessionId owner : UUID) (leaseSeconds : ℕ) :
    Option SampleLease → Store → Prop
  | nothing : SampleClaimed s clk sessionId owner leaseSeconds none s
  | ended {row : SessionRow} {incident : IncidentRow}
      (hrow : s.sessions.get sessionId = some row) (hstate : row.state = .authorized)
      (hinc : s.incidents.get row.incidentId = some incident) :
      SampleClaimed s clk sessionId owner leaseSeconds none
        (s.withSessionTables (endSession s.sessionTables clk.later sessionId row.incidentId
          .scopeSuspended none incident.lifecycle incident.lifecycle))
  | leased {row : SessionRow} {incident : IncidentRow} {jobId : UUID} {sequence : ℕ}
      (hrow : s.sessions.get sessionId = some row) (hstate : row.state = .authorized)
      (hinc : s.incidents.get row.incidentId = some incident)
      (hscope : scopeBlocks (s.scopeOf incident) row = false) :
      SampleClaimed s clk sessionId owner leaseSeconds
        (some (SessionRow.lease row sessionId owner jobId sequence
          (clk.now + seconds leaseSeconds)))
        { s with
          sessions := s.sessions.modify sessionId fun row => { row with
            activeSampleOwner := some owner
            activeSampleEpoch := row.activeSampleEpoch + 1
            activeSampleLeaseUntil := some (clk.now + seconds leaseSeconds) } }

theorem claimDueSample_ok {lease : Option SampleLease}
    (h : s.claimDueSample clk sessionId owner leaseSeconds = .ok (lease, s')) :
    SampleClaimed s clk sessionId owner leaseSeconds lease s' := by
  simp only [claimDueSample, refuse_bind_eq_ok] at h
  obtain ⟨-, h⟩ := h
  split at h
  · simp only [pure_eq_ok, Prod.mk.injEq] at h
    obtain ⟨rfl, rfl⟩ := h
    exact .nothing
  · next row hrow =>
    obtain ⟨hrow, hdue⟩ := Option.filter_eq_some_iff.1 hrow
    simp only [sampleDue, decide_eq_true_eq] at hdue
    simp only [require_bind_eq_ok] at h
    obtain ⟨incident, hinc, h⟩ := h
    obtain ⟨scope, hscope, h⟩ := bind_eq_ok.1 h
    obtain rfl := lockScope_eq_ok hinc hscope
    split at h
    · simp only [pure_eq_ok, Prod.mk.injEq] at h
      obtain ⟨rfl, rfl⟩ := h
      exact .ended hrow hdue.1 hinc
    · next hblocks =>
      simp only [require_bind_eq_ok, pure_eq_ok, Prod.mk.injEq] at h
      obtain ⟨jobId, -, sequence, -, rfl, rfl⟩ := h
      exact .leased hrow hdue.1 hinc (by simpa using hblocks)

/-- What a submission found, judged and wrote. -/
structure Submitted [Texts] (s : Store) (clk : Clock) (lease : SampleLease)
    (sample : HealthSample) (readings : List SignalReading) (sampleId jobId : UUID)
    (incident : IncidentRow) (row : SessionRow) (c : Conditions) (verdict : Verdict)
    (after : IncidentLifecycle) (s' : Store) : Prop where
  session : sample.sessionId = lease.sessionId
  foundIncident : s.incidents.get lease.incidentId = some incident
  foundSession : s.sessions.get lease.sessionId = some row
  bound : row.incidentId = lease.incidentId
  skew : sample.window.end ≤ clk.now + seconds windowFutureSkewSeconds
  conditions : c = s.submitConditions clk.now row incident (s.scopeOf incident) lease sample
    readings
  judged : verdict = judge lease.sessionId row.terms row.fold sample c
  fired : fireTransition incident.lifecycle verdict.transition = .ok after
  fresh : s.samples.get sampleId = none
  written : s' =
    { s.withSessionTables (submitSessions s.sessionTables clk lease row c verdict after sampleId
        jobId) with
      incidents := s.incidents.modify lease.incidentId fun row => { row with lifecycle := after }
      samples := s.samples.insert sampleId
        (sampleRow lease sample readings c (s.scopeOf incident) verdict clk.later) }

/-- A committed submission, with what its receipt says. -/
theorem submitSample_receipt [Texts] {lease : SampleLease} {sample : HealthSample}
    (h : s.submitSample clk lease sample readings sampleId jobId = .ok (receipt, s')) :
    ∃ incident row c verdict after, Submitted s clk lease sample readings sampleId jobId incident
      row c verdict after s' ∧ receipt.accepted = verdict.decision.accepted ∧
      receipt.reason = verdict.decision.reason := by
  simp only [submitSample, refuse_bind_eq_ok, require_bind_eq_ok, ne_eq, not_not] at h
  obtain ⟨-, hsession, incident, hinc, row, hrow, hbound, h⟩ := h
  obtain ⟨scope, hscope, h⟩ := bind_eq_ok.1 h
  obtain rfl := lockScope_eq_ok hinc hscope
  simp only [refuse_bind_eq_ok, not_lt] at h
  obtain ⟨hskew, h⟩ := h
  obtain ⟨after, hafter, h⟩ := bind_eq_ok.1 h
  simp only [refuse_bind_eq_ok, pure_eq_ok, Prod.mk.injEq, Option.not_isSome_iff_eq_none] at h
  obtain ⟨hfresh, rfl, rfl⟩ := h
  exact ⟨incident, row, _, _, after, ⟨hsession, hinc, hrow, hbound, hskew, rfl, rfl, hafter,
    hfresh, rfl⟩, rfl, rfl⟩

theorem submitSample_ok [Texts] {lease : SampleLease} {sample : HealthSample}
    (h : s.submitSample clk lease sample readings sampleId jobId = .ok (receipt, s')) :
    ∃ incident row c verdict after, Submitted s clk lease sample readings sampleId jobId incident
      row c verdict after s' := by
  obtain ⟨incident, row, c, verdict, after, hsub, -, -⟩ := submitSample_receipt h
  exact ⟨incident, row, c, verdict, after, hsub⟩

/-- A sweep of one session ends it past its deadline, or does nothing. -/
theorem sweepExpiredSession_ok {b : Bool} (h : s.sweepExpiredSession clk sessionId = .ok (b, s')) :
    s' = s ∨ ∃ row incident after, s.sessions.get sessionId = some row ∧
      row.state = .authorized ∧ row.deadlineAt ≤ clk.now ∧
      s.incidents.get row.incidentId = some incident ∧
      fireTransition incident.lifecycle (some .observationEndedUnconfirmed) = .ok after ∧
      s' = { s.withSessionTables (endSession s.sessionTables clk.later sessionId row.incidentId
          .deadlineExpired (some .observationEndedUnconfirmed) incident.lifecycle after) with
        incidents := s.incidents.modify row.incidentId fun row => { row with lifecycle := after } } := by
  simp only [sweepExpiredSession, require_bind_eq_ok] at h
  obtain ⟨row, hrow, incident, hinc, h⟩ := h
  split at h
  · simp only [pure_eq_ok, Prod.mk.injEq] at h
    exact .inl h.2.symm
  · next hc =>
    rw [not_or, not_not, not_lt] at hc
    obtain ⟨after, hafter, h⟩ := bind_eq_ok.1 h
    simp only [pure_eq_ok, Prod.mk.injEq] at h
    exact .inr ⟨row, incident, after, hrow, hc.1, hc.2, hinc, hafter, h.2.symm⟩

theorem revokeSessions_ok {ids : List UUID} (h : s.revokeSessions clk incidentId = .ok (ids, s')) :
    ∃ incident, s.incidents.get incidentId = some incident ∧
      s' = s.revokeObservation clk incidentId incident.lifecycle := by
  simp only [revokeSessions, require_bind_eq_ok, pure_eq_ok, Prod.mk.injEq] at h
  obtain ⟨incident, hinc, -, rfl⟩ := h
  exact ⟨incident, hinc, rfl⟩

/-! ## The operations on the control machine -/

variable {now : Time}

/-- An observation's write to the lifecycle of an incident. -/
theorem observe_step {incident : IncidentRow} {f : IncidentRow → IncidentRow}
    (hinc : s.incidents.get incidentId = some incident)
    (hf : (f incident).subject = { incident.subject with lifecycle := (f incident).lifecycle })
    (hobs : Control.Observed incident.lifecycle (f incident).lifecycle)
    (hsubjects : subjectsOf s'.incidents = subjectsOf (s.incidents.modify incidentId f))
    (hruns : s'.runs = s.runs) (hscope : s'.scope = s.scope)
    (htargets : s'.targetSuspensions = s.targetSuspensions) :
    Control.Step now s.view .machine s'.view := by
  refine (Control.Step.observe (subjectsOf_get hinc) hobs).of_eq ?_
  refine Control.State.ext ?_ (congrArg attemptsOf hruns) hscope (congrArg Table.get htargets)
  rw [← hf]
  exact hsubjects.trans (subjectsOf_modify hinc f)

theorem fireTransition_observed {before after : IncidentLifecycle} {t : Option Transition}
    (h : fireTransition before t = .ok after) : Control.Observed before after := by
  unfold fireTransition at h
  split at h
  · exact .inl (Except.ok.inj h).symm
  · rw [require_eq_ok] at h
    cases before <;> cases h
    exact .inr (.inr ⟨rfl, .inl rfl⟩)
  · rw [Except.ok.injEq] at h
    subst h
    cases before
    · exact .inl rfl
    · exact .inr (.inr ⟨rfl, .inr rfl⟩)
    · exact .inl rfl
    · exact .inl rfl

theorem Authorized.step {incident : IncidentRow} {session : SessionRow}
    (h : Authorized s clk a incident .observingRecovery session s') :
    Control.Step now s.view .machine s'.view := by
  refine observe_step h.found rfl ?_ (by rw [h.written]) (by rw [h.written]) (by rw [h.written])
    (by rw [h.written])
  have hactive := h.active
  cases hlife : incident.lifecycle with
  | opened => exact .inr (.inl ⟨rfl, rfl⟩)
  | observingRecovery => exact .inl rfl
  | resolved | closed => rw [hlife] at hactive; cases hactive

theorem authorizeSession_step [Texts] {id : UUID} (h : s.authorizeSession clk a = .ok (id, s')) :
    Control.Step now s.view .machine s'.view := by
  obtain ⟨t, ht, h⟩ := bind_eq_ok.1 h
  simp only [pure_eq_ok, Prod.mk.injEq] at h
  obtain ⟨-, rfl⟩ := h
  obtain ⟨incident, lifecycle, session, hauth⟩ := authorizeSessionIn_ok ht
  obtain rfl := hauth.observing
  exact hauth.step

/-- A registered remediation is a decision that starts no attempt and reopens nothing. -/
theorem registerRemediation_step [Texts] {r : Remediation}
    (h : s.registerRemediation clk r = .ok (g, s')) :
    Control.Step now s.view (.decision r.authorization.incidentId) s'.view := by
  obtain ⟨t, authorized, incident, row, session, audit, ht, hinc, hgen, rfl, -, -, -, -, hauth,
    rfl⟩ := registerRemediation_ok h
  have hrow : row = { incident with controlGeneration := r.expectedGeneration + 1 } := by
    have hfound := hauth.found
    rw [ht.eq] at hfound
    simpa [remediated, hinc] using hfound.symm
  have hactive := hauth.active
  rw [hrow] at hactive
  let f : IncidentRow → IncidentRow := fun row =>
    observed .observingRecovery { row with controlGeneration := r.expectedGeneration + 1 }
  have hruling : Control.Ruling incident.subject [] .queued (f incident).subject := by
    simp only [f, ← hgen]
    exact .remediate hactive
  refine ruling_step (f := f) hinc rfl hruling ?_ ?_ ?_ ?_ (.inl rfl)
  · rw [hauth.written, ht.eq]
    simp only [remediated, Table.modify_modify]
    rfl
  · rw [moveRuns_nil, hauth.written, ht.eq]
    rfl
  · rw [hauth.written, ht.eq]
    rfl
  · rw [hauth.written, ht.eq]
    rfl

theorem authorizeAutomaticObservation_step [Texts] {grant : Option SelfHealGrant}
    {refusal : Option String} {state : Option SelfHealState}
    (h : s.authorizeAutomaticObservation clk incidentId controlGeneration grant refusal =
      .ok (state, s')) : Control.Step now s.view .machine s'.view := by
  rcases authorizeAutomaticObservation_ok h with ⟨selfHeal, rfl⟩ |
    ⟨t, authorized, a, incident, session, audit, selfHeal, ht, -, -, hauth, rfl⟩
  · exact .idle
  · have hstep : Control.Step now t.view .machine authorized.view := hauth.step
    rw [ht.eq] at hstep
    exact hstep

theorem claimDueSample_step {lease : Option SampleLease}
    (h : s.claimDueSample clk sessionId owner leaseSeconds = .ok (lease, s')) :
    Control.Step now s.view .machine s'.view := by
  cases claimDueSample_ok h with
  | nothing => exact .idle
  | ended => exact .unseen rfl
  | leased => exact .unseen rfl

theorem submitSample_step [Texts] {lease : SampleLease} {sample : HealthSample}
    (h : s.submitSample clk lease sample readings sampleId jobId = .ok (receipt, s')) :
    Control.Step now s.view .machine s'.view := by
  obtain ⟨incident, row, c, verdict, after, hsub⟩ := submitSample_ok h
  exact observe_step hsub.foundIncident rfl (fireTransition_observed hsub.fired)
    (by rw [hsub.written]) (by rw [hsub.written]; rfl) (by rw [hsub.written]; rfl)
    (by rw [hsub.written]; rfl)

theorem sweepExpiredSession_step {b : Bool}
    (h : s.sweepExpiredSession clk sessionId = .ok (b, s')) :
    Control.Step now s.view .machine s'.view := by
  rcases sweepExpiredSession_ok h with rfl | ⟨row, incident, after, -, -, -, hinc, hafter, rfl⟩
  · exact .idle
  · exact observe_step hinc rfl (fireTransition_observed hafter) rfl rfl rfl rfl

end Store

end OpsPilot
