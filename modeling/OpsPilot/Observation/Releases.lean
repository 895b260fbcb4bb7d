import OpsPilot.Domain.Releases
import OpsPilot.Observation.Judge

/-!
# The tables of releases, and what every release operation shares

A release is observed by sessions, one after the other; a session hands out sampling jobs and ends
with an ending. The tables are those of the migrations, without the columns that repeat another
one. The id of an ending is the `uuid5` of its release and its session, so it is that pair here,
and `active_sample_*` is one optional `SampleSlot`.

Every operation locks the release row first, so it runs as one atomic transaction; the suspensions
lock the release rows too, which makes a plain read of the gates current. A `ReleaseStore` is the
store of the incidents with these tables next to it.

* `ReleaseStore.endReleaseSession`: the one way a session ends.
* `ReleaseStore.auditRelease`: the one way a command or a sweep is recorded.
-/

namespace OpsPilot

/-- `calibrated_policy_revision`, `_content` and `_sha256`: set together, once. -/
structure PolicySnapshot where
  revision : String
  content : String
  contentSha256 : String
  deriving DecidableEq

/-- The columns of a release that a command decides on and an audit row repeats. -/
structure ReleaseControl where
  status : ReleaseStatus := .pending
  paused : Bool := false
  controlGeneration : ℕ := 0
  observationGeneration : ℕ := 0
  deriving DecidableEq

/-- `opspilot_release_observations`. -/
structure ReleaseRow extends ReleaseControl where
  terms : ReleaseTerms
  endedReason : Option ReleaseEndedReason := none
  endedAt : Option Time := none
  incidentId : Option UUID := none
  usedSampleCount : ℕ := 0
  policy : Option PolicySnapshot := none
  deriving DecidableEq

/-- The sampling job of a session: `active_sample_job_id`, `_sequence`, `_due_at`, `_owner` and
`_lease_until`. -/
structure SampleSlot where
  jobId : UUID
  sequence : ℕ
  dueAt : Time
  owner : Option UUID := none
  leaseUntil : Option Time := none
  deriving DecidableEq

/-- `opspilot_observation_sessions` of a release. -/
structure ReleaseSessionRow where
  observationId : UUID
  targetId : UUID
  target : TargetIdentity
  subjectControlGeneration : ℕ
  observationGeneration : ℕ
  authorizedBy : String
  healthProfileRevision : String
  authorizedGlobalGeneration : ℕ
  authorizedTargetGeneration : ℕ
  deadlineAt : Time
  maxSamples : ℕ
  sampleIntervalSeconds : ℕ
  sustainedWindowSeconds : ℕ
  releasePolicyRevision : String
  releaseBudgetUsedAtAuthorization : ℕ
  authorizedAt : Time
  state : ObservationSessionState := .authorized
  endedReason : Option ReleaseEndedReason := none
  marks : SessionMarks := {}
  issuedSequence : ℕ := 1
  slot : Option SampleSlot
  activeSampleEpoch : ℕ := 0
  deriving DecidableEq

/-- `ReleaseSampleLease`. -/
structure ReleaseSampleLease where
  sessionId : UUID
  observationId : UUID
  jobId : UUID
  sequence : ℕ
  owner : UUID
  epoch : ℕ
  leaseUntil : Time
  subjectControlGeneration : ℕ
  observationGeneration : ℕ
  healthProfileRevision : String
  calibratedPolicyRevision : String
  deadlineAt : Time
  sampleIntervalSeconds : ℕ
  adoptedWindowEnd : Option Time
  globalSuspensionGeneration : ℕ
  targetSuspensionGeneration : ℕ
  deriving DecidableEq

/-- The status of a `ReleaseQueryResult`. -/
inductive QueryStatus
  | ok | noData | timeout | failed
  deriving DecidableEq, Repr

/-- `ReleaseQueryResult`; its source is always Prometheus. -/
structure ReleaseQueryResult where
  queryKey : String
  query : String
  evaluatedAt : Time
  sentAt : Option Time
  status : QueryStatus
  httpStatus : Option ℕ
  detail : String
  bodyComplete : Bool
  raw : List UInt8
  rawSha256 : String
  deriving DecidableEq

/-- `ReleaseSampleEvidence`: no query key comes twice. -/
structure ReleaseSampleEvidence where
  sampleId : UUID
  window : QueryWindow
  queries : List ReleaseQueryResult
  unique_queries : (queries.map (·.queryKey)).Nodup

/-- The id of an ending: its release and its session. -/
abbrev ReleaseEndingId := UUID × UUID

/-- `ReleaseSampleReceipt`; the two lengths are in microseconds. -/
structure ReleaseSampleReceipt where
  sampleId : UUID
  sessionId : UUID
  observationId : UUID
  replayed : Bool
  reason : ReleaseSampleReason
  evaluation : ReleaseEvaluation
  sessionState : ObservationSessionState
  releaseStatus : ReleaseStatus
  usedSampleCount : ℕ
  tracking : ℤ
  healthyWindow : ℤ
  endingId : Option ReleaseEndingId
  nextSampleDueAt : Option Time
  deriving DecidableEq

/-- `opspilot_observation_samples` of a release, with its query results. The job, its sequence and
its stamps are the ones of the lease the sample came with. -/
structure ReleaseSampleRow where
  sessionId : UUID
  observationId : UUID
  lease : ReleaseSampleLease
  window : QueryWindow
  evaluation : ReleaseEvaluation
  reason : ReleaseSampleReason
  confirmsHealth : Bool
  healthBasis : HealthBasis
  scopeSuspended : Bool
  globalGeneration : ℕ
  targetGeneration : ℕ
  withinDeadline : Bool
  leaseValid : Bool
  leaseStampsMatch : Bool
  readingsConsistent : Bool
  transition : Option ReleaseStatus
  currentSubjectState : ReleaseStatus
  currentSubjectControlGeneration : ℕ
  currentSubjectObservationGeneration : ℕ
  decisionAt : Time
  evidenceSha256 : String
  receipt : ReleaseSampleReceipt
  queries : List ReleaseQueryResult
  deriving DecidableEq

/-- The disposition of a sample is `adopted`. -/
def ReleaseSampleRow.adopted (row : ReleaseSampleRow) : Bool := row.reason = .adopted

/-- `opspilot_observation_endings` of a release. A transition is `release_` with a status, an
anomaly key `release-anomaly:` with a release. -/
structure ReleaseEndingRow where
  endedReason : ReleaseEndedReason
  transition : Option ReleaseStatus
  sampleId : Option UUID
  subjectStateBefore : ReleaseStatus
  subjectStateAfter : ReleaseStatus
  anomalyKey : Option UUID
  jobId : Option UUID
  jobSequence : Option ℕ
  recordedAt : Time
  deriving DecidableEq

/-- The actions of a release command. -/
inductive ReleaseAction
  | authorize | pause | resume | cancel
  deriving DecidableEq, Repr

/-- `opspilot_release_audit.action`. -/
inductive ReleaseAuditAction
  | command (action : ReleaseAction)
  | deadlineExpired
  deriving DecidableEq, Repr

/-- `opspilot_release_audit.reason`. -/
inductive ReleaseReason
  | controlConflict | releaseTerminal | releaseDeadlineExpired | releasePaused
  | observationAlreadyAuthorized | reauthorizationRequired | alreadyPaused | scopeSuspended
  | targetIdentityMissing | targetMismatch | healthProfileUnavailable | invalidReleasePolicy
  | healthProfileTargetMismatch | releasePolicyCatalogInvalid | releasePolicyUncalibrated
  | releasePolicyMismatch | releasePolicyUnsupported | releaseSampleBudgetExhausted
  | deadlineExpired
  deriving DecidableEq, Repr

/-- `ReleaseCommandReceipt`, the `result` of an audit row. -/
structure ReleaseCommandReceipt where
  observationId : UUID
  auditId : UUID
  sequence : ℕ
  action : ReleaseAuditAction
  applied : Bool
  replayed : Bool := false
  reason : Option ReleaseReason
  sessionId : Option UUID
  endingId : Option ReleaseEndingId
  control : ReleaseControl
  usedSampleCount : ℕ
  deadlineAt : Time
  deriving DecidableEq

/-- `opspilot_release_audit`. The principal follows from the action; outcome, reason, session and
ending are those of the result. -/
structure ReleaseAuditRow where
  idempotencyKey : String
  requestSha256 : String
  actor : String
  expectedControlGeneration : ℕ
  before : ReleaseControl
  after : ReleaseControl
  result : ReleaseCommandReceipt
  recordedAt : Time
  deriving DecidableEq

/-- The database, with the tables of the releases. -/
structure ReleaseStore where
  store : Store := {}
  releases : Table UUID ReleaseRow := ∅
  sessions : Table UUID ReleaseSessionRow := ∅
  samples : Table UUID ReleaseSampleRow := ∅
  endings : Table ReleaseEndingId ReleaseEndingRow := ∅
  audits : Table UUID ReleaseAuditRow := ∅

/-- What a release operation raises: a code of the shared store, a code of its own, or the
validation error of a stored record. -/
inductive ReleaseError
  | store (code : Code)
  | notFound | idempotencyConflict | sampleIdentityConflict | healthProfileUnavailable
  | releasePolicyMismatch | integrityRefused | invalidRecord
  deriving DecidableEq, Repr

/-- The session after it ended: no sampling job is left. -/
def ReleaseSessionRow.ended (session : ReleaseSessionRow) (reason : ReleaseEndedReason) :
    ReleaseSessionRow :=
  { session with state := reason.sessionState, endedReason := some reason, slot := none }

/-- The ending of a session. -/
def ReleaseSessionRow.ending (session : ReleaseSessionRow) (before : ReleaseStatus)
    (reason : ReleaseEndedReason) (after : ReleaseStatus) (sampleId : Option UUID)
    (recordedAt : Time) : ReleaseEndingRow where
  endedReason := reason
  transition :=
    if (after = .healthy ∨ after = .anomalous ∨ after = .unknown) ∧
        (reason = .healthyConfirmed ∨ reason = .anomalyDetected ∨ reason = .deadlineExpired ∨
          reason = .maxSamplesExhausted) then some after
    else none
  sampleId := sampleId
  subjectStateBefore := before
  subjectStateAfter := after
  anomalyKey := if reason = .anomalyDetected then some session.observationId else none
  jobId := session.slot.map (·.jobId)
  jobSequence := session.slot.map (·.sequence)
  recordedAt := recordedAt

/-- `scope_blocked`: a gate is closed, or moved since the authorization. -/
def Scope.blocks (scope : Scope) (session : ReleaseSessionRow) : Bool :=
  scope.suspended || scope.global.generation ≠ session.authorizedGlobalGeneration ||
    scope.target.generation ≠ session.authorizedTargetGeneration

/-- What a release operation reads of a `HealthProfile`; `definition` is what only the evaluator
reads. -/
structure HealthProfile where
  revision : String
  «namespace» : String
  service : String
  deadlineSeconds : ℕ
  maxSamples : ℕ
  sampleIntervalSeconds : ℕ
  sustainedWindowSeconds : ℕ
  definition : Json
  maxSamples_pos : 0 < maxSamples
  interval_pos : 0 < sampleIntervalSeconds

/-- `ReleaseEvaluationContext`. Of a release the evaluator reads the frozen terms only. -/
structure ReleaseContext where
  terms : ReleaseTerms
  sessionId : UUID
  authorizedAt : Time
  policy : PolicySnapshot
  profile : HealthProfile

/-- `ReleaseEvent`. -/
structure ReleaseEvent where
  source : String
  sourceReleaseId : String
  releasedAt : Time
  before : Json
  after : Json
  auxiliary : Json
  deriving DecidableEq

/-- The functions of texts and telemetry a release operation calls: the validated profile of a text,
the hashes of a canonical delivery, command and submission, and the evaluator. -/
class ReleaseTexts extends Texts where
  healthProfile : String → Option HealthProfile
  supportedProfile : HealthProfile → Bool
  semanticSha256 : ReleaseEvent → UUID → Option TargetRow → String
  commandSha256 : ReleaseAction → String → ℕ → Option String → String
  sampleFingerprint : ReleaseSampleLease → ReleaseSampleEvidence → String
  evaluateReleaseSample : ReleaseContext → ReleaseSampleEvidence → Time → ReleaseEvaluation
  queryEvidenceConsistent : ReleaseContext → ReleaseSampleEvidence → Time → Bool

/-- The database clock during a release operation: the reading its checks use, the reading a command
takes before it writes, and the ones the database takes for an ending, a new session and an audit
row. -/
structure ReleaseClock where
  now : Time
  later : Time
  endedAt : Time
  authorizedAt : Time
  recordedAt : Time

namespace ReleaseStore

variable (s : ReleaseStore)

/-- `release_row`. -/
def releaseRow (observationId : UUID) : Except ReleaseError ReleaseRow :=
  require (s.releases.get observationId) .notFound

/-- `release_scope`. -/
def releaseScope (targetId : UUID) : Except ReleaseError Scope := do
  let target ← require (s.store.targetSuspensions.get targetId) (.store .inconsistentState)
  pure ⟨s.store.scope, target⟩

/-- `SELECT … WHERE release_observation_id=… AND state='authorized' ORDER BY session_id`. -/
def authorizedSessions (observationId : UUID) : List (UUID × ReleaseSessionRow) :=
  (s.sessions.select fun _ session =>
    session.observationId = observationId ∧ session.state = .authorized).mergeSort
      fun a b => decide (a.1 ≤ b.1)

/-- `end_release_session`: unless it has an ending, the session ends and gets one. -/
def endReleaseSession (status : ReleaseStatus) (sessionId : UUID) (session : ReleaseSessionRow)
    (reason : ReleaseEndedReason) (after : ReleaseStatus) (sampleId : Option UUID)
    (recordedAt : Time) : ReleaseStore :=
  if (s.endings.get (session.observationId, sessionId)).isSome then s
  else { s with
    sessions := s.sessions.modify sessionId (·.ended reason)
    endings := s.endings.insert (session.observationId, sessionId)
      (session.ending status reason after sampleId recordedAt) }

/-- End every session of a list. -/
def endReleaseSessions (status : ReleaseStatus) (sessions : List (UUID × ReleaseSessionRow))
    (reason : ReleaseEndedReason) (after : ReleaseStatus) (recordedAt : Time) : ReleaseStore :=
  sessions.foldl
    (fun s e => s.endReleaseSession status e.1 e.2 reason after none recordedAt) s

/-- The audit rows of a release. -/
def auditsOf (observationId : UUID) : List (UUID × ReleaseAuditRow) :=
  s.audits.select fun _ audit => audit.result.observationId = observationId

/-- The audit row of a release under a key. -/
def auditWith (observationId : UUID) (key : String) : Option ReleaseAuditRow :=
  ((s.auditsOf observationId).find? (·.2.idempotencyKey = key)).map Prod.snd

/-- `audit_release`: one row under the next sequence of the release. The id and the key are
unique. -/
def auditRelease (auditId : UUID) (audit : ReleaseAuditRow) :
    Except ReleaseError (ReleaseAuditRow × ReleaseStore) := do
  let sequence :=
    ((s.auditsOf audit.result.observationId).map (·.2.result.sequence)).foldr max 0 + 1
  let audit := { audit with result := { audit.result with auditId, sequence } }
  refuse (s.audits.get auditId).isSome .integrityRefused
  refuse (s.auditWith audit.result.observationId audit.idempotencyKey).isSome .integrityRefused
  pure (audit, { s with audits := s.audits.insert auditId audit })

/-! ## What an audit row and an ending change -/

variable {s} {s' : ReleaseStore} {auditId oid sid : UUID} {audit written : ReleaseAuditRow}

/-- An audit row that is written is new, by its id and by its key. -/
theorem auditRelease_ok (h : s.auditRelease auditId audit = .ok (written, s')) :
    s.audits.get auditId = none ∧
      s.auditWith audit.result.observationId audit.idempotencyKey = none ∧
      (∃ sequence, written = { audit with result := { audit.result with auditId, sequence } }) ∧
      s' = { s with audits := s.audits.insert auditId written } := by
  simp only [auditRelease, refuse_bind_eq_ok, pure_eq_ok, Prod.mk.injEq,
    Option.not_isSome_iff_eq_none] at h
  obtain ⟨hid, hkey, hwritten, rfl⟩ := h
  exact ⟨hid, hkey, ⟨_, hwritten.symm⟩, by rw [hwritten]⟩

/-- An audit row is found under its release and key. -/
theorem auditWith_some {key : String} (h : s.auditWith oid key = some audit) :
    (∃ id, s.audits.get id = some audit) ∧ audit.result.observationId = oid ∧
      audit.idempotencyKey = key := by
  obtain ⟨⟨id, found⟩, hfind, rfl⟩ := Option.map_eq_some_iff.1 h
  have hmem := List.mem_of_find?_eq_some hfind
  have hkey := List.find?_some hfind
  rw [auditsOf, Table.mem_select_iff, decide_eq_true_eq] at hmem
  exact ⟨⟨id, hmem.1⟩, hmem.2, by simpa using hkey⟩

/-- A row that is written is the one found under its key. -/
theorem auditRelease_found (h : s.auditRelease auditId audit = .ok (written, s')) :
    s'.auditWith audit.result.observationId audit.idempotencyKey = some written := by
  obtain ⟨hid, -, ⟨sequence, rfl⟩, rfl⟩ := auditRelease_ok h
  simp only [auditWith, auditsOf, Table.select_insert _ hid, decide_true, if_true,
    List.find?_cons_of_pos, Option.map_some]

theorem mem_authorizedSessions {e : UUID × ReleaseSessionRow} :
    e ∈ s.authorizedSessions oid ↔
      s.sessions.get e.1 = some e.2 ∧ e.2.observationId = oid ∧ e.2.state = .authorized := by
  rw [authorizedSessions, List.mem_mergeSort, Table.mem_select_iff, decide_eq_true_eq]

/-- A session without an ending gets one. -/
theorem endReleaseSession_of_none {s : ReleaseStore} {sid : UUID} {session : ReleaseSessionRow}
    (hnone : s.endings.get (session.observationId, sid) = none) (status : ReleaseStatus)
    (reason : ReleaseEndedReason) (after : ReleaseStatus) (sampleId : Option UUID)
    (recordedAt : Time) :
    s.endReleaseSession status sid session reason after sampleId recordedAt = { s with
      sessions := s.sessions.modify sid (·.ended reason)
      endings := s.endings.insert (session.observationId, sid)
        (session.ending status reason after sampleId recordedAt) } := by
  rw [endReleaseSession, if_neg (by simp [hnone])]

/-- `t` differs from `s` in sessions and endings only. -/
structure SessionsOnly (s t : ReleaseStore) : Prop where
  store : t.store = s.store
  releases : t.releases = s.releases
  samples : t.samples = s.samples
  audits : t.audits = s.audits

theorem SessionsOnly.trans {a b c : ReleaseStore} (h : SessionsOnly a b) (h' : SessionsOnly b c) :
    SessionsOnly a c :=
  ⟨h'.store.trans h.store, h'.releases.trans h.releases, h'.samples.trans h.samples,
    h'.audits.trans h.audits⟩

theorem endReleaseSession_only (s : ReleaseStore) (status : ReleaseStatus) (sid : UUID)
    (session : ReleaseSessionRow) (reason : ReleaseEndedReason) (after : ReleaseStatus)
    (sampleId : Option UUID) (recordedAt : Time) :
    SessionsOnly s
      (s.endReleaseSession status sid session reason after sampleId recordedAt) := by
  unfold endReleaseSession
  split <;> exact ⟨rfl, rfl, rfl, rfl⟩

theorem endReleaseSessions_only (s : ReleaseStore) (status : ReleaseStatus)
    (l : List (UUID × ReleaseSessionRow)) (reason : ReleaseEndedReason) (after : ReleaseStatus)
    (recordedAt : Time) :
    SessionsOnly s (s.endReleaseSessions status l reason after recordedAt) := by
  induction l generalizing s with
  | nil => exact ⟨rfl, rfl, rfl, rfl⟩
  | cons e l ih => exact (s.endReleaseSession_only ..).trans (ih _)

end ReleaseStore

end OpsPilot
