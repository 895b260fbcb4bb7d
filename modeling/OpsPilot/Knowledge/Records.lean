import OpsPilot.Domain.Runs
import OpsPilot.Foundations.Table
import OpsPilot.Foundations.Transaction
import OpsPilot.Investigation.Reports

/-!
# The records of postmortems and knowledge

A postmortem has numbered versions, each written once with its conclusions, the entries it
proposes and its disputes; afterwards only the state of a version moves, along the machine
`postmortem`. A knowledge entry has numbered revisions and tombstones, and neither ever changes:
what a revision is now is derived from both (`Store.revisionState`).

Conclusions, proposals and disputes are lists of their version, since their rows are written with
it and frozen. A SHA-256 is represented by the text or rows it is taken of, and a canonical JSON
text by a string.
-/

namespace OpsPilot.Knowledge

/-! ## Who acts, and how -/

/-- `PrincipalKind`. -/
inductive PrincipalKind
  | basicAuth | worker
  deriving DecidableEq, Repr

/-- `Actor`: the authenticated principal. -/
structure Actor where
  actorId : String
  principalKind : PrincipalKind
  deriving DecidableEq, Repr

/-- `ACTIONS`. -/
inductive Action
  | generate | submit | markStale | approve | reject | «return» | publish | supersede | revoke
  deriving DecidableEq, Repr

/-- `WORKER_ACTIONS`. -/
def Action.byWorker : Action → Bool
  | generate | submit | markStale => true
  | _ => false

/-- The codes of `PersistenceError` these operations raise; `storage` stands for the transient ones
of `_StoreBase`. -/
inductive KnowledgeError
  | invalidInput | notFound | principalNotAllowed | idempotencyConflict | generationConflict
  | illegalTransition | openVersionExists | watermarkMoved | citationsInvalid | disputed
  | entryGenerationConflict | integrityRefused | notEligible | leaseLost | modelBudgetExhausted
  | storage
  deriving DecidableEq, Repr

/-- `_require_text`. -/
def requireText (text : String) : Except KnowledgeError Unit := refuse (blank text) .invalidInput

/-- `_require_actor`. -/
def requireActor (actor : Actor) (action : Action) : Except KnowledgeError Unit := do
  requireText actor.actorId
  refuse ((actor.principalKind = .worker) ≠ (action.byWorker = true)) .principalNotAllowed

/-- `_require_int` with a minimum. -/
def requireInt (value minimum : ℕ) : Except KnowledgeError Unit :=
  refuse (value < minimum) .invalidInput

/-! ## States -/

/-- `PostmortemState`. -/
inductive PostmortemState
  | draft | underReview | approved | rejected | returned | stale
  deriving DecidableEq, Repr

/-- The triggers of `postmortem`. -/
inductive PostmortemTrigger
  | submitForReview | markStale | humanApprove | humanReject | humanReturnForRevision
  deriving DecidableEq, Repr

/-- `POSTMORTEM`. -/
def postmortem : StateMachine PostmortemState PostmortemTrigger where
  edges
    | .draft => [(.submitForReview, .underReview), (.markStale, .stale)]
    | .underReview =>
      [(.humanApprove, .approved), (.humanReject, .rejected),
        (.humanReturnForRevision, .returned), (.markStale, .stale)]
    | .approved | .rejected | .returned | .stale => []

/-- `KnowledgeState`. -/
inductive KnowledgeState
  | active | superseded | revoked
  deriving DecidableEq, Repr

/-- `StaleReason`. -/
inductive StaleReason
  | controlGenerationChanged | incidentReopened | observationChanged | runAdded | inputAdded
  | evidenceChanged
  deriving DecidableEq, Repr

/-- The text of a reason, as the audit row has it. -/
def StaleReason.text : StaleReason → String
  | controlGenerationChanged => "control_generation_changed"
  | incidentReopened => "incident_reopened"
  | observationChanged => "observation_changed"
  | runAdded => "run_added"
  | inputAdded => "input_added"
  | evidenceChanged => "evidence_changed"

/-! ## The incident, as the knowledge operations read it -/

/-- A row of `opspilot_evidence` that a tool result has cited. -/
structure EvidenceFacts where
  evidenceId : String
  rawSha256 : String
  viewSha256 : String
  adopted : Bool
  deriving DecidableEq, Repr

/-- A row of `opspilot_observation_sessions`, with the endings that name it. -/
structure SessionFacts where
  sessionId : UUID
  state : ObservationSessionState
  observationGeneration : ℕ
  endings : List UUID
  deriving DecidableEq, Repr

/-- An incident, with the rows of its Runs, inputs, committed evidence (in the order of the ids) and
observation. -/
structure Incident where
  controlGeneration : ℕ := 0
  observationGeneration : ℕ := 0
  currentRunId : Option UUID := none
  runs : List (UUID × RunExecution) := []
  inputs : List ℕ := []
  evidence : List EvidenceFacts := []
  sessions : List SessionFacts := []
  deriving DecidableEq, Repr

/-- `COALESCE(max(n.sequence), 0)`. -/
def Incident.inputWatermark (incident : Incident) : ℕ := incident.inputs.foldr max 0

/-- `Watermark`: what a draft was assembled from. -/
structure Watermark where
  incidentControlGeneration : ℕ
  observationGeneration : ℕ
  observationSessionId : UUID
  observationEndingId : UUID
  runCount : ℕ
  lastRunId : Option UUID
  inputWatermark : ℕ
  evidenceSnapshot : List EvidenceFacts
  deriving DecidableEq, Repr

/-- The parts of a watermark that can move. -/
inductive Component
  | observationGeneration | run | controlGeneration | inputWatermark | evidence
  deriving DecidableEq, Repr

namespace Incident

/-- `moved_components`. -/
def movedComponents (incident : Incident) (watermark : Watermark) : List Component :=
  (if incident.observationGeneration ≠ watermark.observationGeneration then
    [Component.observationGeneration] else []) ++
  (if incident.runs.length ≠ watermark.runCount ∨ incident.currentRunId ≠ watermark.lastRunId then
    [Component.run] else []) ++
  (if incident.controlGeneration ≠ watermark.incidentControlGeneration then
    [Component.controlGeneration] else []) ++
  (if incident.inputWatermark ≠ watermark.inputWatermark then [Component.inputWatermark] else []) ++
  (if incident.evidence ≠ watermark.evidenceSnapshot then [Component.evidence] else [])

/-- The incident equals the watermark in every part that can move. -/
structure Matches (incident : Incident) (watermark : Watermark) : Prop where
  observation : incident.observationGeneration = watermark.observationGeneration
  runCount : incident.runs.length = watermark.runCount
  lastRun : incident.currentRunId = watermark.lastRunId
  control : incident.controlGeneration = watermark.incidentControlGeneration
  inputs : incident.inputWatermark = watermark.inputWatermark
  evidence : incident.evidence = watermark.evidenceSnapshot

theorem movedComponents_eq_nil {incident : Incident} {watermark : Watermark} :
    incident.movedComponents watermark = [] ↔ incident.Matches watermark := by
  simp only [movedComponents, List.append_eq_nil_iff, ite_eq_right_iff, List.cons_ne_nil, imp_false,
    not_not, not_or]
  constructor
  · rintro ⟨⟨⟨⟨hobservation, hcount, hlast⟩, hcontrol⟩, hinputs⟩, hevidence⟩
    exact ⟨hobservation, hcount, hlast, hcontrol, hinputs, hevidence⟩
  · rintro ⟨hobservation, hcount, hlast, hcontrol, hinputs, hevidence⟩
    exact ⟨⟨⟨⟨hobservation, hcount, hlast⟩, hcontrol⟩, hinputs⟩, hevidence⟩

/-- `_check_observation`: the session of the watermark belongs to the incident and has ended with
the ending of the watermark, and its last Run is the incident's. -/
def checkObservation (incident : Incident) (watermark : Watermark) : Bool :=
  (incident.sessions.any fun session =>
    session.sessionId = watermark.observationSessionId ∧ session.state ≠ .authorized ∧
      session.observationGeneration = watermark.observationGeneration ∧
      watermark.observationEndingId ∈ session.endings) &&
  watermark.lastRunId.all fun runId => runId ∈ incident.runs.map Prod.fst

end Incident

/-- `stale_reason_for`, over `_MOVED_REASONS`. -/
def staleReasonFor (moved : List Component) : Option StaleReason :=
  if .observationGeneration ∈ moved then some .observationChanged
  else if .run ∈ moved then some .runAdded
  else if .controlGeneration ∈ moved then some .controlGenerationChanged
  else if .inputWatermark ∈ moved then some .inputAdded
  else if .evidence ∈ moved then some .evidenceChanged
  else none

/-! ## The parts of a draft -/

/-- `Certainty`. -/
inductive Certainty
  | deterministic | supported | uncertain
  deriving DecidableEq, Repr

/-- `_AUTHORS`. -/
inductive Author
  | code | model
  deriving DecidableEq, Repr

/-- One evidence binding of a conclusion. -/
structure EvidenceRef where
  evidenceId : String
  scope : String
  windowStart : String
  windowEnd : String
  citableAsFact : Bool
  deriving DecidableEq, Repr

/-- `_valid_ref`. -/
def EvidenceRef.valid (ref : EvidenceRef) : Bool :=
  ref.evidenceId ≠ "" && ref.scope ≠ "" && ref.windowStart ≠ "" && ref.windowEnd ≠ ""

/-- `ConclusionDraft`. -/
structure Conclusion where
  key : String
  «section» : String
  body : String
  author : Author
  certainty : Certainty
  citationsValid : Bool
  evidenceRefs : List EvidenceRef
  deriving DecidableEq, Repr

/-- `_validate_conclusion`. -/
def Conclusion.validate (c : Conclusion) : Except KnowledgeError Unit := do
  requireText c.key
  requireText c.section
  refuse ((c.author = .code) ≠ (c.certainty = .deterministic)) .invalidInput
  refuse (c.citationsValid = false ∧ c.certainty ≠ .uncertain) .invalidInput
  refuse (c.evidenceRefs.all EvidenceRef.valid = false) .invalidInput
  refuse (c.author = .model ∧ c.evidenceRefs = []) .invalidInput
  refuse (c.certainty = .supported ∧ c.evidenceRefs.any EvidenceRef.citableAsFact = false)
    .invalidInput

/-- `ProposalDraft`. -/
structure Proposal where
  key : String
  name : String
  tags : List String
  content : String
  supersedesEntryId : Option UUID := none
  deriving DecidableEq, Repr

/-- `_validate_proposal`. -/
def Proposal.validate (p : Proposal) : Except KnowledgeError Unit := do
  requireText p.key
  requireText p.name
  refuse ("" ∈ p.tags) .invalidInput

/-- `DisputeDraft`. -/
structure Dispute where
  conclusionKey : String
  reason : String
  deriving DecidableEq, Repr

/-! ## Rows -/

/-- `opspilot_postmortems`. -/
structure PostmortemRow where
  incidentId : UUID
  generation : ℕ := 0
  latestVersion : ℕ := 0
  deriving DecidableEq, Repr

/-- `opspilot_postmortem_versions`, with the rows of its parts. -/
structure VersionRow where
  revisesVersion : Option ℕ
  state : PostmortemState := .draft
  staleReason : Option StaleReason := none
  content : String
  watermark : Watermark
  conclusions : List Conclusion
  proposals : List Proposal
  disputes : List Dispute
  generatedBy : Actor
  deriving DecidableEq, Repr

/-- `opspilot_knowledge_entries`. -/
structure EntryRow where
  generation : ℕ := 0
  latestRevision : ℕ := 0
  deriving DecidableEq, Repr

/-- `opspilot_knowledge_revisions`. -/
structure RevisionRow where
  name : String
  tags : List String
  content : String
  sourcePostmortemId : UUID
  sourceVersion : ℕ
  sourceProposalKey : String
  supersedesRevision : Option ℕ
  approvedBy : Actor
  deriving DecidableEq, Repr

/-- `opspilot_knowledge_revocations`. -/
structure RevocationRow where
  reason : String
  revokedBy : Actor
  deriving DecidableEq, Repr

/-- `OBJECT_KINDS`. -/
inductive ObjectKind
  | postmortem | knowledgeEntry
  deriving DecidableEq, Repr

/-- `opspilot_f13_audit`. -/
structure AuditRow where
  idempotencyKey : String
  objectKind : ObjectKind
  objectId : UUID
  action : Action
  version : Option ℕ := none
  revision : Option ℕ := none
  actor : Actor
  reason : Option String := none
  expectedGeneration : ℕ
  deriving DecidableEq, Repr

/-- `opspilot_f13_audit.resulting_generation`, which the table's `CHECK` fixes. -/
def AuditRow.resultingGeneration (row : AuditRow) : ℕ := row.expectedGeneration + 1

/-- What one proposal of an approved version published. -/
structure Published where
  entryId : UUID
  revision : ℕ
  generation : ℕ
  action : Action
  deriving DecidableEq, Repr

/-- The state an action left its object in. -/
inductive ObjectState
  | version (state : PostmortemState)
  | revision (state : KnowledgeState)
  deriving DecidableEq, Repr

/-- `ActionResult`. -/
structure ActionResult where
  action : Action
  objectKind : ObjectKind
  objectId : UUID
  generation : ℕ
  version : Option ℕ := none
  revision : Option ℕ := none
  state : Option ObjectState := none
  published : List (String × Published) := []
  replayed : Bool := false
  deriving DecidableEq, Repr

/-! ## Requests -/

/-- The arguments of `record_draft`. -/
structure DraftRequest where
  incidentId : UUID
  expectedGeneration : ℕ
  idempotencyKey : String
  actor : Actor
  content : String
  watermark : Watermark
  conclusions : List Conclusion
  proposals : List Proposal := []
  disputes : List Dispute := []
  revisesVersion : Option ℕ := none
  deriving DecidableEq

/-- The actions of `_transition`, with what each adds to the request. -/
inductive Move
  | markStale (reason : StaleReason)
  | approve (entryGenerations : Table UUID ℕ)
  | reject (reason : String)
  | «return» (reason : String)
  deriving DecidableEq

namespace Move

/-- The action a move records. -/
def action : Move → Action
  | markStale _ => .markStale
  | approve _ => .approve
  | reject _ => .reject
  | «return» _ => .return

/-- `_TRIGGERS`. -/
def trigger : Move → PostmortemTrigger
  | markStale _ => .markStale
  | approve _ => .humanApprove
  | reject _ => .humanReject
  | «return» _ => .humanReturnForRevision

/-- The reason of a move, which an approval has not. -/
def reason : Move → Option String
  | markStale reason => some reason.text
  | approve _ => none
  | reject reason | «return» reason => some reason

/-- The reason a version is stale for after the move. -/
def staleReason : Move → Option StaleReason
  | markStale reason => some reason
  | _ => none

end Move

/-- The arguments of `mark_stale`, `approve`, `reject` and `return_for_revision`. -/
structure TransitionRequest where
  postmortemId : UUID
  version : ℕ
  move : Move
  expectedGeneration : ℕ
  idempotencyKey : String
  actor : Actor
  deriving DecidableEq

/-- The arguments of `revoke`. -/
structure RevokeRequest where
  entryId : UUID
  revision : ℕ
  reason : String
  expectedGeneration : ℕ
  idempotencyKey : String
  actor : Actor
  deriving DecidableEq

/-- A request, as it is recorded under its key. -/
inductive Request
  | generate (r : DraftRequest)
  | transition (r : TransitionRequest)
  | revoke (r : RevokeRequest)
  deriving DecidableEq

/-- The action of a request. -/
def Request.action : Request → Action
  | generate _ => .generate
  | transition r => r.move.action
  | revoke _ => .revoke

/-- `opspilot_f13_requests`. -/
structure RequestRow where
  action : Action
  request : Request
  result : ActionResult

/-- `AttemptErrorCode`. -/
inductive AttemptError
  | modelRejected | modelUnavailable | inputTooLarge | outputInvalid | watermarkMoved
  | generationConflict | leaseLost
  deriving DecidableEq, Repr

/-- `_KEY_SQL`: what failed attempts are counted under. -/
structure FailureKey where
  controlGeneration : ℕ
  observationGeneration : ℕ
  runCount : ℕ
  currentRunId : Option UUID
  inputWatermark : ℕ
  revisesVersion : Option ℕ
  deriving DecidableEq, Repr

/-- `opspilot_postmortem_generation_jobs`. -/
structure JobRow where
  leaseOwner : Option UUID := none
  leaseEpoch : ℕ := 0
  leaseUntil : Option Time := none
  pendingRegenerationVersion : Option ℕ := none
  consecutiveFailures : ℕ := 0
  nextAttemptAt : Option Time := none
  lastErrorCode : Option AttemptError := none
  failureWatermark : Option FailureKey := none
  deriving DecidableEq, Repr

/-- The tables of postmortems and knowledge, beside the incidents. -/
structure Store where
  incidents : Table UUID Incident := ∅
  jobs : Table UUID JobRow := ∅
  postmortems : Table UUID PostmortemRow := ∅
  versions : Table (UUID × ℕ) VersionRow := ∅
  entries : Table UUID EntryRow := ∅
  revisions : Table (UUID × ℕ) RevisionRow := ∅
  revocations : Table (UUID × ℕ) RevocationRow := ∅
  audit : List AuditRow := []
  requests : Table String RequestRow := ∅

namespace Store

/-- `opspilot_knowledge_revision_states`: a tombstone, else a revision that supersedes it, else
active. -/
def revisionState (s : Store) (entryId : UUID) (revision : ℕ) : Option KnowledgeState :=
  (s.revisions.get (entryId, revision)).map fun _ =>
    if (s.revocations.get (entryId, revision)).isSome then .revoked
    else if (s.revisions.select fun k row =>
        k.1 = entryId ∧ row.supersedesRevision = some revision) ≠ [] then .superseded
    else .active

/-- The postmortem of an incident, with its id. -/
def postmortemOf (s : Store) (incidentId : UUID) : Option (UUID × PostmortemRow) :=
  (s.postmortems.select fun _ row => row.incidentId = incidentId).head?

/-- The rows of the audit of one object. -/
def auditOf (s : Store) (kind : ObjectKind) (id : UUID) : List AuditRow :=
  s.audit.filter fun row => row.objectKind = kind ∧ row.objectId = id

end Store

end OpsPilot.Knowledge
