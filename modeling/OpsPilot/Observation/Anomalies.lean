import OpsPilot.Observation.ReleaseSamples
import OpsPilot.Persistence.Alerts

/-!
# Consuming a release anomaly

The anomaly ending of a release is consumed in one transaction: it opens an incident, or is
appended to an open one of its target, or is handed to a human, and the link of the release to that
incident is written with it (`consumeAnomaly`). The transaction runs statement by statement, under
the lock of the release's link, the rows of the incidents it chooses from and the release row.

* `AnomalyStore`: the releases, the alerts and the links in one database;
* `AnomalyStore.link`: the writes of a consumption, all at once;
* `consumeAnomaly`: the transaction.
-/

namespace OpsPilot

/-- `ReleaseAnomalyEnding`, as a consumer hands it over. -/
structure ReleaseAnomalyEnding where
  endingId : ReleaseEndingId
  sessionId : UUID
  observationId : UUID
  sampleId : UUID
  jobId : UUID
  jobSequence : ℕ
  subjectControlGeneration : ℕ
  observationGeneration : ℕ
  calibratedPolicyRevision : String
  releaseEvidenceSha256 : String
  releaseEvaluation : ReleaseEvaluation
  anomalyKey : UUID
  resultSha256 : String
  recordedAt : Time
  deriving DecidableEq

/-- `ReleaseLinkDisposition`. -/
inductive ReleaseLinkDisposition
  | created | attached | createdRelated | handoffCreated
  deriving DecidableEq, Repr

/-- `opspilot_release_incident_links`. -/
structure ReleaseLinkRow where
  endingId : ReleaseEndingId
  anomalyKey : UUID
  disposition : ReleaseLinkDisposition
  incidentId : UUID
  relatedIncidentId : Option UUID
  runId : Option UUID
  inputId : Option UUID
  handoffReason : Option String
  comparisonId : Option UUID
  consumedAt : Time
  deriving DecidableEq

/-- `ReleaseLinkReceipt`: the committed link, and whether an earlier consumption made it. -/
structure ReleaseLinkReceipt where
  observationId : UUID
  link : ReleaseLinkRow
  replayed : Bool
  deriving DecidableEq

/-- `opspilot_release_comparisons`, keyed by its ending. -/
structure ReleaseComparisonRow where
  comparisonId : UUID
  comparison : Json
  deriving DecidableEq

/-- The ids an anomaly opens an incident under, and the hash of a stored evaluation. -/
class AnomalyNames extends AlertNames where
  intakeKey : UUID → String
  incidentId : UUID → UUID
  runId : UUID → UUID
  eventId : UUID → UUID → UUID
  resultSha256 : ReleaseEvaluation → String

/-- The database release anomalies are consumed in. -/
structure AnomalyStore where
  release : ReleaseStore := {}
  identities : Table DeliveryKey IdentityRow := ∅
  deliveries : List DeliveryRow := []
  links : Table UUID ReleaseLinkRow := ∅
  comparisons : Table ReleaseEndingId ReleaseComparisonRow := ∅
  ledger : Table (String × String) Json := ∅

/-- The locks of a consumption: the advisory lock of a release's link, the release row, and the locks
of the open-incident rule. -/
inductive AnomalyLock
  | link (observationId : UUID)
  | release (observationId : UUID)
  | alert (lock : AlertLock)
  deriving DecidableEq

namespace AnomalyStore

/-- The incidents a release anomaly opened. -/
def openedByReleases (db : AnomalyStore) : List UUID :=
  ((db.links.select fun _ link =>
    link.disposition = .created ∨ link.disposition = .createdRelated)).map (·.2.incidentId)

/-- The part of the database alert intake works on. -/
def alerts (db : AnomalyStore) : AlertStore where
  store := db.release.store
  identities := db.identities
  deliveries := db.deliveries
  releases := db.openedByReleases

/-- The joined row of an anomaly ending. -/
def endingRow [AnomalyNames] (db : AnomalyStore) (e : ReleaseEndingId × ReleaseEndingRow) :
    Option (Option ReleaseAnomalyEnding) := do
  let session ← db.release.sessions.get e.1.2
  let sampleId ← e.2.sampleId
  let sample ← db.release.samples.get sampleId
  some do
    let jobId ← e.2.jobId
    let jobSequence ← e.2.jobSequence
    let anomalyKey ← e.2.anomalyKey
    some {
      endingId := e.1, sessionId := e.1.2, observationId := e.1.1, sampleId, jobId, jobSequence
      subjectControlGeneration := session.subjectControlGeneration
      observationGeneration := session.observationGeneration
      calibratedPolicyRevision := session.releasePolicyRevision
      releaseEvidenceSha256 := sample.evidenceSha256
      releaseEvaluation := sample.evaluation
      anomalyKey
      resultSha256 := AnomalyNames.resultSha256 sample.evaluation
      recordedAt := e.2.recordedAt }

/-- `_anomaly_ending_in`: the one anomaly ending of a release. -/
def anomalyEnding [AnomalyNames] (db : AnomalyStore) (observationId : UUID) :
    Except ReleaseError (Option ReleaseAnomalyEnding) :=
  match (db.release.endings.select fun id e =>
    id.1 = observationId ∧ e.anomalyKey.isSome).filterMap db.endingRow with
  | [ending] => (require ending .invalidRecord).map some
  | _ => pure none

end AnomalyStore

/-! ## What a consumption decides -/

/-- `ReleaseConsumption`: what a consumption decided, handed to the caller's `opening`. -/
structure ReleaseConsumption where
  disposition : ReleaseLinkDisposition
  release : ReleaseRow
  ending : ReleaseAnomalyEnding
  comparison : Option Json
  consumedAt : Time
  intakeKey : String
  incidentId : UUID
  runId : Option UUID
  relatedIncidentId : Option UUID
  inputId : Option UUID
  handoffReason : Option String

/-- A first Run, as only the caller can build it. -/
structure OpeningRun where
  deadline : Time
  budgetLimit : ℕ
  versions : Json
  input : Option Json
  ledger : List ((String × String) × Json)

/-- What `opening` returns: the content of an event, or a first Run. -/
structure ReleaseOpening where
  content : Option Json := none
  run : Option OpeningRun := none

/-- A request to consume an anomaly; `now` and `consumedAt` are the clock of its transaction. -/
structure ConsumeRequest where
  ending : ReleaseAnomalyEnding
  opening : ReleaseConsumption → Except ReleaseError ReleaseOpening
  now : Time
  consumedAt : Time

/-- `comparison_wait_seconds`: three attempt leases of 150 seconds, and a minute. -/
def comparisonWait : Time := seconds (3 * 150 + 60)

/-- The registered target is complete and the one the release froze. -/
def ReleaseRow.targetResolved (release : ReleaseRow) (target : Option TargetRow) : Bool :=
  target.bind TargetRow.snapshot = some release.terms.targetSnapshot

/-- The plan of a consumption: a target that is not resolved goes to a human, and else the
correlation decides. -/
def ReleaseConsumption.plan [AnomalyNames] (request : ConsumeRequest) (release : ReleaseRow)
    (comparison : Option ReleaseComparisonRow) (resolved : Bool) (correlation : Correlation) :
    ReleaseConsumption :=
  let key := request.ending.anomalyKey
  let opened : ReleaseConsumption := {
    disposition := .created
    release, ending := request.ending, consumedAt := request.consumedAt
    comparison := comparison.map (·.comparison)
    intakeKey := AnomalyNames.intakeKey key
    incidentId := AnomalyNames.incidentId key
    runId := some (AnomalyNames.runId key)
    relatedIncidentId := correlation.relatedTo
    inputId := none
    handoffReason := none }
  if resolved = false then
    { opened with
      disposition := .handoffCreated, runId := none
      handoffReason := some "RELEASE_TARGET_UNRESOLVED" }
  else match correlation.attachTo with
    | some incidentId =>
      { opened with
        disposition := .attached, runId := none, incidentId
        inputId := some (AnomalyNames.eventId key incidentId) }
    | none =>
      if correlation.relatedTo.isSome then { opened with disposition := .createdRelated } else opened

/-- The link a plan commits. -/
def ReleaseConsumption.link (plan : ReleaseConsumption) (comparisonId : Option UUID) :
    ReleaseLinkRow where
  endingId := plan.ending.endingId
  anomalyKey := plan.ending.anomalyKey
  disposition := plan.disposition
  incidentId := plan.incidentId
  relatedIncidentId := plan.relatedIncidentId
  runId := plan.runId
  inputId := plan.inputId
  handoffReason := plan.handoffReason
  comparisonId := comparisonId
  consumedAt := plan.consumedAt

namespace AnomalyStore

/-- `_ledger`: the workbench's rows, each inserted if absent. -/
def writeLedger (db : AnomalyStore) (rows : List ((String × String) × Json)) : AnomalyStore :=
  { db with
    ledger := rows.foldl
      (fun ledger row => if (ledger.get row.1).isSome then ledger else ledger.insert row.1 row.2)
      db.ledger }

/-- The incident part of a consumption: an event on an open incident, an incident handed to a human,
or an incident with its first Run. -/
def openAnomaly (db : AnomalyStore) (plan : ReleaseConsumption) (spec : ReleaseOpening) :
    Except ReleaseError AnomalyStore :=
  match plan.disposition with
  | .attached => do
    let inputId ← require plan.inputId (.store .invalidInput)
    let content ← require spec.content (.store .invalidInput)
    let appended ← (db.release.store.appendInput plan.incidentId inputId content
      "release_observation").mapError .store
    pure { db with release := { db.release with store := appended.2 } }
  | .handoffCreated => do
    let opened ← (db.release.store.openHandoff plan.incidentId plan.intakeKey 1 none false).mapError
      .store
    pure { db with release := { db.release with store := opened.2 } }
  | .created | .createdRelated => do
    let runId ← require plan.runId (.store .invalidInput)
    let run ← require spec.run (.store .invalidInput)
    let accepted ← (db.release.store.accept {
      incidentId := plan.incidentId, runId, intakeKey := plan.intakeKey
      deadline := run.deadline, budgetLimit := run.budgetLimit, versions := run.versions
      input := run.input, targetId := some plan.release.terms.targetId, priority := 1
      relatedIncidentId := plan.relatedIncidentId }).mapError .store
    pure ({ db with release := { db.release with store := accepted.2 } }.writeLedger run.ledger)

/-- `opspilot_release_link_guard`: a link names the anomaly ending of its release, which is not
linked yet, and an incident that is what the disposition says. -/
def linkGuard [AnomalyNames] (db : AnomalyStore) (oid : UUID) (link : ReleaseLinkRow) : Bool :=
  (db.release.releases.get oid).any fun release =>
    release.status = .anomalous ∧ release.incidentId = none ∧ link.endingId.1 = oid ∧
      (db.release.endings.get link.endingId).any (fun ending =>
        ending.endedReason = .anomalyDetected ∧ ending.anomalyKey = some link.anomalyKey) ∧
      link.comparisonId.all (fun comparisonId =>
        (db.comparisons.get link.endingId).any (·.comparisonId = comparisonId)) ∧
      (db.release.store.incidents.get link.incidentId).any fun incident =>
        (link.disposition = .attached ∨
          incident.intakeKey = AnomalyNames.intakeKey link.anomalyKey ∧
            incident.relatedIncidentId = link.relatedIncidentId ∧
            incident.currentRunId = link.runId) ∧
        incident.targetId =
          (if link.disposition = .handoffCreated then none else some release.terms.targetId) ∧
        (link.disposition ≠ .attached ∨ link.inputId.any fun inputId =>
          (db.release.store.inputs.get inputId).any fun row =>
            row.incidentId = link.incidentId ∧ row.kind = .event)

/-- The writes of a consumption: the incident part, the link, and the incident of the release. -/
def link [AnomalyNames] (db : AnomalyStore) (plan : ReleaseConsumption)
    (comparisonId : Option UUID) (spec : ReleaseOpening) :
    Except ReleaseError (Option ReleaseLinkReceipt × AnomalyStore) := do
  let oid := plan.ending.observationId
  let row := plan.link comparisonId
  let opened ← db.openAnomaly plan spec
  refuse (opened.linkGuard oid row = false) .integrityRefused
  refuse ((opened.links.get oid).isSome ∨ opened.links.rows.any fun other =>
    other.2.endingId = row.endingId ∨ other.2.anomalyKey = row.anomalyKey) .integrityRefused
  pure (some ⟨oid, row, false⟩, { opened with
    links := opened.links.insert oid row
    release := { opened.release with
      releases := opened.release.releases.modify oid fun release =>
        { release with incidentId := some row.incidentId } } })

end AnomalyStore

/-! ## The transaction -/

/-- The statements of a consumption. -/
abbrev AnomalyProgram (α : Type) := Program AnomalyStore AnomalyLock ReleaseError α

/-- A consumption. -/
abbrev AnomalyTransaction :=
  AnomalyProgram (AnomalyStore → Except ReleaseError (Option ReleaseLinkReceipt × AnomalyStore))

open Program (committed acquire lift)

/-- The incident an anomaly attaches or relates to, of those bound to its target. -/
def correlateRelease [AnomalyNames] (resolved : Bool) (targetId : UUID) :
    AnomalyProgram Correlation :=
  if resolved then do
    let gates := (← committed).release.store.targetSuspensions
    lift (refuse (gates.get targetId).isNone (.store .inconsistentState))
    let ids := ((← committed).release.store.incidents.select fun _ row =>
      row.targetId = some targetId).map Prod.fst
    let locked ← (lockMergeClosure ids).zoom AnomalyStore.alerts .alert .store
    let candidates ← lift ((resolveMerged locked (some targetId) ids).mapError .store)
    pure (chooseCorrelation candidates)
  else pure {}

/-- The release is anomalous and has no incident. -/
def ReleaseRow.checkUnlinked (release : ReleaseRow) : Except ReleaseError Unit :=
  refuse (release.status ≠ .anomalous ∨ release.incidentId.isSome) (.store .inconsistentState)

/-- A consumption that goes on: correlate, read the release again under its lock, and write. -/
def beginConsumption [AnomalyNames] (request : ConsumeRequest) (targetId : UUID)
    (comparison : Option ReleaseComparisonRow) (resolved : Bool) : AnomalyTransaction := do
  let correlation ← correlateRelease resolved targetId
  let db ← acquire [.release request.ending.observationId]
  let release ← lift (db.release.releaseRow request.ending.observationId)
  lift release.checkUnlinked
  let plan := ReleaseConsumption.plan request release comparison resolved correlation
  let spec ← lift (request.opening plan)
  pure fun db => db.link plan (comparison.map (·.comparisonId)) spec

/-- A consumption that finds no link: the ending must be the stored one, and its comparison is waited
for. -/
def consumeUnlinked [AnomalyNames] (request : ConsumeRequest) : AnomalyTransaction := do
  let stored ← lift ((← committed).anomalyEnding request.ending.observationId)
  lift (refuse (stored ≠ some request.ending) (.store .identityConflict))
  let release ← lift ((← committed).release.releaseRow request.ending.observationId)
  lift release.checkUnlinked
  let comparison := (← committed).comparisons.get request.ending.endingId
  if comparison = none ∧ request.now < request.ending.recordedAt + comparisonWait then
    pure fun db => .ok (none, db)
  else do
    let target := (← committed).release.store.targets.get release.terms.targetId
    beginConsumption request release.terms.targetId comparison (release.targetResolved target)

/-- `_consume_locked`: consume one anomaly ending, or return the link that did. -/
def consumeAnomaly [AnomalyNames] (request : ConsumeRequest) : AnomalyTransaction := do
  let _ ← acquire [.link request.ending.observationId]
  let found := (← committed).links.get request.ending.observationId
  match found with
  | some link => do
    lift (refuse (link.endingId ≠ request.ending.endingId ∨
      link.anomalyKey ≠ request.ending.anomalyKey) (.store .identityConflict))
    pure fun db => .ok (some ⟨request.ending.observationId, link, true⟩, db)
  | none => consumeUnlinked request

end OpsPilot
