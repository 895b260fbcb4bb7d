import OpsPilot.Knowledge.Records
import Mathlib.Data.List.Sort

/-!
# Drafts, review actions and knowledge revisions

The operations of `KnowledgeStore`, and `mark_stale_in`, which a business transaction runs. Each is
one transaction under the lock of its object, so it is one atomic step here; the ids it draws with
`uuid4` are arguments. The constraints of the tables that a request can run into are checked where
the row is written.

* `Store.recordDraft`: the next version of a postmortem, in review when its citations are valid.
* `Store.transition`: marking stale, approving (with `Store.publish`), rejecting, returning.
* `Store.revoke`: the tombstone of an active revision.
-/

namespace OpsPilot.Knowledge

namespace Store

/-! ## What every operation shares -/

/-- `_replay`: the recorded result, when the key was used for this request. -/
def replay (s : Store) (key : String) (request : Request) :
    Except KnowledgeError (Option ActionResult) :=
  match s.requests.get key with
  | none => .ok none
  | some row => do
    refuse (row.action ≠ request.action ∨ row.request ≠ request) .idempotencyConflict
    pure (some { row.result with replayed := true })

/-- `_record_request`. -/
def recordRequest (s : Store) (key : String) (request : Request) (result : ActionResult) :
    Except KnowledgeError (ActionResult × Store) := do
  refuse (s.requests.get key).isSome .idempotencyConflict
  pure (result, { s with requests := s.requests.insert key ⟨request.action, request, result⟩ })

/-- `_audit`, under the two `UNIQUE` constraints of the table. -/
def auditRow (s : Store) (row : AuditRow) : Except KnowledgeError Store := do
  refuse (s.audit.any fun old => old.objectKind = row.objectKind ∧ old.objectId = row.objectId ∧
    (old.idempotencyKey = row.idempotencyKey ∧ old.action = row.action ∨
      old.resultingGeneration = row.resultingGeneration)) .integrityRefused
  pure { s with audit := s.audit ++ [row] }

/-- `_bump_postmortem`. -/
def bumpPostmortem (s : Store) (postmortemId : UUID) (expected : ℕ) : Store :=
  { s with postmortems := s.postmortems.modify postmortemId fun row =>
      { row with generation := expected + 1 } }

/-- `UPDATE opspilot_postmortem_versions SET state=…, stale_reason=…`. -/
def setVersionState (s : Store) (postmortemId : UUID) (version : ℕ) (state : PostmortemState)
    (staleReason : Option StaleReason) : Store :=
  { s with versions := s.versions.modify (postmortemId, version) fun row =>
      { row with state := state, staleReason := staleReason } }

/-! ## Drafts -/

end Store

namespace DraftRequest

/-- Every citation was validated, so the version can be reviewed. -/
def reviewable (r : DraftRequest) : Bool := r.conclusions.all Conclusion.citationsValid

/-- The entries the proposals would replace. -/
def superseded (r : DraftRequest) : List UUID := r.proposals.filterMap Proposal.supersedesEntryId

/-- What `record_draft` checks before its transaction. -/
def validate (r : DraftRequest) : Except KnowledgeError Unit := do
  requireActor r.actor .generate
  requireText r.idempotencyKey
  refuse ((r.watermark.runCount = 0) ≠ (r.watermark.lastRunId = none)) .invalidInput
  refuse (r.conclusions = []) .invalidInput
  r.conclusions.forM Conclusion.validate
  r.proposals.forM Proposal.validate
  r.revisesVersion.forM (requireInt · 1)
  refuse (¬ (r.conclusions.map Conclusion.key).Nodup ∨ ¬ (r.proposals.map Proposal.key).Nodup)
    .invalidInput
  refuse (¬ r.superseded.Nodup) .invalidInput
  r.disputes.forM fun dispute => do
    requireText dispute.reason
    refuse (dispute.conclusionKey ∉ r.conclusions.map Conclusion.key) .invalidInput

/-- The audit row of a draft, or of its submission. -/
def audit (r : DraftRequest) (action : Action) (postmortemId : UUID) (version generation : ℕ) :
    AuditRow where
  idempotencyKey := r.idempotencyKey
  objectKind := .postmortem
  objectId := postmortemId
  action := action
  version := some version
  actor := r.actor
  expectedGeneration := generation

/-- The version a draft is written as. -/
def row (r : DraftRequest) : VersionRow where
  revisesVersion := r.revisesVersion
  content := r.content
  watermark := r.watermark
  conclusions := r.conclusions
  proposals := r.proposals
  disputes := r.disputes
  generatedBy := r.actor

end DraftRequest

namespace Store

/-- `INSERT INTO opspilot_postmortems … ON CONFLICT (incident_id) DO NOTHING`. -/
def openPostmortem (s : Store) (fresh incidentId : UUID) : Except KnowledgeError Store :=
  match s.postmortemOf incidentId with
  | some _ => pure s
  | none => do
    refuse (s.postmortems.get fresh).isSome .integrityRefused
    pure { s with postmortems := s.postmortems.insert fresh { incidentId := incidentId } }

/-- The version a draft revises was returned. -/
def checkRevised (s : Store) (postmortemId : UUID) : Option ℕ → Except KnowledgeError Unit
  | none => pure ()
  | some version =>
    refuse ((s.versions.get (postmortemId, version)).all fun row => row.state ≠ .returned)
      .illegalTransition

/-- A reviewable version is the regeneration its return asked for. -/
def regenerated (s : Store) (r : DraftRequest) : Store :=
  if r.revisesVersion.isSome ∧ r.reviewable then
    { s with jobs := s.jobs.modify r.incidentId fun job =>
        if job.pendingRegenerationVersion = r.revisesVersion then
          { job with pendingRegenerationVersion := none }
        else job }
  else s

/-- The rows of a draft: the version with its parts. -/
def insertVersion (s : Store) (postmortemId : UUID) (version : ℕ) (r : DraftRequest) :
    Except KnowledgeError Store := do
  refuse (s.versions.get (postmortemId, version)).isSome .integrityRefused
  refuse (r.superseded.any fun entryId => (s.entries.get entryId).isNone) .integrityRefused
  pure { s with
    postmortems := s.postmortems.modify postmortemId fun row =>
      { row with generation := r.expectedGeneration + 1, latestVersion := version }
    versions := s.versions.insert (postmortemId, version) r.row }

/-- A reviewable draft enters review in the transaction that generated it. -/
def submit (s : Store) (postmortemId : UUID) (version : ℕ) (r : DraftRequest) :
    Except KnowledgeError Store := do
  let s ← s.auditRow (r.audit .submit postmortemId version (r.expectedGeneration + 1))
  let state ← require (postmortem.fire .draft .submitForReview) .illegalTransition
  pure ((s.bumpPostmortem postmortemId (r.expectedGeneration + 1)).setVersionState postmortemId
    version state none)

/-- What a version is written for. -/
def draftChecks (s : Store) (incident : Incident) (postmortemId : UUID) (head : PostmortemRow)
    (r : DraftRequest) : Except KnowledgeError Unit := do
  refuse (head.generation ≠ r.expectedGeneration) .generationConflict
  refuse (incident.checkObservation r.watermark = false) .invalidInput
  refuse (incident.movedComponents r.watermark ≠ []) .watermarkMoved
  refuse (s.versions.select (fun k row => k.1 = postmortemId ∧ row.state = .underReview) ≠ [])
    .openVersionExists
  s.checkRevised postmortemId r.revisesVersion

/-- A draft is written, and submitted when it can be reviewed. -/
def writeDraft (s : Store) (postmortemId : UUID) (head : PostmortemRow) (r : DraftRequest) :
    Except KnowledgeError Store := do
  let version := head.latestVersion + 1
  let s ← (s.regenerated r).auditRow (r.audit .generate postmortemId version r.expectedGeneration)
  let s ← s.insertVersion postmortemId version r
  if r.reviewable then s.submit postmortemId version r else pure s

/-- The result of a draft. -/
def draftResult (postmortemId : UUID) (head : PostmortemRow) (r : DraftRequest) : ActionResult where
  action := .generate
  objectKind := .postmortem
  objectId := postmortemId
  generation := if r.reviewable then r.expectedGeneration + 2 else r.expectedGeneration + 1
  version := some (head.latestVersion + 1)
  state := some (.version (if r.reviewable then .underReview else .draft))

/-- `record_draft`. -/
def recordDraft (s : Store) (fresh : UUID) (r : DraftRequest) :
    Except KnowledgeError (ActionResult × Store) := do
  r.validate
  let incident ← require (s.incidents.get r.incidentId) .notFound
  let opened ← s.openPostmortem fresh r.incidentId
  let head ← require (opened.postmortemOf r.incidentId) .storage
  match ← opened.replay r.idempotencyKey (.generate r) with
  | some result => pure (result, opened)
  | none => do
    opened.draftChecks incident head.1 head.2 r
    let written ← opened.writeDraft head.1 head.2 r
    written.recordRequest r.idempotencyKey (.generate r) (draftResult head.1 head.2 r)

/-! ## Publishing -/

/-- The entry a proposal is published in: a new one, or the one it names at the generation the
caller expects. -/
def entryFor (s : Store) (fresh : UUID) (generations : Table UUID ℕ) (p : Proposal) :
    Except KnowledgeError ((UUID × EntryRow) × Store) :=
  match p.supersedesEntryId with
  | none => do
    refuse (s.entries.get fresh).isSome .integrityRefused
    pure ((fresh, {}), { s with entries := s.entries.insert fresh {} })
  | some entryId => do
    let expected ← require (generations.get entryId) .entryGenerationConflict
    let row ← require (s.entries.get entryId) .entryGenerationConflict
    refuse (row.generation ≠ expected) .entryGenerationConflict
    pure ((entryId, row), s)

/-- The revision a new one supersedes: the latest, if it is active. -/
def supersedes (s : Store) (entryId : UUID) (row : EntryRow) :
    Except KnowledgeError (Option ℕ) :=
  if row.latestRevision = 0 then pure none
  else do
    let state ← require (s.revisionState entryId row.latestRevision) .storage
    pure (if state = .active then some row.latestRevision else none)

end Store

namespace TransitionRequest

/-- The audit row of the postmortem. -/
def audit (r : TransitionRequest) : AuditRow where
  idempotencyKey := r.idempotencyKey
  objectKind := .postmortem
  objectId := r.postmortemId
  action := r.move.action
  version := some r.version
  actor := r.actor
  reason := r.move.reason
  expectedGeneration := r.expectedGeneration

/-- The audit row of an entry an approval publishes in. -/
def entryAudit (r : TransitionRequest) (entryId : UUID) (row : EntryRow) (superseded : Option ℕ) :
    AuditRow where
  idempotencyKey := r.idempotencyKey
  objectKind := .knowledgeEntry
  objectId := entryId
  action := if superseded.isSome then .supersede else .publish
  revision := some (row.latestRevision + 1)
  actor := r.actor
  expectedGeneration := row.generation

/-- The revision an approval writes. -/
def revision (r : TransitionRequest) (p : Proposal) (superseded : Option ℕ) : RevisionRow where
  name := p.name
  tags := p.tags
  content := p.content
  sourcePostmortemId := r.postmortemId
  sourceVersion := r.version
  sourceProposalKey := p.key
  supersedesRevision := superseded
  approvedBy := r.actor

end TransitionRequest

namespace Store

/-- The rows of a revision. -/
def insertRevision (s : Store) (r : TransitionRequest) (p : Proposal) (entryId : UUID)
    (row : EntryRow) (superseded : Option ℕ) : Except KnowledgeError Store := do
  let s ← s.auditRow (r.entryAudit entryId row superseded)
  refuse (s.revisions.get (entryId, row.latestRevision + 1)).isSome .integrityRefused
  pure { s with
    entries := s.entries.modify entryId fun _ =>
      ⟨row.generation + 1, row.latestRevision + 1⟩
    revisions := s.revisions.insert (entryId, row.latestRevision + 1) (r.revision p superseded) }

/-- One proposal of an approved version becomes the next revision of its entry. -/
def publishOne (s : Store) (ids : String → UUID) (generations : Table UUID ℕ)
    (r : TransitionRequest) (p : Proposal) :
    Except KnowledgeError ((String × Published) × Store) := do
  let found ← s.entryFor (ids p.key) generations p
  let superseded ← found.2.supersedes found.1.1 found.1.2
  let written ← found.2.insertRevision r p found.1.1 found.1.2 superseded
  pure ((p.key,
    { entryId := found.1.1, revision := found.1.2.latestRevision + 1
      generation := found.1.2.generation + 1
      action := if superseded.isSome then .supersede else .publish }), written)

/-- The proposals one after the other. -/
def publishAll (s : Store) (ids : String → UUID) (generations : Table UUID ℕ)
    (r : TransitionRequest) : List Proposal →
      Except KnowledgeError (List (String × Published) × Store)
  | [] => pure ([], s)
  | p :: rest => do
    let first ← s.publishOne ids generations r p
    let others ← first.2.publishAll ids generations r rest
    pure (first.1 :: others.1, others.2)

/-- The order of publication: new entries first, then the named ones by id. -/
def publicationOrder (proposals : List Proposal) : List Proposal :=
  (proposals.filter fun p => p.supersedesEntryId.isNone) ++
    (proposals.filter fun p => p.supersedesEntryId.isSome).insertionSort
      fun p q => p.supersedesEntryId.getD 0 ≤ q.supersedesEntryId.getD 0

/-- `_publish`. -/
def publish (s : Store) (ids : String → UUID) (generations : Table UUID ℕ)
    (r : TransitionRequest) (proposals : List Proposal) :
    Except KnowledgeError (List (String × Published) × Store) := do
  refuse (¬ (generations.keys ⊆ proposals.filterMap Proposal.supersedesEntryId ∧
    proposals.filterMap Proposal.supersedesEntryId ⊆ generations.keys)) .entryGenerationConflict
  s.publishAll ids generations r (publicationOrder proposals)

/-! ## Review actions -/

end Store

/-- The reason a move needs. -/
def Move.check : Move → Except KnowledgeError Unit
  | .reject reason | .«return» reason => requireText reason
  | .markStale _ | .approve _ => pure ()

/-- What `_transition` checks before its transaction. -/
def TransitionRequest.validate (r : TransitionRequest) : Except KnowledgeError Unit := do
  requireActor r.actor r.move.action
  requireText r.idempotencyKey
  requireInt r.version 1
  r.move.check

namespace Store

/-- What an approval needs beside the state: valid citations, no dispute, and an incident that has
not moved. -/
def approvalChecks (s : Store) (head : PostmortemRow) (row : VersionRow) :
    Move → Except KnowledgeError Unit
  | .approve _ => do
    refuse (row.conclusions.all Conclusion.citationsValid = false) .citationsInvalid
    refuse (row.disputes ≠ []) .disputed
    let incident ← require (s.incidents.get head.incidentId) .notFound
    refuse (incident.movedComponents row.watermark ≠ []) .watermarkMoved
  | _ => pure ()

/-- A return asks the worker to regenerate the version. -/
def requestRegeneration (s : Store) (incidentId : UUID) (version : ℕ) : Move → Store
  | .«return» _ =>
    { s with jobs := match s.jobs.get incidentId with
        | none => s.jobs.insert incidentId { pendingRegenerationVersion := some version }
        | some _ => s.jobs.modify incidentId fun job =>
          { job with
            pendingRegenerationVersion := some version, consecutiveFailures := 0
            nextAttemptAt := none, lastErrorCode := none, failureWatermark := none } }
  | _ => s

/-- An approval publishes the proposals of its version. -/
def publishFor (s : Store) (ids : String → UUID) (r : TransitionRequest) (row : VersionRow) :
    Except KnowledgeError (List (String × Published) × Store) :=
  match r.move with
  | .approve generations => s.publish ids generations r row.proposals
  | _ => pure ([], s)

/-- The state change of a move, with its audit row. -/
def applyMove (s : Store) (head : PostmortemRow) (target : PostmortemState)
    (r : TransitionRequest) : Except KnowledgeError Store := do
  let s ← s.auditRow r.audit
  pure (((s.bumpPostmortem r.postmortemId r.expectedGeneration).setVersionState r.postmortemId
    r.version target r.move.staleReason).requestRegeneration head.incidentId r.version r.move)

/-- `_transition`. -/
def transition (s : Store) (ids : String → UUID) (r : TransitionRequest) :
    Except KnowledgeError (ActionResult × Store) := do
  r.validate
  let head ← require (s.postmortems.get r.postmortemId) .notFound
  match ← s.replay r.idempotencyKey (.transition r) with
  | some result => pure (result, s)
  | none => do
    refuse (head.generation ≠ r.expectedGeneration) .generationConflict
    let row ← require (s.versions.get (r.postmortemId, r.version)) .notFound
    let target ← require (postmortem.fire row.state r.move.trigger) .illegalTransition
    s.approvalChecks head row r.move
    let moved ← s.applyMove head target r
    let published ← moved.publishFor ids r row
    published.2.recordRequest r.idempotencyKey (.transition r)
      { action := r.move.action, objectKind := .postmortem, objectId := r.postmortemId
        generation := r.expectedGeneration + 1, version := some r.version
        state := some (.version target), published := published.1 }

/-! ## Revoking -/

end Store

/-- The audit row of a revocation. -/
def RevokeRequest.audit (r : RevokeRequest) : AuditRow where
  idempotencyKey := r.idempotencyKey
  objectKind := .knowledgeEntry
  objectId := r.entryId
  action := .revoke
  revision := some r.revision
  actor := r.actor
  reason := some r.reason
  expectedGeneration := r.expectedGeneration

/-- What `revoke` checks before its transaction. -/
def RevokeRequest.validate (r : RevokeRequest) : Except KnowledgeError Unit := do
  requireActor r.actor .revoke
  requireText r.idempotencyKey
  requireText r.reason
  requireInt r.revision 1

namespace Store

/-- The tombstone, with its audit row. -/
def writeRevocation (s : Store) (r : RevokeRequest) : Except KnowledgeError Store := do
  let s ← s.auditRow r.audit
  refuse (s.revocations.get (r.entryId, r.revision)).isSome .integrityRefused
  pure { s with
    entries := s.entries.modify r.entryId fun row =>
      { row with generation := r.expectedGeneration + 1 }
    revocations := s.revocations.insert (r.entryId, r.revision) ⟨r.reason, r.actor⟩ }

/-- `revoke`. -/
def revoke (s : Store) (r : RevokeRequest) : Except KnowledgeError (ActionResult × Store) := do
  r.validate
  let head ← require (s.entries.get r.entryId) .notFound
  match ← s.replay r.idempotencyKey (.revoke r) with
  | some result => pure (result, s)
  | none => do
    refuse (head.generation ≠ r.expectedGeneration) .generationConflict
    let state ← require (s.revisionState r.entryId r.revision) .notFound
    refuse (state ≠ .active) .illegalTransition
    let written ← s.writeRevocation r
    written.recordRequest r.idempotencyKey (.revoke r)
      { action := .revoke, objectKind := .knowledgeEntry, objectId := r.entryId
        generation := r.expectedGeneration + 1, revision := some r.revision
        state := some (.revision .revoked) }

/-! ## Marking stale inside a business transaction -/

/-- The request `mark_stale_in` records for one version. -/
def staleRequest (postmortemId : UUID) (version generation : ℕ) (reason : StaleReason)
    (source key : String) : TransitionRequest where
  postmortemId := postmortemId
  version := version
  move := .markStale reason
  expectedGeneration := generation
  idempotencyKey := key
  actor := ⟨"system:" ++ source, .worker⟩

/-- The versions that are draft or under review, in order. -/
def openVersions (s : Store) (postmortemId : UUID) : List (ℕ × VersionRow) :=
  ((s.versions.select fun k row =>
      k.1 = postmortemId ∧ (row.state = .draft ∨ row.state = .underReview)).map
    fun e => (e.1.2, e.2)).insertionSort fun a b => a.1 ≤ b.1

/-- `mark_stale_in` on the versions left: each that the incident has moved past is marked. -/
def markOpen (s : Store) (keys : ℕ → String) (incident : Incident) (postmortemId : UUID)
    (reason : StaleReason) (source : String) (generation : ℕ) :
    List (ℕ × VersionRow) → Except KnowledgeError (List ActionResult × Store)
  | [] => pure ([], s)
  | (version, row) :: rest =>
    if incident.movedComponents row.watermark = [] then
      s.markOpen keys incident postmortemId reason source generation rest
    else do
      let r := staleRequest postmortemId version generation reason source (keys version)
      let s ← s.auditRow r.audit
      let first ← ((s.bumpPostmortem postmortemId generation).setVersionState postmortemId version
        .stale (some reason)).recordRequest r.idempotencyKey (.transition r)
        { action := .markStale, objectKind := .postmortem, objectId := postmortemId
          generation := generation + 1, version := some version, state := some (.version .stale) }
      let others ← first.2.markOpen keys incident postmortemId reason source (generation + 1) rest
      pure (first.1 :: others.1, others.2)

/-- `mark_stale_in`. -/
def markStaleIn (s : Store) (keys : ℕ → String) (incidentId : UUID) (reason : StaleReason)
    (source : String) : Except KnowledgeError (List ActionResult × Store) := do
  requireText source
  match s.postmortemOf incidentId with
  | none => pure ([], s)
  | some head => do
    let incident ← require (s.incidents.get incidentId) .notFound
    s.markOpen keys incident head.1 reason source head.2.generation (s.openVersions head.1)

end Store

end OpsPilot.Knowledge
