import OpsPilot.Knowledge.Store

/-!
# The schedule of postmortem generation

A worker claims an incident that is due for a postmortem, reads its input in one snapshot, reserves
its model requests, writes the draft and closes the attempt, each in a transaction of its own. The
lease of the claim fences the model requests; the draft is fenced by the generation of the
postmortem that the snapshot read.

* `World.candidate`: what makes an incident due.
* `World.claim`, `World.readInput`, `World.reserve`, `World.writeDraft`, `World.finish`: the steps
  of an attempt.
* `World.scanStale`, `World.compensate`: the two steps of the stale scan.
-/

namespace OpsPilot.Knowledge

/-! ## Attempts -/

/-- `AttemptStatus`. -/
inductive AttemptStatus
  | running | succeeded | failed | superseded | abandoned
  deriving DecidableEq, Repr

/-- `opspilot_postmortem_generation_attempts`. -/
structure AttemptRow where
  incidentId : UUID
  leaseOwner : UUID
  leaseEpoch : ℕ
  watermark : Watermark
  revisesVersion : Option ℕ
  inputPolicyVersion : String
  maxModelRequests : ℕ
  modelRequests : ℕ := 0
  status : AttemptStatus := .running
  errorCode : Option AttemptError := none
  startedAt : Time
  finishedAt : Option Time := none
  deriving DecidableEq

/-- `Claim`: a held generation lease and the attempt it runs. -/
structure Claim where
  attemptId : UUID
  incidentId : UUID
  owner : UUID
  epoch : ℕ
  maxModelRequests : ℕ
  revisesVersion : Option ℕ
  deriving DecidableEq

/-- What of the input of a generation decides where its draft is written. -/
structure GenerationInput where
  expectedGeneration : ℕ
  watermark : Watermark
  revisesVersion : Option ℕ
  deriving DecidableEq

/-- The closing of an attempt: the arguments of `finish`. -/
structure Closing where
  status : AttemptStatus
  watermark : Option Watermark
  errorCode : Option AttemptError := none
  citationsFailed : Bool := false
  deriving DecidableEq

/-- Where a worker is in its attempt. -/
inductive Phase
  | claimed
  | generating (input : GenerationInput) (used : ℕ)
  | closing (closing : Closing)
  | done
  deriving DecidableEq

/-- A worker at work on a claim. -/
structure Worker where
  claim : Claim
  phase : Phase := .claimed
  deriving DecidableEq

/-- A version the stale scan has found behind its incident. -/
structure ScannedRow where
  postmortemId : UUID
  version : ℕ
  generation : ℕ
  reason : StaleReason
  deriving DecidableEq

/-- The store, with the attempts, the clock and what the workers hold in memory. -/
structure World where
  store : Store := {}
  clock : Time := 0
  attempts : Table UUID AttemptRow := ∅
  workers : Table UUID Worker := ∅
  scanned : List ScannedRow := []

/-- `MAX_ATTEMPTS_PER_WATERMARK`. -/
def maxAttemptsPerWatermark : ℕ := 3

/-- `BACKOFF_BASE_SECONDS`. -/
def backoffBaseSeconds : ℕ := 60

/-- `BACKOFF_MAX_SECONDS`. -/
def backoffMaxSeconds : ℕ := 3600

/-- `_COUNTED_ERRORS`. -/
def AttemptError.counted : AttemptError → Bool
  | modelUnavailable | modelRejected | outputInvalid | leaseLost => true
  | inputTooLarge | watermarkMoved | generationConflict => false

/-! ## The watermark of an incident -/

namespace Incident

/-- The session of the current observation generation, when it has ended, with its ending. -/
def endedObservation (incident : Incident) : Option (UUID × UUID) :=
  (incident.sessions.filter fun session =>
    session.observationGeneration = incident.observationGeneration ∧
      session.state ≠ .authorized).firstM fun session =>
    session.endings.head?.map fun ending => (session.sessionId, ending)

/-- `current_watermark`. -/
def currentWatermark (incident : Incident) : Option Watermark :=
  incident.endedObservation.map fun observation =>
    { incidentControlGeneration := incident.controlGeneration
      observationGeneration := incident.observationGeneration
      observationSessionId := observation.1
      observationEndingId := observation.2
      runCount := incident.runs.length
      lastRunId := incident.currentRunId
      inputWatermark := incident.inputWatermark
      evidenceSnapshot := incident.evidence }

/-- `_KEY_SQL`. -/
def failureKey (incident : Incident) (revisesVersion : Option ℕ) : FailureKey where
  controlGeneration := incident.controlGeneration
  observationGeneration := incident.observationGeneration
  runCount := incident.runs.length
  currentRunId := incident.currentRunId
  inputWatermark := incident.inputWatermark
  revisesVersion := revisesVersion

/-- Every Run is in one of `TERMINAL_RUN_STATES`. -/
def runsTerminal (incident : Incident) : Bool :=
  incident.runs.all fun run => runExecution.terminal run.2

end Incident

/-- `watermark_key`. -/
def Watermark.key (watermark : Watermark) (revisesVersion : Option ℕ) : FailureKey where
  controlGeneration := watermark.incidentControlGeneration
  observationGeneration := watermark.observationGeneration
  runCount := watermark.runCount
  currentRunId := watermark.lastRunId
  inputWatermark := watermark.inputWatermark
  revisesVersion := revisesVersion

/-! ## Due incidents -/

namespace Store

/-- The job of an incident; one that was never claimed is as new. -/
def jobOf (s : Store) (incidentId : UUID) : JobRow := (s.jobs.get incidentId).getD {}

/-- The versions of an incident's postmortem. -/
def versionsOf (s : Store) (incidentId : UUID) : List VersionRow :=
  match s.postmortemOf incidentId with
  | none => []
  | some head => (s.versions.select fun k _ => k.1 = head.1).map Prod.snd

end Store

/-- A version that was reviewed, or is in review, for the incident as it is now. -/
def VersionRow.blocks (row : VersionRow) (incident : Incident) : Bool :=
  row.state ≠ .stale ∧ row.state ≠ .draft ∧ row.state ≠ .returned ∧
    row.watermark.incidentControlGeneration = incident.controlGeneration ∧
    row.watermark.observationGeneration = incident.observationGeneration ∧
    row.watermark.lastRunId = incident.currentRunId ∧
    row.watermark.runCount = incident.runs.length ∧
    row.watermark.inputWatermark = incident.inputWatermark

namespace World

/-- The latest attempt on the incident that failed with `INPUT_TOO_LARGE`. -/
def latestTooLarge (w : World) (incidentId : UUID) : Option AttemptRow :=
  ((w.attempts.select fun _ row =>
      row.incidentId = incidentId ∧ row.errorCode = some .inputTooLarge).map Prod.snd).foldr
    (fun row latest => match latest with
      | none => some row
      | some other =>
        if other.finishedAt.getD 0 < row.finishedAt.getD 0 ∨
            other.finishedAt.getD 0 = row.finishedAt.getD 0 ∧ other.startedAt < row.startedAt then
          some row
        else some other) none

/-- `_INPUT_POLICY_REOPEN_SQL`. -/
def inputPolicyReopen (w : World) (policy : String) (incidentId : UUID) : Bool :=
  (w.store.jobOf incidentId).lastErrorCode = some .inputTooLarge ∧
    (w.latestTooLarge incidentId).map AttemptRow.inputPolicyVersion ≠ some policy

/-- The backoff of the job has elapsed, or belongs to another watermark, and its cap is not
reached. -/
def due (w : World) (policy : String) (incidentId : UUID) (incident : Incident) : Bool :=
  let job := w.store.jobOf incidentId
  let key := incident.failureKey job.pendingRegenerationVersion
  (job.nextAttemptAt.all (· ≤ w.clock) ∨ job.failureWatermark ≠ some key) ∧
    ¬ (maxAttemptsPerWatermark ≤ job.consecutiveFailures ∧ job.failureWatermark = some key ∧
      w.inputPolicyReopen policy incidentId = false)

/-- `_CANDIDATE_SQL`, for one incident. -/
def candidate (w : World) (policy : String) (incidentId : UUID) : Bool :=
  match w.store.incidents.get incidentId with
  | none => false
  | some incident =>
    incident.endedObservation.isSome ∧
      (∀ session ∈ incident.sessions, session.state ≠ .authorized) ∧
      incident.runsTerminal ∧
      (w.store.jobOf incidentId).leaseUntil.all (· ≤ w.clock) ∧
      w.due policy incidentId incident ∧
      (∀ row ∈ w.store.versionsOf incidentId, row.state ≠ .underReview) ∧
      ((w.store.jobOf incidentId).pendingRegenerationVersion.isSome ∨
        ∀ row ∈ w.store.versionsOf incidentId, row.blocks incident = false)

/-! ## Claims -/

/-- A new count or one more failure of the job. -/
def countedFailure (job : JobRow) (key : FailureKey) (errorCode : Option AttemptError)
    (now : Time) : JobRow :=
  let counted := if job.failureWatermark = some key then job.consecutiveFailures + 1 else 1
  let counted := if errorCode.all AttemptError.counted then counted else maxAttemptsPerWatermark
  let failures := min counted maxAttemptsPerWatermark
  { job with
    consecutiveFailures := failures
    failureWatermark := some key
    lastErrorCode := errorCode
    nextAttemptAt :=
      if maxAttemptsPerWatermark ≤ failures then none
      else some (now + seconds (min (backoffBaseSeconds * 2 ^ (failures - 1)) backoffMaxSeconds)) }

/-- A rewrite of the job of an incident. -/
def setJob (w : World) (incidentId : UUID) (f : JobRow → JobRow) : World :=
  { w with store := { w.store with jobs := w.store.jobs.modify incidentId f } }

/-- `INSERT INTO opspilot_postmortem_generation_jobs … ON CONFLICT DO NOTHING`. -/
def openJob (w : World) (incidentId : UUID) : World :=
  match w.store.jobs.get incidentId with
  | some _ => w
  | none => { w with store := { w.store with jobs := w.store.jobs.insert incidentId {} } }

/-- `_count_failure`. -/
def countFailure (w : World) (incidentId : UUID) (key : FailureKey)
    (errorCode : Option AttemptError) : World :=
  w.setJob incidentId fun job => countedFailure job key errorCode w.clock

/-- The attempts left running are closed, and count as failures. -/
def abandon (w : World) (incidentId : UUID) : List (UUID × AttemptRow) → World
  | [] => w
  | (attemptId, row) :: rest =>
    let closed := { w with attempts := w.attempts.modify attemptId fun row =>
      { row with status := .abandoned, errorCode := some .leaseLost, finishedAt := some w.clock } }
    (closed.countFailure incidentId (row.watermark.key row.revisesVersion)
      (some .leaseLost)).abandon incidentId rest

/-- The attempts on an incident that are running. -/
def running (w : World) (incidentId : UUID) : List (UUID × AttemptRow) :=
  w.attempts.select fun _ row => row.incidentId = incidentId ∧ row.status = .running

/-- A cap that an older input policy reached is counted afresh. -/
def reopenCap (w : World) (incidentId : UUID) : World :=
  let job := w.store.jobOf incidentId
  if maxAttemptsPerWatermark ≤ job.consecutiveFailures ∧
      job.lastErrorCode = some .inputTooLarge then
    w.setJob incidentId fun job => { job with consecutiveFailures := 0, failureWatermark := none }
  else w

/-- The lease is taken, and an attempt opened. -/
def takeLease (w : World) (incidentId : UUID) (watermark : Watermark) (attemptId owner : UUID)
    (policy : String) (maxModelRequests : ℕ) (leaseSeconds : ℕ) : World :=
  let job := w.store.jobOf incidentId
  let epoch := job.leaseEpoch + 1
  let leased := w.setJob incidentId fun job =>
    { job with
      leaseOwner := some owner, leaseEpoch := epoch
      leaseUntil := some (w.clock + seconds leaseSeconds) }
  { leased with
    attempts := leased.attempts.insert attemptId
      { incidentId := incidentId, leaseOwner := owner, leaseEpoch := epoch, watermark := watermark
        revisesVersion := job.pendingRegenerationVersion, inputPolicyVersion := policy
        maxModelRequests := maxModelRequests, startedAt := w.clock }
    workers := leased.workers.insert attemptId
      { claim :=
          { attemptId := attemptId, incidentId := incidentId, owner := owner, epoch := epoch
            maxModelRequests := maxModelRequests
            revisesVersion := job.pendingRegenerationVersion } } }

/-- `claim`. A fresh attempt id is one no attempt has; a claim of an incident that is not due leaves
what it has closed. -/
def claim (w : World) (incidentId attemptId owner : UUID) (policy : String)
    (maxModelRequests leaseSeconds : ℕ) : World :=
  if (w.store.incidents.get incidentId).isNone ∨ (w.attempts.get attemptId).isSome then w
  else
    let opened := w.openJob incidentId
    if (opened.store.jobOf incidentId).leaseUntil.any (w.clock < ·) then opened
    else
      let closed := opened.abandon incidentId (opened.running incidentId)
      match (closed.store.incidents.get incidentId).bind Incident.currentWatermark with
      | none => closed.setJob incidentId fun job =>
          { job with leaseOwner := none, leaseUntil := none }
      | some watermark =>
        if closed.candidate policy incidentId then
          (closed.reopenCap incidentId).takeLease incidentId watermark attemptId owner policy
            maxModelRequests leaseSeconds
        else closed.setJob incidentId fun job =>
          { job with leaseOwner := none, leaseUntil := none }

/-! ## An attempt -/

/-- `read_input`, as far as it decides where the draft is written: the incident, its postmortem and
its job in one snapshot. -/
def readInput (w : World) (incidentId : UUID) : Except KnowledgeError GenerationInput := do
  let incident ← require (w.store.incidents.get incidentId) .notFound
  refuse (incident.runsTerminal = false) .watermarkMoved
  let watermark ← require incident.currentWatermark .notEligible
  pure
    { expectedGeneration := (w.store.postmortemOf incidentId).elim 0 fun head => head.2.generation
      watermark := watermark
      revisesVersion := (w.store.jobOf incidentId).pendingRegenerationVersion }

/-- `_SUPERSEDED`. -/
def supersededBy : KnowledgeError → Option AttemptError
  | .watermarkMoved => some .watermarkMoved
  | .generationConflict | .openVersionExists | .illegalTransition => some .generationConflict
  | _ => none

/-- The phase of a worker whose transaction was refused: it closes its attempt as superseded, or it
crashes and closes nothing. -/
def refused (watermark : Option Watermark) (error : KnowledgeError) : Phase :=
  match supersededBy error with
  | some code => .closing { status := .superseded, watermark := watermark, errorCode := some code }
  | none => .done

/-- The worker of an attempt goes on. -/
def setPhase (w : World) (attemptId : UUID) (phase : Phase) : World :=
  { w with workers := w.workers.modify attemptId fun worker => { worker with phase := phase } }

/-- The worker reads its input. -/
def read (w : World) (attemptId : UUID) : World :=
  match w.workers.get attemptId with
  | some ⟨claim, .claimed⟩ =>
    match w.readInput claim.incidentId with
    | .ok input => w.setPhase attemptId (.generating input 0)
    | .error error => w.setPhase attemptId (refused none error)
  | _ => w

/-- The lease of a claim is held. -/
def leaseHeld (w : World) (claim : Claim) : Bool :=
  let job := w.store.jobOf claim.incidentId
  job.leaseOwner = some claim.owner ∧ job.leaseEpoch = claim.epoch ∧
    job.leaseUntil.any (w.clock < ·)

/-- `reserve_model_request`: one more request of the attempt, or nothing when the lease or the
budget of the attempt is gone. -/
def reserveModelRequest (w : World) (claim : Claim) : Option World :=
  match w.attempts.get claim.attemptId with
  | none => none
  | some row =>
    if row.status = .running ∧ w.leaseHeld claim ∧ row.modelRequests < row.maxModelRequests then
      some { w with attempts := w.attempts.modify claim.attemptId fun row =>
        { row with modelRequests := row.modelRequests + 1 } }
    else none

/-- The worker reserves the next request of its loop, or gives the attempt up. -/
def reserve (w : World) (attemptId : UUID) : World :=
  match w.workers.get attemptId with
  | some ⟨claim, .generating input used⟩ =>
    if used < claim.maxModelRequests then
      match w.reserveModelRequest claim with
      | some reserved => reserved.setPhase attemptId (.generating input (used + 1))
      | none => w.setPhase attemptId (.closing
        { status := .superseded, watermark := some input.watermark, errorCode := some .leaseLost })
    else w
  | _ => w

/-- The attempt fails before it has a draft: the input is too large, or the model failed. -/
def fail (w : World) (attemptId : UUID) (errorCode : AttemptError) : World :=
  match w.workers.get attemptId with
  | some ⟨_, .generating input _⟩ => w.setPhase attemptId (.closing
      { status := .failed, watermark := some input.watermark, errorCode := some errorCode })
  | _ => w

end World

/-- What a model reply makes of an input: the parts of a draft. -/
structure Assembled where
  content : String
  conclusions : List Conclusion
  proposals : List Proposal := []
  disputes : List Dispute := []

/-- The request of a worker's `record_draft`. -/
def Assembled.request (draft : Assembled) (claim : Claim) (input : GenerationInput) :
    DraftRequest where
  incidentId := claim.incidentId
  expectedGeneration := input.expectedGeneration
  idempotencyKey := "generate:" ++ toString claim.attemptId
  actor := ⟨"worker:" ++ toString claim.owner, .worker⟩
  content := draft.content
  watermark := input.watermark
  conclusions := draft.conclusions
  proposals := draft.proposals
  disputes := draft.disputes
  revisesVersion := input.revisesVersion

namespace World

/-- The worker writes its draft after at least one reply. -/
def writeDraft (w : World) (attemptId fresh : UUID) (draft : Assembled) : World :=
  match w.workers.get attemptId with
  | some ⟨claim, .generating input (_ + 1)⟩ =>
    match w.store.recordDraft fresh (draft.request claim input) with
    | .ok written => { w with store := written.2 }.setPhase attemptId (.closing
        { status := .succeeded, watermark := some input.watermark
          citationsFailed := (draft.request claim input).reviewable = false })
    | .error error => w.setPhase attemptId (refused (some input.watermark) error)
  | _ => w

/-- What the closing of an attempt makes of the job. -/
def closedJob (job : JobRow) (closing : Closing) (key : FailureKey) (now : Time) : JobRow :=
  if closing.status = .failed ∨ closing.status = .succeeded ∧ closing.citationsFailed = true then
    countedFailure job key closing.errorCode now
  else if closing.status = .succeeded then
    { job with
      consecutiveFailures := 0, failureWatermark := none, nextAttemptAt := none
      lastErrorCode := none }
  else { job with lastErrorCode := closing.errorCode }

/-- `finish`: the attempt is closed and the lease released, unless either is no longer the
worker's. -/
def finish (w : World) (attemptId : UUID) : World :=
  match w.workers.get attemptId with
  | some ⟨claim, .closing closing⟩ =>
    match w.attempts.get attemptId with
    | none => w.setPhase attemptId .done
    | some row =>
      let job := w.store.jobOf claim.incidentId
      if row.status = .running ∧ job.leaseOwner = some claim.owner ∧
          job.leaseEpoch = claim.epoch then
        let key := (closing.watermark.getD row.watermark).key row.revisesVersion
        { (w.setJob claim.incidentId fun job =>
            { closedJob job closing key w.clock with leaseOwner := none, leaseUntil := none }) with
          attempts := w.attempts.modify attemptId fun row =>
            { row with
              status := closing.status, errorCode := closing.errorCode
              finishedAt := some w.clock } }.setPhase attemptId .done
      else w.setPhase attemptId .done
  | _ => w

/-! ## The stale scan -/

/-- `stale_versions`, on one version: a draft or a version in review whose incident has moved. -/
def scanStale (w : World) (postmortemId : UUID) (version : ℕ) : World :=
  match w.store.postmortems.get postmortemId, w.store.versions.get (postmortemId, version) with
  | some head, some row =>
    match (w.store.incidents.get head.incidentId).bind fun incident =>
        staleReasonFor (incident.movedComponents row.watermark) with
    | some reason =>
      if row.state = .draft ∨ row.state = .underReview then
        { w with scanned := ⟨postmortemId, version, head.generation, reason⟩ :: w.scanned }
      else w
    | none => w
  | _, _ => w

end World

/-- The request of `compensate_stale` for a scanned version. -/
def ScannedRow.request (row : ScannedRow) (owner : UUID) : TransitionRequest where
  postmortemId := row.postmortemId
  version := row.version
  move := .markStale row.reason
  expectedGeneration := row.generation
  idempotencyKey :=
    "stale-scan:" ++ toString row.postmortemId ++ ":" ++ toString row.version
  actor := ⟨"worker:" ++ toString owner, .worker⟩

namespace World

/-- `compensate_stale`, on a version a scan has found. -/
def compensate (w : World) (row : ScannedRow) (owner : UUID) : World :=
  if row ∈ w.scanned then
    match w.store.transition (fun _ => 0) (row.request owner) with
    | .ok marked => { w with store := marked.2 }
    | .error _ => w
  else w

end World

end OpsPilot.Knowledge
