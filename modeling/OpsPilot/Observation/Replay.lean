import OpsPilot.Observation.Store
import Mathlib.Data.List.Sort
import Mathlib.Data.Prod.Lex

/-!
# Replaying a session

`replay_session` decides every sample of a session again, from its stored rows alone, and reports
whether the stored decisions and the stored ending follow (`foldHistory`, `ReplayReport`).

* `replaySample` is one round of the loop: it judges a row under the conditions that travel with it.
* `ReplayReport.consistent` compares the replayed decisions with the stored ones, and the end of
  the fold with the ending record.
* `Store.sessionHistory` is what a replay is given.
-/

namespace OpsPilot

/-! ## The report -/

/-- A decision about a sample, as its row stores it and as a replay recomputes it. The disposition
is `adopted` exactly when `accepted`. -/
structure Decision where
  accepted : Bool
  reason : SampleReason
  confirmsHealth : Bool
  healthBasis : HealthBasis
  transition : Option Transition
  deriving DecidableEq

/-- The decision a verdict makes. -/
def Verdict.replayed (v : Verdict) : Decision where
  accepted := v.decision.accepted
  reason := v.decision.reason
  confirmsHealth := v.healthy
  healthBasis := v.healthBasis
  transition := v.transition

/-- `ReplayedSample`. The outcomes are compared only if the replay was given recomputed ones. -/
structure ReplayedSample where
  sampleId : UUID
  sequence : ℕ
  stored : Decision
  replayed : Decision
  rawMismatches : List String
  signalMismatches : List String
  storedOutcome : Option (SampleOutcome × Bool)
  replayedOutcome : Option (SampleOutcome × Bool)
  deadlineMismatch : Bool
  scopeMismatch : Bool

/-- `ReplayedSample.matches`: a sample filed as `readings_inconsistent` carries its structural
problem as the stored verdict. -/
def ReplayedSample.«matches» (r : ReplayedSample) : Bool :=
  r.stored = r.replayed ∧ r.storedOutcome = r.replayedOutcome ∧ r.deadlineMismatch = false ∧
    r.scopeMismatch = false ∧ r.rawMismatches = [] ∧
    (r.signalMismatches = [] ∨ r.stored.reason = .readingsInconsistent)

/-- `ReplayReport`. The recorded ending is the last one, with the time it was recorded at. -/
structure ReplayReport where
  sessionId : UUID
  samples : List ReplayedSample
  replayedSessionState : ObservationSessionState
  storedSessionState : ObservationSessionState
  expectedLifecycle : Option IncidentLifecycle
  recordedLifecycle : Option IncidentLifecycle
  storedEndedReason : Option EndedReason
  recordedEnding : Option EndingRow
  endingSampleId : Option UUID
  healthySince : Option Time
  healthyUntil : Option Time
  adoptedSequence : ℕ
  adoptedWindowEnd : Option Time
  adoptedCount : ℕ
  recordedEndingsCount : ℕ
  replayedEndedReason : Option EndedReason
  maxSamples : Option ℕ
  deadlineAt : Time

/-- The session state an ending reason implies. -/
def impliedState : EndedReason → ObservationSessionState
  | .recoveryConfirmed => .completed
  | .deadlineExpired | .maxSamplesExhausted => .expired
  | .authorityRevoked | .bindingStale | .scopeSuspended => .revoked

namespace EndingRow

/-- The transition is the one the reason fires. -/
def fires (e : EndingRow) : Bool :=
  match e.endedReason with
  | .recoveryConfirmed => e.transition = some .recoveryConfirmed ∧ e.sampleId.isSome
  | .deadlineExpired | .maxSamplesExhausted => e.transition = some .observationEndedUnconfirmed
  | .authorityRevoked | .bindingStale | .scopeSuspended => e.transition = none

/-- The lifecycle moved by the transition. A confirmation the lifecycle could not take is never
written; an unconfirmed ending leaves such a lifecycle as it is. -/
def moves (e : EndingRow) : Bool :=
  match e.transition with
  | none => e.lifecycleAfter = e.lifecycleBefore
  | some t =>
    match incidentLifecycle.fire e.lifecycleBefore t.trigger with
    | some lifecycle => e.lifecycleAfter = lifecycle
    | none => t ≠ .recoveryConfirmed ∧ e.lifecycleAfter = e.lifecycleBefore

/-- `fits`: the record points at the sample whose replayed verdict ended the session, if any. -/
def fits (e : EndingRow) (endingSampleId : Option UUID) : Bool :=
  e.fires ∧ e.moves ∧ endingSampleId.all (e.sampleId = some ·)

end EndingRow

namespace ReplayReport

/-- `ending_consistent`: the stored ending record agrees with the session's end. -/
def endingConsistent (r : ReplayReport) : Bool :=
  if r.storedSessionState = .authorized then
    r.storedEndedReason = none ∧ r.recordedEnding = none ∧ r.recordedEndingsCount = 0
  else match r.recordedEnding, r.storedEndedReason with
    | some e, some reason =>
      r.recordedEndingsCount = 1 ∧ e.endedReason = reason ∧
      r.replayedEndedReason.all (e.endedReason = ·) ∧
      -- a budget ending is backed only by the replayed adopted count
      ¬ (e.endedReason = .maxSamplesExhausted ∧ r.maxSamples.all (r.adoptedCount < ·)) ∧
      -- a deadline ending without a sample is written after the deadline
      ¬ (e.endedReason = .deadlineExpired ∧ r.replayedEndedReason = none ∧
        e.recordedAt < r.deadlineAt) ∧
      impliedState e.endedReason = r.storedSessionState ∧ e.fits r.endingSampleId
    | _, _ => false

/-- `session_consistent`: the fold ends where the session says it ended, or the session was ended
without a sample. -/
def sessionConsistent (r : ReplayReport) : Bool :=
  r.endingConsistent ∧ (r.replayedSessionState = r.storedSessionState ∨
    r.replayedSessionState = .authorized ∧ r.endingSampleId = none ∧
      (r.storedSessionState = .expired ∨ r.storedSessionState = .revoked))

/-- `lifecycle_consistent`. -/
def lifecycleConsistent (r : ReplayReport) : Bool :=
  r.expectedLifecycle = none ∨ r.expectedLifecycle = r.recordedLifecycle

/-- `consistent`. -/
def consistent (r : ReplayReport) : Bool :=
  r.samples.all (·.«matches») ∧ r.sessionConsistent ∧ r.lifecycleConsistent

end ReplayReport

/-! ## The fold -/

/-- What the samples of a session are replayed against: its terms, and what its profile
requires. -/
structure Basis where
  sessionId : UUID
  terms : Terms
  required : Required

/-- What is carried from sample to sample: the fold of the session, and how the verdicts ended
it. -/
structure Replay where
  fold : Fold := {}
  healthyUntil : Option Time := none
  expectedLifecycle : Option IncidentLifecycle := none
  endingSampleId : Option UUID := none
  endedReason : Option EndedReason := none

namespace SampleRow

/-- The decision a row stores. -/
def stored (row : SampleRow) : Decision where
  accepted := row.accepted
  reason := row.reason
  confirmsHealth := row.confirmsHealth
  healthBasis := row.healthBasis
  transition := row.transition

/-- The outcome a row stores, with its flag. -/
def storedOutcome (row : SampleRow) : SampleOutcome × Bool :=
  (row.outcome, row.requiredSignalsPresent)

/-- The sample of a row, with the outcome it is replayed on. -/
def sample (row : SampleRow) (sessionId : UUID) (outcome : SampleOutcome × Bool) :
    HealthSample where
  sessionId := sessionId
  sequence := row.sequence
  window := row.window
  outcome := outcome.1
  subjectControlGeneration := row.subjectControlGeneration
  observationGeneration := row.observationGeneration
  healthProfileRevision := row.healthProfileRevision
  requiredSignalsPresent := outcome.2

/-- What the stored readings fail to support. -/
def signalMismatches (row : SampleRow) (required : Required) (outcome : SampleOutcome × Bool) :
    List String :=
  missingRequiredSignals required outcome.1 outcome.2 row.readings row.window.start
    row.window.end

/-- The readings whose raw bytes no longer hash to the stored hash. -/
def rawMismatches [Texts] (row : SampleRow) : List String :=
  (row.readings.filter fun reading =>
    reading.raw.any fun raw => reading.rawSha256 ≠ some (Texts.digest raw)).map (·.signalName)

/-- The row says within the deadline, and its window ends at or after it. -/
def deadlineMismatch (row : SampleRow) (terms : Terms) : Bool :=
  row.withinDeadline ∧ terms.deadlineAt ≤ row.window.end

/-- The scope generations of the row are not the ones the session was authorized under. -/
def moved (row : SampleRow) (terms : Terms) : Bool :=
  (row.globalGeneration, row.targetGeneration) ≠
    (terms.authorizedGlobalGeneration, terms.authorizedTargetGeneration)

/-- The conditions a row is replayed under. -/
def conditions (row : SampleRow) (b : Basis) (outcome : SampleOutcome × Bool) : Conditions where
  subjectState := row.subjectLifecycle
  controlGeneration := row.incidentControlGeneration
  observationGeneration := row.incidentObservationGeneration
  withinDeadline := row.withinDeadline && !row.deadlineMismatch b.terms
  suspensionBlocks := row.scopeSuspended || row.moved b.terms
  leaseValid := row.leaseValid
  stampsMatch := row.leaseStampsMatch
  readingsConsistent := row.signalMismatches b.required outcome = []

/-- The lifecycle of the incident after a row, with its transition where that is legal. -/
def lifecycleAfter (row : SampleRow) : IncidentLifecycle :=
  match row.transition with
  | some t => (incidentLifecycle.fire row.subjectLifecycle t.trigger).getD row.subjectLifecycle
  | none => row.subjectLifecycle

end SampleRow

/-- The verdict a row is replayed to. -/
def Basis.verdict (b : Basis) (fold : Fold) (row : SampleRow) (outcome : SampleOutcome × Bool) :
    Verdict :=
  judge b.sessionId b.terms fold (row.sample b.sessionId outcome) (row.conditions b outcome)

/-- The lifecycle a transition claims. -/
def Transition.expected : Transition → IncidentLifecycle
  | recoveryConfirmed => .resolved
  | observationEndedUnconfirmed => .opened

/-- The replay after a verdict on a sample. -/
def Replay.after (acc : Replay) (sampleId : UUID) (windowEnd : Time) (v : Verdict) : Replay where
  fold := v.fold
  healthyUntil :=
    if v.decision.accepted then v.fold.healthySince.map fun _ => windowEnd else acc.healthyUntil
  expectedLifecycle := (v.transition.map (·.expected)).or acc.expectedLifecycle
  endingSampleId := acc.endingSampleId.or
    (if v.endedReason.isSome ∧ v.decision.accepted then some sampleId else none)
  endedReason := acc.endedReason.or v.endedReason

/-- One round of the loop of `fold_history`. -/
def replaySample [Texts] (b : Basis) (recomputed : Option (SampleOutcome × Bool)) (acc : Replay)
    (sampleId : UUID) (row : SampleRow) : Replay × ReplayedSample :=
  let outcome := recomputed.getD row.storedOutcome
  let verdict := b.verdict acc.fold row outcome
  (acc.after sampleId row.window.end verdict, {
    sampleId
    sequence := row.sequence
    stored := row.stored
    replayed := verdict.replayed
    rawMismatches := row.rawMismatches
    signalMismatches := row.signalMismatches b.required outcome
    storedOutcome := recomputed.map fun _ => row.storedOutcome
    replayedOutcome := recomputed
    deadlineMismatch := row.deadlineMismatch b.terms
    scopeMismatch := row.moved b.terms != row.scopeSuspended })

/-- The loop of `fold_history`. -/
def replaySamples [Texts] (b : Basis)
    (outcomes : Option (UUID → Option (SampleOutcome × Bool))) :
    Replay → List (UUID × SampleRow) → Replay × List ReplayedSample
  | acc, [] => (acc, [])
  | acc, (sampleId, row) :: samples =>
    let first := replaySample b (outcomes.bind (· sampleId)) acc sampleId row
    let rest := replaySamples b outcomes first.1 samples
    (rest.1, first.2 :: rest.2)

/-- What `session_history` returns. -/
structure History where
  sessionId : UUID
  session : SessionRow
  healthProfile : Option (String × ProfileRow)
  samples : List (UUID × SampleRow)
  endings : List EndingRow

/-- What the samples of a history are replayed against. -/
def History.basis [Texts] (history : History) : Basis where
  sessionId := history.sessionId
  terms := history.session.terms
  required := parseRequired history.healthProfile

/-- The lifecycle after the last sample with a transition, else after the last one. -/
def recordedLifecycle (samples : List (UUID × SampleRow)) : Option IncidentLifecycle :=
  ((samples.filter (·.2.transition.isSome)).getLast?.or samples.getLast?).map
    (·.2.lifecycleAfter)

/-- The report of a replay. -/
def Replay.report (acc : Replay) (history : History) (samples : List ReplayedSample) :
    ReplayReport where
  sessionId := history.sessionId
  samples := samples
  replayedSessionState := acc.fold.state
  storedSessionState := history.session.state
  expectedLifecycle := acc.expectedLifecycle
  recordedLifecycle := recordedLifecycle history.samples
  storedEndedReason := history.session.endedReason
  recordedEnding := history.endings.getLast?
  endingSampleId := acc.endingSampleId
  healthySince := acc.fold.healthySince
  healthyUntil := acc.healthyUntil
  adoptedSequence := acc.fold.adoptedSequence
  adoptedWindowEnd := acc.fold.adoptedWindowEnd
  adoptedCount := acc.fold.adoptedCount
  recordedEndingsCount := history.endings.length
  replayedEndedReason := acc.endedReason
  maxSamples := if history.session.maxSamples = 0 then none else some history.session.maxSamples
  deadlineAt := history.session.deadlineAt

/-- `fold_history`: recompute every stored decision of one session from its history alone. With
`outcomes`, on outcomes recomputed elsewhere. -/
def foldHistory [Texts] (history : History)
    (outcomes : Option (UUID → Option (SampleOutcome × Bool)) := none) : ReplayReport :=
  let replayed := replaySamples history.basis outcomes {} history.samples
  replayed.1.report history replayed.2

/-- What `session_history` orders samples by. -/
def submission (e : UUID × SampleRow) : Time ×ₗ UUID := toLex (e.2.submittedAt, e.1)

/-- `ORDER BY submitted_at,sample_id`. -/
def SubmittedBefore (e e' : UUID × SampleRow) : Prop := submission e ≤ submission e'

instance : DecidableRel SubmittedBefore := fun e e' =>
  inferInstanceAs (Decidable (submission e ≤ submission e'))

namespace Store

/-- The samples of a session, newest first. -/
def samplesOf (s : Store) (sessionId : UUID) : List (UUID × SampleRow) :=
  s.samples.select fun _ row => row.sessionId = sessionId

/-- The endings of a session, newest first. -/
def endingsOf (s : Store) (sessionId : UUID) : List EndingRow :=
  s.endings.filter (·.sessionId = sessionId)

/-- `session_history`. Endings recorded at one time stay in the order they were written. -/
def sessionHistory (s : Store) (sessionId : UUID) : Except Code History := do
  let session ← require (s.sessions.get sessionId) .unknownIdentity
  let _ ← require (s.incidents.get session.incidentId) .inconsistentState
  pure {
    sessionId, session
    healthProfile := s.profileOf session
    samples := (s.samplesOf sessionId).insertionSort SubmittedBefore
    endings := (s.endingsOf sessionId).reverse.insertionSort (·.recordedAt ≤ ·.recordedAt) }

end Store

end OpsPilot
