import OpsPilot.Domain.Subjects
import Mathlib.Algebra.Order.Ring.Int

/-!
# Observation sessions and samples

The domain side of independent health observation: the session machine `observationSession`
(`OBSERVATION_SESSION` in the source), the sample an Observer submits, and the two pure
functions every decision about a sample goes through, `evaluateSample` and `confirmsHealth`.
Adoption and health are separate questions: a legal `noData`, `stale` or failed sample is
adoptable but never confirms health.

Times are integers: microseconds on the database clock.
-/

namespace OpsPilot

/-- A point in time, in microseconds. -/
abbrev Time := ℤ

/-- A number of seconds, in microseconds. -/
def seconds (n : ℤ) : ℤ := n * 1000000

/-- A `uuid`. -/
abbrev UUID := ℕ

/-- `ObservationSessionState`. -/
inductive ObservationSessionState
  | authorized | completed | revoked | expired
  deriving DecidableEq, Repr

/-- The triggers of `observationSession`. -/
inductive ObservationTrigger
  | observationCompleted | authorityRevoked | deadlineExpired
  deriving DecidableEq, Repr

/-- The declared legal moves of a session. -/
def observationSession : StateMachine ObservationSessionState ObservationTrigger where
  edges
    | .authorized =>
      [(.observationCompleted, .completed), (.authorityRevoked, .revoked),
        (.deadlineExpired, .expired)]
    | .completed | .revoked | .expired => []

/-- `SampleOutcome`. -/
inductive SampleOutcome
  | healthy | degraded | noData | stale | timeout | failed
  deriving DecidableEq, Repr

/-- `SampleReason`. -/
inductive SampleReason
  | adopted | sessionNotAuthorized | sessionMismatch | controlGenerationStale
  | observationGenerationStale | healthProfileRevisionMismatch | sequenceNotAdvancing
  | windowRegressed | subjectStateNotAdoptable | deadlineExpired | suspended
  | leaseRevoked | leaseStampMismatch | readingsInconsistent
  deriving DecidableEq, Repr

/-- `QueryWindow`: an absolute time window, ending after it starts. -/
structure QueryWindow where
  start : Time
  «end» : Time
  ordered : start < «end»
  deriving DecidableEq

/-- `HealthSample`: one logical sample submitted for a session. -/
structure HealthSample where
  sessionId : UUID
  sequence : ℕ
  window : QueryWindow
  outcome : SampleOutcome
  subjectControlGeneration : ℕ
  observationGeneration : ℕ
  healthProfileRevision : Option String
  requiredSignalsPresent : Bool

/-- `ObservationSession`, as far as a decision about a sample reads it. -/
structure ObservationSession where
  sessionId : UUID
  subjectControlGeneration : ℕ
  observationGeneration : ℕ
  authorized : Bool
  state : ObservationSessionState
  healthProfileRevision : Option String
  adoptedSequence : ℕ
  adoptedWindowEnd : Option Time

/-- `ACTIVE_INCIDENT_LIFECYCLES`: the lifecycles a recovery observation may act on. -/
def activeIncidentLifecycle : IncidentLifecycle → Bool
  | .opened | .observingRecovery => true
  | .resolved | .closed => false

/-- `SampleAcceptance`: accepted means disposition `adopted`, refused means `history_only`. -/
structure SampleAcceptance where
  accepted : Bool
  reason : SampleReason
  deriving DecidableEq, Repr

/-- `_history_only`. -/
def historyOnly (reason : SampleReason) : SampleAcceptance := ⟨false, reason⟩

/-- The checks of `evaluateSample` with the reason each one refuses for, in their order. -/
def sampleRefusals (session : ObservationSession) (sample : HealthSample)
    (subjectState : IncidentLifecycle) (withinDeadline suspensionBlocks : Bool) :
    List (Bool × SampleReason) :=
  [(!activeIncidentLifecycle subjectState, .subjectStateNotAdoptable),
    (suspensionBlocks, .suspended),
    (!withinDeadline, .deadlineExpired),
    (session.state != .authorized || !session.authorized, .sessionNotAuthorized),
    (sample.sessionId != session.sessionId, .sessionMismatch),
    (sample.subjectControlGeneration != session.subjectControlGeneration,
      .controlGenerationStale),
    (sample.observationGeneration != session.observationGeneration,
      .observationGenerationStale),
    (sample.healthProfileRevision != session.healthProfileRevision,
      .healthProfileRevisionMismatch),
    (sample.sequence ≤ session.adoptedSequence, .sequenceNotAdvancing),
    (session.adoptedWindowEnd.any (sample.window.end < ·), .windowRegressed)]

/-- Decide whether one sample may be adopted by its session: the first check that refuses it
gives the reason, and a sample no check refuses is adopted. -/
def evaluateSample (session : ObservationSession) (sample : HealthSample)
    (subjectState : IncidentLifecycle) (withinDeadline suspensionBlocks : Bool) :
    SampleAcceptance :=
  match (sampleRefusals session sample subjectState withinDeadline suspensionBlocks).find?
    Prod.fst with
  | some (_, reason) => historyOnly reason
  | none => ⟨true, .adopted⟩

/-- Health needs a bound health-rule revision and the required signals. -/
def confirmsHealth (session : ObservationSession) (sample : HealthSample) : Bool :=
  session.healthProfileRevision.isSome && sample.outcome == .healthy &&
    sample.requiredSignalsPresent

variable {subjectState : IncidentLifecycle} {withinDeadline suspensionBlocks : Bool}

/-- **What an adopted sample has passed**: every check, and no more is asked. -/
theorem evaluateSample_accepted_iff {session : ObservationSession} {sample : HealthSample} :
    (evaluateSample session sample subjectState withinDeadline suspensionBlocks).accepted = true ↔
      activeIncidentLifecycle subjectState = true ∧ suspensionBlocks = false ∧
        withinDeadline = true ∧ (session.state = .authorized ∧ session.authorized = true) ∧
        sample.sessionId = session.sessionId ∧
        sample.subjectControlGeneration = session.subjectControlGeneration ∧
        sample.observationGeneration = session.observationGeneration ∧
        sample.healthProfileRevision = session.healthProfileRevision ∧
        session.adoptedSequence < sample.sequence ∧
        ∀ e ∈ session.adoptedWindowEnd, e ≤ sample.window.end := by
  have hnone : (evaluateSample session sample subjectState withinDeadline
      suspensionBlocks).accepted = true ↔
      (sampleRefusals session sample subjectState withinDeadline suspensionBlocks).find?
        Prod.fst = none := by
    unfold evaluateSample
    split
    · next h => simp [h, historyOnly]
    · next h => simp [h]
  rw [hnone, List.find?_eq_none]
  have hwindow : session.adoptedWindowEnd.any (sample.window.end < ·) = false ↔
      ∀ e ∈ session.adoptedWindowEnd, e ≤ sample.window.end := by
    cases session.adoptedWindowEnd <;> simp
  simp only [sampleRefusals, List.mem_cons, List.not_mem_nil, or_false, forall_eq_or_imp,
    forall_eq, Bool.not_eq_true, hwindow]
  simp only [Bool.not_eq_eq_eq_not, Bool.not_false, Bool.or_eq_false_iff, bne_eq_false_iff_eq,
    decide_eq_false_iff_not, not_le]

theorem evaluateSample_accepted {session : ObservationSession} {sample : HealthSample}
    (h : (evaluateSample session sample subjectState withinDeadline suspensionBlocks).accepted
      = true) :
    activeIncidentLifecycle subjectState = true ∧ suspensionBlocks = false ∧
      withinDeadline = true ∧ session.state = .authorized ∧
      session.adoptedSequence < sample.sequence := by
  obtain ⟨hactive, hsuspended, hwithin, hstate, -, -, -, -, hsequence, -⟩ :=
    evaluateSample_accepted_iff.1 h
  exact ⟨hactive, hsuspended, hwithin, hstate.1, hsequence⟩

/-- Only a sample of an active incident is refused for the deadline. -/
theorem evaluateSample_deadlineExpired {session : ObservationSession} {sample : HealthSample}
    (h : (evaluateSample session sample subjectState withinDeadline suspensionBlocks).reason =
      .deadlineExpired) : activeIncidentLifecycle subjectState = true := by
  by_contra hnot
  rw [Bool.not_eq_true] at hnot
  simp [evaluateSample, sampleRefusals, hnot, historyOnly] at h

end OpsPilot
