import OpsPilot.Domain.Observation
import OpsPilot.Foundations.Json

/-!
# Release observations

The domain side of watching a release: its status, the frozen terms it is observed under
(`ReleaseTerms`, with the checks of the table as fields), the fences a sample passes before it is
adopted (`releaseSampleReason`), and what an adopted sample does to the coverage of its session
(`advanceReleaseWindow`). The verdict on a sample's evidence is data here: the evaluator reads
telemetry, and no decision below looks inside its report.
-/

namespace OpsPilot

/-- `ReleaseStatus`. -/
inductive ReleaseStatus
  | pending | observing | healthy | anomalous | unknown | cancelled
  deriving DecidableEq, Repr

/-- `status IN ('pending','observing')`. -/
def ReleaseStatus.live : ReleaseStatus → Bool
  | .pending | .observing => true
  | .healthy | .anomalous | .unknown | .cancelled => false

/-- Why a release or a session of one ended. -/
inductive ReleaseEndedReason
  | healthyConfirmed | anomalyDetected | deadlineExpired | maxSamplesExhausted
  | authorityRevoked | bindingStale | scopeSuspended | cancelled | lateDelivery
  deriving DecidableEq, Repr

/-- The state a session is in once it ended. -/
def ReleaseEndedReason.sessionState : ReleaseEndedReason → ObservationSessionState
  | .healthyConfirmed | .anomalyDetected => .completed
  | .deadlineExpired | .maxSamplesExhausted => .expired
  | .authorityRevoked | .bindingStale | .scopeSuspended | .cancelled | .lateDelivery => .revoked

theorem ReleaseEndedReason.sessionState_ne (reason : ReleaseEndedReason) :
    reason.sessionState ≠ .authorized := by
  cases reason <;> decide

/-- The registered identity a release froze: the `target_snapshot`. -/
structure TargetSnapshot where
  integrationId : String
  clusterUid : String
  «namespace» : String
  resourceUid : String
  workload : String
  deriving DecidableEq

/-- The columns of a release no later write changes, with the checks of the table. -/
structure ReleaseTerms where
  source : String
  sourceReleaseId : String
  targetId : UUID
  targetSnapshot : TargetSnapshot
  beforeRevision : Json
  afterRevision : Json
  auxiliary : Json
  semanticSha256 : String
  healthProfileRevision : String
  releasedAt : Time
  receivedAt : Time
  deadlineSeconds : ℕ
  minTrackingSeconds : ℕ
  sampleIntervalSeconds : ℕ
  sustainedWindowSeconds : ℕ
  maxSamples : ℕ
  windows_lt : max minTrackingSeconds sustainedWindowSeconds < deadlineSeconds
  maxSamples_pos : 0 < maxSamples
  interval_pos : 0 < sampleIntervalSeconds
  released_le : releasedAt ≤ receivedAt
  deriving DecidableEq

/-- `deadline_at`. -/
def ReleaseTerms.deadlineAt (terms : ReleaseTerms) : Time :=
  terms.releasedAt + seconds terms.deadlineSeconds

/-- The verdict of a `ReleaseEvaluation`. -/
inductive ReleaseVerdict
  | healthy | degraded | unknown
  deriving DecidableEq, Repr

/-- `ReleaseEvaluation`; `report` has its reason codes, instances and signals. -/
structure ReleaseEvaluation where
  verdict : ReleaseVerdict
  outcome : SampleOutcome
  evidenceSufficient : Bool
  report : Json
  deriving DecidableEq

/-- The reasons of `release_sample_reason`. -/
inductive ReleaseSampleReason
  | adopted | controlGenerationStale | observationGenerationStale | subjectStateNotAdoptable
  | suspended | deadlineExpired | sessionNotAuthorized | leaseRevoked | leaseStampMismatch
  | sequenceNotAdvancing | windowRegressed | readingsInconsistent
  deriving DecidableEq, Repr

/-- The coverage of a session: since when it is tracked without a gap and found healthy. -/
structure TrackingMarks where
  trackingSince : Option Time := none
  trackingUntil : Option Time := none
  healthySince : Option Time := none
  deriving DecidableEq

/-- The watermarks of a session. -/
structure SessionMarks extends TrackingMarks where
  adoptedSequence : ℕ := 0
  adoptedWindowEnd : Option Time := none
  adoptedCount : ℕ := 0
  deriving DecidableEq

/-- The coverage after an adopted sample: a window that starts after the tracked time leaves a
gap, and evidence that does not suffice ends the tracking. -/
def TrackingMarks.advance (marks : TrackingMarks) (evaluation : ReleaseEvaluation)
    (window : QueryWindow) : TrackingMarks :=
  let gap := marks.trackingUntil.all (· < window.start)
  let tracked := evaluation.evidenceSufficient ∧ evaluation.verdict ≠ .unknown
  { trackingSince :=
      if tracked then (if gap then some window.start else marks.trackingSince) else none
    trackingUntil := if tracked then some window.end else none
    healthySince :=
      if evaluation.verdict = .healthy then
        (if gap ∨ marks.healthySince = none then some window.end else marks.healthySince)
      else none }

/-- The coverage is long enough, and early enough, to call the release healthy. -/
def TrackingMarks.covers (marks : TrackingMarks) (terms : ReleaseTerms) (windowEnd : Time)
    (decisionAt : Time) : Bool :=
  marks.trackingSince.any fun trackingSince => marks.healthySince.any fun healthySince =>
    terms.releasedAt + seconds terms.minTrackingSeconds ≤ windowEnd ∧
      seconds terms.minTrackingSeconds ≤ windowEnd - trackingSince ∧
      seconds terms.sustainedWindowSeconds ≤ windowEnd - healthySince ∧
      decisionAt < terms.deadlineAt

/-- `advance_release_window`: the coverage after an adopted sample, and the status it decides. -/
def advanceReleaseWindow (terms : ReleaseTerms) (marks : TrackingMarks)
    (evaluation : ReleaseEvaluation) (window : QueryWindow) (decisionAt : Time)
    (usedSampleCount : ℕ) : TrackingMarks × Option (ReleaseStatus × ReleaseEndedReason) :=
  let marks := marks.advance evaluation window
  (marks,
    if evaluation.evidenceSufficient ∧ evaluation.verdict = .degraded then
      some (.anomalous, .anomalyDetected)
    else if evaluation.verdict = .healthy ∧ marks.covers terms window.end decisionAt then
      some (.healthy, .healthyConfirmed)
    else if terms.maxSamples ≤ usedSampleCount then some (.unknown, .maxSamplesExhausted)
    else none)

/-- What an adopted sample can decide: three statuses, each with its reason. -/
theorem advanceReleaseWindow_status {terms : ReleaseTerms} {marks : TrackingMarks}
    {evaluation : ReleaseEvaluation} {window : QueryWindow} {decisionAt : Time} {used : ℕ}
    {status : ReleaseStatus} {reason : ReleaseEndedReason}
    (h : (advanceReleaseWindow terms marks evaluation window decisionAt used).2 =
      some (status, reason)) :
    (status, reason) = (.anomalous, .anomalyDetected) ∨
      (status, reason) = (.healthy, .healthyConfirmed) ∨
      (status, reason) = (.unknown, .maxSamplesExhausted) := by
  simp only [advanceReleaseWindow] at h
  split at h
  · exact .inl (Option.some.inj h).symm
  · split at h
    · exact .inr (.inl (Option.some.inj h).symm)
    · split at h
      · exact .inr (.inr (Option.some.inj h).symm)
      · cases h

/-- A sample that decides nothing leaves part of the budget. -/
theorem advanceReleaseWindow_none {terms : ReleaseTerms} {marks : TrackingMarks}
    {evaluation : ReleaseEvaluation} {window : QueryWindow} {decisionAt : Time} {used : ℕ}
    (h : (advanceReleaseWindow terms marks evaluation window decisionAt used).2 = none) :
    used < terms.maxSamples := by
  simp only [advanceReleaseWindow] at h
  split at h
  · cases h
  · split at h
    · cases h
    · split at h
      · cases h
      · next hbudget => exact not_le.1 hbudget

end OpsPilot
