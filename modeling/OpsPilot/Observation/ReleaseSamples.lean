import OpsPilot.Observation.ReleaseCommands

/-!
# Release samples

What the Observer does with a release: it claims the due sampling job of a session
(`claimReleaseDue`), submits the sample (`submitReleaseSample`), and ends releases whose deadline
passed (`sweepExpiredRelease`). A sample is always recorded; it is adopted if it passes the fences
of `releaseSampleReason`, and only then it counts and moves the watermarks.
-/

namespace OpsPilot

/-- The fences of `release_sample_reason` with the reason each one refuses for, in their order. -/
def releaseSampleRefusals (release : ReleaseRow) (session : ReleaseSessionRow)
    (lease : ReleaseSampleLease) (window : QueryWindow) (decisionAt : Time)
    (blocked leaseValid leaseStampsMatch readingsConsistent : Bool) :
    List (Bool × ReleaseSampleReason) :=
  [(release.controlGeneration ≠ lease.subjectControlGeneration, .controlGenerationStale),
    (release.observationGeneration ≠ lease.observationGeneration, .observationGenerationStale),
    (release.status ≠ .observing ∨ release.paused = true, .subjectStateNotAdoptable),
    (blocked, .suspended),
    (release.terms.deadlineAt ≤ decisionAt, .deadlineExpired),
    (session.state ≠ .authorized, .sessionNotAuthorized),
    (!leaseValid, .leaseRevoked),
    (!leaseStampsMatch, .leaseStampMismatch),
    (lease.sequence ≤ session.marks.adoptedSequence, .sequenceNotAdvancing),
    (session.marks.adoptedWindowEnd.any (window.end < ·), .windowRegressed),
    (!readingsConsistent, .readingsInconsistent)]

/-- `release_sample_reason`: the first fence that keeps the sample from being adopted. -/
def releaseSampleReason (release : ReleaseRow) (session : ReleaseSessionRow)
    (lease : ReleaseSampleLease) (window : QueryWindow) (decisionAt : Time)
    (blocked leaseValid leaseStampsMatch readingsConsistent : Bool) : ReleaseSampleReason :=
  match (releaseSampleRefusals release session lease window decisionAt blocked leaseValid
    leaseStampsMatch readingsConsistent).find? Prod.fst with
  | some (_, reason) => reason
  | none => .adopted

/-- The slot is the one of the lease, and the lease has not run out. -/
def ReleaseSampleLease.valid (lease : ReleaseSampleLease) (session : ReleaseSessionRow)
    (now : Time) : Bool :=
  session.slot.any (fun slot => slot.jobId = lease.jobId ∧ slot.owner = some lease.owner ∧
      slot.leaseUntil = some lease.leaseUntil) ∧
    session.activeSampleEpoch = lease.epoch ∧ now < lease.leaseUntil

/-- The stamps of the lease are those of the session. -/
def ReleaseSampleLease.stampsMatch (lease : ReleaseSampleLease) (session : ReleaseSessionRow) :
    Bool :=
  session.slot.any (fun slot => slot.sequence = lease.sequence) ∧
    session.subjectControlGeneration = lease.subjectControlGeneration ∧
    session.observationGeneration = lease.observationGeneration ∧
    session.healthProfileRevision = lease.healthProfileRevision ∧
    session.releasePolicyRevision = lease.calibratedPolicyRevision ∧
    session.deadlineAt = lease.deadlineAt

/-- A gate is closed, or moved since the authorization or since the claim. -/
def ReleaseSampleLease.blocked (lease : ReleaseSampleLease) (scope : Scope)
    (session : ReleaseSessionRow) : Bool :=
  scope.blocks session || scope.global.generation ≠ lease.globalSuspensionGeneration ||
    scope.target.generation ≠ lease.targetSuspensionGeneration

/-- A job that a claim may take: due, and nobody holds it. -/
def ReleaseSessionRow.due (session : ReleaseSessionRow) (now : Time) : Option SampleSlot :=
  session.slot.filter fun slot =>
    session.state = .authorized ∧ slot.dueAt ≤ now ∧ slot.leaseUntil.all (· ≤ now) ∧
      now < session.deadlineAt

/-- The session no longer matches its release. -/
def ReleaseRow.stale (release : ReleaseRow) (session : ReleaseSessionRow) : Bool :=
  release.paused ∨ release.status ≠ .observing ∨
    release.controlGeneration ≠ session.subjectControlGeneration ∨
    release.observationGeneration ≠ session.observationGeneration

/-- The row of a release whose deadline passed. -/
def ReleaseRow.expire (row : ReleaseRow) (endedAt : Time) : ReleaseRow :=
  { row with
    status := .unknown, endedReason := some .deadlineExpired, endedAt := some endedAt }

/-- The lease of a claimed job. -/
def ReleaseSessionRow.sampleLease (session : ReleaseSessionRow) (sessionId owner : UUID)
    (slot : SampleSlot) (leaseUntil : Time) (scope : Scope) : ReleaseSampleLease where
  sessionId := sessionId
  observationId := session.observationId
  jobId := slot.jobId
  sequence := slot.sequence
  owner := owner
  epoch := session.activeSampleEpoch + 1
  leaseUntil := leaseUntil
  subjectControlGeneration := session.subjectControlGeneration
  observationGeneration := session.observationGeneration
  healthProfileRevision := session.healthProfileRevision
  calibratedPolicyRevision := session.releasePolicyRevision
  deadlineAt := session.deadlineAt
  sampleIntervalSeconds := session.sampleIntervalSeconds
  adoptedWindowEnd := session.marks.adoptedWindowEnd
  globalSuspensionGeneration := scope.global.generation
  targetSuspensionGeneration := scope.target.generation

/-- A claim writes the owner, the next epoch and the lease. -/
def ReleaseSessionRow.claimed (session : ReleaseSessionRow) (owner : UUID) (leaseUntil : Time) :
    ReleaseSessionRow :=
  { session with
    activeSampleEpoch := session.activeSampleEpoch + 1
    slot := session.slot.map fun slot =>
      { slot with owner := some owner, leaseUntil := some leaseUntil } }

/-- The next sampling job is issued. -/
def ReleaseSessionRow.issued (session : ReleaseSessionRow) (jobId : UUID) (dueAt : Time) :
    ReleaseSessionRow :=
  { session with
    issuedSequence := session.issuedSequence + 1
    slot := some { jobId, sequence := session.issuedSequence + 1, dueAt } }

/-- The job is due again later. -/
def ReleaseSessionRow.postponed (session : ReleaseSessionRow) (dueAt : Time) : ReleaseSessionRow :=
  { session with
    slot := session.slot.map fun slot => { slot with dueAt, owner := none, leaseUntil := none } }

/-- The watermarks move. -/
def ReleaseSessionRow.marked (session : ReleaseSessionRow) (marks : SessionMarks) :
    ReleaseSessionRow :=
  { session with marks }

/-- The watermarks after an adopted sample. -/
def SessionMarks.adopt (marks : SessionMarks) (tracking : TrackingMarks) (sequence : ℕ)
    (windowEnd : Time) : SessionMarks where
  toTrackingMarks := tracking
  adoptedSequence := sequence
  adoptedWindowEnd := some windowEnd
  adoptedCount := marks.adoptedCount + 1

/-- How a sample that was not adopted ends its session, if it does. -/
def ReleaseSampleReason.ends : ReleaseSampleReason → Option ReleaseEndedReason
  | .suspended => some .scopeSuspended
  | .controlGenerationStale | .observationGenerationStale | .subjectStateNotAdoptable =>
    some .bindingStale
  | _ => none

namespace ReleaseStore

variable [ReleaseTexts]

/-- `_claim_release_due`: the due job of one session is leased; a session that may not go on ends
instead. -/
def claimReleaseDue (s : ReleaseStore) (clk : ReleaseClock) (owner sessionId : UUID)
    (leaseSeconds : ℕ) : Except ReleaseError (Option ReleaseSampleLease × ReleaseStore) :=
  match s.sessions.get sessionId with
  | none => pure (none, s)
  | some session =>
    match s.releases.get session.observationId, session.due clk.now with
    | some release, some slot => do
      let scope ← s.releaseScope release.terms.targetId
      if scope.blocks session then
        pure (none, s.endReleaseSession release.status sessionId session .scopeSuspended
          release.status none clk.endedAt)
      else if release.stale session then
        pure (none, s.endReleaseSession release.status sessionId session .bindingStale
          release.status none clk.endedAt)
      else do
        let leaseUntil := clk.now + seconds leaseSeconds
        pure (some (session.sampleLease sessionId owner slot leaseUntil scope), { s with
          sessions := s.sessions.modify sessionId (·.claimed owner leaseUntil) })
    | _, _ => pure (none, s)

/-- `context_in`. -/
def contextIn (s : ReleaseStore) (sessionId : UUID) (session : ReleaseSessionRow)
    (release : ReleaseRow) : Except ReleaseError ReleaseContext := do
  let frozen ← require (s.store.profiles.get session.healthProfileRevision)
    .healthProfileUnavailable
  let policy ← require release.policy .releasePolicyMismatch
  let profile ← require (ReleaseTexts.healthProfile frozen.content) .invalidRecord
  pure { terms := release.terms, sessionId, authorizedAt := session.authorizedAt, policy, profile }

/-- The facts a submission is decided on. -/
structure Submission where
  release : ReleaseRow
  session : ReleaseSessionRow
  scope : Scope
  evaluation : ReleaseEvaluation
  fingerprint : String
  lease : ReleaseSampleLease
  evidence : ReleaseSampleEvidence
  now : Time
  consistent : Bool

namespace Submission

variable (d : Submission)

/-- The reason of the sample. -/
def reason : ReleaseSampleReason :=
  releaseSampleReason d.release d.session d.lease d.evidence.window d.now
    (d.lease.blocked d.scope d.session) (d.lease.valid d.session d.now)
    (d.lease.stampsMatch d.session) d.consistent

/-- The coverage after the sample, and what it decides. -/
def advanced : TrackingMarks × Option (ReleaseStatus × ReleaseEndedReason) :=
  advanceReleaseWindow d.release.terms d.session.marks.toTrackingMarks d.evaluation
    d.evidence.window d.now (d.release.usedSampleCount + 1)

/-- The id of the ending of the session. -/
def endingId : ReleaseEndingId := (d.lease.observationId, d.lease.sessionId)

/-- When the next sample is due. -/
def due : Time := d.now + seconds d.release.terms.sampleIntervalSeconds

/-- The row of the sample. -/
def sampleRow (transition : Option ReleaseStatus) (receipt : ReleaseSampleReceipt) :
    ReleaseSampleRow where
  sessionId := d.lease.sessionId
  observationId := d.lease.observationId
  lease := d.lease
  window := d.evidence.window
  evaluation := d.evaluation
  reason := d.reason
  confirmsHealth := d.reason = .adopted ∧ d.evaluation.verdict = .healthy
  healthBasis :=
    if d.reason = .adopted ∧ d.evaluation.verdict = .healthy then .confirmed
    else if d.reason = .adopted then .outcomeNotHealthy else .notAdopted
  scopeSuspended := d.lease.blocked d.scope d.session
  globalGeneration := d.scope.global.generation
  targetGeneration := d.scope.target.generation
  withinDeadline := d.now < d.release.terms.deadlineAt
  leaseValid := d.lease.valid d.session d.now
  leaseStampsMatch := d.lease.stampsMatch d.session
  readingsConsistent := d.consistent
  transition := transition
  currentSubjectState := d.release.status
  currentSubjectControlGeneration := d.release.controlGeneration
  currentSubjectObservationGeneration := d.release.observationGeneration
  decisionAt := d.now
  evidenceSha256 := d.fingerprint
  receipt := receipt
  queries := d.evidence.queries

/-- The receipt of a sample that was not adopted. -/
def refusedReceipt (state : ObservationSessionState) (endingId : Option ReleaseEndingId)
    (due : Option Time) : ReleaseSampleReceipt where
  sampleId := d.evidence.sampleId
  sessionId := d.lease.sessionId
  observationId := d.lease.observationId
  replayed := false
  reason := d.reason
  evaluation := d.evaluation
  sessionState := state
  releaseStatus := d.release.status
  usedSampleCount := d.release.usedSampleCount
  tracking := 0
  healthyWindow := 0
  endingId := endingId
  nextSampleDueAt := due

/-- The receipt of an adopted sample. -/
def adoptedReceipt : ReleaseSampleReceipt where
  sampleId := d.evidence.sampleId
  sessionId := d.lease.sessionId
  observationId := d.lease.observationId
  replayed := false
  reason := d.reason
  evaluation := d.evaluation
  sessionState := (d.advanced.2.map fun e => e.2.sessionState).getD d.session.state
  releaseStatus := (d.advanced.2.map Prod.fst).getD d.release.status
  usedSampleCount := d.release.usedSampleCount + 1
  tracking := ((d.advanced.1.trackingUntil.map₂ (· - ·) d.advanced.1.trackingSince)).getD 0
  healthyWindow := (d.advanced.1.healthySince.map (d.evidence.window.end - ·)).getD 0
  endingId := d.advanced.2.map fun _ => d.endingId
  nextSampleDueAt := if d.advanced.2.isNone then some d.due else none

/-- The watermarks the sample leaves, if it is adopted. -/
def marks : SessionMarks :=
  d.session.marks.adopt d.advanced.1 d.lease.sequence d.evidence.window.end

/-- The release row a deciding sample leaves. -/
def decidedRow (status : ReleaseStatus) (reason : ReleaseEndedReason) : ReleaseRow :=
  { d.release with
    usedSampleCount := d.release.usedSampleCount + 1, status
    endedReason := some reason, endedAt := some d.now }

/-- The release row any other adopted sample leaves. -/
def countedRow : ReleaseRow :=
  { d.release with
    usedSampleCount := d.release.usedSampleCount + 1, endedReason := none, endedAt := none }

/-- An adopted sample moves the watermarks of its session and counts; it ends the release if the
coverage decides it, and else the next job is issued. -/
def adopt (s : ReleaseStore) (jobId : UUID) (endedAt : Time) :
    ReleaseSampleReceipt × ReleaseStore :=
  let transition := d.advanced.2.map Prod.fst
  let recorded := { s with
    samples := s.samples.insert d.evidence.sampleId (d.sampleRow transition d.adoptedReceipt) }
  (d.adoptedReceipt,
    match d.advanced.2 with
    | some (status, reason) =>
      let ended := { recorded with
          sessions := recorded.sessions.modify d.lease.sessionId (·.marked d.marks) }.endReleaseSession d.release.status d.lease.sessionId d.session reason
          status (some d.evidence.sampleId) endedAt
      { ended with
        releases := ended.releases.modify d.lease.observationId fun _ =>
          d.decidedRow status reason }
    | none => { recorded with
        sessions := recorded.sessions.modify d.lease.sessionId fun row =>
          (row.marked d.marks).issued jobId d.due
        releases := recorded.releases.modify d.lease.observationId fun _ => d.countedRow })

/-- A sample that is not adopted is recorded; its session ends if it may not go on, and else a job
held by the lease is due again later. -/
def keepHistory (s : ReleaseStore) (endedAt : Time) : ReleaseSampleReceipt × ReleaseStore :=
  let record (receipt : ReleaseSampleReceipt) (t : ReleaseStore) : ReleaseStore :=
    { t with samples := t.samples.insert d.evidence.sampleId (d.sampleRow none receipt) }
  if d.session.state ≠ .authorized then
    let receipt := d.refusedReceipt d.session.state none none
    (receipt, record receipt s)
  else match d.reason.ends with
    | some reason =>
      let receipt := d.refusedReceipt .revoked (some d.endingId) none
      (receipt, record receipt (s.endReleaseSession d.release.status d.lease.sessionId d.session
        reason d.release.status none endedAt))
    | none =>
      if d.lease.valid d.session d.now then
        let receipt := d.refusedReceipt .authorized none (some d.due)
        (receipt, record receipt { s with
          sessions := s.sessions.modify d.lease.sessionId (·.postponed d.due) })
      else
        let receipt := d.refusedReceipt .authorized none none
        (receipt, record receipt s)

end Submission

/-- `submit_release_sample`: a sample is recorded once, and answered again for the same lease and
evidence. The samples of incidents and releases share their ids. -/
def submitReleaseSample (s : ReleaseStore) (clk : ReleaseClock) (lease : ReleaseSampleLease)
    (evidence : ReleaseSampleEvidence) (jobId : UUID) :
    Except ReleaseError (ReleaseSampleReceipt × ReleaseStore) := do
  let release ← s.releaseRow lease.observationId
  let session ← require
    ((s.sessions.get lease.sessionId).filter (·.observationId = lease.observationId))
    (.store .invalidInput)
  let fingerprint := ReleaseTexts.sampleFingerprint lease evidence
  match s.samples.get evidence.sampleId with
  | some previous => do
    refuse (previous.evidenceSha256 ≠ fingerprint) .sampleIdentityConflict
    pure ({ previous.receipt with replayed := true }, s)
  | none => do
    refuse (s.store.samples.get evidence.sampleId).isSome .sampleIdentityConflict
    let scope ← s.releaseScope release.terms.targetId
    let context ← s.contextIn lease.sessionId session release
    let d : Submission := {
      release, session, scope, fingerprint, lease, evidence
      now := clk.now
      evaluation := ReleaseTexts.evaluateReleaseSample context evidence clk.now
      consistent := ReleaseTexts.queryEvidenceConsistent context evidence clk.now }
    pure (if d.reason = .adopted then d.adopt s jobId clk.endedAt else d.keepHistory s clk.endedAt)

/-- A live release whose deadline has passed. -/
def expired (s : ReleaseStore) (observationId : UUID) (now : Time) : Option ReleaseRow :=
  (s.releases.get observationId).filter fun row =>
    row.status.live ∧ row.terms.deadlineAt ≤ now

/-- The audit row of a sweep, before its id and its sequence are known. -/
def sweepAudit (observationId : UUID) (before after : ReleaseRow) (sessionId : Option UUID)
    (endingId : Option ReleaseEndingId) (recordedAt : Time) : ReleaseAuditRow where
  idempotencyKey := "system:deadline"
  requestSha256 := Texts.sha256 "system:deadline"
  actor := "observer"
  expectedControlGeneration := before.controlGeneration
  before := before.toReleaseControl
  after := after.toReleaseControl
  recordedAt := recordedAt
  result := {
    observationId
    auditId := 0
    sequence := 0
    action := .deadlineExpired
    applied := true
    reason := some .deadlineExpired
    sessionId, endingId
    control := after.toReleaseControl
    usedSampleCount := after.usedSampleCount
    deadlineAt := after.terms.deadlineAt }

/-- One row of `sweep_expired_releases`: the sessions end, and the release is unknown. -/
def sweepExpiredRelease (s : ReleaseStore) (clk : ReleaseClock) (observationId auditId : UUID) :
    Except ReleaseError ReleaseStore :=
  match s.expired observationId clk.now with
  | none => pure s
  | some row => do
    let sessions := s.authorizedSessions observationId
    let ending := s.lastEnding clk observationId
    let ended := s.endReleaseSessions row.status sessions .deadlineExpired .unknown clk.endedAt
    let after := row.expire ending.2
    let audited ← ended.auditRelease auditId
      (sweepAudit observationId row after (sessions.head?.map Prod.fst) ending.1 clk.recordedAt)
    pure { audited.2 with releases := audited.2.releases.modify observationId fun _ => after }

/-! ## What a claim, a sample and a sweep do -/

variable {s s' : ReleaseStore} {clk : ReleaseClock}

omit [ReleaseTexts] in
/-- What an adopted sample has passed. -/
theorem releaseSampleReason_adopted {release : ReleaseRow} {session : ReleaseSessionRow}
    {lease : ReleaseSampleLease} {window : QueryWindow} {decisionAt : Time}
    {blocked leaseValid leaseStampsMatch readingsConsistent : Bool}
    (h : releaseSampleReason release session lease window decisionAt blocked leaseValid
      leaseStampsMatch readingsConsistent = .adopted) :
    release.controlGeneration = lease.subjectControlGeneration ∧
      release.observationGeneration = lease.observationGeneration ∧
      release.status = .observing ∧ release.paused = false ∧ blocked = false ∧
      decisionAt < release.terms.deadlineAt ∧ session.state = .authorized ∧ leaseValid = true ∧
      leaseStampsMatch = true ∧ session.marks.adoptedSequence < lease.sequence ∧
      readingsConsistent = true := by
  have hnone : ∀ e ∈ releaseSampleRefusals release session lease window decisionAt blocked
      leaseValid leaseStampsMatch readingsConsistent, e.1 = false := by
    unfold releaseSampleReason at h
    split at h
    · next reason hfind =>
      have hmem := List.mem_of_find?_eq_some hfind
      simp [releaseSampleRefusals, h] at hmem
    · next hfind => simpa using List.find?_eq_none.1 hfind
  simp only [releaseSampleRefusals, List.mem_cons, List.not_mem_nil, or_false, forall_eq_or_imp,
    forall_eq, decide_eq_false_iff_not, not_or, not_not, not_le, Bool.not_eq_true,
    Bool.not_eq_eq_eq_not, Bool.not_false] at hnone
  obtain ⟨hcontrol, hobservation, hstatus, hblocked, hdeadline, hstate, hvalid, hstamps, hsequence,
    -, hconsistent⟩ := hnone
  exact ⟨hcontrol, hobservation, hstatus.1, hstatus.2, hblocked, hdeadline, hstate, hvalid, hstamps,
    hsequence, hconsistent⟩

/-- A session that a claim ends. -/
structure ClaimEnds (s : ReleaseStore) (clk : ReleaseClock) (sessionId : UUID)
    (session : ReleaseSessionRow) (release : ReleaseRow) (reason : ReleaseEndedReason)
    (s' : ReleaseStore) : Prop where
  found : s.sessions.get sessionId = some session
  authorized : session.state = .authorized
  subject : s.releases.get session.observationId = some release
  cause : reason = .scopeSuspended ∨ reason = .bindingStale
  written : s' = s.endReleaseSession release.status sessionId session reason release.status none
    clk.endedAt

/-- A job that a claim leases. -/
structure ClaimLeases (s : ReleaseStore) (clk : ReleaseClock) (owner sessionId : UUID)
    (leaseUntil : Time) (session : ReleaseSessionRow) (release : ReleaseRow) (slot : SampleSlot)
    (scope : Scope) (lease : ReleaseSampleLease) (s' : ReleaseStore) : Prop where
  found : s.sessions.get sessionId = some session
  subject : s.releases.get session.observationId = some release
  due : session.due clk.now = some slot
  gates : s.releaseScope release.terms.targetId = .ok scope
  notBlocked : scope.blocks session = false
  notStale : release.stale session = false
  issued : lease = session.sampleLease sessionId owner slot leaseUntil scope
  written : s' = { s with sessions := s.sessions.modify sessionId (·.claimed owner leaseUntil) }

omit [ReleaseTexts] in
theorem due_authorized {session : ReleaseSessionRow} {now : Time} {slot : SampleSlot}
    (h : session.due now = some slot) :
    session.slot = some slot ∧ session.state = .authorized ∧ now < session.deadlineAt := by
  obtain ⟨hslot, hdue⟩ := Option.filter_eq_some_iff.1 h
  rw [decide_eq_true_eq] at hdue
  exact ⟨hslot, hdue.1, hdue.2.2.2⟩

omit [ReleaseTexts] in
/-- **What a claim does**: nothing, end the session, or lease its job. -/
theorem claimReleaseDue_cases {owner sessionId : UUID} {leaseSeconds : ℕ}
    {lease : Option ReleaseSampleLease}
    (h : s.claimReleaseDue clk owner sessionId leaseSeconds = .ok (lease, s')) :
    lease = none ∧ s' = s ∨
      (∃ session release reason, lease = none ∧
        ClaimEnds s clk sessionId session release reason s') ∨
      ∃ session release slot scope issued, lease = some issued ∧
        ClaimLeases s clk owner sessionId (clk.now + seconds leaseSeconds) session release slot scope
          issued s' := by
  unfold claimReleaseDue at h
  split at h
  · simp only [pure_eq_ok, Prod.mk.injEq] at h
    exact .inl ⟨h.1.symm, h.2.symm⟩
  next session hsession =>
  split at h
  next release slot hrelease hdue =>
    obtain ⟨-, hauth, -⟩ := due_authorized hdue
    obtain ⟨scope, hscope, h⟩ := bind_eq_ok.1 h
    refine .inr ?_
    split at h
    · simp only [pure_eq_ok, Prod.mk.injEq] at h
      exact .inl ⟨session, release, _, h.1.symm,
        hsession, hauth, hrelease, .inl rfl, h.2.symm⟩
    next hopen =>
    split at h
    · simp only [pure_eq_ok, Prod.mk.injEq] at h
      exact .inl ⟨session, release, _, h.1.symm,
        hsession, hauth, hrelease, .inr rfl, h.2.symm⟩
    next hfresh =>
    simp only [pure_eq_ok, Prod.mk.injEq] at h
    exact .inr ⟨session, release, slot, scope, _, h.1.symm, hsession, hrelease, hdue, hscope,
      by simpa using hopen, by simpa using hfresh, rfl, h.2.symm⟩
  · simp only [pure_eq_ok, Prod.mk.injEq] at h
    exact .inl ⟨h.1.symm, h.2.symm⟩

/-- The facts of a submission are those of the database. -/
structure Submission.Reads (d : Submission) (s : ReleaseStore) (clk : ReleaseClock)
    (lease : ReleaseSampleLease) (evidence : ReleaseSampleEvidence) : Prop where
  subject : s.releases.get lease.observationId = some d.release
  found : s.sessions.get lease.sessionId = some d.session
  observation : d.session.observationId = lease.observationId
  new : s.samples.get evidence.sampleId = none
  gates : s.releaseScope d.release.terms.targetId = .ok d.scope
  lease_eq : d.lease = lease
  evidence_eq : d.evidence = evidence
  now_eq : d.now = clk.now
  fingerprint_eq : d.fingerprint = ReleaseTexts.sampleFingerprint lease evidence
  evaluated : ∃ context, s.contextIn lease.sessionId d.session d.release = .ok context ∧
    d.evaluation = ReleaseTexts.evaluateReleaseSample context evidence clk.now ∧
    d.consistent = ReleaseTexts.queryEvidenceConsistent context evidence clk.now

/-- **What a submission does**: it is answered again, or the sample is adopted, or kept as
history. -/
theorem submitReleaseSample_cases {lease : ReleaseSampleLease} {evidence : ReleaseSampleEvidence}
    {jobId : UUID} {receipt : ReleaseSampleReceipt}
    (h : s.submitReleaseSample clk lease evidence jobId = .ok (receipt, s')) :
    (∃ previous, s.samples.get evidence.sampleId = some previous ∧
      receipt = { previous.receipt with replayed := true } ∧ s' = s) ∨
    ∃ d : Submission, d.Reads s clk lease evidence ∧
      (d.reason = .adopted ∧ (receipt, s') = d.adopt s jobId clk.endedAt ∨
        d.reason ≠ .adopted ∧ (receipt, s') = d.keepHistory s clk.endedAt) := by
  simp only [submitReleaseSample, releaseRow, require_bind_eq_ok] at h
  obtain ⟨release, hrelease, session, hsession, h⟩ := h
  obtain ⟨hsession, hoid⟩ := Option.filter_eq_some_iff.1 hsession
  rw [decide_eq_true_eq] at hoid
  split at h
  next previous hprevious =>
    simp only [refuse_bind_eq_ok, pure_eq_ok, Prod.mk.injEq] at h
    exact .inl ⟨previous, hprevious, h.2.1.symm, h.2.2.symm⟩
  next hnew =>
    simp only [refuse_bind_eq_ok] at h
    obtain ⟨-, h⟩ := h
    obtain ⟨scope, hscope, h⟩ := bind_eq_ok.1 h
    obtain ⟨context, hcontext, h⟩ := bind_eq_ok.1 h
    rw [pure_eq_ok] at h
    refine .inr ⟨{
      release, session, scope, lease, evidence
      fingerprint := ReleaseTexts.sampleFingerprint lease evidence
      now := clk.now
      evaluation := ReleaseTexts.evaluateReleaseSample context evidence clk.now
      consistent := ReleaseTexts.queryEvidenceConsistent context evidence clk.now },
      ⟨hrelease, hsession, hoid, hnew, hscope, rfl, rfl, rfl, rfl, context, hcontext, rfl, rfl⟩, ?_⟩
    split at h
    · next hadopted => exact .inl ⟨hadopted, h.symm⟩
    · next hnot => exact .inr ⟨hnot, h.symm⟩

/-- A release that a sweep ends. -/
structure Swept (s : ReleaseStore) (clk : ReleaseClock) (observationId auditId : UUID)
    (row : ReleaseRow) (audit : ReleaseAuditRow) (audited s' : ReleaseStore) : Prop where
  found : s.releases.get observationId = some row
  live : row.status.live = true
  deadline : row.terms.deadlineAt ≤ clk.now
  recorded : (s.endReleaseSessions row.status (s.authorizedSessions observationId) .deadlineExpired
      .unknown clk.endedAt).auditRelease auditId
    (sweepAudit observationId row (row.expire (s.lastEnding clk observationId).2)
      ((s.authorizedSessions observationId).head?.map Prod.fst)
      (s.lastEnding clk observationId).1 clk.recordedAt) = .ok (audit, audited)
  written : s' = { audited with
    releases := audited.releases.modify observationId fun _ =>
      row.expire (s.lastEnding clk observationId).2 }

/-- **What a sweep does**: nothing, or end a live release whose deadline passed. -/
theorem sweepExpiredRelease_cases {observationId auditId : UUID}
    (h : s.sweepExpiredRelease clk observationId auditId = .ok s') :
    s' = s ∨ ∃ row audit audited, Swept s clk observationId auditId row audit audited s' := by
  unfold sweepExpiredRelease at h
  split at h
  · exact .inl (pure_eq_ok.1 h).symm
  next row hexpired =>
  obtain ⟨hrow, hlive⟩ := Option.filter_eq_some_iff.1 hexpired
  rw [decide_eq_true_eq] at hlive
  obtain ⟨⟨audit, audited⟩, haudit, h⟩ := bind_eq_ok.1 h
  exact .inr ⟨row, audit, audited, hrow, hlive.1, hlive.2, haudit, (pure_eq_ok.1 h).symm⟩

end ReleaseStore

end OpsPilot
