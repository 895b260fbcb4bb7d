import OpsPilot.Observation.Releases

/-!
# Release commands

The commands of the Controller: authorize, pause, resume and cancel. A command is answered once for
its key, and every answer, also a rejection, is an audit row (`commandLocked`). A command that is
applied ends the sessions of the release; authorize and resume start a new one.

* `ReleaseStore.command_cases`: what a command does: it answers again, it is rejected, or it is
  applied.
-/

namespace OpsPilot

/-- A release command. -/
structure ReleaseCommand where
  observationId : UUID
  action : ReleaseAction
  actor : String
  expectedControlGeneration : ℕ
  idempotencyKey : String
  calibratedPolicyRevision : Option String

/-- A policy of the release policy catalog. -/
structure ReleasePolicy where
  revision : String
  contentSha256 : String
  content : String
  target : TargetSnapshot
  healthProfileRevision : String
  healthProfileSha256 : String
  minTrackingSeconds : ℕ
  deriving DecidableEq

/-- What a command finds outside the database: the catalog, if it loads, and fresh ids. -/
structure CommandSetting where
  catalog : Option (List ReleasePolicy)
  sessionId : UUID
  jobId : UUID
  auditId : UUID

/-- The action starts a session. -/
def ReleaseAction.grants : ReleaseAction → Bool
  | .authorize | .resume => true
  | .pause | .cancel => false

/-- The text can be stored: PostgreSQL text holds no NUL. -/
def storableText (text : String) : Bool := !text.toList.contains '\x00'

/-- The checks of `_release_command_in` on the request itself. -/
def ReleaseCommand.valid (c : ReleaseCommand) : Bool :=
  c.actor ≠ "" ∧ 1 ≤ c.idempotencyKey.length ∧ c.idempotencyKey.length ≤ 256 ∧
    ¬ "system:".toList.isPrefixOf c.idempotencyKey.toList ∧
    (if c.action.grants then c.calibratedPolicyRevision.any (· ≠ "")
      else c.calibratedPolicyRevision = none) ∧
    storableText c.actor ∧ storableText c.idempotencyKey ∧
    c.calibratedPolicyRevision.all storableText

/-- The identity in the registry, if it is complete. -/
def TargetRow.snapshot (row : TargetRow) : Option TargetSnapshot := do
  let integrationId ← row.integrationId
  let clusterUid ← row.clusterUid
  let «namespace» ← row.namespace
  let workload ← row.workload
  if integrationId = "" ∨ clusterUid = "" ∨ «namespace» = "" ∨ row.resourceUid = "" ∨
      workload = "" then none
  else some { integrationId, clusterUid, «namespace», resourceUid := row.resourceUid, workload }

/-- The target of a session: the snapshot without its workload. -/
def TargetSnapshot.identity (snapshot : TargetSnapshot) : TargetIdentity where
  integrationId := snapshot.integrationId
  clusterUid := snapshot.clusterUid
  «namespace» := snapshot.namespace
  resourceUid := snapshot.resourceUid

/-- The policy does not fit the release, its target or its profile. -/
def ReleasePolicy.mismatches [Texts] (policy : ReleasePolicy) (row : ReleaseRow)
    (frozen : ProfileRow) (profile : HealthProfile) : Prop :=
  policy.target ≠ row.terms.targetSnapshot ∨
    policy.healthProfileRevision ≠ row.terms.healthProfileRevision ∨
    policy.healthProfileSha256 ≠ frozen.contentSha256 ∨
    Texts.sha256 frozen.content ≠ frozen.contentSha256 ∨
    profile.revision ≠ row.terms.healthProfileRevision ∨
    policy.minTrackingSeconds ≠ row.terms.minTrackingSeconds ∨
    profile.deadlineSeconds ≠ row.terms.deadlineSeconds ∨
    profile.maxSamples ≠ row.terms.maxSamples ∨
    profile.sampleIntervalSeconds ≠ row.terms.sampleIntervalSeconds ∨
    profile.sustainedWindowSeconds ≠ row.terms.sustainedWindowSeconds ∨
    row.policy.any fun kept =>
      policy.revision ≠ kept.revision ∨ policy.contentSha256 ≠ kept.contentSha256

instance [Texts] (policy : ReleasePolicy) (row : ReleaseRow) (frozen : ProfileRow)
    (profile : HealthProfile) : Decidable (policy.mismatches row frozen profile) :=
  inferInstanceAs (Decidable (_ ∨ _ ∨ _ ∨ _ ∨ _ ∨ _ ∨ _ ∨ _ ∨ _ ∨ _ ∨ _))

namespace ReleaseStore

variable [ReleaseTexts]

/-- `_checked_policy`: the policy of a revision, or why it does not apply. -/
def checkedPolicy (s : ReleaseStore) (row : ReleaseRow) (revision : Option String)
    (catalog : Option (List ReleasePolicy)) : Except ReleaseReason ReleasePolicy := do
  let target ← require ((s.store.targets.get row.terms.targetId).bind TargetRow.snapshot)
    .targetIdentityMissing
  refuse (target ≠ row.terms.targetSnapshot) .targetMismatch
  let frozen ← require (s.store.profiles.get row.terms.healthProfileRevision)
    .healthProfileUnavailable
  let profile ← require (ReleaseTexts.healthProfile frozen.content) .invalidReleasePolicy
  refuse (profile.service ≠ target.workload ∨ profile.namespace ≠ target.namespace)
    .healthProfileTargetMismatch
  let policies ← require catalog .releasePolicyCatalogInvalid
  let policy ← require (policies.find? fun p => some p.revision = revision)
    .releasePolicyUncalibrated
  refuse (policy.mismatches row frozen profile) .releasePolicyMismatch
  refuse (ReleaseTexts.supportedProfile profile = false) .releasePolicyUnsupported
  pure policy

/-- Why a command is rejected before its policy is read. -/
def commandChecks (row : ReleaseRow) (scope : Scope) (sessions : List (UUID × ReleaseSessionRow))
    (c : ReleaseCommand) (now : Time) : Except ReleaseReason Unit := do
  refuse (row.controlGeneration ≠ c.expectedControlGeneration) .controlConflict
  refuse (row.status.live = false) .releaseTerminal
  refuse (c.action ≠ .cancel ∧ row.terms.deadlineAt ≤ now) .releaseDeadlineExpired
  match c.action with
  | .authorize => do
    refuse row.paused .releasePaused
    refuse (sessions ≠ []) .observationAlreadyAuthorized
    refuse (0 < row.observationGeneration ∨ row.policy ≠ none) .reauthorizationRequired
  | .pause => refuse row.paused .alreadyPaused
  | .resume => do
    refuse (¬ row.paused ∧ sessions.head?.any fun e => !scope.blocks e.2)
      .observationAlreadyAuthorized
    refuse (¬ row.paused ∧ row.policy = none) .reauthorizationRequired
  | .cancel => pure ()

/-- The policy of the session a command starts, if it starts one. -/
def grantedPolicy (s : ReleaseStore) (row : ReleaseRow) (scope : Scope) (c : ReleaseCommand)
    (catalog : Option (List ReleasePolicy)) : Except ReleaseReason (Option ReleasePolicy) :=
  if c.action.grants then do
    refuse scope.suspended .scopeSuspended
    let policy ← s.checkedPolicy row c.calibratedPolicyRevision catalog
    refuse (row.terms.maxSamples ≤ row.usedSampleCount) .releaseSampleBudgetExhausted
    pure (some policy)
  else pure none

/-- The decision on a command: the policy of the session it starts, or why it is rejected. -/
def commandDecision (s : ReleaseStore) (row : ReleaseRow) (scope : Scope)
    (sessions : List (UUID × ReleaseSessionRow)) (c : ReleaseCommand)
    (catalog : Option (List ReleasePolicy)) (clk : ReleaseClock) :
    Except ReleaseReason (Option ReleasePolicy) := do
  commandChecks row scope sessions c clk.now
  let policy ← s.grantedPolicy row scope c catalog
  refuse (c.action ≠ .cancel ∧ row.terms.deadlineAt ≤ clk.later) .releaseDeadlineExpired
  pure policy

end ReleaseStore

/-- The control columns an applied command leaves. -/
def ReleaseControl.decided (control : ReleaseControl) : ReleaseAction → ReleaseControl
  | .authorize =>
    { control with
      status := .observing, paused := false
      observationGeneration := control.observationGeneration + 1 }
  | .resume =>
    { status := .observing, paused := false
      controlGeneration := control.controlGeneration + 1
      observationGeneration := control.observationGeneration + 1 }
  | .pause =>
    { control with
      paused := true
      controlGeneration := control.controlGeneration + 1
      observationGeneration := control.observationGeneration + 1 }
  | .cancel =>
    { status := .cancelled, paused := false
      controlGeneration := control.controlGeneration + 1
      observationGeneration := control.observationGeneration + 1 }

/-- The row an applied command leaves; the first policy of a release is kept. -/
def ReleaseRow.decided (row : ReleaseRow) (action : ReleaseAction)
    (policy : Option ReleasePolicy) (endedAt : Time) : ReleaseRow :=
  { row with
    toReleaseControl := row.toReleaseControl.decided action
    endedReason := if action = .cancel then some .cancelled else row.endedReason
    endedAt := if action = .cancel then some endedAt else row.endedAt
    policy := row.policy <|> policy.map fun p => ⟨p.revision, p.content, p.contentSha256⟩ }

/-- The session an applied authorization starts, under the row it leaves. -/
def ReleaseRow.session (row : ReleaseRow) (policy : ReleasePolicy) (c : ReleaseCommand)
    (scope : Scope) (jobId : UUID) (authorizedAt : Time) : ReleaseSessionRow where
  observationId := c.observationId
  targetId := row.terms.targetId
  target := row.terms.targetSnapshot.identity
  subjectControlGeneration := row.controlGeneration
  observationGeneration := row.observationGeneration
  authorizedBy := c.actor
  healthProfileRevision := row.terms.healthProfileRevision
  authorizedGlobalGeneration := scope.global.generation
  authorizedTargetGeneration := scope.target.generation
  deadlineAt := row.terms.deadlineAt
  maxSamples := row.terms.maxSamples
  sampleIntervalSeconds := row.terms.sampleIntervalSeconds
  sustainedWindowSeconds := row.terms.sustainedWindowSeconds
  releasePolicyRevision := (row.policy.map (·.revision)).getD policy.revision
  releaseBudgetUsedAtAuthorization := row.usedSampleCount
  authorizedAt := authorizedAt
  slot := some {
    jobId, sequence := 1, dueAt := authorizedAt + seconds row.terms.sampleIntervalSeconds }

/-- The audit row of a command, before its id and its sequence are known. -/
def ReleaseCommand.audit (c : ReleaseCommand) (before after : ReleaseRow) (fingerprint : String)
    (reason : Option ReleaseReason) (sessionId : Option UUID)
    (endingId : Option ReleaseEndingId) (recordedAt : Time) : ReleaseAuditRow where
  idempotencyKey := c.idempotencyKey
  requestSha256 := fingerprint
  actor := c.actor
  expectedControlGeneration := c.expectedControlGeneration
  before := before.toReleaseControl
  after := after.toReleaseControl
  recordedAt := recordedAt
  result := {
    observationId := c.observationId
    auditId := 0
    sequence := 0
    action := .command c.action
    applied := reason.isNone
    reason, sessionId, endingId
    control := after.toReleaseControl
    usedSampleCount := after.usedSampleCount
    deadlineAt := after.terms.deadlineAt }

namespace ReleaseStore

variable [ReleaseTexts]

/-- The session of an applied authorization is inserted, while the deadline has not passed. -/
def startSession (s : ReleaseStore) (after : ReleaseRow) (policy : Option ReleasePolicy)
    (c : ReleaseCommand) (scope : Scope) (setting : CommandSetting) (authorizedAt : Time) :
    Except ReleaseError ReleaseStore :=
  match policy with
  | none => pure s
  | some policy => do
    refuse (after.terms.deadlineAt ≤ authorizedAt) .integrityRefused
    refuse (s.sessions.get setting.sessionId).isSome .integrityRefused
    pure { s with
      sessions := s.sessions.insert setting.sessionId
        (after.session policy c scope setting.jobId authorizedAt) }

/-- The last ending a decision on a release writes, and the time the release ends if it does: that of
the ending, or of the audit row. -/
def lastEnding (s : ReleaseStore) (clk : ReleaseClock) (observationId : UUID) :
    Option ReleaseEndingId × Time :=
  match (s.authorizedSessions observationId).getLast? with
  | some e => (some (observationId, e.1), clk.endedAt)
  | none => (none, clk.recordedAt)

/-- A command that is applied ends the sessions of its release. -/
def endForCommand (s : ReleaseStore) (clk : ReleaseClock) (c : ReleaseCommand) (row : ReleaseRow) :
    ReleaseStore :=
  if c.action = .cancel then
    s.endReleaseSessions row.status (s.authorizedSessions c.observationId) .cancelled .cancelled
      clk.endedAt
  else
    s.endReleaseSessions row.status (s.authorizedSessions c.observationId) .authorityRevoked
      row.status clk.endedAt

/-- A command that is applied: the sessions end, a new one may start, the row and its audit are
written. -/
def applyCommand (s : ReleaseStore) (clk : ReleaseClock) (setting : CommandSetting)
    (c : ReleaseCommand) (row : ReleaseRow) (scope : Scope) (fingerprint : String)
    (policy : Option ReleasePolicy) : Except ReleaseError (ReleaseCommandReceipt × ReleaseStore) := do
  let ending := s.lastEnding clk c.observationId
  let after := row.decided c.action policy ending.2
  let started ← (s.endForCommand clk c row).startSession after policy c scope setting
    clk.authorizedAt
  let audited ← started.auditRelease setting.auditId (c.audit row after fingerprint none
    (policy.map fun _ => setting.sessionId) ending.1 clk.recordedAt)
  pure (audited.1.result,
    { audited.2 with releases := audited.2.releases.modify c.observationId fun _ => after })

/-- `_command_locked`. -/
def commandLocked (s : ReleaseStore) (clk : ReleaseClock) (setting : CommandSetting)
    (c : ReleaseCommand) : Except ReleaseError (ReleaseCommandReceipt × ReleaseStore) := do
  let row ← s.releaseRow c.observationId
  let scope ← s.releaseScope row.terms.targetId
  let fingerprint := ReleaseTexts.commandSha256 c.action c.actor c.expectedControlGeneration
    c.calibratedPolicyRevision
  match s.auditWith c.observationId c.idempotencyKey with
  | some old => do
    refuse (old.requestSha256 ≠ fingerprint) .idempotencyConflict
    pure ({ old.result with replayed := true }, s)
  | none =>
    match s.commandDecision row scope (s.authorizedSessions c.observationId) c setting.catalog
      clk with
    | .ok policy => s.applyCommand clk setting c row scope fingerprint policy
    | .error reason => do
      let (audit, audited) ← s.auditRelease setting.auditId
        (c.audit row row fingerprint (some reason) none none clk.recordedAt)
      pure (audit.result, audited)

/-- `authorize_release` and `control_release`. -/
def releaseCommand (s : ReleaseStore) (clk : ReleaseClock) (setting : CommandSetting)
    (c : ReleaseCommand) : Except ReleaseError (ReleaseCommandReceipt × ReleaseStore) := do
  refuse (c.valid = false) (.store .invalidInput)
  s.commandLocked clk setting c

/-! ## What a command does -/

variable {s s' : ReleaseStore} {clk : ReleaseClock} {setting : CommandSetting} {c : ReleaseCommand}
  {receipt : ReleaseCommandReceipt}

/-- The fingerprint of a command. -/
abbrev fingerprintOf (c : ReleaseCommand) : String :=
  ReleaseTexts.commandSha256 c.action c.actor c.expectedControlGeneration
    c.calibratedPolicyRevision

/-- A command that is rejected with a reason. -/
structure CommandRejected (s : ReleaseStore) (clk : ReleaseClock) (setting : CommandSetting)
    (c : ReleaseCommand) (row : ReleaseRow) (scope : Scope) (reason : ReleaseReason)
    (audit : ReleaseAuditRow) (s' : ReleaseStore) : Prop where
  decision : s.commandDecision row scope (s.authorizedSessions c.observationId) c setting.catalog
    clk = .error reason
  audit : s.auditRelease setting.auditId
    (c.audit row row (fingerprintOf c) (some reason) none none clk.recordedAt) = .ok (audit, s')

/-- A command that is applied, under the policy of the session it starts. -/
structure CommandApplied (s : ReleaseStore) (clk : ReleaseClock) (setting : CommandSetting)
    (c : ReleaseCommand) (row : ReleaseRow) (scope : Scope) (policy : Option ReleasePolicy)
    (receipt : ReleaseCommandReceipt) (s' : ReleaseStore) : Prop where
  decision : s.commandDecision row scope (s.authorizedSessions c.observationId) c setting.catalog
    clk = .ok policy
  written : s.applyCommand clk setting c row scope (fingerprintOf c) policy = .ok (receipt, s')

/-- **What a command does**: it is answered again under its key, or it is rejected, or applied. -/
theorem releaseCommand_cases (h : s.releaseCommand clk setting c = .ok (receipt, s')) :
    c.valid = true ∧ ∃ row scope, s.releases.get c.observationId = some row ∧
      s.releaseScope row.terms.targetId = .ok scope ∧
      ((∃ old, s.auditWith c.observationId c.idempotencyKey = some old ∧
          old.requestSha256 = fingerprintOf c ∧
          receipt = { old.result with replayed := true } ∧ s' = s) ∨
        s.auditWith c.observationId c.idempotencyKey = none ∧
          ((∃ reason audit, CommandRejected s clk setting c row scope reason audit s' ∧
              receipt = audit.result) ∨
            ∃ policy, CommandApplied s clk setting c row scope policy receipt s')) := by
  simp only [releaseCommand, refuse_bind_eq_ok, Bool.not_eq_false] at h
  obtain ⟨hvalid, h⟩ := h
  refine ⟨hvalid, ?_⟩
  simp only [commandLocked, releaseRow, require_bind_eq_ok] at h
  obtain ⟨row, hrow, h⟩ := h
  obtain ⟨scope, hscope, h⟩ := bind_eq_ok.1 h
  refine ⟨row, scope, hrow, hscope, ?_⟩
  cases hold : s.auditWith c.observationId c.idempotencyKey with
  | some old =>
    simp only [hold, refuse_bind_eq_ok, not_not, pure_eq_ok, Prod.mk.injEq] at h
    obtain ⟨hsha, rfl, rfl⟩ := h
    exact .inl ⟨old, rfl, hsha, rfl, rfl⟩
  | none =>
    refine .inr ⟨rfl, ?_⟩
    simp only [hold] at h
    cases hdecision : s.commandDecision row scope (s.authorizedSessions c.observationId) c
        setting.catalog clk with
    | ok policy =>
      rw [hdecision] at h
      exact .inr ⟨policy, hdecision, h⟩
    | error reason =>
      rw [hdecision] at h
      obtain ⟨⟨audit, audited⟩, haudit, h⟩ := bind_eq_ok.1 h
      simp only [pure_eq_ok, Prod.mk.injEq] at h
      obtain ⟨rfl, rfl⟩ := h
      exact .inl ⟨reason, audit, ⟨hdecision, haudit⟩, rfl⟩

/-- A command answers again what is on record under its key. -/
theorem releaseCommand_replay {row : ReleaseRow} {scope : Scope} {old : ReleaseAuditRow}
    (hvalid : c.valid = true) (hrow : s.releases.get c.observationId = some row)
    (hscope : s.releaseScope row.terms.targetId = .ok scope)
    (hold : s.auditWith c.observationId c.idempotencyKey = some old)
    (hsha : old.requestSha256 = fingerprintOf c) :
    s.releaseCommand clk setting c = .ok ({ old.result with replayed := true }, s) := by
  rw [releaseCommand, refuse_bind_of_not (by simp [hvalid]), commandLocked, releaseRow, hrow]
  simp only [require, ok_bind, hscope, hold]
  rw [refuse_bind_of_not (by simp [hsha])]
  rfl

/-- What an accepted command has passed. -/
theorem commandDecision_ok {row : ReleaseRow} {scope : Scope}
    {sessions : List (UUID × ReleaseSessionRow)} {catalog : Option (List ReleasePolicy)}
    {policy : Option ReleasePolicy}
    (h : s.commandDecision row scope sessions c catalog clk = .ok policy) :
    row.controlGeneration = c.expectedControlGeneration ∧ row.status.live = true ∧
      (policy.isSome = true ↔ c.action.grants = true) ∧
      (c.action.grants = true → row.usedSampleCount < row.terms.maxSamples) := by
  obtain ⟨_, hchecks, h⟩ := bind_eq_ok.1 h
  obtain ⟨granted, hgranted, h⟩ := bind_eq_ok.1 h
  simp only [refuse_bind_eq_ok, pure_eq_ok] at h
  obtain ⟨-, rfl⟩ := h
  unfold grantedPolicy at hgranted
  simp only [commandChecks, refuse_bind_eq_ok, not_not, Bool.not_eq_false] at hchecks
  refine ⟨hchecks.1, hchecks.2.1, ?_⟩
  split at hgranted
  · next hgrants =>
    simp only [refuse_bind_eq_ok] at hgranted
    obtain ⟨-, hgranted⟩ := hgranted
    obtain ⟨p, -, hgranted⟩ := bind_eq_ok.1 hgranted
    simp only [refuse_bind_eq_ok, pure_eq_ok, not_le] at hgranted
    obtain ⟨hbudget, rfl⟩ := hgranted
    exact ⟨by simp [hgrants], fun _ => hbudget⟩
  · next hgrants =>
    rw [pure_eq_ok] at hgranted
    subst hgranted
    exact ⟨by simp [hgrants], fun h => absurd h hgrants⟩

omit [ReleaseTexts] in
/-- What an applied command writes. -/
theorem applyCommand_ok {row : ReleaseRow} {scope : Scope} {fingerprint : String}
    {policy : Option ReleasePolicy}
    (h : s.applyCommand clk setting c row scope fingerprint policy = .ok (receipt, s')) :
    ∃ started audit audited,
      (s.endForCommand clk c row).startSession
        (row.decided c.action policy (s.lastEnding clk c.observationId).2) policy c scope setting
        clk.authorizedAt = .ok started ∧
      started.auditRelease setting.auditId
        (c.audit row (row.decided c.action policy (s.lastEnding clk c.observationId).2) fingerprint
          none (policy.map fun _ => setting.sessionId) (s.lastEnding clk c.observationId).1
          clk.recordedAt) = .ok (audit, audited) ∧
      receipt = audit.result ∧
      s' = { audited with
        releases := audited.releases.modify c.observationId fun _ =>
          row.decided c.action policy (s.lastEnding clk c.observationId).2 } := by
  obtain ⟨started, hstarted, h⟩ := bind_eq_ok.1 h
  obtain ⟨⟨audit, audited⟩, haudit, h⟩ := bind_eq_ok.1 h
  simp only [pure_eq_ok, Prod.mk.injEq] at h
  exact ⟨started, audit, audited, hstarted, haudit, h.1.symm, h.2.symm⟩

omit [ReleaseTexts] in
/-- A session that starts is new, and starts before the deadline. -/
theorem startSession_ok {after : ReleaseRow} {policy : Option ReleasePolicy} {scope : Scope}
    {authorizedAt : Time}
    (h : s.startSession after policy c scope setting authorizedAt = .ok s') :
    policy = none ∧ s' = s ∨ ∃ p, policy = some p ∧ authorizedAt < after.terms.deadlineAt ∧
      s.sessions.get setting.sessionId = none ∧ s' = { s with
        sessions := s.sessions.insert setting.sessionId
          (after.session p c scope setting.jobId authorizedAt) } := by
  unfold startSession at h
  split at h
  · exact .inl ⟨rfl, (pure_eq_ok.1 h).symm⟩
  · simp only [refuse_bind_eq_ok, pure_eq_ok, not_le, Option.not_isSome_iff_eq_none] at h
    obtain ⟨hdeadline, hnew, rfl⟩ := h
    exact .inr ⟨_, rfl, hdeadline, hnew, rfl⟩

omit [ReleaseTexts] in
theorem endForCommand_only (s : ReleaseStore) (clk : ReleaseClock) (c : ReleaseCommand)
    (row : ReleaseRow) : SessionsOnly s (s.endForCommand clk c row) := by
  unfold endForCommand
  split <;> exact s.endReleaseSessions_only ..

end ReleaseStore

end OpsPilot
