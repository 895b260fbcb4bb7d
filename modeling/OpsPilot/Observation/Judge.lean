import OpsPilot.Foundations.Scanning
import OpsPilot.Observation.Revocation

/-!
# Judging a sample

The pure functions every decision about an observation sample is made of: which required signals
the readings support (`missingRequiredSignals`), and the one decision procedure `judge` that the
live path and the replay share. `judge` carries a `Fold` from sample to sample: the session state
and the watermarks.

Hashing and JSON parsing of a stored profile text are the parameters of the class `Texts`.
-/

namespace OpsPilot

/-- The library functions on texts and bytes: `hashlib.sha256(…).hexdigest()` of a text and of raw
bytes, and `json.loads` with `none` for a text that does not parse. -/
class Texts where
  sha256 : String → String
  digest : List UInt8 → String
  loads : String → Option Json

/-- A profile revision names the hash of a text: `<profile_id>@<hash[:12]>`. -/
def revisionNames (revision digest : String) : Bool :=
  (rpartition '@' revision.toList).any fun parts => parts.2 = digest.toList.take 12

/-- One entry of a profile's `signals`, and whether it is required (the default). -/
def signalEntry (item : Json) : Option (String × Bool) := do
  let name ← (item.field? "name").bind Json.text?
  if name = "" then none
  else match item.field? "required" with
    | none => some (name, true)
    | some (.bool required) => some (name, required)
    | some _ => none

/-- `required_signals`: the required signal names of a profile text; `none` where the source
raises `HEALTH_PROFILE_UNREADABLE`. -/
def requiredSignals [Texts] (content : String) : Option (List String) := do
  let signals ← ((Texts.loads content).bind (·.field? "signals")).bind Json.items?
  let entries ← signals.mapM signalEntry
  let names := (entries.filter (·.2)).map (·.1)
  if names = [] then none else some names

/-- What a stored profile asks of a sample: no profile, a list of signals, or nothing readable. -/
inductive Required
  | noProfile
  | signals (names : List String)
  | unreadable
  deriving DecidableEq

/-- `_parse_required`: fail closed on integrity as well as on shape. -/
def parseRequired [Texts] : Option (String × ProfileRow) → Required
  | none => .noProfile
  | some (revision, profile) =>
    let digest := Texts.sha256 profile.content
    if digest ≠ profile.contentSha256 ∨ ¬ revisionNames revision digest then .unreadable
    else match requiredSignals profile.content with
      | some names => .signals names
      | none => .unreadable

/-- `timedelta * 0.05`: the nearest microsecond, halves to even. The double next to 0.05 is the
fraction below. -/
def windowTolerance (width : ℤ) : ℤ :=
  let n := width * 3602879701896397
  let d := 72057594037927936
  let q := n / d
  let r := n % d
  if d < 2 * r ∨ 2 * r = d ∧ q % 2 = 1 then q + 1 else q

/-- `READING_RAW_LIMIT`. -/
def readingRawLimit : ℕ := 131072

/-- The validator `consistent` of `SignalReading`: an ok reading has a value, its window does not
end before it starts, and `rawSha256` is the hash of the raw bytes. -/
def SignalReading.consistent [Texts] (reading : SignalReading) : Bool :=
  (reading.status = .ok ↔ reading.value.isSome = true) ∧
    reading.windowStart ≤ reading.windowEnd ∧
    reading.raw.all fun raw =>
      raw.length ≤ readingRawLimit ∧ reading.rawSha256 = some (Texts.digest raw)

/-- `_covers`: an ok reading with a value and at least one sample, over this sample's window. -/
def covers (reading : SignalReading) (windowStart windowEnd : Time) : Bool :=
  let tolerance := windowTolerance (windowEnd - windowStart)
  reading.status = .ok ∧ reading.value.isSome ∧ reading.sampleCount.any (0 < ·) ∧
    |reading.windowStart - windowStart| ≤ tolerance ∧ |reading.windowEnd - windowEnd| ≤ tolerance

/-- `_missing_required_signals`: what the readings fail to support; empty when they support the
sample. -/
def missingRequiredSignals (required : Required) (outcome : SampleOutcome)
    (requiredSignalsPresent : Bool) (readings : List SignalReading)
    (windowStart windowEnd : Time) : List String :=
  match required with
  | .unreadable => ["health_profile_unreadable"]
  | .noProfile => []
  | .signals names =>
    let ok := (readings.filter (covers · windowStart windowEnd)).map (·.signalName)
    let missing := names.filter (· ∉ ok)
    if outcome = .healthy ∧ missing ≠ [] ∨ requiredSignalsPresent ≠ missing.isEmpty then
      if missing = [] then ["required_signals_present"] else missing
    else []

/-- What is carried from sample to sample of a session. -/
structure Fold where
  state : ObservationSessionState := .authorized
  adoptedSequence : ℕ := 0
  adoptedWindowEnd : Option Time := none
  adoptedCount : ℕ := 0
  healthySince : Option Time := none
  deriving DecidableEq

/-- The fold a session row stands at. -/
def SessionRow.fold (row : SessionRow) : Fold where
  state := row.state
  adoptedSequence := row.adoptedSequence
  adoptedWindowEnd := row.adoptedWindowEnd
  adoptedCount := row.adoptedCount
  healthySince := row.healthySince

/-- The conditions a sample is judged under. -/
structure Conditions where
  subjectState : IncidentLifecycle
  controlGeneration : ℕ
  observationGeneration : ℕ
  withinDeadline : Bool
  suspensionBlocks : Bool
  leaseValid : Bool
  stampsMatch : Bool
  readingsConsistent : Bool

/-- What a session was authorized under: no later write changes it. -/
structure Terms where
  healthProfileRevision : Option String
  authorizedAt : Time
  deadlineAt : Time
  maxSamples : ℕ
  sustainedWindowSeconds : ℕ
  authorizedGlobalGeneration : ℕ
  authorizedTargetGeneration : ℕ

/-- The terms of a session row. -/
def SessionRow.terms (row : SessionRow) : Terms where
  healthProfileRevision := row.healthProfileRevision
  authorizedAt := row.authorizedAt
  deadlineAt := row.deadlineAt
  maxSamples := row.maxSamples
  sustainedWindowSeconds := row.sustainedWindowSeconds
  authorizedGlobalGeneration := row.authorizedGlobalGeneration
  authorizedTargetGeneration := row.authorizedTargetGeneration

/-- `_domain_session`: the session bound to the current generations of the incident. -/
def domainSession (sessionId : UUID) (terms : Terms) (fold : Fold) (c : Conditions) :
    ObservationSession where
  sessionId := sessionId
  subjectControlGeneration := c.controlGeneration
  observationGeneration := c.observationGeneration
  authorized := true
  state := fold.state
  healthProfileRevision := terms.healthProfileRevision
  adoptedSequence := fold.adoptedSequence
  adoptedWindowEnd := fold.adoptedWindowEnd

/-- `_health_basis`: data from before the authorization never counts as healthy. -/
def healthBasis (session : ObservationSession) (sample : HealthSample) (accepted : Bool)
    (authorizedAt : Time) : HealthBasis :=
  if accepted = false then .notAdopted
  else if session.healthProfileRevision = none then .noHealthProfile
  else if sample.outcome ≠ .healthy then .outcomeNotHealthy
  else if sample.requiredSignalsPresent = false then .requiredSignalsMissing
  else if sample.window.start < authorizedAt then .windowBeforeAuthorization
  else .confirmed

/-- `_Verdict`. -/
structure Verdict where
  decision : SampleAcceptance
  healthy : Bool
  healthBasis : HealthBasis
  endedReason : Option EndedReason
  fold : Fold

/-- The incident trigger a session fires when it ends for a reason. -/
def EndedReason.transition : EndedReason → Option Transition
  | recoveryConfirmed => some .recoveryConfirmed
  | deadlineExpired | maxSamplesExhausted => some .observationEndedUnconfirmed
  | authorityRevoked | bindingStale | scopeSuspended => none

/-- The trigger a verdict fires on the incident. -/
def Verdict.transition (v : Verdict) : Option Transition := v.endedReason.bind (·.transition)

/-- The lease, the stamps and the readings first, then `evaluateSample`. -/
def sampleDecision (session : ObservationSession) (sample : HealthSample) (c : Conditions) :
    SampleAcceptance :=
  if c.leaseValid = false then historyOnly .leaseRevoked
  else if c.stampsMatch = false then historyOnly .leaseStampMismatch
  else if c.readingsConsistent = false then historyOnly .readingsInconsistent
  else evaluateSample session sample c.subjectState c.withinDeadline c.suspensionBlocks

/-- The start of the healthy streak after an adopted sample: none if it is not healthy, its own
window end after a gap. -/
def streak (session : ObservationSession) (sample : HealthSample) (healthy : Bool)
    (healthySince : Option Time) : Option Time :=
  if healthy = false then none
  else if healthySince = none ∨ session.adoptedWindowEnd.any (· < sample.window.start) then
    some sample.window.end
  else healthySince

/-- Why a rejected sample ends an authorized session: its deadline, a stale binding, or a change
of the scope (`_STALE_BINDINGS`). -/
def SampleReason.ends : SampleReason → Option EndedReason
  | deadlineExpired => some .deadlineExpired
  | controlGenerationStale | observationGenerationStale | subjectStateNotAdoptable =>
    some .bindingStale
  | suspended => some .scopeSuspended
  | _ => none

/-- `_judge`: the one decision procedure of `submitSample` and `foldHistory`. -/
def judge (sessionId : UUID) (terms : Terms) (fold : Fold) (sample : HealthSample)
    (c : Conditions) : Verdict :=
  let session := domainSession sessionId terms fold c
  let decision := sampleDecision session sample c
  let basis := healthBasis session sample decision.accepted terms.authorizedAt
  let healthy := decision.accepted && confirmsHealth session sample && basis == .confirmed
  if decision.accepted then
    let since := streak session sample healthy fold.healthySince
    let count := fold.adoptedCount + 1
    let confirmed := healthy && since.any fun t =>
      seconds terms.sustainedWindowSeconds ≤ sample.window.end - t
    let ended : Option EndedReason :=
      if confirmed then some .recoveryConfirmed
      else if terms.maxSamples ≤ count then some .maxSamplesExhausted else none
    { decision, healthy, healthBasis := basis, endedReason := ended
      fold := {
        state := (ended.map endedState).getD fold.state
        adoptedSequence := sample.sequence
        adoptedWindowEnd := some sample.window.end
        adoptedCount := count
        healthySince := since } }
  else
    let ended := if fold.state = .authorized then decision.reason.ends else none
    { decision, healthy, healthBasis := basis, endedReason := ended
      fold := { fold with state := (ended.map endedState).getD fold.state } }

/-! ## Verdicts -/

section

variable {sessionId : UUID} {terms : Terms} {fold : Fold} {sample : HealthSample} {c : Conditions}

theorem judge_decision : (judge sessionId terms fold sample c).decision =
    sampleDecision (domainSession sessionId terms fold c) sample c := by
  unfold judge
  dsimp only
  split <;> rfl

/-- A sample without a lease is filed, and moves nothing. -/
theorem judge_leaseRevoked (h : c.leaseValid = false) :
    judge sessionId terms fold sample c = {
      decision := historyOnly .leaseRevoked
      healthy := false
      healthBasis := .notAdopted
      endedReason := none
      fold := fold } := by
  simp [judge, sampleDecision, h, historyOnly, healthBasis, SampleReason.ends]

/-- A verdict that ends no session leaves its state alone, and its watermarks if it rejects the
sample. -/
theorem judge_open (h : (judge sessionId terms fold sample c).endedReason = none) :
    (judge sessionId terms fold sample c).fold.state = fold.state ∧
      ((judge sessionId terms fold sample c).decision.accepted = false →
        (judge sessionId terms fold sample c).fold = fold) := by
  unfold judge at h ⊢
  dsimp only at h ⊢
  split at h
  · next haccepted =>
    rw [if_pos haccepted]
    dsimp only at h ⊢
    rw [h]
    exact ⟨rfl, fun hnot => by rw [haccepted] at hnot; cases hnot⟩
  · next hrejected =>
    rw [if_neg hrejected]
    dsimp only at h ⊢
    rw [h]
    exact ⟨rfl, fun _ => rfl⟩

/-- What ends a session: an adopted sample that confirms recovery or is the last one, or a
rejected one the session cannot outlive. -/
theorem judge_ended {reason : EndedReason}
    (h : (judge sessionId terms fold sample c).endedReason = some reason) :
    (judge sessionId terms fold sample c).fold.state = endedState reason ∧
      ((judge sessionId terms fold sample c).decision.accepted = true ∧
          (reason = .recoveryConfirmed ∨ reason = .maxSamplesExhausted ∧
            terms.maxSamples ≤ (judge sessionId terms fold sample c).fold.adoptedCount) ∨
        (judge sessionId terms fold sample c).decision.accepted = false ∧
          (judge sessionId terms fold sample c).decision.reason.ends = some reason) := by
  unfold judge at h ⊢
  dsimp only at h ⊢
  split at h
  · next haccepted =>
    rw [if_pos haccepted]
    dsimp only at h ⊢
    refine ⟨by rw [h]; rfl, .inl ⟨haccepted, ?_⟩⟩
    split at h
    · exact .inl (Option.some.inj h).symm
    · split at h
      · next hmax => exact .inr ⟨(Option.some.inj h).symm, hmax⟩
      · cases h
  · next hrejected =>
    rw [if_neg hrejected]
    dsimp only at h ⊢
    refine ⟨by rw [h]; rfl, .inr ⟨by simpa using hrejected, ?_⟩⟩
    split at h
    · exact h
    · cases h

/-- The lease, the stamps and the readings refuse a sample, or `evaluateSample` decides it. -/
theorem sampleDecision_cases (session : ObservationSession) (sample : HealthSample)
    (c : Conditions) :
    (∃ reason ∈ [SampleReason.leaseRevoked, .leaseStampMismatch, .readingsInconsistent],
      sampleDecision session sample c = historyOnly reason) ∨
    sampleDecision session sample c =
      evaluateSample session sample c.subjectState c.withinDeadline c.suspensionBlocks := by
  unfold sampleDecision
  split_ifs
  · exact .inl ⟨.leaseRevoked, by decide, rfl⟩
  · exact .inl ⟨.leaseStampMismatch, by decide, rfl⟩
  · exact .inl ⟨.readingsInconsistent, by decide, rfl⟩
  · exact .inr rfl

/-- The fold after an adopted sample, in the state a verdict leaves. -/
def Fold.adopt (fold : Fold) (sample : HealthSample) (since : Option Time)
    (state : ObservationSessionState) : Fold where
  state := state
  adoptedSequence := sample.sequence
  adoptedWindowEnd := some sample.window.end
  adoptedCount := fold.adoptedCount + 1
  healthySince := since

/-- What holds of a sample a verdict adopts: its lease, its stamps and its readings, the bindings
of its session, and the watermarks it moves. -/
structure Adopted (terms : Terms) (fold : Fold) (sample : HealthSample) (c : Conditions)
    (verdict : Verdict) : Prop where
  lease : c.leaseValid = true
  stamps : c.stampsMatch = true
  active : activeIncidentLifecycle c.subjectState = true
  scope : c.suspensionBlocks = false
  deadline : c.withinDeadline = true
  state : fold.state = .authorized
  control : sample.subjectControlGeneration = c.controlGeneration
  observation : sample.observationGeneration = c.observationGeneration
  sequence : fold.adoptedSequence < sample.sequence
  window : ∀ e ∈ fold.adoptedWindowEnd, e ≤ sample.window.end
  moved : ∃ since, verdict.fold = fold.adopt sample since verdict.fold.state
  room : verdict.endedReason = none → fold.adoptedCount + 1 < terms.maxSamples
  confirmed : verdict.transition = some .recoveryConfirmed → verdict.healthy = true

theorem judge_adopted (h : (judge sessionId terms fold sample c).decision.accepted = true) :
    Adopted terms fold sample c (judge sessionId terms fold sample c) := by
  have haccepted := h
  rw [judge_decision] at haccepted
  have hlease : c.leaseValid = true := by
    by_contra hnot
    rw [sampleDecision, if_pos (Bool.not_eq_true _ ▸ hnot)] at haccepted
    cases haccepted
  have hstamps : c.stampsMatch = true := by
    by_contra hnot
    rw [sampleDecision, if_neg (by simp [hlease]), if_pos (Bool.not_eq_true _ ▸ hnot)] at haccepted
    cases haccepted
  obtain ⟨r, -, hfiled⟩ | heval :=
    sampleDecision_cases (domainSession sessionId terms fold c) sample c
  · rw [hfiled] at haccepted
    cases haccepted
  rw [heval] at haccepted
  obtain ⟨hactive, hscope, hdeadline, ⟨hstate, -⟩, -, hcontrol, hobservation, -, hsequence,
    hwindow⟩ := evaluateSample_accepted_iff.1 haccepted
  have hdecision : (sampleDecision (domainSession sessionId terms fold c) sample c).accepted =
      true := by rw [← judge_decision, h]
  refine ⟨hlease, hstamps, hactive, hscope, hdeadline, hstate, hcontrol, hobservation, hsequence,
    hwindow, ?_, ?_, ?_⟩
  · simp only [judge, hdecision, if_true]
    exact ⟨_, rfl⟩
  · simp only [judge, hdecision, if_true]
    intro hended
    split at hended
    · cases hended
    · split at hended
      · cases hended
      · next hmax => exact not_le.1 hmax
  · simp only [judge, hdecision, if_true, Verdict.transition]
    intro htransition
    split at htransition
    · next hconfirmed => exact (Bool.and_eq_true _ _ ▸ hconfirmed).1
    · split at htransition <;> cases htransition

/-- A verdict confirms health for a healthy sample of a session with a health profile only. -/
theorem judge_healthy (h : (judge sessionId terms fold sample c).healthy = true) :
    sample.outcome = .healthy ∧ sample.requiredSignalsPresent = true ∧
      terms.healthProfileRevision.isSome = true := by
  have hconfirms : confirmsHealth (domainSession sessionId terms fold c) sample = true := by
    unfold judge at h
    dsimp only at h
    split at h <;> simp only [Bool.and_eq_true] at h <;> exact h.1.2
  simp only [confirmsHealth, Bool.and_eq_true, beq_iff_eq] at hconfirms
  exact ⟨hconfirms.1.2, hconfirms.2, hconfirms.1.1⟩

/-- Recovery is confirmed by an adopted sample only. -/
theorem judge_recovery
    (h : (judge sessionId terms fold sample c).transition = some .recoveryConfirmed) :
    (judge sessionId terms fold sample c).decision.accepted = true := by
  obtain ⟨reason, hreason, ht⟩ := Option.bind_eq_some_iff.1 h
  rcases (judge_ended hreason).2 with ⟨haccepted, -⟩ | ⟨-, hends⟩
  · exact haccepted
  · cases reason with
    | recoveryConfirmed =>
      generalize (judge sessionId terms fold sample c).decision.reason = r at hends
      cases r <;> cases hends
    | _ => cases ht

/-- A rejected sample moves no watermark; the session it ends is one it was authorized in. -/
theorem judge_rejected (h : (judge sessionId terms fold sample c).decision.accepted = false) :
    (judge sessionId terms fold sample c).endedReason =
        (if fold.state = .authorized then
          (judge sessionId terms fold sample c).decision.reason.ends else none) ∧
      (judge sessionId terms fold sample c).fold = { fold with
        state := ((judge sessionId terms fold sample c).endedReason.map endedState).getD
          fold.state } := by
  have hdecision : (sampleDecision (domainSession sessionId terms fold c) sample c).accepted =
      false := by rw [← judge_decision, h]
  simp [judge, hdecision]

/-- A verdict moves an active incident only. -/
theorem judge_transition {t : Transition}
    (h : (judge sessionId terms fold sample c).transition = some t) :
    activeIncidentLifecycle c.subjectState = true := by
  obtain ⟨reason, hreason, ht⟩ := Option.bind_eq_some_iff.1 h
  have hended := (judge_ended hreason).2
  rw [judge_decision] at hended
  rcases sampleDecision_cases (domainSession sessionId terms fold c) sample c with
    ⟨r, hr, hfiled⟩ | heval
  · rw [hfiled] at hended
    rcases hended with ⟨haccepted, -⟩ | ⟨-, hends⟩
    · cases haccepted
    · simp only [List.mem_cons, List.not_mem_nil, or_false] at hr
      rcases hr with rfl | rfl | rfl <;> cases hends
  · rw [heval] at hended
    rcases hended with ⟨haccepted, -⟩ | ⟨-, hends⟩
    · exact (evaluateSample_accepted haccepted).1
    · have hexpired : (evaluateSample (domainSession sessionId terms fold c) sample c.subjectState
          c.withinDeadline c.suspensionBlocks).reason = .deadlineExpired := by
        generalize (evaluateSample _ sample c.subjectState c.withinDeadline
          c.suspensionBlocks).reason = r at hends
        cases r <;> cases hends <;> first | rfl | cases ht
      exact evaluateSample_deadlineExpired hexpired

end

/-! ## A profile -/

namespace Scenario

/-- A stored profile: the service `api` in the namespace `prod` must report `errors`. -/
def profile : String :=
  "\x7b\"signals\":[\x7b\"name\":\"errors\"\x7d],\"subject\":\x7b\"kubernetes_namespace\":\"prod\",\"service\":\"api\"\x7d\x7d"

/-- The revision of `profile`, which carries the start of its hash. -/
def profileRevision : String := "api@cead0f528047"

/-- Hash and value of `profile`. -/
scoped instance texts : Texts where
  sha256 text :=
    if text = profile then "cead0f5280477f6cb55859e71fd06ebc4108755ea4c53c68534f753461d80d4a"
    else ""
  digest _ := ""
  loads text :=
    if text = profile then some (.obj [
      ("signals", .arr [.obj [("name", .str "errors")]]),
      ("subject", .obj [("kubernetes_namespace", .str "prod"), ("service", .str "api")])])
    else none

example : requiredSignals profile = some ["errors"] := by decide

end Scenario

end OpsPilot
